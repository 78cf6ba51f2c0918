import Banking.Withdrawal
import Banking.Plan

/-! # Payment orders

A payment is intent, one approval and an outcome: its immutable terms, and the order that carries
them through its states. A payment between claims is settled on the ledger by the order's own
events, reserved at the approval and settled or released at its end; one to an external address
hands its money to a withdrawal and relays nothing.

A command answers and leaves an order behind, in the order the source writes its fields. -/

namespace Banking

/-! ## Texts and widths -/

/-- A control character. -/
def isControl (c : Char) : Bool := c.toNat < 0x20 || (0x7F ≤ c.toNat && c.toNat ≤ 0x9F)

/-- The longest reason, in bytes. -/
def MAX_REASON_BYTES : Nat := 500

/-- Why a payment is made: a short printable text that says something. -/
structure PaymentReason where
  text : String
  stated : Text.trim text.toList ≠ []
  short : text.utf8ByteSize ≤ MAX_REASON_BYTES
  printable : text.toList.any isControl = false
deriving DecidableEq

/-- Read a reason. -/
def PaymentReason.new (raw : String) : Except DomainError PaymentReason :=
  if hs : Text.trim raw.toList = [] then .error (.validation "a payment must state a reason")
  else if hl : ¬ raw.utf8ByteSize ≤ MAX_REASON_BYTES then
    .error (.validation "reason exceeds 500 bytes")
  else if hc : raw.toList.any isControl = true then
    .error (.validation "reason may not contain control characters")
  else .ok ⟨raw, hs, not_not.mp hl, Bool.eq_false_iff.mpr hc⟩

/-- An id by its own 128 bits. -/
def Uuid.Minted (u : Uuid) : Prop := ∃ n, n < 2 ^ 128 ∧ u = .raw n

/-- A text a string can hold. -/
def Holdable (s : String) : Prop := s.utf8ByteSize < 2 ^ 63

instance (s : String) : Decidable (Holdable s) := inferInstanceAs (Decidable (_ < _))

/-- A party whose id is one of 128 bits, or a text. -/
def Party.Sized : Party → Prop
  | .user u => u.Minted
  | .service s => Holdable s.slug
  | .treasury => True

/-! ## Terms -/

/-- Where a payment lands: a claim of the platform's, or an address on a rail. -/
inductive PaymentDestination
  | internal (party : Party)
  | external (network : Network) (address : WalletAddress)
deriving DecidableEq, Repr

/-- Which plane a payment crosses. -/
inductive PaymentTier
  | internal
  | service
  | external
deriving DecidableEq, Repr

/-- A tier's stored text. -/
def PaymentTier.asStr : PaymentTier → String
  | .internal => "internal"
  | .service => "service"
  | .external => "external"

/-- Whether a payment of the tier is settled by a transfer of its own. -/
def PaymentTier.settlesOnTheLedger : PaymentTier → Bool
  | .internal | .service => true
  | .external => false

/-- The tier a destination implies. -/
def PaymentDestination.tier : PaymentDestination → PaymentTier
  | .external .. => .external
  | .internal (.service _) | .internal .treasury => .service
  | .internal (.user _) => .internal

/-- The party paid; none for an address. -/
def PaymentDestination.party : PaymentDestination → Option Party
  | .internal party => some party
  | .external .. => none

/-- A destination whose ids and texts have their widths. -/
def PaymentDestination.Sized : PaymentDestination → Prop
  | .internal party => party.Sized
  | .external _ address => Holdable address.text

/-- **The terms of a payment**, immutable: two different ends, never into the treasury, a positive
amount, an address of the rail it names. -/
structure PaymentTerms where
  source : Party
  target : PaymentDestination
  amount : Nat
  reason : PaymentReason
  apart : target.party ≠ some source
  positive : amount ≠ 0
  not_treasury : target.party ≠ some .treasury
  on_rail : ∀ network address, target = .external network address → address.network = network
  source_sized : source.Sized
  target_sized : target.Sized
  amount_sized : amount < 2 ^ 128

/-- The tier of a payment, its destination's. -/
def PaymentTerms.tier (t : PaymentTerms) : PaymentTier := t.target.tier

/-! ## States and effects -/

/-- Where a payment order stands. -/
inductive PaymentState
  | pending
  | approved
  | executed
  | executionFailed
  | rejected
  | expired
  | cancelled
deriving DecidableEq, Repr

/-- A state's stored text. -/
def PaymentState.asStr : PaymentState → String
  | .pending => "pending"
  | .approved => "approved"
  | .executed => "executed"
  | .executionFailed => "execution_failed"
  | .rejected => "rejected"
  | .expired => "expired"
  | .cancelled => "cancelled"

/-- What an executed order produced: a withdrawal, or one posted transfer. -/
inductive PaymentEffect
  | withdrawal (id : Uuid)
  | transfer
deriving DecidableEq, Repr

/-- Whether an effect is one of the tier's. -/
def PaymentEffect.matches : PaymentEffect → PaymentTier → Bool
  | .withdrawal _, tier => !tier.settlesOnTheLedger
  | .transfer, tier => tier.settlesOnTheLedger

/-- Whether the relay acts on an event. -/
def PaymentEvent.relays : PaymentEvent → Bool
  | .reserved .. | .settled .. | .released .. => true
  | .opened | .approvalRecorded | .approved | .executed | .executionFailed | .rejected | .expired
  | .cancelled => false

/-! ## The order -/

/-- The greatest and the least 64-bit number. -/
def I64_MAX : Int := 2 ^ 63 - 1

/-- Addition that stops at the ends of the 64-bit range. -/
def saturatingAdd (a b : Int) : Int := max (-2 ^ 63) (min (a + b) I64_MAX)

/-- **A payment order.** `pending` are the events raised and not drained yet. -/
structure PaymentOrder where
  id : Uuid
  terms : PaymentTerms
  state : PaymentState
  createdAt : Int
  expiresAt : Int
  decidedAt : Option Int
  executed : Option PaymentEffect
  failureReason : Option String
  version : Nat
  pending : List PaymentEvent

/-- Raise an event. -/
def PaymentOrder.raise (o : PaymentOrder) (event : PaymentEvent) : PaymentOrder :=
  { o with version := o.version + 1, pending := o.pending ++ [event] }

/-- Record the intent, to stay open for `ttl` seconds. -/
def PaymentOrder.openFor (id : Uuid) (terms : PaymentTerms) (createdAt ttl : Int) : PaymentOrder :=
  { id, terms, state := .pending, createdAt, expiresAt := saturatingAdd createdAt ttl
    decidedAt := none, executed := none, failureReason := none, version := 1
    pending := [.opened] }

/-- A command's answer, and the order after it. -/
abbrev PaymentAnswer := Except DomainError Unit × PaymentOrder

/-- A verdict is for a pending order only. -/
def PaymentOrder.requirePending (o : PaymentOrder) (target : PaymentState) :
    Except DomainError Unit :=
  if o.state = .pending then .ok ()
  else .error (.conflict ("payment is " ++ o.state.asStr ++ ", not " ++ target.asStr))

/-- The requirement is satisfied. An order settled on the ledger reserves its source here. -/
def PaymentOrder.approve (o : PaymentOrder) (time : Int) : PaymentAnswer :=
  if o.state = .approved then (.ok (), o)
  else
    match o.requirePending .approved with
    | .error e => (.error e, o)
    | .ok () =>
      let decided : PaymentOrder := { o with state := .approved, decidedAt := some time }
      let approved := (decided.raise .approvalRecorded).raise .approved
      if o.terms.tier.settlesOnTheLedger then
        (.ok (), approved.raise (.reserved o.terms.source o.terms.amount))
      else (.ok (), approved)

/-- The body of the three verdicts on a pending order: whether the order entered the verdict. -/
def PaymentOrder.enterVerdict (o : PaymentOrder) (target : PaymentState) (time : Int) :
    Except DomainError Bool × PaymentOrder :=
  if o.state = target then (.ok false, o)
  else
    match o.requirePending target with
    | .error e => (.error e, o)
    | .ok () => (.ok true, { o with state := target, decidedAt := some time })

/-- A verdict, and its event when the order entered it. -/
def PaymentOrder.verdict (o : PaymentOrder) (target : PaymentState) (time : Int)
    (event : PaymentEvent) : PaymentAnswer :=
  match o.enterVerdict target time with
  | (.error e, o) => (.error e, o)
  | (.ok false, o) => (.ok (), o)
  | (.ok true, o) => (.ok (), o.raise event)

/-- The approver refused. -/
def PaymentOrder.reject (o : PaymentOrder) (time : Int) : PaymentAnswer :=
  o.verdict .rejected time .rejected

/-- The window closed; never before it has. -/
def PaymentOrder.expire (o : PaymentOrder) (time : Int) : PaymentAnswer :=
  if o.state = .pending ∧ time < o.expiresAt then
    (.error (.conflict "payment has not expired yet"), o)
  else o.verdict .expired time .expired

/-- The initiator withdrew it. -/
def PaymentOrder.cancel (o : PaymentOrder) (time : Int) : PaymentAnswer :=
  o.verdict .cancelled time .cancelled

/-- The effect exists. An order settled on the ledger raises its settlement first. -/
def PaymentOrder.markExecuted (o : PaymentOrder) (effect : PaymentEffect) : PaymentAnswer :=
  if ¬ effect.matches o.terms.tier then
    (.error (.conflict ("a " ++ o.terms.tier.asStr ++ " payment cannot be executed as this effect")),
      o)
  else if o.state = .executed then
    if o.executed = some effect then (.ok (), o)
    else (.error (.conflict "payment already executed a different effect"), o)
  else if o.state ≠ .approved then
    (.error (.conflict ("payment is " ++ o.state.asStr ++ ", not executable")), o)
  else
    let done : PaymentOrder := { o with state := .executed, executed := some effect }
    match effect, o.terms.target.party with
    | .transfer, some target =>
      (.ok (), (done.raise (.settled o.terms.source target o.terms.amount)).raise .executed)
    | _, _ => (.ok (), done.raise .executed)

/-- The approved payment could not be executed. An order settled on the ledger releases what it
reserved. -/
def PaymentOrder.markExecutionFailed (o : PaymentOrder) (reason : String) : PaymentAnswer :=
  if o.state = .executionFailed then (.ok (), o)
  else if o.state ≠ .approved then
    (.error (.conflict ("payment is " ++ o.state.asStr ++ ", not executable")), o)
  else
    let failed : PaymentOrder :=
      { o with state := .executionFailed, failureReason := some reason }
    let released :=
      if o.terms.tier.settlesOnTheLedger then
        failed.raise (.released o.terms.source o.terms.amount)
      else failed
    (.ok (), released.raise .executionFailed)

/-- Take the events raised. -/
def PaymentOrder.drainEvents (o : PaymentOrder) : List PaymentEvent × PaymentOrder :=
  (o.pending, { o with pending := [] })

/-! ## Runs -/

/-- A command to an order. -/
inductive PaymentCommand
  | approve (time : Int)
  | reject (time : Int)
  | cancel (time : Int)
  | expire (time : Int)
  | execute (effect : PaymentEffect)
  | fail (reason : String)

/-- Carry a command out. -/
def PaymentCommand.run : PaymentCommand → PaymentOrder → PaymentAnswer
  | .approve time, o => o.approve time
  | .reject time, o => o.reject time
  | .cancel time, o => o.cancel time
  | .expire time, o => o.expire time
  | .execute effect, o => o.markExecuted effect
  | .fail reason, o => o.markExecutionFailed reason

/-- The states no command leaves. -/
def PaymentState.isTerminal : PaymentState → Bool
  | .pending | .approved => false
  | .executed | .executionFailed | .rejected | .expired | .cancelled => true

/-- The orders over `terms` and the events drained from them, over every sequence of commands
(answered or refused) and drains. -/
inductive PaymentRun (terms : PaymentTerms) : PaymentOrder → List PaymentEvent → Prop
  | opened (id : Uuid) (createdAt ttl : Int) :
      PaymentRun terms (PaymentOrder.openFor id terms createdAt ttl) []
  | command {o : PaymentOrder} {drained : List PaymentEvent} (h : PaymentRun terms o drained)
      (c : PaymentCommand) : PaymentRun terms (c.run o).2 drained
  | drain {o : PaymentOrder} {drained : List PaymentEvent} (h : PaymentRun terms o drained) :
      PaymentRun terms o.drainEvents.2 (drained ++ o.drainEvents.1)

/-! ## What a command can do -/

/-- What a command raises on its way: nothing, or the events of one step between two states. -/
inductive PaymentStep (o : PaymentOrder) : PaymentOrder → List PaymentEvent → Prop
  | same : PaymentStep o o []
  | approve {o' : PaymentOrder} {events : List PaymentEvent} (hs : o.state = .pending)
      (hs' : o'.state = .approved)
      (he : events.filter (·.relays) =
        if o.terms.tier.settlesOnTheLedger then [.reserved o.terms.source o.terms.amount] else []) :
      PaymentStep o o' events
  | close {o' : PaymentOrder} {events : List PaymentEvent} (hs : o.state = .pending)
      (hs' : o'.state = .rejected ∨ o'.state = .expired ∨ o'.state = .cancelled)
      (he : events.filter (·.relays) = []) : PaymentStep o o' events
  | execute {o' : PaymentOrder} {events : List PaymentEvent} (hs : o.state = .approved)
      (hs' : o'.state = .executed)
      (he : events.filter (·.relays) =
        match o.terms.target.party with
        | some target => [.settled o.terms.source target o.terms.amount]
        | none => []) : PaymentStep o o' events
  | fail {o' : PaymentOrder} {events : List PaymentEvent} (hs : o.state = .approved)
      (hs' : o'.state = .executionFailed)
      (he : events.filter (·.relays) =
        if o.terms.tier.settlesOnTheLedger then [.released o.terms.source o.terms.amount] else []) :
      PaymentStep o o' events

/-- What an answered command left: the terms it found, the events before it, and a step. -/
structure PaymentDone (o o' : PaymentOrder) : Prop where
  terms : o'.terms = o.terms
  step : ∃ events, o'.pending = o.pending ++ events ∧ PaymentStep o o' events

/-- A payment is settled on the ledger exactly when it is paid to a party. -/
theorem PaymentDestination.settles_iff (d : PaymentDestination) :
    d.tier.settlesOnTheLedger = d.party.isSome := by
  cases d with
  | internal party => cases party <;> rfl
  | external => rfl

@[simp] theorem PaymentOrder.raise_state (o : PaymentOrder) (e : PaymentEvent) :
    (o.raise e).state = o.state := rfl

@[simp] theorem PaymentOrder.raise_terms (o : PaymentOrder) (e : PaymentEvent) :
    (o.raise e).terms = o.terms := rfl

@[simp] theorem PaymentOrder.raise_pending (o : PaymentOrder) (e : PaymentEvent) :
    (o.raise e).pending = o.pending ++ [e] := rfl

/-- The relay plans something for exactly the events it acts on. -/
theorem PaymentEvent.relays_iff_planned (event : PaymentEvent) (aggregateId reference : Uuid) :
    event.relays = true ↔ planPayment aggregateId reference event ≠ [] := by
  cases event <;> simp [PaymentEvent.relays, planPayment]

theorem PaymentDone.refl (o : PaymentOrder) : PaymentDone o o := ⟨rfl, [], by simp, .same⟩

theorem PaymentOrder.approve_done (o : PaymentOrder) (time : Int) :
    PaymentDone o (o.approve time).2 := by
  unfold PaymentOrder.approve PaymentOrder.requirePending
  by_cases hp : o.state = .pending
  · by_cases ht : o.terms.tier.settlesOnTheLedger
    · refine ⟨?_, [.approvalRecorded, .approved, .reserved o.terms.source o.terms.amount], ?_,
        .approve hp ?_ ?_⟩ <;> simp [hp, ht, PaymentEvent.relays]
    · refine ⟨?_, [.approvalRecorded, .approved], ?_, .approve hp ?_ ?_⟩ <;>
        simp [hp, ht, PaymentEvent.relays]
  · split_ifs <;> exact .refl o

/-- A verdict is one of the three ends of a pending order. -/
theorem PaymentOrder.verdict_done (o : PaymentOrder) (time : Int) {target : PaymentState}
    {event : PaymentEvent} (htarget : target = .rejected ∨ target = .expired ∨ target = .cancelled)
    (hevent : event.relays = false) : PaymentDone o (o.verdict target time event).2 := by
  unfold PaymentOrder.verdict PaymentOrder.enterVerdict PaymentOrder.requirePending
  by_cases hs : o.state = target
  · simpa [hs] using PaymentDone.refl o
  · by_cases hp : o.state = .pending
    · refine ⟨?_, [event], ?_, .close hp ?_ ?_⟩ <;> simp_all
    · simpa [hs, hp] using PaymentDone.refl o

theorem PaymentOrder.expire_done (o : PaymentOrder) (time : Int) :
    PaymentDone o (o.expire time).2 := by
  unfold PaymentOrder.expire
  split_ifs
  · exact .refl o
  · exact o.verdict_done time (.inr (.inl rfl)) rfl

theorem PaymentOrder.markExecuted_done (o : PaymentOrder) (effect : PaymentEffect) :
    PaymentDone o (o.markExecuted effect).2 := by
  unfold PaymentOrder.markExecuted
  by_cases hm : effect.matches o.terms.tier
  · by_cases ha : o.state = .approved
    · have htier := o.terms.target.settles_iff
      cases hp : o.terms.target.party with
      | none =>
        refine ⟨?_, [.executed], ?_, .execute ha ?_ ?_⟩ <;>
          cases effect <;> simp [hm, ha, hp, PaymentEvent.relays]
      | some target =>
        -- an effect of the tier is the transfer here, so the settlement is raised
        obtain rfl : effect = .transfer := by
          cases effect with
          | transfer => rfl
          | withdrawal id =>
            simp [PaymentEffect.matches, PaymentTerms.tier, htier, hp] at hm
        refine ⟨?_, [.settled o.terms.source target o.terms.amount, .executed], ?_,
          .execute ha ?_ ?_⟩ <;> simp [hm, ha, hp, PaymentEvent.relays]
    · simp only [hm]
      split_ifs <;> exact .refl o
  · simpa [hm] using PaymentDone.refl o

theorem PaymentOrder.markExecutionFailed_done (o : PaymentOrder) (reason : String) :
    PaymentDone o (o.markExecutionFailed reason).2 := by
  unfold PaymentOrder.markExecutionFailed
  by_cases ha : o.state = .approved
  · by_cases ht : o.terms.tier.settlesOnTheLedger
    · refine ⟨?_, [.released o.terms.source o.terms.amount, .executionFailed], ?_,
        .fail ha ?_ ?_⟩ <;> simp [ha, ht, PaymentEvent.relays]
    · refine ⟨?_, [.executionFailed], ?_, .fail ha ?_ ?_⟩ <;>
        simp [ha, ht, PaymentEvent.relays]
  · split_ifs <;> exact .refl o

/-- Every command, answered or refused, is one step over the same terms. -/
theorem PaymentCommand.run_done (c : PaymentCommand) (o : PaymentOrder) :
    PaymentDone o (c.run o).2 := by
  cases c with
  | approve time => exact o.approve_done time
  | reject time => exact o.verdict_done time (.inl rfl) rfl
  | cancel time => exact o.verdict_done time (.inr (.inr rfl)) rfl
  | expire time => exact o.expire_done time
  | execute effect => exact o.markExecuted_done effect
  | fail reason => exact o.markExecutionFailed_done reason

/-! ## The relayed events of a run -/

/-- The events the relay acts on. -/
def relayedPayment (events : List PaymentEvent) : List PaymentEvent := events.filter (·.relays)

@[simp] theorem relayedPayment_append (a b : List PaymentEvent) :
    relayedPayment (a ++ b) = relayedPayment a ++ relayedPayment b := List.filter_append a b

/-- The relayed events an order has raised by the time it stands in a state. -/
def PaymentTerms.relayed (t : PaymentTerms) : PaymentState → List PaymentEvent
  | .pending | .rejected | .expired | .cancelled => []
  | .approved =>
    if t.tier.settlesOnTheLedger then [.reserved t.source t.amount] else []
  | .executed =>
    match t.target.party with
    | some target => [.reserved t.source t.amount, .settled t.source target t.amount]
    | none => []
  | .executionFailed =>
    if t.tier.settlesOnTheLedger then
      [.reserved t.source t.amount, .released t.source t.amount]
    else []

/-- A settlement is raised in `executed` only. -/
theorem PaymentTerms.settled_mem_relayed {t : PaymentTerms} {s : PaymentState}
    {source target : Party} {amount : Nat}
    (h : .settled source target amount ∈ t.relayed s) : s = .executed := by
  cases s <;> simp [PaymentTerms.relayed] at h ⊢

/-- A release is raised in `executionFailed` only. -/
theorem PaymentTerms.released_mem_relayed {t : PaymentTerms} {s : PaymentState} {source : Party}
    {amount : Nat} (h : .released source amount ∈ t.relayed s) : s = .executionFailed := by
  cases hp : t.target.party <;> cases s <;> simp [PaymentTerms.relayed, hp] at h ⊢

/-- A step raises exactly the relayed events that separate its two states. -/
theorem PaymentStep.relayed {o o' : PaymentOrder} {events : List PaymentEvent}
    (h : PaymentStep o o' events) :
    o.terms.relayed o'.state = o.terms.relayed o.state ++ relayedPayment events := by
  have hsettles := o.terms.target.settles_iff
  cases h with
  | same => simp [relayedPayment]
  | approve hs hs' he => simp [PaymentTerms.relayed, relayedPayment, hs, hs', he]
  | close hs hs' he =>
    rcases hs' with hs' | hs' | hs' <;> simp [PaymentTerms.relayed, relayedPayment, hs, hs', he]
  | execute hs hs' he =>
    cases hp : o.terms.target.party with
    | none =>
      simp [PaymentTerms.relayed, relayedPayment, hs, hs', he, hp, PaymentTerms.tier, hsettles]
    | some target =>
      simp [PaymentTerms.relayed, relayedPayment, hs, hs', he, hp, PaymentTerms.tier, hsettles]
  | fail hs hs' he =>
    by_cases ht : o.terms.tier.settlesOnTheLedger <;>
      simp [PaymentTerms.relayed, relayedPayment, hs, hs', he, ht]

/-- A terminal order absorbs every command. -/
theorem PaymentCommand.run_terminal (c : PaymentCommand) {o : PaymentOrder}
    (ht : o.state.isTerminal = true) : (c.run o).2 = o := by
  obtain ⟨-, events, -, hstep⟩ := c.run_done o
  generalize (c.run o).2 = o' at hstep
  cases hstep with
  | same => rfl
  | approve hs | close hs | execute hs | fail hs => simp [hs, PaymentState.isTerminal] at ht

/-- A refused verdict changes nothing. -/
theorem PaymentOrder.verdict_error {o : PaymentOrder} {target : PaymentState} {time : Int}
    {event : PaymentEvent} {e : DomainError} (h : (o.verdict target time event).1 = .error e) :
    (o.verdict target time event).2 = o := by
  unfold PaymentOrder.verdict PaymentOrder.enterVerdict PaymentOrder.requirePending at h ⊢
  by_cases hs : o.state = target
  · simp [hs] at h
  · by_cases hp : o.state = .pending <;> simp_all

/-- A command that errs changes nothing. -/
theorem PaymentCommand.run_error {c : PaymentCommand} {o : PaymentOrder} {e : DomainError}
    (h : (c.run o).1 = .error e) : (c.run o).2 = o := by
  cases c with
  | approve time =>
    simp only [PaymentCommand.run, PaymentOrder.approve, PaymentOrder.requirePending] at h ⊢
    split_ifs at h ⊢ <;> simp_all
  | reject time => exact PaymentOrder.verdict_error h
  | cancel time => exact PaymentOrder.verdict_error h
  | expire time =>
    simp only [PaymentCommand.run, PaymentOrder.expire] at h ⊢
    split_ifs at h ⊢
    · rfl
    · exact PaymentOrder.verdict_error h
  | execute effect =>
    simp only [PaymentCommand.run, PaymentOrder.markExecuted] at h ⊢
    split_ifs at h ⊢
    any_goals rfl
    -- an approved order is executed, whichever events it raises
    split at h <;> simp at h
  | fail reason =>
    simp only [PaymentCommand.run, PaymentOrder.markExecutionFailed] at h ⊢
    split_ifs at h ⊢
    rfl

/-- The terms never change, and the state says which relayed events have been raised. -/
theorem PaymentRun.relayed {terms : PaymentTerms} {o : PaymentOrder} {drained : List PaymentEvent}
    (h : PaymentRun terms o drained) :
    o.terms = terms ∧ relayedPayment (drained ++ o.pending) = terms.relayed o.state := by
  induction h with
  | opened id createdAt ttl => exact ⟨rfl, rfl⟩
  | @command o drained h c ih =>
    obtain ⟨ht, events, hpending, hstep⟩ := c.run_done o
    refine ⟨ht.trans ih.1, ?_⟩
    have hr := hstep.relayed
    rw [ih.1, ← ih.2] at hr
    rw [hr, hpending]
    simp
  | drain h ih => simpa [PaymentOrder.drainEvents] using ih

/-- What the relay is given of a payment order, over every run of its commands. -/
theorem payment_run_safe {terms : PaymentTerms} {o : PaymentOrder} {drained : List PaymentEvent}
    (h : PaymentRun terms o drained) :
    (terms.tier.settlesOnTheLedger = true → ∃ target, terms.target.party = some target ∧
      (relayedPayment drained <+:
          [.reserved terms.source terms.amount, .settled terms.source target terms.amount] ∨
        relayedPayment drained <+:
          [.reserved terms.source terms.amount, .released terms.source terms.amount])) ∧
    (terms.tier.settlesOnTheLedger = false → relayedPayment drained = []) ∧
    relayedPayment (drained ++ o.pending) = terms.relayed o.state ∧
    (∀ source target amount, .settled source target amount ∈ drained ++ o.pending →
      o.state = .executed) ∧
    (∀ source amount, .released source amount ∈ drained ++ o.pending →
      o.state = .executionFailed) ∧
    (∀ c : PaymentCommand, o.state.isTerminal = true → (c.run o).2 = o) ∧
    (∀ (c : PaymentCommand) (e : DomainError), (c.run o).1 = .error e → (c.run o).2 = o) := by
  obtain ⟨-, hrelayed⟩ := h.relayed
  have hsettles := terms.target.settles_iff
  -- what was drained comes before what is still pending
  have hsofar : relayedPayment drained <+: terms.relayed o.state :=
    ⟨relayedPayment o.pending, by rw [← hrelayed, relayedPayment_append]⟩
  have hmem : ∀ e ∈ drained ++ o.pending, e.relays = true → e ∈ terms.relayed o.state := by
    intro e he hr
    rw [← hrelayed]
    exact List.mem_filter.mpr ⟨he, hr⟩
  refine ⟨fun ht => ?_, fun ht => ?_, hrelayed, fun source target amount hs => ?_,
    fun source amount hs => ?_, fun c => c.run_terminal, fun c e => PaymentCommand.run_error⟩
  · obtain ⟨target, hp⟩ := Option.isSome_iff_exists.mp (hsettles.symm.trans ht)
    refine ⟨target, hp, ?_⟩
    have hone : [PaymentEvent.reserved terms.source terms.amount] <+:
        [.reserved terms.source terms.amount, .settled terms.source target terms.amount] :=
      ⟨_, rfl⟩
    cases hs : o.state <;> simp only [hs, PaymentTerms.relayed, hp, ht, if_true] at hsofar
    case approved => exact .inl (hsofar.trans hone)
    case executed => exact .inl hsofar
    case executionFailed => exact .inr hsofar
    all_goals exact .inl (hsofar.trans List.nil_prefix)
  · have hp : terms.target.party = none :=
      Option.not_isSome_iff_eq_none.mp (by rw [← hsettles]; exact Bool.eq_false_iff.mp ht)
    have hnil : terms.relayed o.state = [] := by
      cases o.state <;> simp [PaymentTerms.relayed, ht, hp]
    rw [hnil] at hsofar
    exact List.prefix_nil.mp hsofar
  · exact PaymentTerms.settled_mem_relayed (hmem _ hs rfl)
  · exact PaymentTerms.released_mem_relayed (hmem _ hs rfl)

/-- A payment of five units from one user to another. -/
def samplePayment : PaymentTerms where
  source := .user (.raw 1)
  target := .internal (.user (.raw 2))
  amount := 5
  reason := ⟨"rent", by decide, by decide, by decide⟩
  apart := by decide
  positive := by decide
  not_treasury := by decide
  on_rail := fun _ _ h => by cases h
  source_sized := ⟨1, by decide, rfl⟩
  target_sized := ⟨2, by decide, rfl⟩
  amount_sized := by decide

/-- Approved and drained, executed twice and drained, then failed to no effect. -/
theorem payment_run_safe_sample :
    relayedPayment [.opened, .approvalRecorded, .approved,
        .reserved (.user (.raw 1)) 5, .settled (.user (.raw 1)) (.user (.raw 2)) 5, .executed] <+:
      [.reserved (.user (.raw 1)) 5, .settled (.user (.raw 1)) (.user (.raw 2)) 5] := by
  have hopened : PaymentRun samplePayment _ _ := .opened (.raw 9) 100 60
  have hrun := (((((hopened.command (.approve 101)).drain.command (.execute .transfer)).command
    (.execute .transfer)).drain).command (.fail "late"))
  obtain ⟨target, htarget, h | h⟩ := (payment_run_safe hrun).1 rfl
  · cases htarget
    exact h
  · exact absurd h (by decide)

end Banking
