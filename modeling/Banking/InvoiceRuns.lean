import Mathlib.Data.List.Nodup
import Banking.Bank

/-! # Runs of an invoice

An invoice under its commands in any order: payments from any source, the stamps the relay makes of
an attempt, cancellation and expiry. A run keeps the events raised and the attempts stamped posted;
its invariant ties both to the stored row. -/

namespace Banking

/-! ## Reading an invoice -/

/-- Where an invoice stands to a reader. `processing` is a payment the ledger has not taken yet; it
is never stored. -/
inductive InvoiceView
  | opened | processing | paid | cancelled | expired
deriving DecidableEq, Repr

/-- The state as a reader at `now` must see it: an open invoice past its expiry is expired, and a
payment not posted yet is processing. -/
def Invoice.stateAt (i : Invoice) (now : Int) : InvoiceView :=
  if i.isDue now then .expired
  else
    match i.state, i.payment with
    | .paid, some p => if p.posted then .paid else .processing
    | .paid, none => .paid
    | .opened, _ => .opened
    | .cancelled, _ => .cancelled
    | .expired, _ => .expired

/-- The payment once the ledger took it. -/
def Invoice.postedPayment (i : Invoice) : Option InvoicePayment := i.payment.filter (·.posted)

/-- An invoice is due only while it is open. -/
theorem Invoice.isDue_iff {i : Invoice} {now : Int} :
    i.isDue now = true ↔ i.state = .opened ∧ i.terms.expiresAt ≤ now := by
  simp [Invoice.isDue]

/-- Read as paid is having a posted payment, whenever one reads. -/
theorem Invoice.stateAt_paid_iff {i : Invoice} {now : Int} :
    i.stateAt now = .paid ↔ i.postedPayment.isSome := by
  have hpaid := i.paid_iff
  unfold Invoice.stateAt Invoice.postedPayment
  cases hs : i.state <;> cases hp : i.payment <;> simp_all [Invoice.isDue]
  -- A due invoice reads expired, and an open one has no payment.
  all_goals split <;> simp

/-- Read as processing is having a payment the ledger has not taken. -/
theorem Invoice.stateAt_processing_iff {i : Invoice} {now : Int} :
    i.stateAt now = .processing ↔ ∃ p, i.payment = some p ∧ p.posted = false := by
  have hpaid := i.paid_iff
  unfold Invoice.stateAt
  cases hs : i.state <;> cases hp : i.payment <;> simp_all [Invoice.isDue]
  all_goals split <;> simp

/-- Read as open is being open and not due. -/
theorem Invoice.stateAt_opened_iff {i : Invoice} {now : Int} :
    i.stateAt now = .opened ↔ i.state = .opened ∧ i.isDue now = false := by
  unfold Invoice.stateAt
  cases hdue : i.isDue now <;> cases hs : i.state <;> cases hp : i.payment <;> simp
  split <;> simp

/-! ## Commands -/

/-- What an invoice is asked: by a payer, by the relay about the attempt of a version, by its
issuer, by the reaper. -/
inductive InvoiceCommand
  | pay (payer : UserId) (subject : String) (source : Compartment) (paidAt : Int)
  | posted (version : Nat)
  | failed (version : Nat) (reason : String)
  | cancel (now : Int)
  | expire (now : Int)
deriving DecidableEq, Repr

/-- The relay's stamps match the attempt their event carries, and only while it waits for the
ledger; else they change nothing, as a cancel of a cancelled invoice and an expiry before its time
do. -/
def Invoice.exec (i : Invoice) :
    InvoiceCommand → Except InvoiceRefusal (Invoice × List InvoiceEvent)
  | .pay payer subject source paidAt => i.pay payer subject source paidAt
  | .posted version =>
    .ok (if i.attemptState version = .pending then i.postPayment else i, [])
  | .failed version reason =>
    .ok (if i.attemptState version = .pending then (i.failPayment reason).getD (i, []) else (i, []))
  | .cancel now => i.cancel now
  | .expire now => .ok ((i.expire now).getD (i, []))

/-- An invoice with the events it raised and the versions of the payments stamped posted. -/
structure InvoiceHistory where
  invoice : Invoice
  events : List InvoiceEvent
  posted : List Nat

/-- The attempt a command stamps posted, if any. -/
def Invoice.stamped (i : Invoice) : InvoiceCommand → List Nat
  | .posted version => if i.attemptState version = .pending then [version] else []
  | .pay .. | .failed .. | .cancel _ | .expire _ => []

/-- One command. A refusal rolls the transaction back. -/
def InvoiceHistory.step (h : InvoiceHistory) (c : InvoiceCommand) : InvoiceHistory :=
  match h.invoice.exec c with
  | .error _ => h
  | .ok (i, events) =>
    { invoice := i, events := events ++ h.events, posted := h.invoice.stamped c ++ h.posted }

/-- A run of commands, first to last. -/
def InvoiceHistory.run (h : InvoiceHistory) (cs : List InvoiceCommand) : InvoiceHistory :=
  cs.foldl InvoiceHistory.step h

/-- The version an event took. -/
def InvoiceEvent.version : InvoiceEvent → Nat
  | .created v | .cancelled v | .expired v | .paymentFailed v _ => v
  | .paid _ _ _ _ _ v => v

/-- The attempt a payment starts. -/
def InvoiceEvent.attempt : InvoiceEvent → Option Nat
  | .paid _ _ _ _ _ v => some v
  | .created _ | .cancelled _ | .expired _ | .paymentFailed _ _ => none

/-- The attempt a failure ends: the version before its own. -/
def InvoiceEvent.failedAttempt : InvoiceEvent → Option Nat
  | .paymentFailed v _ => some (v - 1)
  | .created _ | .cancelled _ | .expired _ | .paid .. => none

/-- The attempts of a run. -/
def InvoiceHistory.attempts (h : InvoiceHistory) : List Nat :=
  h.events.filterMap InvoiceEvent.attempt

/-- The attempts that failed. -/
def InvoiceHistory.failed (h : InvoiceHistory) : List Nat :=
  h.events.filterMap InvoiceEvent.failedAttempt

/-- The attempts that neither posted nor failed. -/
def InvoiceHistory.inFlight (h : InvoiceHistory) : List Nat :=
  h.attempts.filter fun v => v ∉ h.posted ∧ v ∉ h.failed

/-- The ids of the ledger transfers the relay plans for a run's events. -/
def InvoiceHistory.transferIds (h : InvoiceHistory) (reference : Uuid) : List Uuid :=
  h.events.filterMap fun e => (planInvoice h.invoice.id reference e).map (·.transferId)

/-- The cancellation or expiry that closed the invoice. -/
def InvoiceEvent.closing : InvoiceEvent → Bool
  | .cancelled _ | .expired _ => true
  | .created _ | .paid .. | .paymentFailed _ _ => false

/-! ## What a command does -/

/-- What one command can do, with the events it raises and the attempts it stamps posted: start an
attempt, stamp it, fail it, close the open invoice, or nothing. -/
inductive Invoice.Moves (i : Invoice) : Invoice → List InvoiceEvent → List Nat → Prop
  | pay {p : InvoicePayment} {i' : Invoice} (hopen : i.state = .opened) (hpaid : i'.state = .paid)
      (hversion : i'.version = i.version + 1) (hsame : i'.id = i.id ∧ i'.terms = i.terms)
      (hpayment : i'.payment = some p) (hwait : p.posted = false) :
      Moves i i'
        [.paid i.terms.scope i.terms.toLabel i.terms.amount p.payer p.source (i.version + 1)] []
  | posted {p : InvoicePayment} {i' : Invoice} (hp : i.payment = some p) (hwait : p.posted = false)
      (hpaid : i'.state = i.state) (hversion : i'.version = i.version)
      (hsame : i'.id = i.id ∧ i'.terms = i.terms)
      (hpayment : i'.payment = some { p with posted := true }) :
      Moves i i' [] [i.version]
  | failed {p : InvoicePayment} {i' : Invoice} {reason : String} (hp : i.payment = some p)
      (hwait : p.posted = false) (hopen : i'.state = .opened)
      (hversion : i'.version = i.version + 1)
      (hsame : i'.id = i.id ∧ i'.terms = i.terms) (hpayment : i'.payment = none) :
      Moves i i' [.paymentFailed (i.version + 1) reason] []
  | close {i' : Invoice} {event : InvoiceEvent} (hopen : i.state = .opened)
      (hclosed : i'.state = .cancelled ∧ event = .cancelled (i.version + 1) ∨
        i'.state = .expired ∧ event = .expired (i.version + 1))
      (hversion : i'.version = i.version + 1) (hsame : i'.id = i.id ∧ i'.terms = i.terms)
      (hpayment : i'.payment = none) :
      Moves i i' [event] []
  | stay : Moves i i [] []

/-- An attempt waits for the ledger exactly when it is the current one, and unposted. -/
theorem Invoice.attemptState_pending {i : Invoice} {version : Nat} :
    i.attemptState version = .pending ↔
      version = i.version ∧ ∃ p, i.payment = some p ∧ p.posted = false := by
  unfold Invoice.attemptState
  cases hp : i.payment with
  | none => simp
  | some p =>
    by_cases hv : i.version = version
    · subst hv
      cases hposted : p.posted <;> simp [hposted]
    · have hne : ¬ version = i.version := fun h => hv h.symm
      simp [hv, hne]

/-- An open invoice has no payment. -/
theorem Invoice.payment_of_opened {i : Invoice} (h : i.state = .opened) : i.payment = none := by
  simpa [h] using i.paid_iff

/-- An invoice with a payment is stored as paid. -/
theorem Invoice.paid_of_payment {i : Invoice} {p : InvoicePayment} (h : i.payment = some p) :
    i.state = .paid :=
  i.paid_iff.mpr (by simp [h])

/-- Closing an open invoice. -/
theorem Invoice.close_moves {i : Invoice} (h : i.state = .opened) (expired : Bool) :
    i.Moves (i.close h expired).1 (i.close h expired).2 [] := by
  have hnone : (i.close h expired).1.payment = none := i.payment_of_opened h
  cases expired with
  | false => exact .close h (.inl ⟨rfl, rfl⟩) rfl ⟨rfl, rfl⟩ hnone
  | true => exact .close h (.inr ⟨rfl, rfl⟩) rfl ⟨rfl, rfl⟩ hnone

/-- The relay's stamp of a taken attempt. -/
theorem Invoice.postPayment_moves {i : Invoice} {version : Nat}
    (h : i.attemptState version = .pending) : i.Moves i.postPayment [] [version] := by
  obtain ⟨rfl, p, hp, hwait⟩ := Invoice.attemptState_pending.mp h
  unfold Invoice.postPayment
  split
  · next q hq =>
    obtain rfl : q = p := by simpa [hp] using hq.symm
    exact .posted hp hwait rfl rfl ⟨rfl, rfl⟩ rfl
  · next hnone => simp [hp] at hnone

/-- The relay's failure of a refused attempt. -/
theorem Invoice.failPayment_moves {i : Invoice} {version : Nat} (reason : String)
    (h : i.attemptState version = .pending) :
    i.Moves ((i.failPayment reason).getD (i, [])).1 ((i.failPayment reason).getD (i, [])).2 [] := by
  obtain ⟨rfl, p, hp, hwait⟩ := Invoice.attemptState_pending.mp h
  have heq : i.failPayment reason = some
      ({ i with state := .opened, version := i.version + 1, payment := none,
                paid_iff := by simp, source_scope := by simp },
        [.paymentFailed (i.version + 1) reason]) := by
    simp [Invoice.failPayment, hp, hwait]
  rw [heq]
  exact .failed hp hwait rfl rfl ⟨rfl, rfl⟩ rfl

/-- **What a command does**, when it does not refuse. -/
theorem Invoice.exec_moves {i i' : Invoice} {c : InvoiceCommand} {events : List InvoiceEvent}
    (h : i.exec c = .ok (i', events)) : i.Moves i' events (i.stamped c) := by
  cases c with
  | pay payer subject source paidAt =>
    simp only [Invoice.exec, Invoice.pay] at h
    split at h
    · cases h
    · split at h
      · cases h
      · next hopen =>
        split at h
        · cases h
          rw [not_or, not_not] at hopen
          exact .pay (p := ⟨payer, subject, source, paidAt, false⟩) hopen.1 rfl rfl ⟨rfl, rfl⟩
            rfl rfl
        · cases h
  | posted version =>
    simp only [Invoice.exec, Except.ok.injEq, Prod.mk.injEq] at h
    obtain ⟨rfl, rfl⟩ := h
    by_cases hwait : i.attemptState version = .pending
    · rw [if_pos hwait, Invoice.stamped, if_pos hwait]
      exact Invoice.postPayment_moves hwait
    · rw [if_neg hwait, Invoice.stamped, if_neg hwait]
      exact .stay
  | failed version reason =>
    simp only [Invoice.exec, Except.ok.injEq] at h
    split at h
    · next hwait =>
      have hmoves := Invoice.failPayment_moves reason hwait
      rwa [h] at hmoves
    · cases h
      exact .stay
  | cancel now =>
    simp only [Invoice.exec, Invoice.cancel] at h
    split at h
    · cases h
      exact .stay
    · split at h
      · next hopen =>
        split at h
        · cases h
        · cases h
          exact Invoice.close_moves hopen false
      · split at h <;> cases h
  | expire now =>
    simp only [Invoice.exec, Invoice.expire, Except.ok.injEq] at h
    split at h
    · next hopen =>
      split at h
      · cases h
        exact Invoice.close_moves hopen true
      · cases h
        exact .stay
    · cases h
      exact .stay

/-! ## The invariant of a run -/

/-- What the history says of the stored invoice, and the invoice of its history. -/
structure InvoiceHistory.Sound (h : InvoiceHistory) : Prop where
  /-- No event is ahead of the invoice. -/
  events_le : ∀ e ∈ h.events, e.version ≤ h.invoice.version
  /-- No two attempts share a version. -/
  attempts_nodup : h.attempts.Nodup
  /-- The posted attempt is the current one, and stands as posted. -/
  posted_eq : h.posted = if h.invoice.postedPayment.isSome then [h.invoice.version] else []
  /-- A paid invoice is at the version of its attempt, which has not failed. -/
  current : h.invoice.state = .paid →
    h.invoice.version ∈ h.attempts ∧ h.invoice.version ∉ h.failed
  /-- Every other attempt has failed. -/
  others : ∀ v ∈ h.attempts, v ∈ h.failed ∨ h.invoice.state = .paid ∧ v = h.invoice.version
  /-- An invoice is closed by an event. -/
  closed : h.invoice.state = .cancelled ∨ h.invoice.state = .expired ↔
    ∃ e ∈ h.events, e.closing = true

variable {h : InvoiceHistory}

/-- An attempt of a run is at most at its version. -/
theorem InvoiceHistory.Sound.attempt_le (hs : h.Sound) {v : Nat} (hv : v ∈ h.attempts) :
    v ≤ h.invoice.version := by
  obtain ⟨e, he, hattempt⟩ := List.mem_filterMap.mp hv
  have hle := hs.events_le e he
  cases e <;> simp_all [InvoiceEvent.attempt, InvoiceEvent.version]

/-- A failed attempt of a run is behind its version, an event of its own having followed. -/
theorem InvoiceHistory.Sound.failed_le (hs : h.Sound) {v : Nat} (hv : v ∈ h.failed) :
    v + 1 ≤ h.invoice.version ∨ v = 0 := by
  obtain ⟨e, he, hfailed⟩ := List.mem_filterMap.mp hv
  have hle := hs.events_le e he
  cases e with
  | paymentFailed n _ =>
    simp only [InvoiceEvent.failedAttempt, Option.some.injEq] at hfailed
    simp only [InvoiceEvent.version] at hle
    omega
  | created _ | cancelled _ | expired _ | paid =>
    simp [InvoiceEvent.failedAttempt] at hfailed

/-- A new invoice's history. -/
theorem InvoiceHistory.Sound.issue {id : Uuid} {terms : InvoiceTerms} {now : Int} {i : Invoice}
    {events : List InvoiceEvent} (hissue : Invoice.issue id terms now = .ok (i, events)) :
    InvoiceHistory.Sound ⟨i, events, []⟩ ∧ i.id = id ∧ i.terms = terms := by
  unfold Invoice.issue at hissue
  split_ifs at hissue
  cases hissue
  refine ⟨⟨?_, List.nodup_nil, ?_, ?_, ?_, ?_⟩, rfl, rfl⟩ <;>
    simp [InvoiceHistory.attempts, InvoiceEvent.attempt, InvoiceEvent.version,
      Invoice.postedPayment, InvoiceEvent.closing]

/-- A step leaves the history as it was, or adds what its command did. -/
theorem InvoiceHistory.step_cases (h : InvoiceHistory) (c : InvoiceCommand) :
    h.step c = h ∨ ∃ (i : Invoice) (events : List InvoiceEvent) (stamps : List Nat),
      h.invoice.Moves i events stamps ∧ h.step c = ⟨i, events ++ h.events, stamps ++ h.posted⟩ := by
  unfold InvoiceHistory.step
  cases hexec : h.invoice.exec c with
  | error e => exact .inl rfl
  | ok r => exact .inr ⟨r.1, r.2, _, Invoice.exec_moves hexec, rfl⟩

/-- An open invoice has no posted attempt. -/
theorem InvoiceHistory.Sound.posted_nil (hs : h.Sound) (hnone : h.invoice.postedPayment = none) :
    h.posted = [] := by
  simpa [hnone] using hs.posted_eq

/-- An open invoice has not been closed. -/
theorem InvoiceHistory.Sound.not_closed (hs : h.Sound)
    (hstate : h.invoice.state = .opened ∨ h.invoice.state = .paid) :
    ∀ e ∈ h.events, e.closing = false := by
  intro e he
  by_contra hclosing
  have hclosed := hs.closed.mpr ⟨e, he, by simpa using hclosing⟩
  rcases hstate with hstate | hstate <;> simp [hstate] at hclosed

/-- Every attempt of an open invoice has failed. -/
theorem InvoiceHistory.Sound.failed_of_opened (hs : h.Sound) (hopen : h.invoice.state = .opened)
    {v : Nat} (hv : v ∈ h.attempts) : v ∈ h.failed := by
  rcases hs.others v hv with hfailed | ⟨hpaid, _⟩
  · exact hfailed
  · simp [hopen] at hpaid

/-- Starting an attempt keeps the invariant. -/
theorem InvoiceHistory.Sound.pay (hs : h.Sound) {i : Invoice} {p : InvoicePayment}
    {event : InvoiceEvent} (hopen : h.invoice.state = .opened) (hpaid : i.state = .paid)
    (hversion : i.version = h.invoice.version + 1) (hpayment : i.payment = some p)
    (hwait : p.posted = false) (hevent : event.attempt = some (h.invoice.version + 1))
    (hat : event.version = h.invoice.version + 1 ∧ event.failedAttempt = none ∧
      event.closing = false) :
    InvoiceHistory.Sound ⟨i, event :: h.events, h.posted⟩ := by
  have hposted := hs.posted_nil (by simp [Invoice.postedPayment, h.invoice.payment_of_opened hopen])
  have hattempts : InvoiceHistory.attempts ⟨i, event :: h.events, h.posted⟩ =
      (h.invoice.version + 1) :: h.attempts := by simp [InvoiceHistory.attempts, hevent]
  have hfailed : InvoiceHistory.failed ⟨i, event :: h.events, h.posted⟩ = h.failed := by
    simp [InvoiceHistory.failed, hat.2.1]
  refine ⟨?_, ?_, ?_, ?_, ?_, ?_⟩
  · rintro e (_ | ⟨_, he⟩)
    · exact (hat.1.trans hversion.symm).le
    · exact (hs.events_le e he).trans (by simp [hversion])
  · rw [hattempts, List.nodup_cons]
    exact ⟨fun hmem => absurd (hs.attempt_le hmem) (by omega), hs.attempts_nodup⟩
  · simp [hposted, Invoice.postedPayment, hpayment, hwait]
  · rw [hattempts, hfailed, hversion]
    exact fun _ => ⟨List.mem_cons_self, fun hmem => by have := hs.failed_le hmem; omega⟩
  · rw [hattempts, hfailed]
    rintro v (_ | ⟨_, hv⟩)
    · exact .inr ⟨hpaid, hversion.symm⟩
    · exact .inl (hs.failed_of_opened hopen hv)
  · have hnot := hs.not_closed (.inl hopen)
    simp only [hpaid, List.exists_mem_cons_iff, hat.2.2]
    simpa using hnot

/-- Stamping the attempt keeps the invariant. -/
theorem InvoiceHistory.Sound.stamp (hs : h.Sound) {i : Invoice} {p : InvoicePayment}
    (hp : h.invoice.payment = some p) (hwait : p.posted = false)
    (hstate : i.state = h.invoice.state) (hversion : i.version = h.invoice.version)
    (hpayment : i.payment = some { p with posted := true }) :
    InvoiceHistory.Sound ⟨i, h.events, h.invoice.version :: h.posted⟩ := by
  have hposted := hs.posted_nil (by simp [Invoice.postedPayment, hp, hwait])
  refine ⟨?_, hs.attempts_nodup, ?_, ?_, ?_, ?_⟩
  · simpa [hversion] using hs.events_le
  · simp [hposted, Invoice.postedPayment, hpayment, hversion]
  · rw [hstate, hversion]
    exact hs.current
  · rw [hstate, hversion]
    exact hs.others
  · rw [hstate]
    exact hs.closed

/-- An event that starts no attempt and leaves none standing keeps the invariant: a failure ends the
current one, a closing finds none. -/
theorem InvoiceHistory.Sound.finish (hs : h.Sound) {i : Invoice} {event : InvoiceEvent}
    (hpayment : i.payment = none) (hversion : i.version = h.invoice.version + 1)
    (hposted : h.invoice.postedPayment = none) (hevent : event.attempt = none)
    (hat : event.version = h.invoice.version + 1)
    (hends : ∀ v ∈ h.attempts, v ∈ h.failed ∨ event.failedAttempt = some v)
    (hclosed : i.state = .cancelled ∨ i.state = .expired ↔
      event.closing = true ∨ ∃ e ∈ h.events, e.closing = true) :
    InvoiceHistory.Sound ⟨i, event :: h.events, h.posted⟩ := by
  have hattempts : InvoiceHistory.attempts ⟨i, event :: h.events, h.posted⟩ = h.attempts := by
    simp [InvoiceHistory.attempts, hevent]
  have hnot : i.state ≠ .paid := fun hpaid => by simpa [hpayment] using i.paid_iff.mp hpaid
  refine ⟨?_, ?_, ?_, fun hpaid => absurd hpaid hnot, ?_, ?_⟩
  · rintro e (_ | ⟨_, he⟩)
    · exact (hat.trans hversion.symm).le
    · exact (hs.events_le e he).trans (by simp [hversion])
  · rw [hattempts]
    exact hs.attempts_nodup
  · simp [hs.posted_nil hposted, Invoice.postedPayment, hpayment]
  · rw [hattempts]
    intro v hv
    refine .inl ?_
    rcases hends v hv with hfailed | hfailed
    · obtain ⟨e, he, hattempt⟩ := List.mem_filterMap.mp hfailed
      exact List.mem_filterMap.mpr ⟨e, List.mem_cons_of_mem _ he, hattempt⟩
    · exact List.mem_filterMap.mpr ⟨event, List.mem_cons_self, hfailed⟩
  · simpa only [List.exists_mem_cons_iff] using hclosed

/-- **One command keeps the invariant.** -/
theorem InvoiceHistory.Sound.step (hs : h.Sound) (c : InvoiceCommand) : (h.step c).Sound := by
  obtain heq | ⟨i, events, stamps, hmoves, heq⟩ := h.step_cases c
  · rwa [heq]
  rw [heq]
  cases hmoves with
  | stay => exact hs
  | pay hopen hpaid hversion hsame hpayment hwait =>
    exact hs.pay hopen hpaid hversion hpayment hwait rfl ⟨rfl, rfl, rfl⟩
  | posted hp hwait hstate hversion hsame hpayment =>
    exact hs.stamp hp hwait hstate hversion hpayment
  | failed hp hwait hopen hversion hsame hpayment =>
    have hpaid := h.invoice.paid_of_payment hp
    refine hs.finish hpayment hversion (by simp [Invoice.postedPayment, hp, hwait]) rfl rfl ?_ ?_
    · intro v hv
      rcases hs.others v hv with hfailed | ⟨_, rfl⟩
      · exact .inl hfailed
      · exact .inr rfl
    · have hnot := hs.not_closed (.inr hpaid)
      simpa [hopen, InvoiceEvent.closing] using hnot
  | close hopen hclosed hversion hsame hpayment =>
    have hnone := h.invoice.payment_of_opened hopen
    have hposted : h.invoice.postedPayment = none := by simp [Invoice.postedPayment, hnone]
    have hends := fun v (hv : v ∈ h.attempts) => hs.failed_of_opened hopen hv
    rcases hclosed with ⟨hstate, rfl⟩ | ⟨hstate, rfl⟩
    · exact hs.finish hpayment hversion hposted rfl rfl (fun v hv => .inl (hends v hv))
        (by simp [hstate, InvoiceEvent.closing])
    · exact hs.finish hpayment hversion hposted rfl rfl (fun v hv => .inl (hends v hv))
        (by simp [hstate, InvoiceEvent.closing])

/-- **A run keeps the invariant.** -/
theorem InvoiceHistory.Sound.run (hs : h.Sound) (cs : List InvoiceCommand) : (h.run cs).Sound := by
  induction cs generalizing h with
  | nil => exact hs
  | cons c cs ih => exact ih (hs.step c)

/-- Commands keep the invoice's id and terms. -/
theorem InvoiceHistory.run_same (h : InvoiceHistory) (cs : List InvoiceCommand) :
    (h.run cs).invoice.id = h.invoice.id ∧ (h.run cs).invoice.terms = h.invoice.terms := by
  induction cs generalizing h with
  | nil => exact ⟨rfl, rfl⟩
  | cons c cs ih =>
    have hstep : (h.step c).invoice.id = h.invoice.id ∧
        (h.step c).invoice.terms = h.invoice.terms := by
      obtain heq | ⟨i, events, stamps, hmoves, heq⟩ := h.step_cases c
      · rw [heq]; exact ⟨rfl, rfl⟩
      · rw [heq]
        cases hmoves with
        | stay => exact ⟨rfl, rfl⟩
        | pay | posted | failed | close => assumption
    obtain ⟨hid, hterms⟩ := ih (h.step c)
    exact ⟨hid.trans hstep.1, hterms.trans hstep.2⟩

/-! ## Attempts -/

/-- The attempt in flight is the one that waits for the ledger. -/
theorem InvoiceHistory.Sound.mem_inFlight (hs : h.Sound) {v : Nat} :
    v ∈ h.inFlight ↔ h.invoice.attemptState v = .pending := by
  simp only [InvoiceHistory.inFlight, List.mem_filter, decide_eq_true_eq,
    Invoice.attemptState_pending]
  constructor
  · rintro ⟨hv, hposted, hfailed⟩
    obtain ⟨hpaid, rfl⟩ := (hs.others v hv).resolve_left hfailed
    obtain ⟨p, hp⟩ := Option.isSome_iff_exists.mp (h.invoice.paid_iff.mp hpaid)
    refine ⟨rfl, p, hp, ?_⟩
    by_contra htaken
    rw [hs.posted_eq] at hposted
    simp [Invoice.postedPayment, hp, htaken] at hposted
  · rintro ⟨rfl, p, hp, hwait⟩
    obtain ⟨hattempt, hfailed⟩ := hs.current (h.invoice.paid_of_payment hp)
    have hposted := hs.posted_nil (by simp [Invoice.postedPayment, hp, hwait])
    exact ⟨hattempt, by simp [hposted], hfailed⟩

/-- At most one attempt is in flight. -/
theorem InvoiceHistory.Sound.inFlight_length (hs : h.Sound) : h.inFlight.length ≤ 1 := by
  have hnodup : h.inFlight.Nodup := hs.attempts_nodup.filter _
  have hall : ∀ v ∈ h.inFlight, v = h.invoice.version := fun v hv =>
    (Invoice.attemptState_pending.mp (hs.mem_inFlight.mp hv)).1
  rw [List.eq_replicate_of_mem hall] at hnodup ⊢
  simpa [List.nodup_replicate] using hnodup

/-- An invoice reads processing exactly while an attempt is in flight. -/
theorem InvoiceHistory.Sound.processing_iff (hs : h.Sound) (now : Int) :
    h.invoice.stateAt now = .processing ↔ h.inFlight ≠ [] := by
  rw [Invoice.stateAt_processing_iff]
  constructor
  · rintro ⟨p, hp, hwait⟩
    have hpending := Invoice.attemptState_pending.mpr ⟨rfl, p, hp, hwait⟩
    exact List.ne_nil_of_mem (hs.mem_inFlight.mpr hpending)
  · intro hne
    obtain ⟨v, hv⟩ := List.exists_mem_of_ne_nil _ hne
    exact (Invoice.attemptState_pending.mp (hs.mem_inFlight.mp hv)).2

/-- The relay plans one transfer for each attempt, under an id of its version. -/
theorem InvoiceHistory.transferIds_eq (h : InvoiceHistory) (reference : Uuid) :
    h.transferIds reference = h.attempts.map (invoicePayTid h.invoice.id) := by
  rw [InvoiceHistory.transferIds, InvoiceHistory.attempts, List.map_filterMap]
  refine List.filterMap_congr fun e _ => ?_
  cases e <;> rfl

/-- Attempts of one invoice are told apart by their transfer. -/
theorem invoicePayTid_injective (id : Uuid) : Function.Injective (invoicePayTid id) := by
  intro m n heq
  simp only [invoicePayTid, tid_inj, String.append_right_inj, true_and] at heq
  exact natText_injective heq

/-- **Whoever may pay an invoice that reads open can**, from `main` or the invoice's own scope. -/
theorem Invoice.pay_of_opened {i : Invoice} {payer : UserId} {subject : String}
    {source : Compartment} {now : Int} (hopen : i.stateAt now = .opened)
    (hsubject : i.payableBy subject) (hsource : source = .main ∨ source = .scope i.terms.scope) :
    ∃ r, i.pay payer subject source now = .ok r := by
  obtain ⟨hstate, hdue⟩ := Invoice.stateAt_opened_iff.mp hopen
  simp [Invoice.pay, hsubject, hstate, hdue, hsource]

/-- A failed attempt leaves the invoice open: past its expiry it reads expired. -/
theorem InvoiceHistory.Sound.failed_reopens (hs : h.Sound) {v : Nat} (hv : v ∈ h.inFlight)
    (reason : String) (now : Int) :
    (h.step (.failed v reason)).inFlight = [] ∧
      (h.step (.failed v reason)).invoice.stateAt now =
        if h.invoice.terms.expiresAt ≤ now then .expired else .opened := by
  have hwait := hs.mem_inFlight.mp hv
  have hsound := hs.step (.failed v reason)
  obtain ⟨rfl, p, hp, hposted⟩ := Invoice.attemptState_pending.mp hwait
  have hopen : (h.step (.failed h.invoice.version reason)).invoice.state = .opened ∧
      (h.step (.failed h.invoice.version reason)).invoice.terms = h.invoice.terms := by
    simp [InvoiceHistory.step, Invoice.exec, hwait, Invoice.failPayment, hp, hposted]
  refine ⟨?_, ?_⟩
  · by_contra hne
    obtain ⟨q, hq, _⟩ := Invoice.stateAt_processing_iff.mp ((hsound.processing_iff now).mpr hne)
    simpa [hopen.1] using Invoice.paid_of_payment hq
  · simp [Invoice.stateAt, Invoice.isDue, hopen]

/-! ## The lifecycle -/

/-- **An invoice is paid once.** Over every run of commands on an issued invoice: at most one
attempt is posted, and the invoice reads paid exactly when one was; at most one is in flight, the
invoice reading processing exactly then; each attempt has one transfer, under an id of its own;
failing the one in flight leaves the invoice open until its expiry, and whoever may pay can pay an
open one; and a refused command changes nothing. -/
theorem invoice_paid_once {id reference : Uuid} {terms : InvoiceTerms} {now : Int} {i : Invoice}
    {events : List InvoiceEvent} (hissue : Invoice.issue id terms now = .ok (i, events))
    (cs : List InvoiceCommand) {h : InvoiceHistory}
    (hrun : h = InvoiceHistory.run ⟨i, events, []⟩ cs) :
    (h.posted.length ≤ 1 ∧ ∀ t, h.invoice.stateAt t = .paid ↔ h.posted ≠ []) ∧
    (h.inFlight.length ≤ 1 ∧ ∀ t, h.invoice.stateAt t = .processing ↔ h.inFlight ≠ []) ∧
    ((h.transferIds reference).Nodup ∧
      h.transferIds reference = h.attempts.map (invoicePayTid id)) ∧
    (∀ v ∈ h.inFlight, ∀ reason t, (h.step (.failed v reason)).inFlight = [] ∧
      (h.step (.failed v reason)).invoice.stateAt t =
        if terms.expiresAt ≤ t then .expired else .opened) ∧
    (∀ payer subject source t, h.invoice.stateAt t = .opened → h.invoice.payableBy subject →
      source = .main ∨ source = .scope terms.scope →
      ∃ r, h.invoice.pay payer subject source t = .ok r) ∧
    ∀ c e, h.invoice.exec c = .error e → h.step c = h := by
  obtain ⟨hsound, hid, hterms⟩ := InvoiceHistory.Sound.issue hissue
  have hs : h.Sound := hrun ▸ hsound.run cs
  obtain ⟨hsameId, hsameTerms⟩ := InvoiceHistory.run_same ⟨i, events, []⟩ cs
  rw [← hrun] at hsameId hsameTerms
  have hid' : h.invoice.id = id := hsameId.trans hid
  have hterms' : h.invoice.terms = terms := hsameTerms.trans hterms
  refine ⟨⟨?_, fun t => ?_⟩, ⟨hs.inFlight_length, hs.processing_iff⟩, ⟨?_, ?_⟩, ?_, ?_, ?_⟩
  · rw [hs.posted_eq]
    split <;> simp
  · rw [Invoice.stateAt_paid_iff, hs.posted_eq]
    split <;> simp_all
  · rw [h.transferIds_eq]
    exact hs.attempts_nodup.map (invoicePayTid_injective _)
  · rw [h.transferIds_eq, hid']
  · intro v hv reason t
    rw [← hterms']
    exact hs.failed_reopens hv reason t
  · intro payer subject source t hopen hsubject hsource
    exact Invoice.pay_of_opened hopen hsubject (hterms'.symm ▸ hsource)
  · intro c e herror
    simp [InvoiceHistory.step, herror]

/-- What a sample invoice asks for. -/
def sampleInvoiceTerms : InvoiceTerms :=
  { scope := ⟨"invest"⟩, toLabel := ⟨"svc:desk"⟩, amount := 5, expiresAt := 1000
    payerAuthSubject := none }

theorem opened_unpaid : InvoiceState.opened = .paid ↔ (none : Option InvoicePayment).isSome := by simp

/-- The sample invoice as issued. -/
def sampleIssued : Invoice :=
  { id := .raw 1, terms := sampleInvoiceTerms, state := .opened, version := 1, payment := none
    paid_iff := opened_unpaid, source_scope := by simp }

/-- Two attempts, the first refused by the ledger after the invoice's expiry was tried, the second
posted. -/
def sampleInvoiceRun : List InvoiceCommand :=
  [.pay (.raw 7) "ann" .main 10, .cancel 20, .failed 2 "insufficient_funds", .posted 2,
   .pay (.raw 8) "bob" (.scope ⟨"invest"⟩) 30, .posted 4, .failed 4 "late", .expire 2000]

/-- The sample run posts its second attempt alone. -/
theorem invoice_paid_once_sample :
    (InvoiceHistory.run ⟨sampleIssued, [.created 1], []⟩ sampleInvoiceRun).posted = [4] ∧
      (InvoiceHistory.run ⟨sampleIssued, [.created 1], []⟩ sampleInvoiceRun).attempts = [4, 2] ∧
      (InvoiceHistory.run ⟨sampleIssued, [.created 1], []⟩ sampleInvoiceRun).posted.length ≤ 1 :=
  ⟨by decide, by decide,
    (@invoice_paid_once (.raw 1) (.raw 1) sampleInvoiceTerms 0 sampleIssued [.created 1] (by rfl)
      sampleInvoiceRun _ rfl).1.1⟩

end Banking
