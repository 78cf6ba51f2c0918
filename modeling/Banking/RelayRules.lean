import Banking.Bank

/-! # Rules for the relay's stages

What a proof about a dispatch uses of each stage: the equations of its small helpers, the operations
it stays within, and the weakest precondition of a guard or a leg. -/

namespace Banking

open Interactive (Prog World Exec EndsIn)

/-! ## Helpers -/

@[simp] theorem orRetry_ok {α : Type} (context : String) (a : α) :
    orRetry context (.ok a) = .ret a := rfl

@[simp] theorem orRetry_error {α : Type} (context e : String) :
    (orRetry context (.error e) : Step α) = .exit (.retry (context ++ e)) := rfl

@[simp] theorem orPark_ok {α : Type} (context : String) (a : α) :
    orPark context (.ok a) = .ret a := rfl

@[simp] theorem orPark_unavailable {α : Type} (context d : String) :
    (orPark context (.error (.unavailable d)) : Step α) = .exit (.retry d) := rfl

@[simp] theorem orMoneyEvent_ok (context : String) : orMoneyEvent context (.ok ()) = .ret () := rfl

/-- A write is performed by the ledger. -/
theorem perform_call {op : PlannedOp} {call : LedgerCall} (h : op.action.call? = some call) :
    perform op = ask (.ledger call) := by
  unfold perform
  cases ha : op.action <;> rw [ha] at h <;> cases h <;> rfl

/-- An operation that is no write is a broadcast. -/
theorem perform_broadcast {op : PlannedOp} {request : BroadcastRequest}
    (h : op.action = .broadcast request) : perform op = (ask (.broadcast request)).bind fun
      | .ok () => .ret (.ok ())
      | .error e => .ret (.error (custodyToLedger e)) := by
  unfold perform
  rw [h]
  rfl

/-! ## Quiet stages -/

/-- An operation that is no ledger write. -/
def RelayOp.Quiet : RelayOp → Prop
  | .ledger _ => False
  | _ => True

theorem orRetry_within {α : Type} {U : RelayOp → Prop} (context : String) (x : Except String α) :
    (orRetry context x).Within U := by
  cases x <;> trivial

theorem orMoneyEvent_within {U : RelayOp → Prop} (context : String)
    (x : Except MoneyEventError Unit) : (orMoneyEvent context x).Within U := by
  rcases x with ⟨_ | _⟩ | _ <;> trivial

/-- Recording a leg asks for its saga step and nothing else. -/
theorem recordLeg_within {U : RelayOp → Prop} {row : OutboxRow} {op : PlannedOp} {leg : Nat}
    (h : U (.recordSagaStep row.eventId leg op.role op.transferId)) :
    (recordLeg row op leg).Within U := by
  unfold recordLeg
  split
  · trivial
  all_goals exact ⟨h, fun _ => orRetry_within _ _⟩

/-- The operations that follow a row's legs. -/
inductive Finishes (posting : Option Posting) (row : OutboxRow) : RelayOp → Prop
  | subscription (h : row.payload.kind = some .subscriptions) :
      Finishes posting row (.projectSubscription row)
  | issuance (h : row.payload.kind = some .issuances) : Finishes posting row (.projectIssuance row)
  | trade (h : row.payload.kind = some .book) : Finishes posting row (.projectTrade row)
  | moneyEvent : Finishes posting row (.recordRelayed row)
  | stamp {p : Posting} (h : posting = some p) : Finishes posting row (.markPosted p row)

/-- What follows the legs stays within them. -/
theorem finish_within (posting : Option Posting) (row : OutboxRow) :
    (finish posting row).Within (Finishes posting row) := by
  have hproject : (project row).Within (Finishes posting row) := by
    unfold project
    split
    · next h => exact ⟨.subscription h, fun _ => orRetry_within _ _⟩
    · next h => exact ⟨.issuance h, fun _ => orRetry_within _ _⟩
    · next h => exact ⟨.trade h, fun _ => orRetry_within _ _⟩
    · trivial
  refine hproject.bind fun _ => ?_
  refine ⟨.moneyEvent, fun x => (orMoneyEvent_within "" x).bind fun _ => ?_⟩
  cases posting with
  | none => trivial
  | some p => exact ⟨.stamp rfl, fun _ => orRetry_within _ _⟩

/-- None of them writes to the ledger. -/
theorem Finishes.quiet {posting : Option Posting} {row : OutboxRow} {op : RelayOp}
    (h : Finishes posting row op) : op.Quiet := by
  cases h <;> trivial

/-! ## What a dispatch does -/

/-- A read of a guard's. -/
def RelayOp.IsRead : RelayOp → Prop
  | .reserveRefused _ | .postingState .. | .pastPostingWindow _ | .reserveApplied _
  | .withdrawalState _ | .broadcastRecorded _ | .transferExists _ | .balance _ => True
  | _ => False

/-- The operations of a row's dispatch: reads, the writes and the broadcast its plan names, their
saga steps, what follows the legs, and the failed stamp of its own posting. -/
inductive Dispatches (row : OutboxRow) : RelayOp → Prop
  | read {op : RelayOp} (h : op.IsRead) : Dispatches row op
  | ledger {ops : List PlannedOp} {op : PlannedOp} {call : LedgerCall} (hplan : plan row = .ok ops)
      (hop : op ∈ ops) (hcall : op.action.call? = some call) : Dispatches row (.ledger call)
  | broadcast {ops : List PlannedOp} {op : PlannedOp} {request : BroadcastRequest}
      (hplan : plan row = .ok ops) (hop : op ∈ ops) (ha : op.action = .broadcast request) :
      Dispatches row (.broadcast request)
  | sagaStep {ops : List PlannedOp} {op : PlannedOp} {leg : Nat} (hplan : plan row = .ok ops)
      (hop : op ∈ ops) :
      Dispatches row (.recordSagaStep row.eventId leg op.role op.transferId)
  | finish {op : RelayOp} (h : Finishes (Posting.of row.payload.kind) row op) : Dispatches row op
  | failed {p : Posting} (reason : String) (h : Posting.of row.payload.kind = some p) :
      Dispatches row (.markFailed p row reason)

section Within

variable {U : RelayOp → Prop}

theorem orPark_within {α : Type} (context : String) (x : Except LedgerError α) :
    (orPark context x).Within U := by
  rcases x with e | a
  · cases e <;> trivial
  · trivial

/-- A guard that only reads stays within what allows every read. -/
theorem checkLiquidity_within (hread : ∀ op, RelayOp.IsRead op → U op) (id : Uuid)
    (key : LedgerAccountKey) (f : LedgerBalance → Nat) (n : Nat) :
    (checkLiquidity id key f n).Within U := by
  refine ⟨hread _ trivial, fun x => (orPark_within _ x).bind fun applied => ?_⟩
  cases applied with
  | true => trivial
  | false =>
    refine ⟨hread _ trivial, fun x => (orPark_within _ x).bind fun b => ?_⟩
    split <;> trivial

theorem liquidityGate_within (hread : ∀ op, RelayOp.IsRead op → U op) (op : PlannedOp) :
    (liquidityGate op).Within U := by
  unfold liquidityGate
  split
  · exact checkLiquidity_within hread _ _ _ _
  · exact checkLiquidity_within hread _ _ _ _
  · exact checkLiquidity_within hread _ _ _ _
  · trivial

theorem broadcastGate_within (hread : ∀ op, RelayOp.IsRead op → U op) (row : OutboxRow)
    (op : PlannedOp) : (broadcastGate row op).Within U := by
  unfold broadcastGate
  split
  · refine ⟨hread _ trivial, fun x => (orRetry_within _ x).bind fun applied => ?_⟩
    cases applied with
    | false => trivial
    | true =>
      refine ⟨hread _ trivial, fun x => (orRetry_within _ x).bind fun state => ?_⟩
      cases state with
      | none => trivial
      | some state =>
        dsimp only
        split <;> trivial
  all_goals trivial

theorem voidGate_within (hread : ∀ op, RelayOp.IsRead op → U op) (row : OutboxRow)
    (op : PlannedOp) : (voidGate row op).Within U := by
  unfold voidGate
  split
  · refine ⟨hread _ trivial, fun x => (orRetry_within _ x).bind fun recorded => ?_⟩
    cases recorded <;> trivial
  · trivial

theorem holdGate_within (hread : ∀ op, RelayOp.IsRead op → U op) (op : PlannedOp) :
    (holdGate op).Within U := by
  have hcheck : ∀ void, (checkReservation void).Within U := by
    intro void
    refine ⟨hread _ trivial, fun x => ⟨hread _ trivial, fun y => ?_⟩⟩
    dsimp only [Prog.bind_eq, Prog.bind]
    split
    · split <;> trivial
    all_goals trivial
  unfold holdGate
  split
  · exact hcheck _
  · exact hcheck _
  · trivial

/-- The gate of a posting reads, and stamps what the ledger or the clock decided. -/
theorem postingGate_within {p : Posting} {row : OutboxRow} (ops : List PlannedOp)
    (hread : ∀ op, RelayOp.IsRead op → U op) (hmoney : U (.recordRelayed row))
    (hposted : U (.markPosted p row)) (hfailed : U (.markFailed p row "expired")) :
    (postingGate p row ops).Within U := by
  have hstamp : (stampApplied p row).Within U :=
    ⟨hmoney, fun x => (orMoneyEvent_within _ x).bind fun _ =>
      ⟨hposted, fun y => (orRetry_within _ y).bind fun _ => trivial⟩⟩
  have hwindow : (windowGate row p).Within U := by
    cases p with
    | scopeCharge =>
      refine ⟨hread _ trivial, fun x => (orRetry_within _ x).bind fun past => ?_⟩
      cases past with
      | false => trivial
      | true => exact ⟨hfailed, fun y => (orRetry_within _ y).bind fun _ => trivial⟩
    | move | scopeTransfer | scopePayout | invoicePayment => trivial
  refine ⟨hread _ trivial, fun x => (orRetry_within _ x).bind fun state => ?_⟩
  match state with
  | none | some .posted | some .failed => trivial
  | some .pending =>
    cases ops with
    | nil => trivial
    | cons leg ops =>
      refine ⟨hread _ trivial, fun x => (orPark_within _ x).bind fun applied => ?_⟩
      cases applied with
      | true => exact hstamp
      | false => exact hwindow

end Within

theorem refuseFunds_within (row : OutboxRow) (leg : Nat) :
    (refuseFunds (Posting.of row.payload.kind) row leg).Within (Dispatches row) := by
  unfold refuseFunds
  split
  · next p hp => exact ⟨.failed _ hp, fun _ => (orRetry_within _ _).bind fun _ => trivial⟩
  · trivial

/-- One leg: its own write or broadcast, and what its answer leads to. -/
theorem applyLeg_within {row : OutboxRow} {ops : List PlannedOp} (hplan : plan row = .ok ops)
    {op : PlannedOp} (hop : op ∈ ops) (leg : Nat) :
    (applyLeg (Posting.of row.payload.kind) row op leg).Within (Dispatches row) := by
  have hafter : ∀ a, (afterLeg (Posting.of row.payload.kind) row op leg a).Within
      (Dispatches row) := by
    intro a
    match a with
    | .ok () => exact recordLeg_within (.sagaStep hplan hop)
    | .error .insufficientFunds => exact refuseFunds_within row leg
    | .error (.unavailable _) | .error (.retryable _) | .error (.conflict _) => trivial
  have hperform : (perform op).Within (Dispatches row) := by
    cases hcall : op.action.call? with
    | some call =>
      rw [perform_call hcall]
      exact ⟨.ledger hplan hop hcall, fun _ => trivial⟩
    | none =>
      obtain ⟨request, ha⟩ : ∃ request, op.action = .broadcast request := by
        cases ha : op.action <;> rw [ha] at hcall <;> cases hcall
        exact ⟨_, rfl⟩
      rw [perform_broadcast ha]
      refine ⟨.broadcast hplan hop ha, fun a => ?_⟩
      rcases a with _ | ⟨⟩ <;> trivial
  exact hperform.bind hafter

/-- **What a dispatch does**: nothing but what its row plans. -/
theorem dispatchBody_within (row : OutboxRow) : (dispatchBody row).Within (Dispatches row) := by
  have hrefused : (refusedGate row).Within (Dispatches row) := by
    unfold refusedGate
    split
    · trivial
    · refine ⟨.read trivial, fun x => (orRetry_within _ x).bind fun refused => ?_⟩
      cases refused <;> trivial
  refine hrefused.bind fun _ => ?_
  cases hplan : plan row with
  | error reason => trivial
  | ok ops =>
    have hread : ∀ op, RelayOp.IsRead op → Dispatches row op := fun _ h => .read h
    have hguards : (guards (Posting.of row.payload.kind) row ops).Within (Dispatches row) := by
      refine Prog.Within.bind ?_ fun _ => ?_
      · cases hp : Posting.of row.payload.kind with
        | none => trivial
        | some p =>
          exact postingGate_within ops hread (.finish .moneyEvent) (.finish (.stamp hp))
            (.failed _ hp)
      · refine (Prog.Within.each fun op _ => liquidityGate_within hread op).bind fun _ => ?_
        refine (Prog.Within.each fun op _ => broadcastGate_within hread row op).bind fun _ => ?_
        refine (Prog.Within.each fun op _ => voidGate_within hread row op).bind fun _ => ?_
        exact Prog.Within.each fun op _ => holdGate_within hread op
    refine hguards.bind fun _ => ?_
    have hlegs : (applyLegs (Posting.of row.payload.kind) row ops).Within (Dispatches row) :=
      Prog.Within.each fun leg hleg => applyLeg_within hplan (List.fst_mem_of_mem_zipIdx hleg) leg.2
    exact hlegs.bind fun _ => (finish_within _ row).mono fun _ h => .finish h

/-- **A dispatch, on the ledger**: what every write its row plans preserves, the dispatch preserves,
whatever faults it meets. -/
theorem dispatch_books {fault : (op : RelayOp) → op.Ans → Prop} {rely : Bank → Bank → Prop}
    {P : Books → Prop} {row : OutboxRow}
    (hwrite : ∀ L : Books, ∀ ops, plan row = .ok ops → ∀ op ∈ ops, ∀ call,
      op.action.call? = some call → P L → P (call.run L).2)
    (hrely : ∀ b b', rely b b' → P b.books → P b'.books) {b b' : Bank} {r : Except Outcome Unit}
    (he : Exec (fun op b => Bank.Act fault op b) rely (dispatchBody row) b r b') (h : P b.books) :
    P b'.books := by
  let S : World RelayOp RelayOp.Ans Bank :=
    { step := fun op b => Bank.Act fault op b, rely, inv := fun b => P b.books }
  refine (he.of_wp (S := S) (fun w w₁ hw hr => hrely w w₁ hr hw) h
    (World.wp_within (J := fun _ => True) (dispatchBody_within row) (fun _ _ _ _ => trivial) ?_
      trivial)).1
  rintro op w a w' hop hw - hact
  refine ⟨?_, trivial⟩
  have hanswer : P (w.answer op).2.books := by
    rw [Bank.answer_books]
    cases op with
    | ledger call =>
      cases hop with
      | read h => exact absurd h (by simp [RelayOp.IsRead])
      | finish h => cases h
      | ledger hplan hop hcall => exact hwrite _ _ hplan _ hop _ hcall hw
    | _ => exact hw
  rcases hact with hact | ⟨-, rfl | rfl⟩
  · obtain rfl : (w.answer op).2 = w' := by rw [hact]
    exact hanswer
  · exact hw
  · exact hanswer

/-! ## Weakest preconditions -/

section Wp

variable {W : Type} {S : World RelayOp RelayOp.Ans W} {E : Outcome → W → Prop} {w : W}

/-- One operation of a dispatch. -/
theorem wp_ask {op : RelayOp} {Q : op.Ans → W → Prop} :
    S.wp Q E (ask op) w ↔ ∀ w₁, S.rely w w₁ → S.inv w₁ → ∀ a w₂, S.step op w₁ a w₂ →
      S.inv w₂ ∧ Q a w₂ := Iff.rfl

/-- A leg that is a ledger write: its answer, and what follows it. -/
theorem wp_applyLeg {posting : Option Posting} {row : OutboxRow} {op : PlannedOp} {leg : Nat}
    {call : LedgerCall} (hcall : op.action.call? = some call) {Q : Unit → W → Prop} :
    S.wp Q E (applyLeg posting row op leg) w ↔
      ∀ w₁, S.rely w w₁ → S.inv w₁ → ∀ a w₂, S.step (.ledger call) w₁ a w₂ →
        S.inv w₂ ∧ S.wp Q E (afterLeg posting row op leg a) w₂ := by
  unfold applyLeg
  rw [Prog.bind_eq, perform_call hcall, World.wp_bind]
  exact wp_ask

/-- Recording a leg that is a ledger write. -/
theorem wp_recordLeg {row : OutboxRow} {op : PlannedOp} {leg : Nat} {call : LedgerCall}
    (hcall : op.action.call? = some call) {Q : Unit → W → Prop}
    (h : ∀ w₁, S.rely w w₁ → S.inv w₁ → ∀ a w₂,
      S.step (.recordSagaStep row.eventId leg op.role op.transferId) w₁ a w₂ →
        S.inv w₂ ∧ Q () w₂ ∧ ∀ e, E (.retry e) w₂) :
    S.wp Q E (recordLeg row op leg) w := by
  have hshape : recordLeg row op leg =
      (ask (.recordSagaStep row.eventId leg op.role op.transferId)).bind fun x =>
        orRetry "saga step record: " x := by
    unfold recordLeg
    cases ha : op.action <;> rw [ha] at hcall <;> first | rfl | cases hcall
  rw [hshape, World.wp_bind, wp_ask]
  intro w₁ hr hi a w₂ hs
  obtain ⟨hi₂, hq, he⟩ := h w₁ hr hi a w₂ hs
  refine ⟨hi₂, ?_⟩
  cases a with
  | ok u => exact hq
  | error e => exact he _

/-- A read before the legs that may park. -/
theorem wp_orPark {α : Type} {context : String} {x : Except LedgerError α} {Q : α → W → Prop}
    (hok : ∀ a, x = .ok a → Q a w) (hun : ∀ d, x = .error (.unavailable d) → E (.retry d) w)
    (hretry : ∀ d, x = .error (.retryable d) → E (.retryBounded d) w)
    (hpark : ∀ e, x = .error e → E (.park (context ++ e.text) 0) w) :
    S.wp Q E (orPark context x) w := by
  rcases x with e | a
  · cases e with
    | unavailable d => exact hun d rfl
    | retryable d => exact hretry d rfl
    | insufficientFunds | conflict d => exact hpark _ rfl
  · exact hok a rfl

end Wp

end Banking
