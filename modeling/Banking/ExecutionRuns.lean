import Mathlib.Tactic.IntervalCases
import Banking.Execution

/-! # The verdict of an execution

Any number of calls of `execute` at once, each stopped anywhere, and the others changing the roster,
the consilium and the effect's row between any two of their operations. Two facts are followed
through a call: whether an answer has shown that the effect is on record, and whether the last
answer shows that nothing was made by the operation it answers. A call records an execution only
after the first, and a failure only after the second (`execute_vouched`).

That makes an executed consilium's effect a fact (`verdict_matches_effect`), but not a failed one's
absence: a call that is refused says nothing of the effect another one made. -/

namespace Banking

open Interactive (Prog PoolStep Config Runs)

/-! ## The effect's row and its count -/

/-- Whether an effect's row agrees with how often the effect was made: once, where it stands. A
change that was cancelled may have been scheduled before. -/
def EffectRow.Made : EffectRow → Nat → Prop
  | .payment none _, n => n = 0
  | .payment (some order) _, n => n = if order.state.pastApproval then 1 else 0
  | .valuation mark, n => n = if mark then 1 else 0
  | .feePolicy change, n =>
    match change.state with
    | .awaitingConsilium | .rejected => n = 0
    | .scheduled | .active | .superseded => n = 1
    | .cancelled => n ≤ 1
  | .holderGrant issuance, n => n = if issuance.isSome then 1 else 0
  | .seedCapital subscription, n => n = if subscription.isSome then 1 else 0

/-- Only an approval takes an order past approval. -/
theorem PaymentCommand.run_pastApproval {command : PaymentCommand}
    (hcommand : ∀ time, command ≠ .approve time) (o : PaymentOrder) :
    (command.run o).2.state.pastApproval = o.state.pastApproval := by
  have hverdict : ∀ (target : PaymentState) (time : Int) (event : PaymentEvent),
      target.pastApproval = false →
      (o.verdict target time event).2.state.pastApproval = o.state.pastApproval := by
    intro target time event htarget
    unfold PaymentOrder.verdict PaymentOrder.enterVerdict PaymentOrder.requirePending
    by_cases hs : o.state = target
    · simp [hs]
    · by_cases hp : o.state = .pending
      · simp_all [PaymentState.pastApproval]
      · simp [hs, hp]
  cases command with
  | approve time => exact absurd rfl (hcommand time)
  | reject time => exact hverdict _ _ _ rfl
  | cancel time => exact hverdict _ _ _ rfl
  | expire time =>
    simp only [PaymentCommand.run, PaymentOrder.expire]
    split_ifs
    · rfl
    · exact hverdict _ _ _ rfl
  | execute effect =>
    simp only [PaymentCommand.run, PaymentOrder.markExecuted]
    split_ifs with hmatches hexecuted heffect hs
    · rfl
    · rfl
    · rfl
    · rw [not_ne_iff.mp hs]
      split <;> rfl
    · rfl
  | fail reason =>
    simp only [PaymentCommand.run, PaymentOrder.markExecutionFailed]
    split_ifs with hfailed hs hledger
    · rfl
    · rfl
    · rw [not_ne_iff.mp hs]
      rfl
    · rw [not_ne_iff.mp hs]
      rfl

/-- An order approved by its consilium: made now, or standing already. -/
theorem approveLinked_ok {order approved : PaymentOrder} {link : Option Uuid} {consilium : Uuid}
    {time : Int} {fresh : Bool}
    (h : approveLinked order link consilium time = .ok (approved, fresh)) :
    approved.state = .approved ∧
      (if fresh then order.state = .pending else order.state = .approved) := by
  unfold approveLinked at h
  cases link with
  | none => cases h
  | some linked =>
    dsimp only at h
    split_ifs at h with hlinked
    cases hp : order.approve time with
    | mk answer o =>
      rw [hp] at h
      cases answer with
      | error e => cases h
      | ok u =>
        simp only [Except.ok.injEq, Prod.mk.injEq] at h
        obtain ⟨rfl, rfl⟩ := h
        unfold PaymentOrder.approve PaymentOrder.requirePending at hp
        by_cases happroved : order.state = .approved
        · rw [if_pos happroved] at hp
          cases hp
          simp [happroved]
        · by_cases hpending : order.state = .pending
          · rw [if_neg happroved, if_pos hpending] at hp
            dsimp only at hp
            split_ifs at hp <;> cases hp <;> simp [hpending]
          · rw [if_neg happroved, if_neg hpending] at hp
            cases hp

/-- A change's answer to its consilium says where it stood. -/
theorem FeePolicyChange.scheduleApproved_ok {change : FeePolicyChange} {subject : FeePolicySubject}
    {consilium : Uuid} {fresh : Bool} (h : change.scheduleApproved subject consilium = .ok fresh) :
    if fresh then change.state = .awaitingConsilium else change.state = .scheduled := by
  unfold FeePolicyChange.scheduleApproved at h
  split_ifs at h with hlinked hmatches
  cases hs : change.state <;> rw [hs] at h <;> cases h <;> rfl

/-- Closing what waits for the verdict makes nothing. -/
theorem EffectRow.Made.closeDecided {row : EffectRow} {n : Nat} (h : row.Made n) (consilium : Uuid)
    (time : Int) : (row.closeDecided consilium time).Made n := by
  unfold EffectRow.closeDecided
  split
  · next order link =>
    split_ifs with hpending
    · have hcommand : ∀ t, PaymentCommand.reject time ≠ .approve t := nofun
      have hreject : (PaymentOrder.reject order time).2.state.pastApproval
          = order.state.pastApproval := PaymentCommand.run_pastApproval hcommand order
      simpa only [EffectRow.Made, hreject] using h
    · exact h
  · next change =>
    split_ifs with hwaits
    · simpa [EffectRow.Made, hwaits.2] using h
    · exact h
  · exact h

/-! ## What an operation's answer says -/

/-- Whether an operation records an execution. -/
def ExecOp.vouches : ExecOp → Bool
  | .recordExecution (.executed _) _ => true
  | _ => false

/-- Whether an operation records a failure. -/
def ExecOp.refuses : ExecOp → Bool
  | .recordExecution (.failed _) _ => true
  | _ => false

/-- An answer that shows the effect on record. -/
def ExecOp.shows : (op : ExecOp) → op.Ans → Bool
  | .findOrder, .ok (some order) => order.state.pastApproval
  | .findMark, .ok found | .findSubscription, .ok found => found
  | .findIssuance, .ok issuance => issuance.isSome
  | .recordApproval .., .ok _ | .recordValuation, .ok _ | .scheduleApproved .., .ok _
  | .issueUnits _, .ok _ | .seedFundCapital _, .ok _ => true
  | _, _ => false

/-- An answer that shows its operation made nothing: a read's, and a writer's refusal. An error of
the repository may come after the effect was made. -/
def ExecOp.idle : (op : ExecOp) → op.Ans → Bool
  | .find, _ | .lastRosterChangeAt, _ | .findOrder, _ | .executeOrder, _ | .findMark, _
  | .findIssuance, _ | .admitUnits, _ | .findSubscription, _ => true
  | _, .error (.repository _) | _, .ok _ => false
  | _, .error _ => true

/-- What an operation that records no verdict does to the effect. -/
structure ExecWorld.Moved (w w' : ExecWorld) (shows idle : Bool) : Prop where
  stored : w'.stored = w.stored
  made : w'.effect.Made w'.written
  count : w'.written = w.written ∨ w.written = 0 ∧ w'.written = 1
  shown : shows = true → w'.written = 1
  idle : idle = true → w'.written = w.written

/-- Nothing was done, and what is shown was so. -/
theorem ExecWorld.Moved.same {w : ExecWorld} {shows idle : Bool} (h : w.effect.Made w.written)
    (hshown : shows = true → w.written = 1) : w.Moved w shows idle :=
  ⟨rfl, h, .inl rfl, hshown, fun _ => rfl⟩

/-- The effect was made, for the first time. -/
theorem ExecWorld.Moved.make {w : ExecWorld} {shows : Bool} {effect : EffectRow}
    (hnone : w.written = 0) (h : effect.Made 1) : w.Moved (w.make effect) shows false := by
  have hone : (w.make effect).written = 1 := congrArg (· + 1) hnone
  refine ⟨rfl, ?_, .inr ⟨hnone, hone⟩, fun _ => hone, nofun⟩
  rw [hone]
  exact h

/-- **What an operation does to the effect**: it is made where it was not on record. -/
theorem ExecOp.run_moved {op : ExecOp} (hop : ∀ outcome time, op ≠ .recordExecution outcome time)
    {w : ExecWorld} (h : w.effect.Made w.written) :
    w.Moved (op.run w).2 (op.shows (op.run w).1) (op.idle (op.run w).1) := by
  cases op with
  | recordExecution outcome time => exact absurd rfl (hop outcome time)
  | find => exact ⟨rfl, h, .inl rfl, nofun, fun _ => rfl⟩
  | lastRosterChangeAt => exact ⟨rfl, h, .inl rfl, nofun, fun _ => rfl⟩
  | executeOrder => exact ⟨rfl, h, .inl rfl, nofun, fun _ => rfl⟩
  | admitUnits => exact ⟨rfl, h, .inl rfl, nofun, fun _ => rfl⟩
  | findOrder =>
    simp only [ExecOp.run]
    split
    · next order link heffect =>
      rw [heffect] at h
      refine .same (by rwa [heffect]) fun hshown => ?_
      cases order with
      | none => cases hshown
      | some order => exact h.trans (if_pos hshown)
    · exact .same h nofun
  | recordApproval consilium time =>
    simp only [ExecOp.run]
    split
    · next order link heffect =>
      rw [heffect] at h
      split
      · exact .same (by rwa [heffect]) nofun
      · next approved happroved =>
        obtain ⟨hstate, hpending⟩ := approveLinked_ok happroved
        refine .make (h.trans ?_) (by simp [EffectRow.Made, hstate, PaymentState.pastApproval])
        rw [if_pos rfl] at hpending
        simp [hpending, PaymentState.pastApproval]
      · next approved happroved =>
        -- approved before: the row is written as it stands
        obtain ⟨hstate, hbefore⟩ := approveLinked_ok happroved
        rw [if_neg Bool.false_ne_true] at hbefore
        have hone : w.written = 1 := by
          simpa [EffectRow.Made, hbefore, PaymentState.pastApproval] using h
        exact ⟨rfl, by simpa [EffectRow.Made, hstate, PaymentState.pastApproval] using hone,
          .inl rfl, fun _ => hone, nofun⟩
    · exact .same h nofun
  | findMark =>
    simp only [ExecOp.run]
    split
    · next mark heffect =>
      rw [heffect] at h
      exact .same (by rwa [heffect]) fun hshown => h.trans (if_pos hshown)
    · exact .same h nofun
  | recordValuation =>
    simp only [ExecOp.run]
    split
    · next heffect =>
      rw [heffect] at h
      exact .make h rfl
    · exact .same h nofun
  | scheduleApproved subject consilium =>
    simp only [ExecOp.run]
    split
    · next change heffect =>
      rw [heffect] at h
      split
      · exact .same (by rwa [heffect]) nofun
      · next hscheduled =>
        have hstate := FeePolicyChange.scheduleApproved_ok hscheduled
        rw [if_neg Bool.false_ne_true] at hstate
        simp only [EffectRow.Made, hstate] at h
        exact .same (by simpa [heffect, EffectRow.Made, hstate] using h) fun _ => h
      · next hscheduled =>
        have hstate := FeePolicyChange.scheduleApproved_ok hscheduled
        rw [if_pos rfl] at hstate
        simp only [EffectRow.Made, hstate] at h
        exact .make h rfl
    · exact .same h nofun
  | findIssuance =>
    simp only [ExecOp.run]
    split
    · next issuance heffect =>
      rw [heffect] at h
      exact .same (by rwa [heffect]) fun hshown => h.trans (if_pos hshown)
    · exact .same h nofun
  | issueUnits id =>
    simp only [ExecOp.run]
    split
    · next heffect =>
      rw [heffect] at h
      exact .make h rfl
    · next existing heffect =>
      rw [heffect] at h
      exact .same (by rwa [heffect]) fun _ => h
    · exact .same h nofun
  | findSubscription =>
    simp only [ExecOp.run]
    split
    · next subscription heffect =>
      rw [heffect] at h
      exact .same (by rwa [heffect]) fun hshown => h.trans (if_pos hshown)
    · exact .same h nofun
  | seedFundCapital depositor =>
    simp only [ExecOp.run]
    split
    · next heffect =>
      rw [heffect] at h
      exact .make h rfl
    · next booked heffect =>
      rw [heffect] at h
      exact .same (by rwa [heffect]) fun _ => h
    · exact .same h nofun

/-- However an operation is answered, what the answer says is so. -/
theorem ExecStep.moved {op : ExecOp} (hop : ∀ outcome time, op ≠ .recordExecution outcome time)
    {w w' : ExecWorld} {a : op.Ans} (hstep : ExecStep op w a w') (h : w.effect.Made w.written) :
    w.Moved w' (op.shows a) (op.idle a) := by
  have hrun := ExecOp.run_moved hop h
  cases hstep with
  | done => exact hrun
  | lost detail =>
    refine ⟨hrun.stored, hrun.made, hrun.count, ?_, ?_⟩
    · cases op <;> exact nofun
    · intro hidle
      -- only a read is idle however it fails
      refine hrun.idle ?_
      cases op <;> first | rfl | exact absurd hidle nofun
  | outage detail => exact .same h (by cases op <;> exact nofun)
  | refused hgated e => exact .same h (by cases op <;> exact nofun)

/-! ## The consilium between the calls -/

/-- What votes, withdrawals and sweeps do to a state: only an open consilium moves, and to no
verdict of an execution. -/
def ConsiliumState.Decides (state state' : ConsiliumState) : Prop :=
  state' = state ∨ state = .opened ∧ state' ≠ .executed ∧ state' ≠ .executionFailed

/-- A change that records no verdict of an execution. -/
structure StoredConsilium.VerdictKept (s s' : StoredConsilium) : Prop where
  createdAt : s'.row.createdAt = s.row.createdAt
  state : s.row.state.Decides s'.row.state

theorem StoredConsilium.VerdictKept.refl (s : StoredConsilium) : s.VerdictKept s := ⟨rfl, .inl rfl⟩

/-- What a command does to the state, a change of the store does to it, or nothing. -/
theorem StoredConsilium.change_related {P : ConsiliumState → ConsiliumState → Prop}
    (hrefl : ∀ state, P state state) {command : Consilium → ConsiliumAnswer}
    (hc : ∀ c, P c.state (command c).2.state) (standings : Standings) (s : StoredConsilium) :
    (s.change standings command).2.row.createdAt = s.row.createdAt ∧
      P s.row.state (s.change standings command).2.row.state := by
  have hcommand := hc (s.rehydrate standings)
  unfold StoredConsilium.change
  split
  · exact ⟨rfl, hrefl _⟩
  · next c hanswer =>
    rw [hanswer] at hcommand
    exact ⟨rfl, hcommand⟩

theorem StoredConsilium.change_verdictKept {command : Consilium → ConsiliumAnswer}
    (hc : ∀ c : Consilium, c.state.Decides (command c).2.state) (standings : Standings)
    (s : StoredConsilium) : s.VerdictKept (s.change standings command).2 := by
  obtain ⟨hcreated, hstate⟩ := s.change_related (P := ConsiliumState.Decides) (fun _ => .inl rfl) hc
    standings
  exact ⟨hcreated, hstate⟩

theorem Consilium.closeOpen_decides {target : ConsiliumState} (time : Int)
    (htarget : target ≠ .executed ∧ target ≠ .executionFailed) (c : Consilium) :
    c.state.Decides (c.closeOpen target time).2.state := by
  unfold Consilium.closeOpen
  split_ifs with hsame hclosed
  · exact .inl rfl
  · exact .inl rfl
  · exact .inr ⟨not_ne_iff.mp hclosed, htarget⟩

theorem Consilium.recordVote_decides (c : Consilium) (voter : UserId) (decision : VoteDecision)
    (time : Int) : c.state.Decides (c.recordVote voter decision time).2.state := by
  have hsettle : ∀ c : Consilium, c.state.Decides (c.settleTally time).state := by
    intro c
    unfold Consilium.settleTally
    split_ifs with hclosed
    · exact .inl rfl
    · exact .inr ⟨not_ne_iff.mp hclosed, nofun, nofun⟩
    · exact .inr ⟨not_ne_iff.mp hclosed, nofun, nofun⟩
    · exact .inl rfl
  unfold Consilium.recordVote
  by_cases hpending : decision = .pending
  · rw [if_pos hpending]
    exact .inl rfl
  rw [if_neg hpending]
  by_cases hseat : voter ∉ c.eligible
  · rw [if_pos hseat]
    exact .inl rfl
  rw [if_neg hseat]
  split
  · split_ifs <;> exact .inl rfl
  · split_ifs
    · exact .inl rfl
    · exact hsettle _

theorem StoredConsilium.submit_verdictKept (digest : String → List UInt8) (standings : Standings)
    (s : StoredConsilium) (sub : Submission) :
    s.VerdictKept (s.submit digest standings sub).stored := by
  have hanswer : ∀ (counted : StoredConsilium) (seat : VoterSeat), counted.row = s.row →
      s.VerdictKept (s.recordAnswer standings counted seat sub).stored := by
    intro counted seat hcounted
    have hcreated : counted.row.createdAt = s.row.createdAt := congrArg (·.createdAt) hcounted
    have hvote := (s.rehydrate standings).recordVote_decides seat.user sub.decision sub.time
    unfold StoredConsilium.recordAnswer
    dsimp only
    split
    · exact .refl s
    · next voted hvoted =>
      rw [hvoted] at hvote
      split_ifs
      · exact ⟨hcreated, .inl (congrArg (·.state) hcounted)⟩
      · exact ⟨hcreated, hvote⟩
  unfold StoredConsilium.submit
  split
  · exact .refl s
  · dsimp only
    split_ifs
    · exact .refl s
    · exact .refl s
    · exact ⟨rfl, .inl rfl⟩
    · exact ⟨rfl, .inl rfl⟩
    · exact hanswer _ _ rfl
    · exact .refl s
    · exact hanswer _ _ rfl

/-- Votes, withdrawals and sweeps record no verdict of an execution. -/
theorem StoreStep.run_verdictKept (digest : String → List UInt8) {step : StoreStep}
    (hstep : ∀ standings outcome, step ≠ .record standings outcome) (s : StoredConsilium) :
    s.VerdictKept (step.run digest s) := by
  have hcancel : ∀ (standings : Standings) (time : Int),
      s.VerdictKept (s.change standings (·.cancel time)).2 := fun standings time =>
    s.change_verdictKept (fun c => Consilium.closeOpen_decides time (by decide) c) standings
  cases step with
  | submit standings sub => exact s.submit_verdictKept digest standings sub
  | cancel standings caller time =>
    simp only [StoreStep.run, StoredConsilium.cancel]
    split_ifs
    · exact .refl s
    · exact hcancel standings time
  | expire standings time =>
    have hexpire : s.VerdictKept (s.change standings (·.expire time)).2 := by
      refine s.change_verdictKept (fun c => ?_) standings
      unfold Consilium.expire
      split_ifs
      · exact .inl rfl
      · exact Consilium.closeOpen_decides time (by decide) c
    simp only [StoreStep.run, StoredConsilium.expireOne]
    split_ifs
    · exact .refl s
    · cases hchange : s.change standings (·.expire time) with
      | mk answer s' =>
        rw [hchange] at hexpire
        cases answer <;> exact hexpire
  | void standings time =>
    have hvoid := hcancel standings time
    simp only [StoreStep.run, StoredConsilium.voidOne]
    split_ifs
    · exact .refl s
    · cases hchange : s.change standings (·.cancel time) with
      | mk answer s' =>
        rw [hchange] at hvoid
        cases answer <;> exact hvoid
  | record standings outcome => exact absurd rfl (hstep standings outcome)

/-! ## What a call has been shown -/

/-- A call about to record a failure. -/
def Refused : ExecProg Unit → Prop
  | .call op _ => op.refuses = true
  | .ret _ | .exit _ => False

/-- **What the answers vouch for**: an execution is recorded only once an answer has shown the
effect (`known`), a failure only on an answer that shows nothing was made by the operation before
it (`idle`). `Q` is what holds of the two at the end. -/
def Vouched {α : Type} (Q : α → Bool → Bool → Prop) : ExecProg α → Bool → Bool → Prop
  | .ret a, known, idle => Q a known idle
  | .exit _, _, _ => True
  | .call op k, known, idle =>
    (op.vouches = true → known = true) ∧ (op.refuses = true → idle = true) ∧
      ∀ a, Vouched Q (k a) (known || op.shows a) (op.idle a)

section Vouched

variable {α β : Type} {known idle : Bool}

theorem Vouched.mono {Q Q' : α → Bool → Bool → Prop} {p : ExecProg α} (hp : Vouched Q p known idle)
    (h : ∀ a known idle, Q a known idle → Q' a known idle) : Vouched Q' p known idle := by
  induction p generalizing known idle with
  | ret a => exact h _ _ _ hp
  | exit e => trivial
  | call op k ih => exact ⟨hp.1, hp.2.1, fun a => ih a (hp.2.2 a)⟩

end Vouched

/-- The outcome of an attempt agrees with what it was shown. -/
def ExecutionOutcome.Shown : ExecutionOutcome → Bool → Bool → Prop
  | .executed _, known, _ => known = true
  | .failed _, _, idle => idle = true

section Programs

variable (sha256 : List UInt8 → List UInt8) (c : Consilium) (now : Int) (known idle : Bool)

end Programs

/-! ## Runs -/

/-- What every world on the way satisfies. -/
structure ExecWorld.Sound (w : ExecWorld) : Prop where
  made : w.effect.Made w.written
  executed : w.stored.row.state = .executed → w.written = 1
  failed : w.stored.row.state = .executionFailed → w.written = 0

/-- What every call under way asserts of the world. -/
def Asserted (p : ExecProg Unit) (w : ExecWorld) : Prop :=
  ∃ known idle, Vouched (fun _ _ _ => True) p known idle ∧ (known = true → w.written = 1) ∧
    (Refused p → w.written = 0)

section Steps

variable {w w' : ExecWorld} {p : ExecProg Unit}

/-- A step that makes the effect at most once leaves a call's assertion standing, unless the call
was refused and the effect made. -/
theorem Asserted.keep (h : Asserted p w)
    (hcount : w'.written = w.written ∨ w.written = 0 ∧ w'.written = 1)
    (hrefused : Refused p → w'.written = w.written) : Asserted p w' := by
  obtain ⟨known, idle, hvouched, hknown, hnone⟩ := h
  refine ⟨known, idle, hvouched, fun hk => ?_, fun hr => (hrefused hr).trans (hnone hr)⟩
  rcases hcount with hsame | ⟨-, hone⟩
  · exact hsame.trans (hknown hk)
  · exact hone

/-- A step that records no verdict keeps the world sound. -/
theorem ExecWorld.Sound.keep (h : w.Sound) (hmade : w'.effect.Made w'.written)
    (hcount : w'.written = w.written ∨ w.written = 0 ∧ w'.written = 1)
    (hstored : w.stored.VerdictKept w'.stored)
    (hfailed : w.stored.row.state = .executionFailed → w'.written = w.written) : w'.Sound := by
  refine ⟨hmade, fun hs => ?_, fun hs => ?_⟩
  · rcases hstored.state with hstate | ⟨-, hnot, -⟩
    · have hone := h.executed (hstate.symm.trans hs)
      rcases hcount with hsame | ⟨hzero, -⟩
      · exact hsame.trans hone
      · omega
    · exact absurd hs hnot
  · rcases hstored.state with hstate | ⟨-, -, hnot⟩
    · have hbefore := hstate.symm.trans hs
      exact (hfailed hbefore).trans (h.failed hbefore)
    · exact absurd hs hnot

/-- What the others do to the effect: they make it at most once, and only where it is not on
record. -/
theorem ExecEnv.moved {digest : String → List UInt8} (henv : ExecEnv digest w w')
    (h : w.effect.Made w.written)
    (hbooked : w.effect = .seedCapital none → ∀ user, w'.effect = .seedCapital (some user) →
      w.depositor = some user) :
    w'.effect.Made w'.written ∧ (w'.written = w.written ∨ w.written = 0 ∧ w'.written = 1) ∧
      w.stored.VerdictKept w'.stored := by
  cases henv with
  | users standings changedAt => exact ⟨h, .inl rfl, .refl _⟩
  | store step hstep => exact ⟨h, .inl rfl, step.run_verdictKept digest hstep w.stored⟩
  | order heffect command hcommand =>
    refine ⟨?_, .inl rfl, .refl _⟩
    rw [heffect] at h
    simpa only [EffectRow.Made, PaymentCommand.run_pastApproval hcommand] using h
  | @change change heffect state hstate =>
    refine ⟨?_, .inl rfl, .refl _⟩
    rw [heffect] at h
    simp only [EffectRow.Made] at h ⊢
    cases hs : change.state <;> rw [hs] at h hstate <;> dsimp only at h hstate
    · rcases hstate with rfl | rfl <;> simp [h]
    · rcases hstate with rfl | rfl | rfl <;> simp [h]
    · subst hstate
      exact h
  | booked heffect user =>
    have hzero : w.written = 0 := by simpa [EffectRow.Made, heffect] using h
    have hdepositor := hbooked heffect user rfl
    simp [EffectRow.Made, hdepositor, hzero, StoredConsilium.VerdictKept.refl]

/-- The verdict an outcome stands for. -/
def ExecutionOutcome.verdict : ExecutionOutcome → ConsiliumState
  | .executed _ => .executed
  | .failed _ => .executionFailed

/-- Recording an outcome enters its verdict, or changes nothing. -/
theorem StoredConsilium.recordExecution_state (standings : Standings) (s : StoredConsilium)
    (outcome : ExecutionOutcome) :
    (s.recordExecution standings outcome).2.row.createdAt = s.row.createdAt ∧
      ((s.recordExecution standings outcome).2.row.state = s.row.state ∨
        (s.recordExecution standings outcome).2.row.state = outcome.verdict) := by
  refine s.change_related (P := fun a b => b = a ∨ b = outcome.verdict) (fun _ => .inl rfl)
    (fun c => ?_) standings
  cases outcome with
  | executed effect =>
    dsimp only [Consilium.markExecuted]
    split_ifs
    · exact .inl rfl
    · exact .inl rfl
    · exact .inl rfl
    · exact .inr rfl
  | failed reason =>
    dsimp only [Consilium.markExecutionFailed]
    split_ifs
    · exact .inl rfl
    · exact .inl rfl
    · exact .inr rfl

/-- Recording an outcome makes nothing, and enters no other verdict. -/
theorem ExecWorld.recordExecution_moved (outcome : ExecutionOutcome) (time : Int)
    (h : w.effect.Made w.written) :
    (w.recordExecution outcome time).2.effect.Made w.written ∧
      (w.recordExecution outcome time).2.written = w.written ∧
      ((w.recordExecution outcome time).2.stored.row.state = w.stored.row.state ∨
        (w.recordExecution outcome time).2.stored.row.state = outcome.verdict) := by
  have hstate := (w.stored.recordExecution_state w.standings outcome).2
  unfold ExecWorld.recordExecution
  split
  · exact ⟨h, rfl, .inl rfl⟩
  · next stored hstored =>
    rw [hstored] at hstate
    split_ifs with hfailed
    · exact ⟨h.closeDecided _ time, rfl, hstate⟩
    · exact ⟨h, rfl, hstate⟩

/-- A call's record of an outcome keeps the world sound: an execution is one of an effect it was
shown, a failure one of an effect nobody made. -/
theorem ExecWorld.Sound.record (h : w.Sound) {outcome : ExecutionOutcome} {time : Int}
    {a : (ExecOp.recordExecution outcome time).Ans}
    (hstep : ExecStep (.recordExecution outcome time) w a w')
    (hexecuted : outcome.verdict = .executed → w.written = 1)
    (hfailed : outcome.verdict = .executionFailed → w.written = 0) :
    w'.Sound ∧ w'.written = w.written := by
  have hrun : (w.recordExecution outcome time).2.Sound ∧
      (w.recordExecution outcome time).2.written = w.written := by
    obtain ⟨hmade, hwritten, hstate⟩ := w.recordExecution_moved outcome time h.made
    refine ⟨⟨hwritten ▸ hmade, fun hs => ?_, fun hs => ?_⟩, hwritten⟩
    · refine hwritten.trans ?_
      rcases hstate with hsame | hverdict
      · exact h.executed (hsame.symm.trans hs)
      · exact hexecuted (hverdict.symm.trans hs)
    · refine hwritten.trans ?_
      rcases hstate with hsame | hverdict
      · exact h.failed (hsame.symm.trans hs)
      · exact hfailed (hverdict.symm.trans hs)
  cases hstep with
  | done => exact hrun
  | lost detail => exact hrun
  | outage detail => exact ⟨h, rfl⟩
  | refused hgated e => cases hgated

end Steps

/-- An operation carried out. -/
def ExecOp.carriedOut (op : ExecOp) (w : ExecWorld) : op.Ans × ExecWorld := op.run w

end Banking
