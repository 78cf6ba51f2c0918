import Banking.Outflow

/-! # A scope's days as rolling windows

What draws on a scope's budget as records of a rolling window: an automatic payout from its
recording on, a payout operation of the scope's own decision from its request on, at its execution
once it is executed. Each row recorded, rewritten or marked keeps every window under its ceiling and
leaves what a transaction read under its lock no larger. -/

namespace Banking

open Rolling (Entry When Bounded Tightens Shrinks recent total)

/-! ## Records -/

/-- A record made when a row passes. -/
def entryIf (passes : Bool) (amount : Nat) (time : When) : Option (Entry Unit) :=
  if passes then some ⟨(), amount, time⟩ else none

/-- What an automatic payout draws on its scope's budget. -/
def RecordedPayout.draw (scope : ScopeId) (r : RecordedPayout) : Option (Entry Unit) :=
  entryIf (r.automatic scope) r.payout.total (.stamped r.createdAt)

/-- What it draws on its client's ceiling. -/
def RecordedPayout.drawBy (client : ClientId) (scope : ScopeId) (r : RecordedPayout) :
    Option (Entry Unit) :=
  entryIf (r.payout.terms.client = client && r.automatic scope) r.payout.total
    (.stamped r.createdAt)

/-- What an automatic transfer draws on its client's ceiling. -/
def RecordedTransfer.sweep (client : ClientId) (scope : ScopeId) (r : RecordedTransfer) :
    Option (Entry Unit) :=
  entryIf (r.automatic client scope && r.transfer.terms.reason = .feeSweep)
    r.transfer.terms.amount (.stamped r.createdAt)

/-- Whether an operation's decision is not the owners'. -/
def RecordedOperation.withoutOwners (r : RecordedOperation) : Bool :=
  r.approvalLevel.getD .scope = .scope

/-- When an operation counts: from its request while it awaits, at its execution. -/
def RecordedOperation.drawnAt (r : RecordedOperation) : Option When :=
  match r.progress.state with
  | .awaitingApproval => some (.openSince r.createdAt)
  | .executed => r.decidedAt.map .stamped
  | .rejected | .failed => none

/-- What a payout operation draws on its scope's budget. -/
def RecordedOperation.draw (scope : ScopeId) (r : RecordedOperation) : Option (Entry Unit) :=
  r.drawnAt.bind fun time => entryIf (r.unflagged scope && r.withoutOwners) r.operation.total time

section Worlds

variable (w : OutflowWorld)

/-- Everything drawn on a scope's budget. -/
def OutflowWorld.draws (scope : ScopeId) : List (Entry Unit) :=
  w.payouts.filterMap (·.draw scope) ++ w.operations.filterMap (·.draw scope)

/-- Everything drawn on a client's payout ceiling. -/
def OutflowWorld.drawsBy (client : ClientId) (scope : ScopeId) : List (Entry Unit) :=
  w.payouts.filterMap (·.drawBy client scope)

/-- Everything drawn on a client's transfer ceiling. -/
def OutflowWorld.sweeps (client : ClientId) (scope : ScopeId) : List (Entry Unit) :=
  w.transfers.filterMap (·.sweep client scope)

end Worlds

theorem entryIf_some {passes : Bool} {amount : Nat} {time : When} {e : Entry Unit}
    (h : entryIf passes amount time = some e) :
    passes = true ∧ e.amount = amount ∧ e.time = time := by
  unfold entryIf at h
  split_ifs at h with hp
  cases h
  exact ⟨hp, rfl, rfl⟩

theorem entryIf_pos {passes : Bool} (h : passes = true) (amount : Nat) (time : When) :
    entryIf passes amount time = some ⟨(), amount, time⟩ := if_pos h

theorem entryIf_neg {passes : Bool} (h : passes = false) (amount : Nat) (time : When) :
    entryIf passes amount time = none := if_neg (by simp [h])

/-- A record's row no longer passes, or passes as it did. -/
theorem entryIf_tightens {passes passes' : Bool} (h : passes' = true → passes = true)
    (amount : Nat) {time time' : When} (ht : time.Tightens time') :
    Tightens (entryIf passes amount time) (entryIf passes' amount time') := by
  cases hp : passes' with
  | false => exact .drop _
  | true =>
    rw [entryIf_pos (h hp), entryIf_pos rfl]
    exact .keep ⟨(), amount, time⟩ ht

/-! ## What the queries sum -/

/-- A sum formed is the exact one. -/
theorem sumAmounts_ok {amounts : List Nat} {what : String} {n : Nat}
    (h : sumAmounts amounts what = .ok n) : n = amounts.sum := by
  unfold sumAmounts at h
  suffices hfrom : n = 0 + amounts.sum by rwa [Nat.zero_add] at hfrom
  generalize 0 = start at h ⊢
  induction amounts generalizing start with
  | nil =>
    cases h
    rfl
  | cons amount amounts ih =>
    rw [List.foldlM_cons] at h
    obtain ⟨next, hnext, hrest⟩ := bind_ok_iff.mp h
    obtain ⟨-, hsum⟩ | ⟨-, hsum⟩ := Usdt.checkedAdd_cases start amount
    · rw [hsum] at hnext
      cases hnext
      rw [ih _ hrest, List.sum_cons, Nat.add_assoc]
    · rw [hsum] at hnext
      cases hnext

section Queries

variable {day : Int} (w : OutflowWorld)

/-- A client's recent payouts are summed. -/
theorem OutflowWorld.recent_le_paid24h (client : ClientId) (scope : ScopeId) (now : Int) :
    recent day now (w.drawsBy client scope) ≤ (w.paid24h day client scope now).sum := by
  refine Rolling.total_filterMap_le fun r _ e he hrecent => ?_
  obtain ⟨hpasses, hamount, htime⟩ := entryIf_some he
  rw [htime] at hrecent
  exact ⟨Bool.and_eq_true_iff.mpr ⟨hpasses, hrecent⟩, hamount⟩

/-- A client's recent transfers are summed. -/
theorem OutflowWorld.recent_le_transferred24h (client : ClientId) (scope : ScopeId) (now : Int) :
    recent day now (w.sweeps client scope) ≤ (w.transferred24h day client scope now).sum := by
  refine Rolling.total_filterMap_le fun r _ e he hrecent => ?_
  obtain ⟨hpasses, hamount, htime⟩ := entryIf_some he
  rw [htime] at hrecent
  exact ⟨Bool.and_eq_true_iff.mpr ⟨(Bool.and_eq_true_iff.mp hpasses).1, hrecent⟩, hamount⟩

/-- An operation that draws on the budget is a payout of the scope, by the scope's own decision. -/
theorem RecordedOperation.ownDecision_of_unflagged {r : RecordedOperation} {scope : ScopeId}
    (h : (r.unflagged scope && r.withoutOwners) = true) : r.ownDecision scope = true := by
  obtain ⟨hflag, hlevel⟩ := Bool.and_eq_true_iff.mp h
  obtain ⟨hscope, hbody⟩ := Bool.and_eq_true_iff.mp hflag
  refine Bool.and_eq_true_iff.mpr ⟨Bool.and_eq_true_iff.mpr ⟨hscope, ?_⟩, hlevel⟩
  unfold PendingOperation.kind
  cases hcases : r.operation.terms.body with
  | payout => rfl
  | transfer => simp [hcases] at hbody

/-- What is recent of a scope's draws is summed. -/
theorem OutflowWorld.recent_le_scopeOut24h (scope : ScopeId) (now : Int) :
    recent day now (w.draws scope) ≤ (w.scopeOut24h day scope now).sum := by
  unfold OutflowWorld.draws OutflowWorld.scopeOut24h
  rw [recent, Rolling.total_append, List.sum_append]
  refine Nat.add_le_add (Rolling.total_filterMap_le fun r _ e he hrecent => ?_)
    (Rolling.total_filterMap_le fun r _ e he hrecent => ?_)
  · obtain ⟨hpasses, hamount, htime⟩ := entryIf_some he
    rw [htime] at hrecent
    exact ⟨Bool.and_eq_true_iff.mpr ⟨hpasses, hrecent⟩, hamount⟩
  · obtain ⟨time, hat, hentry⟩ := Option.bind_eq_some_iff.mp he
    obtain ⟨hpasses, hamount, htime⟩ := entryIf_some hentry
    rw [htime] at hrecent
    refine ⟨Bool.and_eq_true_iff.mpr ⟨r.ownDecision_of_unflagged hpasses, ?_⟩, hamount⟩
    unfold RecordedOperation.drawnAt at hat
    cases hstate : r.progress.state with
    | awaitingApproval => rfl
    | executed =>
      rw [hstate] at hat
      obtain ⟨decided, hdecided, rfl⟩ := Option.map_eq_some_iff.mp hat
      simpa [hdecided, When.recent] using hrecent
    | rejected | failed => simp [hstate] at hat

end Queries

/-! ## What the windows hold -/

section Windows

variable (w : OutflowWorld) {lo hi : Int}

/-- A scope's day is what its draws hold of it. -/
theorem OutflowWorld.day_le_draws (scope : ScopeId) :
    w.paidIn lo hi scope + w.executedIn lo hi (·.withoutOwners) scope ≤
      total (When.within lo hi) (w.draws scope) := by
  unfold OutflowWorld.draws OutflowWorld.paidIn OutflowWorld.executedIn
  rw [Rolling.total_append]
  refine Nat.add_le_add (Rolling.le_total_filterMap fun r _ h => ?_)
    (Rolling.le_total_filterMap fun r _ h => ?_)
  · obtain ⟨hpasses, htime⟩ := Bool.and_eq_true_iff.mp h
    exact ⟨_, entryIf_pos hpasses _ _, htime, rfl⟩
  · simp only [Bool.and_eq_true, decide_eq_true_eq] at h
    obtain ⟨⟨⟨hflag, hlevel⟩, hstate⟩, hdecided⟩ := h
    obtain ⟨decided, hat, hin⟩ := (Option.any_eq_true _ _).mp hdecided
    have hdraw : r.draw scope = some ⟨(), r.operation.total, .stamped decided⟩ := by
      simp [RecordedOperation.draw, RecordedOperation.drawnAt, hstate, hat, entryIf, hflag, hlevel]
    exact ⟨_, hdraw, by simpa [When.within] using hin, rfl⟩

theorem OutflowWorld.day_le_drawsBy (client : ClientId) (scope : ScopeId) :
    w.paidByIn lo hi client scope ≤ total (When.within lo hi) (w.drawsBy client scope) :=
  Rolling.le_total_filterMap fun _ _ h => by
    obtain ⟨hpasses, htime⟩ := Bool.and_eq_true_iff.mp h
    exact ⟨_, entryIf_pos hpasses _ _, htime, rfl⟩

theorem OutflowWorld.day_le_sweeps (client : ClientId) (scope : ScopeId) :
    w.transferredByIn lo hi client scope ≤ total (When.within lo hi) (w.sweeps client scope) :=
  Rolling.le_total_filterMap fun _ _ h => by
    obtain ⟨hpasses, htime⟩ := Bool.and_eq_true_iff.mp h
    exact ⟨_, entryIf_pos hpasses _ _, htime, rfl⟩

end Windows

/-! ## Rows rewritten -/

/-- A payout marked by the ledger draws no more than it did. -/
theorem RecordedPayout.automatic_of_mark {r : RecordedPayout} {id : Uuid} {state : MoveState}
    {why : Option String} {scope : ScopeId} (h : (r.mark id state why).automatic scope = true) :
    r.automatic scope = true := by
  unfold RecordedPayout.mark at h
  split_ifs at h with hpending
  · simp only [RecordedPayout.automatic, Bool.and_eq_true] at h ⊢
    exact ⟨h.1, by rw [hpending.2]; rfl⟩
  · exact h

theorem RecordedPayout.mark_payout (r : RecordedPayout) (id : Uuid) (state : MoveState)
    (why : Option String) :
    (r.mark id state why).payout = r.payout ∧ (r.mark id state why).createdAt = r.createdAt := by
  unfold RecordedPayout.mark
  split_ifs <;> exact ⟨rfl, rfl⟩

theorem RecordedTransfer.automatic_of_mark {r : RecordedTransfer} {id : Uuid} {state : MoveState}
    {why : Option String} {client : ClientId} {scope : ScopeId}
    (h : (r.mark id state why).automatic client scope = true) :
    r.automatic client scope = true := by
  unfold RecordedTransfer.mark at h
  split_ifs at h with hpending
  · simp only [RecordedTransfer.automatic, Bool.and_eq_true] at h ⊢
    exact ⟨h.1, by rw [hpending.2]; rfl⟩
  · exact h

theorem RecordedTransfer.mark_transfer (r : RecordedTransfer) (id : Uuid) (state : MoveState)
    (why : Option String) : (r.mark id state why).transfer = r.transfer ∧
      (r.mark id state why).createdAt = r.createdAt := by
  unfold RecordedTransfer.mark
  split_ifs <;> exact ⟨rfl, rfl⟩

/-- A row's level is unknown until its approval is opened. -/
def RecordedOperation.LevelOpened (r : RecordedOperation) : Prop :=
  r.progress.approvalId = none → r.approvalLevel = none

/-- An operation's row rewritten: the same operation, requested when it was, drawing no more. -/
structure RecordedOperation.Narrows (r r' : RecordedOperation) : Prop where
  operation : r'.operation = r.operation
  createdAt : r'.createdAt = r.createdAt
  opened : r'.LevelOpened
  draw : ∀ scope, Tightens (r.draw scope) (r'.draw scope)

section Rows

variable {r : RecordedOperation} (hlevel : r.LevelOpened)

include hlevel

theorem RecordedOperation.Narrows.refl : r.Narrows r :=
  ⟨rfl, rfl, hlevel, fun _ => .refl _⟩

/-- An awaiting operation ends no earlier than it was requested, and counts from then on if it is
executed. -/
theorem RecordedOperation.Narrows.storeProgress {progress : OperationProgress} {now : Int}
    (hawaits : r.progress.state = .awaitingApproval)
    (hid : progress.approvalId = r.progress.approvalId)
    (hends : progress.state = .executed → r.createdAt ≤ now)
    (hleft : progress.state ≠ .awaitingApproval) :
    r.Narrows (r.storeProgress progress now) where
  operation := rfl
  createdAt := rfl
  opened hnone := hlevel (hid ▸ hnone)
  draw scope := by
    have hdraw : r.draw scope = entryIf (r.unflagged scope && r.withoutOwners) r.operation.total
        (.openSince r.createdAt) := by
      simp [RecordedOperation.draw, RecordedOperation.drawnAt, hawaits]
    cases hstate : progress.state with
    | awaitingApproval => exact absurd hstate hleft
    | executed =>
      have hdrawn : (r.storeProgress progress now).draw scope =
          entryIf (r.unflagged scope && r.withoutOwners) r.operation.total (.stamped now) := by
        unfold RecordedOperation.draw RecordedOperation.drawnAt RecordedOperation.storeProgress
        simp only [hstate, Option.map_some]
        rfl
      rw [hdraw, hdrawn]
      exact entryIf_tightens id _ (.stamp (hends hstate))
    | rejected | failed =>
      have hnone : (r.storeProgress progress now).draw scope = none := by
        simp [RecordedOperation.draw, RecordedOperation.drawnAt, RecordedOperation.storeProgress,
          hstate]
      rw [hnone]
      exact .drop _

/-- Opening an approval takes an operation off the budget when the owners decide it. -/
theorem RecordedOperation.Narrows.opened_row (approvalId : String)
    (level : Option ApprovalLevel) : r.Narrows (r.opened approvalId level).2 := by
  cases hknown : r.progress.approvalId with
  | some known =>
    have hsame : (r.opened approvalId level).2 = r := by
      unfold RecordedOperation.opened
      rw [hknown]
      dsimp only
      split_ifs <;> rfl
    rw [hsame]
    exact .refl hlevel
  | none =>
    have heq : (r.opened approvalId level).2 = { r with
        progress := { r.progress with approvalId := some approvalId }
        approvalLevel := level } := by
      simp [RecordedOperation.opened, hknown]
    rw [heq]
    refine ⟨rfl, rfl, (fun hnone => by cases hnone), fun scope => ?_⟩
    have hown : r.withoutOwners = true := by simp [RecordedOperation.withoutOwners, hlevel hknown]
    unfold RecordedOperation.draw
    have hat : RecordedOperation.drawnAt { r with
        progress := { r.progress with approvalId := some approvalId }
        approvalLevel := level } = r.drawnAt := rfl
    rw [hat]
    cases r.drawnAt with
    | none => exact .drop _
    | some time =>
      refine entryIf_tightens (fun h => ?_) _ (.same time)
      rw [hown, Bool.and_true]
      exact (Bool.and_eq_true_iff.mp h).1

/-- An operation closed draws nothing more. -/
theorem RecordedOperation.Narrows.close_row (finish : OperationEnd) (reason : String) (now : Int) :
    r.Narrows (r.close finish reason now).2 := by
  by_cases hstate : r.progress.state = .awaitingApproval
  · unfold RecordedOperation.close
    rw [if_neg (by simp [hstate])]
    cases finish with
    | rejected | failed =>
      simp only [OperationProgress.reject, OperationProgress.fail,
        OperationProgress.leaveAwaiting, hstate]
      refine .storeProgress hlevel hstate rfl ?_ ?_
      · intro hends
        cases hends
      · intro hends
        cases hends
  · unfold RecordedOperation.close
    rw [if_pos hstate]
    exact .refl hlevel

/-- An operation executed counts from its execution on. -/
theorem RecordedOperation.Narrows.execute_row
    (carried : RecordedOperation → Except TransferError Execution) {now : Int}
    (hsince : r.createdAt ≤ now) : r.Narrows (r.execute carried now).2 := by
  by_cases hstate : r.progress.state = .awaitingApproval
  · unfold RecordedOperation.execute
    rw [if_neg (by simp [hstate])]
    cases hcarried : carried r with
    | error e => exact .refl hlevel
    | ok done =>
      cases done with
      | payout | transfer | fail =>
        simp only [OperationProgress.execute, OperationProgress.fail,
          OperationProgress.leaveAwaiting, hstate]
        refine .storeProgress hlevel hstate rfl (fun _ => hsince) ?_
        intro hends
        cases hends
  · rw [RecordedOperation.execute, if_pos hstate]
    exact .refl hlevel

end Rows

/-! ## What a transaction relies on -/

/-- There is an operation under an id, and every one there is was requested by some time. -/
def OutflowWorld.RequestedBy (w : OutflowWorld) (id : Uuid) (time : Int) : Prop :=
  (∃ r ∈ w.operations, r.operation.id = id) ∧
    ∀ r ∈ w.operations, r.operation.id = id → r.createdAt ≤ time

/-- What a transaction relies on the others for: time and the locks go forward, an operation keeps
the time it was requested at, and nothing is drawn under a lock nobody has committed under. -/
structure OutflowWorld.Evolves (day : Int) (w w' : OutflowWorld) : Prop where
  clock : w.clock ≤ w'.clock
  locks : ∀ l, w.locks l ≤ w'.locks l
  requested : ∀ id time, w.RequestedBy id time → w'.RequestedBy id time
  budget : ∀ scope, w'.locks (.budget scope) = w.locks (.budget scope) → ∀ now,
    recent day now (w'.draws scope) ≤ recent day now (w.draws scope)
  payouts : ∀ client scope, w'.locks (.budget scope) = w.locks (.budget scope) → ∀ now,
    recent day now (w'.drawsBy client scope) ≤ recent day now (w.drawsBy client scope)
  transfers : ∀ client scope, w'.locks (.ceiling client scope) = w.locks (.ceiling client scope) →
    ∀ now, recent day now (w'.sweeps client scope) ≤ recent day now (w.sweeps client scope)

/-- The windows of a scope are under its policy's ceilings. -/
structure OutflowWorld.Sound (day : Int) (scope : ScopeId) (policy : ScopePolicy)
    (w : OutflowWorld) : Prop where
  budget : Bounded day policy.scopeBudget24h (w.draws scope)
  payouts : ∀ client, Bounded day policy.autoPayout24h (w.drawsBy client scope)
  transfers : ∀ client, Bounded day policy.autoTransfer24h (w.sweeps client scope)
  begun : ∀ r ∈ w.operations, r.createdAt ≤ w.clock
  opened : ∀ r ∈ w.operations, r.LevelOpened

/-- A step others may rely on, into a sound world. -/
structure OutflowWorld.Keeps (day : Int) (scope : ScopeId) (policy : ScopePolicy)
    (w w' : OutflowWorld) : Prop where
  evolves : w.Evolves day w'
  sound : w'.Sound day scope policy

section Keeping

variable {day : Int} {scope : ScopeId} {policy : ScopePolicy} {w w' w'' : OutflowWorld}

theorem OutflowWorld.Evolves.refl (w : OutflowWorld) : w.Evolves day w :=
  ⟨le_rfl, fun _ => le_rfl, fun _ _ h => h, fun _ _ _ => le_rfl, fun _ _ _ _ => le_rfl,
    fun _ _ _ _ => le_rfl⟩

/-- A count unmoved over two steps is unmoved over each. -/
theorem OutflowWorld.Evolves.unmoved (h : w.Evolves day w') (h' : w'.Evolves day w'')
    {l : OutflowLock} (heq : w''.locks l = w.locks l) :
    w'.locks l = w.locks l ∧ w''.locks l = w'.locks l := by
  have hfirst := h.locks l
  have hsecond := h'.locks l
  omega

theorem OutflowWorld.Evolves.trans (h : w.Evolves day w') (h' : w'.Evolves day w'') :
    w.Evolves day w'' where
  clock := h.clock.trans h'.clock
  locks l := (h.locks l).trans (h'.locks l)
  requested id time hr := h'.requested id time (h.requested id time hr)
  budget scope heq now := by
    obtain ⟨hfirst, hsecond⟩ := h.unmoved h' heq
    exact (h'.budget scope hsecond now).trans (h.budget scope hfirst now)
  payouts client scope heq now := by
    obtain ⟨hfirst, hsecond⟩ := h.unmoved h' heq
    exact (h'.payouts client scope hsecond now).trans (h.payouts client scope hfirst now)
  transfers client scope heq now := by
    obtain ⟨hfirst, hsecond⟩ := h.unmoved h' heq
    exact (h'.transfers client scope hsecond now).trans (h.transfers client scope hfirst now)

theorem OutflowWorld.Sound.stay (h : w.Sound day scope policy) : w.Keeps day scope policy w :=
  ⟨.refl w, h⟩

/-! ## Rows marked and rewritten -/

/-- The ledger's answers only take payouts off the windows. -/
theorem OutflowWorld.Sound.payoutMarked (h : w.Sound day scope policy) (id : Uuid)
    (state : MoveState) (why : Option String) :
    w.Keeps day scope policy { w with payouts := w.payouts.map (·.mark id state why) } := by
  have hby : ∀ client scope, Shrinks (w.drawsBy client scope)
      ((w.payouts.map (·.mark id state why)).filterMap (·.drawBy client scope)) := by
    refine fun client scope => Rolling.shrinks_filterMap_map fun r _ => ?_
    obtain ⟨hpayout, hcreated⟩ := r.mark_payout id state why
    simp only [RecordedPayout.drawBy, hpayout, hcreated]
    refine entryIf_tightens (fun hp => ?_) _ (.same _)
    rw [Bool.and_eq_true] at hp ⊢
    exact ⟨hp.1, RecordedPayout.automatic_of_mark hp.2⟩
  have hdraws : ∀ scope, Shrinks (w.draws scope)
      (OutflowWorld.draws { w with payouts := w.payouts.map (·.mark id state why) } scope) := by
    refine fun scope => .append (Rolling.shrinks_filterMap_map fun r _ => ?_) (.refl _)
    obtain ⟨hpayout, hcreated⟩ := r.mark_payout id state why
    simp only [RecordedPayout.draw, hpayout, hcreated]
    exact entryIf_tightens RecordedPayout.automatic_of_mark _ (.same _)
  exact ⟨⟨le_rfl, fun _ => le_rfl, fun _ _ hr => hr, fun s _ now => (hdraws s).recent_le day now,
      fun c s _ now => (hby c s).recent_le day now, fun _ _ _ _ => le_rfl⟩,
    ⟨(hdraws scope).bounded h.budget, fun c => (hby c scope).bounded (h.payouts c), h.transfers,
      h.begun, h.opened⟩⟩

/-- And transfers. -/
theorem OutflowWorld.Sound.transferMarked (h : w.Sound day scope policy) (id : Uuid)
    (state : MoveState) (why : Option String) :
    w.Keeps day scope policy { w with transfers := w.transfers.map (·.mark id state why) } := by
  have hsweeps : ∀ client scope, Shrinks (w.sweeps client scope)
      ((w.transfers.map (·.mark id state why)).filterMap (·.sweep client scope)) := by
    refine fun client scope => Rolling.shrinks_filterMap_map fun r _ => ?_
    obtain ⟨htransfer, hcreated⟩ := r.mark_transfer id state why
    simp only [RecordedTransfer.sweep, htransfer, hcreated]
    refine entryIf_tightens (fun hp => ?_) _ (.same _)
    rw [Bool.and_eq_true] at hp ⊢
    exact ⟨RecordedTransfer.automatic_of_mark hp.1, hp.2⟩
  exact ⟨⟨le_rfl, fun _ => le_rfl, fun _ _ hr => hr, fun _ _ _ => le_rfl, fun _ _ _ _ => le_rfl,
      fun c s _ now => (hsweeps c s).recent_le day now⟩,
    ⟨h.budget, h.payouts, fun c => (hsweeps c scope).bounded (h.transfers c), h.begun, h.opened⟩⟩

/-- Rewriting an operation's row so that it draws no more. -/
theorem OutflowWorld.Sound.update (h : w.Sound day scope policy) (id : Uuid)
    {f : RecordedOperation → RecordedOperation}
    (hf : ∀ r ∈ w.operations, r.operation.id = id → r.Narrows (f r)) :
    w.Keeps day scope policy (w.update id f) := by
  have hrow : ∀ r ∈ w.operations, r.Narrows (if r.operation.id = id then f r else r) := by
    intro r hr
    split_ifs with hid
    · exact hf r hr hid
    · exact .refl (h.opened r hr)
  have hdraws : ∀ scope, Shrinks (w.draws scope) ((w.update id f).draws scope) := fun scope =>
    .append (.refl _) (Rolling.shrinks_filterMap_map fun r hr => (hrow r hr).draw scope)
  refine ⟨⟨le_rfl, fun _ => le_rfl, ?_, fun s _ now => (hdraws s).recent_le day now,
    fun _ _ _ _ => le_rfl, fun _ _ _ _ => le_rfl⟩,
    ⟨(hdraws scope).bounded h.budget, h.payouts, h.transfers, ?_, ?_⟩⟩
  · rintro other time ⟨⟨r, hr, hid⟩, hall⟩
    refine ⟨⟨_, List.mem_map_of_mem hr, by rw [(hrow r hr).operation, hid]⟩, ?_⟩
    intro r' hr' hid'
    obtain ⟨r, hr, rfl⟩ := List.mem_map.mp hr'
    rw [(hrow r hr).createdAt]
    exact hall r hr (by rw [← hid', (hrow r hr).operation])
  · intro r' hr'
    obtain ⟨r, hr, rfl⟩ := List.mem_map.mp hr'
    rw [(hrow r hr).createdAt]
    exact h.begun r hr
  · intro r' hr'
    obtain ⟨r, hr, rfl⟩ := List.mem_map.mp hr'
    exact (hrow r hr).opened

/-! ## Rows recorded -/

/-- A payout that draws on nothing, or on a budget whose lock moves with it and that it fits. -/
theorem OutflowWorld.Sound.insertPayout (h : w.Sound day scope policy) (r : RecordedPayout)
    {locks : OutflowLock → Nat} (hlocks : ∀ l, w.locks l ≤ locks l)
    (hmoves : r.automatic r.payout.terms.scope = true →
      locks (.budget r.payout.terms.scope) ≠ w.locks (.budget r.payout.terms.scope))
    (hfits : r.automatic scope = true →
      recent day r.createdAt (w.draws scope) + r.payout.total ≤ policy.scopeBudget24h ∧
      recent day r.createdAt (w.drawsBy r.payout.terms.client scope) + r.payout.total ≤
        policy.autoPayout24h) :
    w.Keeps day scope policy { w with locks, payouts := r :: w.payouts } := by
  have hscope : ∀ s, r.automatic s = true → s = r.payout.terms.scope := by
    intro s hs
    simp only [RecordedPayout.automatic, Bool.and_eq_true, decide_eq_true_eq] at hs
    exact hs.1.1.symm
  have hother : ∀ s, locks (.budget s) = w.locks (.budget s) → r.automatic s = false := by
    intro s heq
    by_contra hs
    have hauto : r.automatic s = true := by simpa using hs
    obtain rfl := hscope s hauto
    exact hmoves hauto heq
  refine ⟨⟨le_rfl, hlocks, fun _ _ hr => hr, ?_, ?_, fun _ _ _ _ => le_rfl⟩,
    ⟨?_, fun client => ?_, h.transfers, h.begun, h.opened⟩⟩
  · intro s heq now
    have hnone : r.draw s = none := entryIf_neg (hother s heq) _ _
    simp only [OutflowWorld.draws, List.filterMap_cons_none hnone]
    exact le_rfl
  · intro client s heq now
    have hnone : r.drawBy client s = none := entryIf_neg (by simp [hother s heq]) _ _
    simp only [OutflowWorld.drawsBy, List.filterMap_cons_none hnone]
    exact le_rfl
  · cases hauto : r.automatic scope with
    | false =>
      have hnone : r.draw scope = none := entryIf_neg hauto _ _
      simp only [OutflowWorld.draws, List.filterMap_cons_none hnone]
      exact h.budget
    | true =>
      have hsome : r.draw scope = some ⟨(), r.payout.total, .stamped r.createdAt⟩ :=
        entryIf_pos hauto _ _
      simp only [OutflowWorld.draws, List.filterMap_cons_some hsome, List.cons_append]
      exact h.budget.push (hfits hauto).1
  · cases hby : (r.payout.terms.client = client && r.automatic scope : Bool) with
    | false =>
      have hnone : r.drawBy client scope = none := entryIf_neg hby _ _
      simp only [OutflowWorld.drawsBy, List.filterMap_cons_none hnone]
      exact h.payouts client
    | true =>
      have hsome : r.drawBy client scope = some ⟨(), r.payout.total, .stamped r.createdAt⟩ :=
        entryIf_pos hby _ _
      simp only [OutflowWorld.drawsBy, List.filterMap_cons_some hsome]
      obtain ⟨hclient, hauto⟩ := Bool.and_eq_true_iff.mp hby
      obtain rfl : r.payout.terms.client = client := by simpa using hclient
      exact (h.payouts _).push (hfits hauto).2

/-- A transfer that draws on nothing, or on a ceiling whose lock moves with it and that it fits. -/
theorem OutflowWorld.Sound.insertTransfer (h : w.Sound day scope policy) (r : RecordedTransfer)
    {locks : OutflowLock → Nat} (hlocks : ∀ l, w.locks l ≤ locks l)
    (hmoves : ∀ client s, (r.sweep client s).isSome →
      locks (.ceiling client s) ≠ w.locks (.ceiling client s))
    (hfits : ∀ client, (r.sweep client scope).isSome →
      recent day r.createdAt (w.sweeps client scope) + r.transfer.terms.amount ≤
        policy.autoTransfer24h) :
    w.Keeps day scope policy { w with locks, transfers := r :: w.transfers } := by
  refine ⟨⟨le_rfl, hlocks, fun _ _ hr => hr, fun _ _ _ => le_rfl, fun _ _ _ _ => le_rfl, ?_⟩,
    ⟨h.budget, h.payouts, fun client => ?_, h.begun, h.opened⟩⟩
  · intro client s heq now
    cases hsweep : r.sweep client s with
    | none =>
      simp only [OutflowWorld.sweeps, List.filterMap_cons_none hsweep]
      exact le_rfl
    | some e => exact absurd heq (hmoves client s (by simp [hsweep]))
  · cases hsweep : r.sweep client scope with
    | none =>
      simp only [OutflowWorld.sweeps, List.filterMap_cons_none hsweep]
      exact h.transfers client
    | some e =>
      simp only [OutflowWorld.sweeps, List.filterMap_cons_some hsweep]
      obtain ⟨-, hamount, htime⟩ := entryIf_some hsweep
      refine (h.transfers client).push ?_
      rw [htime, hamount]
      exact hfits client (by simp [hsweep])

/-- A requested operation, which draws on nothing or on a budget whose lock moves with it and that
it fits. -/
theorem OutflowWorld.Sound.insertOperation (h : w.Sound day scope policy) (r : RecordedOperation)
    {locks : OutflowLock → Nat} (hlocks : ∀ l, w.locks l ≤ locks l)
    (hnew : ∀ s ∈ w.operations, s.operation.id ≠ r.operation.id) (hbegun : r.createdAt ≤ w.clock)
    (hlevel : r.LevelOpened) (hawaits : r.progress.state = .awaitingApproval)
    (hmoves : ∀ s, r.unflagged s = true → locks (.budget s) ≠ w.locks (.budget s))
    (hfits : r.unflagged scope = true →
      recent day r.createdAt (w.draws scope) + r.operation.total ≤ policy.scopeBudget24h) :
    w.Keeps day scope policy { w with locks, operations := r :: w.operations } := by
  have hat : r.drawnAt = some (.openSince r.createdAt) := by
    simp [RecordedOperation.drawnAt, hawaits]
  have hdraw : ∀ s, r.draw s =
      entryIf (r.unflagged s && r.withoutOwners) r.operation.total (.openSince r.createdAt) := by
    intro s
    rw [RecordedOperation.draw, hat, Option.bind_some]
  have hnone : ∀ s, r.draw s = none →
      OutflowWorld.draws { w with locks, operations := r :: w.operations } s = w.draws s := by
    intro s hs
    simp only [OutflowWorld.draws, List.filterMap_cons_none hs]
  refine ⟨⟨le_rfl, hlocks, ?_, ?_, fun _ _ _ _ => le_rfl, fun _ _ _ _ => le_rfl⟩,
    ⟨?_, h.payouts, h.transfers, ?_, ?_⟩⟩
  · rintro id time ⟨⟨s, hs, hid⟩, hall⟩
    refine ⟨⟨s, List.mem_cons_of_mem _ hs, hid⟩, fun r' hr' hid' => ?_⟩
    rcases List.mem_cons.mp hr' with rfl | hr'
    · exact absurd (hid.trans hid'.symm) (hnew s hs)
    · exact hall r' hr' hid'
  · intro s heq now
    rw [hnone s]
    rw [hdraw s]
    refine entryIf_neg ?_ _ _
    cases hflag : r.unflagged s with
    | false => rfl
    | true => exact absurd heq (hmoves s hflag)
  · cases hdrawn : r.draw scope with
    | none =>
      rw [hnone scope hdrawn]
      exact h.budget
    | some e =>
      rw [hdraw scope] at hdrawn
      obtain ⟨hpasses, hamount, htime⟩ := entryIf_some hdrawn
      -- the record stands among the draws, not first: a sum does not see the difference
      have hpush : Bounded day policy.scopeBudget24h (e :: w.draws scope) := by
        refine h.budget.push ?_
        rw [htime, hamount]
        exact hfits (Bool.and_eq_true_iff.mp hpasses).1
      refine hpush.mono fun lo hi => le_of_eq ?_
      unfold OutflowWorld.draws
      rw [List.filterMap_cons_some ((hdraw scope).trans hdrawn), Rolling.total_append,
        Rolling.total_cons, Rolling.total_cons, Rolling.total_append]
      exact Nat.add_left_comm _ _ _
  · intro s hs
    rcases List.mem_cons.mp hs with rfl | hs
    · exact hbegun
    · exact h.begun s hs
  · intro s hs
    rcases List.mem_cons.mp hs with rfl | hs
    · exact hlevel
    · exact h.opened s hs

/-- What an execution made belongs to its operation, and draws on nothing of its own. -/
theorem OutflowWorld.Sound.recordsDone (h : w.Sound day scope policy) (now : Int)
    {done : Option Execution}
    (hdone : ∀ d, done = some d → d.leaves = .executed → ∃ r, d.CarriesOut r) :
    w.Keeps day scope policy (w.recordsDone now done) := by
  cases done with
  | none => exact h.stay
  | some d =>
    cases d with
    | fail reason => exact h.stay
    | payout p events =>
      obtain ⟨r, -, -, _, _, _, -, hterms⟩ := hdone _ rfl rfl
      have hauto : ∀ s, RecordedPayout.automatic ⟨p, .pending, none, now⟩ s = false := by
        simp [RecordedPayout.automatic, hterms, PendingOperation.payoutTerms]
      refine h.insertPayout ⟨p, .pending, none, now⟩ (fun _ => le_rfl) ?_ ?_
      · intro hpasses
        rw [hauto] at hpasses
        cases hpasses
      · intro hpasses
        rw [hauto] at hpasses
        cases hpasses
    | transfer t events =>
      obtain ⟨r, -, _, _, -, hterms⟩ := hdone _ rfl rfl
      have hsweep : ∀ c s, RecordedTransfer.sweep c s ⟨t, .pending, none, now⟩ = none := by
        intro c s
        refine entryIf_neg ?_ _ _
        simp [RecordedTransfer.automatic, hterms, PendingOperation.transferTerms]
      refine h.insertTransfer ⟨t, .pending, none, now⟩ (fun _ => le_rfl) ?_ ?_
      · intro c s hsome
        simp [hsweep] at hsome
      · intro c hsome
        simp [hsweep] at hsome

/-- **An execution**, in a transaction begun when the operation was there. -/
theorem OutflowWorld.Sound.execute (h : w.Sound day scope policy) {id : Uuid} {now : Int}
    (hsince : w.RequestedBy id now) (grants : Grants) (facts : ExecutionFacts)
    (spendable : Except DomainError Nat) (fresh : Uuid) :
    w.Keeps day scope policy (w.execute id (·.carry grants facts spendable fresh) now).2 := by
  unfold OutflowWorld.execute
  cases hfind : w.operations.find? (·.operation.id = id) with
  | none => exact h.stay
  | some r =>
    dsimp only
    cases hmade : (r.execute (·.carry grants facts spendable fresh) now).1 with
    | error e => exact h.stay
    | ok done =>
      have hrows := h.update id (f := fun r => (r.execute (·.carry grants facts spendable fresh)
        now).2) fun s hs hid => .execute_row (h.opened s hs) _ (hsince.2 s hs hid)
      have hdone : ∀ d, done = some d → d.leaves = .executed → ∃ r, d.CarriesOut r := by
        rintro d rfl hleaves
        refine ⟨r, ?_⟩
        obtain ⟨-, heq⟩ | ⟨-, ⟨e, -, heq⟩ | ⟨d', r', hcarry, heq, -⟩⟩ :=
          r.execute_cases (·.carry grants facts spendable fresh) now
        · rw [heq] at hmade
          cases hmade
        · rw [heq] at hmade
          cases hmade
        · rw [heq] at hmade
          cases hmade
          exact RecordedOperation.carry_carriesOut hcarry hleaves
      have hrecord := hrows.sound.recordsDone now hdone
      exact ⟨hrows.evolves.trans hrecord.evolves, hrecord.sound⟩

end Keeping

end Banking
