import Banking.Operations

/-! # One operation's life

The commands of a pending operation, in any order and repeated at will: concierge's answer to its
proposal, a passed decision pulled and re-read, where its approval stands, its expiry, its
execution, a failure. A log keeps which decisions were cleared to execute it and what was recorded
for it, the newest first. -/

namespace Banking

/-! ## Commands -/

/-- What happens under an operation: a decision is cleared to execute it, or what carries it out is
recorded. -/
inductive OperationEvent
  | cleared (approval : ApprovalView)
  | recorded (done : Execution)

/-- What carries the operation out, of an event. -/
def OperationEvent.effect : OperationEvent → Option Execution
  | .cleared _ => none
  | .recorded done => some done

/-- An operation's record and what happened under it. -/
structure OperationLife where
  record : RecordedOperation
  log : List OperationEvent

/-- What was recorded to carry the operation out. -/
def OperationLife.effects (l : OperationLife) : List Execution := l.log.filterMap (·.effect)

/-- Whether a decision was cleared to execute the operation. -/
def OperationLife.hasCleared (l : OperationLife) (approval : ApprovalView) : Bool :=
  l.log.any fun event =>
    match event with
    | .cleared view => view = approval
    | .recorded _ => false

theorem OperationLife.mem_of_hasCleared {l : OperationLife} {approval : ApprovalView}
    (h : l.hasCleared approval = true) : .cleared approval ∈ l.log := by
  obtain ⟨event, hevent, his⟩ := List.any_eq_true.mp h
  cases event with
  | cleared view => exact of_decide_eq_true his ▸ hevent
  | recorded done => cases his

/-- A command on an operation. Each is what the executor does with one answer of concierge, or one
write of the store. -/
inductive OperationCommand
  | propose (answer : Except ApprovalsError ApprovalView) (now : Int)
  | approve (pulled reread : ApprovalView) (now : Int)
  | reject (approval : ApprovalView) (now : Int)
  | expire (now : Int)
  | execute (approval : ApprovalView) (facts : ExecutionFacts)
      (spendable : Except DomainError Nat) (fresh : Uuid) (now : Int)
  | fail (reason : String) (now : Int)

/-- How long an operation may wait for its approval to be opened. -/
def UNOPENED_MAX_AGE_SECS : Int := 72 * 3600

/-- Whether a state of an approval ends the operation that waits for it. -/
def ApprovalState.refuses : ApprovalState → Bool
  | .isOpen | .passed | .executed | .executionFailed => false
  | .rejected | .vetoed | .expired | .cancelled | .void => true

/-- A command's answer with what it wrote. -/
def OperationLife.write {ε α : Type} (l : OperationLife) (toError : ε → TransferError)
    (r : Except ε α × RecordedOperation) : Except TransferError Unit × OperationLife :=
  match r with
  | (.error e, record) => (.error (toError e), { l with record })
  | (.ok _, record) => (.ok (), { l with record })

section Commands

variable (sha256Hex : String → String) (grants : Grants)

/-- A passed decision, pulled and re-read: void when another approval decides the operation, nothing
when it is decided or the decision is no longer passed, the operation's failure when it is not its
own; else the approval is opened and the decision cleared to execute. -/
def OperationLife.approve (l : OperationLife) (pulled reread : ApprovalView) (now : Int) :
    Except TransferError Unit × OperationLife :=
  if l.record.progress.approvalId.any (· ≠ pulled.id) then (.ok (), l)
  else if l.record.progress.state ≠ .awaitingApproval then (.ok (), l)
  else if reread.state ≠ .passed ∨ reread.id ≠ pulled.id then (.ok (), l)
  else
    match l.record.mismatch sha256Hex reread with
    | some _ => l.write .domain (l.record.close .failed "approval_mismatch" now)
    | none =>
      match l.record.opened reread.id reread.level with
      | (.error e, _) => (.error (.domain e), l)
      | (.ok (), record) => (.ok (), ⟨record, .cleared reread :: l.log⟩)

/-- A command carried out. -/
def OperationLife.command (l : OperationLife) :
    OperationCommand → Except TransferError Unit × OperationLife
  | .propose answer now =>
    match l.record.proposal, answer with
    | .error e, _ => (.error (.domain e), l)
    | .ok _, .ok view =>
      if view.payloadHash ≠ l.record.payloadHash then
        l.write .domain (l.record.close .rejected "approval_mismatch" now)
      else l.write .domain (l.record.opened view.id view.level)
    | .ok _, .error (.refused _) =>
      l.write .domain (l.record.close .rejected "proposal_refused" now)
    | .ok _, .error (.throttled _) | .ok _, .error (.unavailable _) => (.ok (), l)
  | .approve pulled reread now => l.approve sha256Hex pulled reread now
  | .reject approval now =>
    if l.record.progress.approvalId ≠ some approval.id then (.ok (), l)
    else if approval.state.refuses then
      l.write .domain
        (l.record.close .rejected ("approval_" ++ approval.state.asStr) now)
    else (.ok (), l)
  | .expire now =>
    if l.record.progress.approvalId = none ∧ l.record.createdAt < now - UNOPENED_MAX_AGE_SECS then
      l.write .domain (l.record.close .rejected "proposal_not_opened" now)
    else (.ok (), l)
  | .execute approval facts spendable fresh now =>
    -- The executor goes on to the store only with a decision it cleared.
    if l.hasCleared approval then
      match l.record.execute (·.carry grants facts spendable fresh) now with
      | (.error e, _) => (.error e, l)
      | (.ok none, _) => (.ok (), l)
      | (.ok (some done), record) =>
        (.ok (), ⟨record, if done.leaves = .executed then .recorded done :: l.log else l.log⟩)
    else (.ok (), l)
  | .fail reason now => l.write .domain (l.record.close .failed reason now)

/-- Commands one after another, each whatever the last one answered. -/
def OperationLife.replay (l : OperationLife) (cs : List OperationCommand) : OperationLife :=
  cs.foldl (fun l c => (l.command sha256Hex grants c).2) l

end Commands

/-! ## What a command does -/

/-- What a command does to an operation's life: its record goes on, and the log gets at most one
event, which is only what the record allows. -/
inductive OperationLife.Moves (sha256Hex : String → String) (l : OperationLife) :
    OperationLife → Prop
  | goes {record : RecordedOperation} (h : l.record.Advances record)
      (hends : record.progress.state ≠ .executed ∨
        record.progress.state = l.record.progress.state) :
      Moves sha256Hex l { l with record }
  | clears {record : RecordedOperation} {approval : ApprovalView} (h : l.record.Advances record)
      (hpassed : approval.state = .passed)
      (hmatch : l.record.mismatch sha256Hex approval = none)
      (hid : record.progress.approvalId = some approval.id)
      (hstate : record.progress.state = l.record.progress.state) :
      Moves sha256Hex l ⟨record, .cleared approval :: l.log⟩
  | records {record : RecordedOperation} {approval : ApprovalView} {done : Execution}
      (h : l.record.Advances record) (hcleared : .cleared approval ∈ l.log)
      (hawaits : l.record.progress.state = .awaitingApproval)
      (hstate : record.progress.state = .executed) (hdone : done.CarriesOut l.record) :
      Moves sha256Hex l ⟨record, .recorded done :: l.log⟩

section Moves

variable {sha256Hex : String → String} {grants : Grants} {l : OperationLife}

theorem OperationLife.Moves.stay : l.Moves sha256Hex l := .goes (.refl l.record) (.inr rfl)

/-- What a command answers and leaves: a failure leaves everything, a success moves. -/
def OperationLife.Answers (sha256Hex : String → String) (l : OperationLife)
    (r : Except TransferError Unit × OperationLife) : Prop :=
  ((∃ e, r.1 = .error e) ∧ r.2 = l) ∨ (r.1 = .ok () ∧ l.Moves sha256Hex r.2)

theorem OperationLife.Answers.idle : l.Answers sha256Hex (.ok (), l) := .inr ⟨rfl, .stay⟩

/-- Ending an operation, as a command. -/
theorem OperationLife.answers_close (finish : OperationEnd) (reason : String) (now : Int) :
    l.Answers sha256Hex (l.write .domain (l.record.close finish reason now)) := by
  obtain ⟨-, heq⟩ | ⟨-, r', heq, hadv, -, hstate⟩ := l.record.close_cases finish reason now
  · rw [heq]
    exact .idle
  · rw [heq]
    refine .inr ⟨rfl, .goes hadv (.inl ?_)⟩
    cases finish <;> simp [hstate]

/-- Opening an approval, as a command. -/
theorem OperationLife.answers_opened (approvalId : String) (level : Option ApprovalLevel) :
    l.Answers sha256Hex (l.write .domain (l.record.opened approvalId level)) := by
  obtain ⟨⟨e, he⟩, hr⟩ | ⟨hok, -, hstate, hadv⟩ := l.record.opened_cases approvalId level
  · have heq : l.record.opened approvalId level = (.error e, l.record) := Prod.ext he hr
    rw [heq]
    exact .inl ⟨⟨_, rfl⟩, rfl⟩
  · have heq : l.record.opened approvalId level =
        (.ok (), (l.record.opened approvalId level).2) := Prod.ext hok rfl
    rw [heq]
    exact .inr ⟨rfl, .goes hadv (.inr hstate)⟩

/-- A passed decision, as a command. -/
theorem OperationLife.answers_approve (pulled reread : ApprovalView) (now : Int) :
    l.Answers sha256Hex (l.approve sha256Hex pulled reread now) := by
  unfold OperationLife.approve
  split_ifs with hother hdecided hpassed
  · exact .idle
  · exact .idle
  · exact .idle
  · cases hmatch : l.record.mismatch sha256Hex reread with
    | some field => exact answers_close _ _ _
    | none =>
      have hstate := (not_or.mp hpassed).1
      rw [not_not] at hstate
      obtain ⟨⟨e, he⟩, hr⟩ | ⟨hok, hid, hkept, hadv⟩ :=
        l.record.opened_cases reread.id reread.level
      · have heq : l.record.opened reread.id reread.level = (.error e, l.record) := Prod.ext he hr
        rw [heq]
        exact .inl ⟨⟨_, rfl⟩, rfl⟩
      · have heq : l.record.opened reread.id reread.level =
            (.ok (), (l.record.opened reread.id reread.level).2) := Prod.ext hok rfl
        rw [heq]
        exact .inr ⟨rfl, .clears hadv hstate hmatch hid hkept⟩

/-- The store's execution, as a command. -/
theorem OperationLife.answers_execute (approval : ApprovalView) (facts : ExecutionFacts)
    (spendable : Except DomainError Nat) (fresh : Uuid) (now : Int) :
    l.Answers sha256Hex
      (l.command sha256Hex grants (.execute approval facts spendable fresh now)) := by
  simp only [OperationLife.command]
  split_ifs with hcleared
  · obtain ⟨-, heq⟩ | ⟨hawaits, ⟨e, -, heq⟩ | ⟨done, r', hcarry, heq, hadv, -, hstate⟩⟩ :=
      l.record.execute_cases (·.carry grants facts spendable fresh) now
    · rw [heq]
      exact .idle
    · rw [heq]
      exact .inl ⟨⟨e, rfl⟩, rfl⟩
    · rw [heq]
      by_cases hdone : done.leaves = .executed
      · simp only [hdone, if_true]
        exact .inr ⟨rfl, .records hadv (mem_of_hasCleared hcleared) hawaits (hstate.trans hdone)
          (RecordedOperation.carry_carriesOut hcarry hdone)⟩
      · simp only [hdone, if_false]
        exact .inr ⟨rfl, .goes hadv (.inl (hstate ▸ hdone))⟩
  · exact .idle

/-- **One command.** It moves the operation's life on, or it fails and does nothing. -/
theorem OperationLife.command_answers (sha256Hex : String → String) (grants : Grants)
    (l : OperationLife) (c : OperationCommand) :
    l.Answers sha256Hex (l.command sha256Hex grants c) := by
  cases c with
  | propose answer now =>
    simp only [OperationLife.command]
    cases l.record.proposal with
    | error e => exact .inl ⟨⟨_, rfl⟩, rfl⟩
    | ok proposal =>
      rcases answer with (why | why | why) | view
      · exact answers_close _ _ _
      · exact .idle
      · exact .idle
      · dsimp only
        split_ifs
        · exact answers_close _ _ _
        · exact answers_opened _ _
  | approve pulled reread now => exact answers_approve pulled reread now
  | reject approval now =>
    simp only [OperationLife.command]
    split_ifs
    · exact .idle
    · exact answers_close _ _ _
    · exact .idle
  | expire now =>
    simp only [OperationLife.command]
    split_ifs
    · exact answers_close _ _ _
    · exact .idle
  | execute approval facts spendable fresh now => exact answers_execute _ _ _ _ _
  | fail reason now => exact answers_close _ _ _

/-! ## What holds of a life -/

/-- What holds of a life that began with the record `r₀`. -/
structure OperationLife.Sound (sha256Hex : String → String) (r₀ : RecordedOperation)
    (l : OperationLife) : Prop where
  advances : r₀.Advances l.record
  cleared : ∀ approval, .cleared approval ∈ l.log → approval.state = .passed ∧
    r₀.mismatch sha256Hex approval = none ∧ l.record.progress.approvalId = some approval.id
  once : l.effects = [] ∧ l.record.progress.state ≠ .executed ∨
    (∃ done, l.effects = [done]) ∧ l.record.progress.state = .executed
  preceded : ∀ later done earlier, l.log = later ++ .recorded done :: earlier →
    done.CarriesOut r₀ ∧ ∃ approval, .cleared approval ∈ earlier

/-- **A step keeps it.** -/
theorem OperationLife.Sound.moves {r₀ : RecordedOperation} {l' : OperationLife}
    (h : l.Sound sha256Hex r₀) (hmoves : l.Moves sha256Hex l') : l'.Sound sha256Hex r₀ := by
  cases hmoves with
  | goes hadv hends =>
    refine ⟨h.advances.trans hadv, fun approval hmem => ?_, ?_, h.preceded⟩
    · obtain ⟨hpassed, hmatch, hid⟩ := h.cleared approval hmem
      exact ⟨hpassed, hmatch, hadv.approval _ hid⟩
    · rcases h.once with ⟨hnone, hstate⟩ | ⟨hone, hstate⟩
      · exact .inl ⟨hnone, hends.elim id fun heq => heq ▸ hstate⟩
      · have hkept := (hadv.decided (by rw [hstate]; nofun)).1
        exact .inr ⟨hone, hkept.trans hstate⟩
  | @clears record approval hadv hpassed hmatch hid hkept =>
    refine ⟨h.advances.trans hadv, ?_, ?_, ?_⟩
    · rintro view (_ | ⟨_, hmem⟩)
      · exact ⟨hpassed, (h.advances.mismatch _ _).symm.trans hmatch, hid⟩
      · obtain ⟨hpassed', hmatch', hid'⟩ := h.cleared view hmem
        exact ⟨hpassed', hmatch', hadv.approval _ hid'⟩
    · exact hkept ▸ h.once
    · intro later done earlier hlog
      rcases List.cons_eq_append_iff.mp hlog with ⟨-, hcons⟩ | ⟨later', -, hcons⟩
      · cases (List.cons.inj hcons).1
      · exact h.preceded later' done earlier hcons
  | @records record approval done hadv hcleared hawaits hstate hdone =>
    have hnone : l.effects = [] := by
      rcases h.once with ⟨hnone, -⟩ | ⟨-, hexecuted⟩
      · exact hnone
      · rw [hawaits] at hexecuted
        cases hexecuted
    refine ⟨h.advances.trans hadv, ?_, .inr ⟨⟨done, ?_⟩, hstate⟩, ?_⟩
    · rintro view (_ | ⟨_, hmem⟩)
      obtain ⟨hpassed, hmatch, hid⟩ := h.cleared view hmem
      exact ⟨hpassed, hmatch, hadv.approval _ hid⟩
    · exact show done :: l.effects = [done] by rw [hnone]
    · intro later done' earlier hlog
      rcases List.cons_eq_append_iff.mp hlog with ⟨-, hcons⟩ | ⟨later', -, hcons⟩
      · obtain ⟨hevent, hrest⟩ := List.cons.inj hcons
        cases hevent
        exact ⟨(h.advances.carriesOut done).mp hdone, approval, hrest ▸ hcleared⟩
      · exact h.preceded later' done' earlier hcons

/-- A command keeps it. -/
theorem OperationLife.Sound.command {r₀ : RecordedOperation} (h : l.Sound sha256Hex r₀)
    (c : OperationCommand) : (l.command sha256Hex grants c).2.Sound sha256Hex r₀ := by
  rcases l.command_answers sha256Hex grants c with ⟨-, heq⟩ | ⟨-, hmoves⟩
  · rw [heq]
    exact h
  · exact h.moves hmoves

/-- **A run keeps it.** -/
theorem OperationLife.Sound.replay {r₀ : RecordedOperation} (cs : List OperationCommand)
    (h : l.Sound sha256Hex r₀) : (l.replay sha256Hex grants cs).Sound sha256Hex r₀ := by
  induction cs generalizing l with
  | nil => exact h
  | cons c cs ih => exact ih (h.command c)

/-- What was decided stays decided: a command leaves its end and what was recorded for it. -/
theorem OperationLife.Moves.decided {l' : OperationLife} (h : l.Moves sha256Hex l')
    (hdecided : l.record.progress.state ≠ .awaitingApproval) :
    l'.record.progress.state = l.record.progress.state ∧
      l'.record.progress.resultId = l.record.progress.resultId ∧
      l'.record.progress.failureReason = l.record.progress.failureReason ∧
      l'.effects = l.effects := by
  cases h with
  | goes hadv =>
    obtain ⟨hstate, hresult, hreason, -⟩ := hadv.decided hdecided
    exact ⟨hstate, hresult, hreason, rfl⟩
  | clears hadv =>
    obtain ⟨hstate, hresult, hreason, -⟩ := hadv.decided hdecided
    exact ⟨hstate, hresult, hreason, rfl⟩
  | records _ _ hawaits => exact absurd hawaits hdecided

end Moves

/-! ## At most once -/

/-- A request is new: nothing opened, nothing recorded. -/
theorem RecordedOperation.request_ok {sha256Hex : String → String} {operation : PendingOperation}
    {subjectRef : SubjectRef} {now : Int} {r : RecordedOperation}
    (h : RecordedOperation.request sha256Hex operation subjectRef now = .ok r) :
    r.operation = operation ∧ r.progress = .awaiting := by
  obtain ⟨payload, -, hr⟩ := bind_ok_iff.mp h
  cases hr
  exact ⟨rfl, rfl⟩

theorem three_minted : Uuid.Minted (.raw 3) := ⟨3, by decide, rfl⟩

/-- A desk's transfer of five units between two of its accounts. -/
def sampleMove : PendingOperation where
  id := .raw 3
  terms :=
    { client := ⟨"desk"⟩, scope := ⟨"sa"⟩, fromLabel := ⟨"svc:desk"⟩
      body := .transfer ⟨"sa"⟩ ⟨"svc:vault"⟩ 5, memo := "" }
  total := 5
  id_minted := three_minted
  checked := by rfl
  client_shaped := by decide
  scope_shaped := by decide
  from_shaped := by decide
  body_shaped := ⟨by decide, by decide⟩

/-- What its approvers are shown. -/
def sampleMoveFields : List ApprovalField :=
  [⟨"service", .text "desk"⟩, ⟨"from_account", .text "sa:svc:desk"⟩,
    ⟨"to_account", .text "sa:svc:vault"⟩, ⟨"amount", .amount 5⟩]

/-- What carries it out under the id `fresh`. -/
def sampleMoveDone (fresh : Uuid) : Execution :=
  .transfer ⟨fresh, sampleMove.transferTerms ⟨"order:1"⟩ ⟨"sa"⟩ ⟨"svc:vault"⟩ 5, by rfl⟩
    [.transferred ⟨"sa"⟩ ⟨"svc:desk"⟩ ⟨"sa"⟩ ⟨"svc:vault"⟩ 5]

/-- An active scope whose accounts are the desk's. -/
def sampleMoveFacts : ExecutionFacts := ⟨some .active, some ⟨"desk"⟩, some ⟨"desk"⟩, none, []⟩

/-- No grants. -/
def noGrants : Grants := ⟨[], by simp, .nil⟩

section Sample

variable (sha256Hex : String → String)

/-- The request as it is stored. -/
def sampleMoveRecord : RecordedOperation where
  operation := sampleMove
  progress := .awaiting
  subjectRef := ⟨"order:1"⟩
  linesDigest := none
  payloadHash := sha256Hex (approvalPayload "bank:account_transfer" "sa"
    sampleMove.approvalSubjectRef sampleMoveFields)
  approvalLevel := none
  createdAt := 0
  decidedAt := none

/-- The decision that passed. -/
def sampleMoveApproval : ApprovalView where
  id := "a1"
  kind := "bank:account_transfer"
  scope := "sa"
  subjectRef := sampleMove.approvalSubjectRef
  state := .passed
  level := some .scope
  payloadHash := (sampleMoveRecord sha256Hex).payloadHash

/-- The request with its approval opened. -/
def sampleMoveOpened : RecordedOperation :=
  { sampleMoveRecord sha256Hex with
    progress := ⟨.awaitingApproval, some "a1", none, none⟩, approvalLevel := some .scope }

/-- The request carried out. -/
def sampleMoveExecuted (fresh : Uuid) (now : Int) : RecordedOperation :=
  { sampleMoveOpened sha256Hex with
    progress := ⟨.executed, some "a1", some fresh.text, none⟩, decidedAt := some now }

theorem sampleMove_mismatch :
    (sampleMoveRecord sha256Hex).mismatch sha256Hex (sampleMoveApproval sha256Hex) = none := by
  have hpayload : sampleMove.approvalPayload none = .ok (approvalPayload "bank:account_transfer"
      "sa" sampleMove.approvalSubjectRef sampleMoveFields) := rfl
  have hkind : sampleMove.kind.asStr = "bank:account_transfer" := rfl
  simp [RecordedOperation.mismatch, sampleMoveRecord, sampleMoveApproval, hpayload, hkind]
  rfl

theorem sampleMove_execute (grants : Grants) (fresh : Uuid) (now : Int) :
    (sampleMoveOpened sha256Hex).execute (·.carry grants sampleMoveFacts (.ok 10) fresh) now =
      (.ok (some (sampleMoveDone fresh)), sampleMoveExecuted sha256Hex fresh now) := by
  have hcarry : (sampleMoveOpened sha256Hex).carry grants sampleMoveFacts (.ok 10) fresh =
      .ok (sampleMoveDone fresh) := rfl
  rw [RecordedOperation.execute, hcarry]
  rfl

end Sample

end Banking
