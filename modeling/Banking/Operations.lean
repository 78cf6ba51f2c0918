import Banking.Grants
import Banking.ScopeTransfers

/-! # Pending operations

An operation a client asked for, from its request to its end: the approval concierge opens for it,
the decisions that come back, and the payout or transfer that carries it out. The store's writes are
functions of one row under its lock; a command that fails gives back the row it got. -/

namespace Banking

/-! ## Where an operation stands -/

/-- Where a pending operation stands. -/
inductive OperationState
  | awaitingApproval
  | executed
  | rejected
  | failed
deriving DecidableEq, Repr

/-- A state's stored text. -/
def OperationState.asStr : OperationState → String
  | .awaitingApproval => "awaiting_approval"
  | .executed => "executed"
  | .rejected => "rejected"
  | .failed => "failed"

/-- How far an operation got: its approval once one is opened, what carried it out, why it was not
carried out. -/
structure OperationProgress where
  state : OperationState
  approvalId : Option String
  resultId : Option String
  failureReason : Option String
deriving DecidableEq, Repr

/-- A new operation's progress. -/
def OperationProgress.awaiting : OperationProgress := ⟨.awaitingApproval, none, none, none⟩

/-- Leaves `awaiting_approval`, which an operation does once. -/
def OperationProgress.leaveAwaiting (p : OperationProgress) (id : Uuid) (target : OperationState) :
    Except DomainError Unit × OperationProgress :=
  match p.state with
  | .awaitingApproval => (.ok (), { p with state := target })
  | .executed | .rejected | .failed =>
    (.error (.conflict ("operation " ++ id.text ++ " is " ++ p.state.asStr
      ++ ", not awaiting its approval")), p)

/-- Approved and carried out by the payout or transfer `resultId`. -/
def OperationProgress.execute (p : OperationProgress) (id : Uuid) (resultId : String) :
    Except DomainError Unit × OperationProgress :=
  match p.leaveAwaiting id .executed with
  | (.error e, p) => (.error e, p)
  | (.ok (), p) => (.ok (), { p with resultId := some resultId })

/-- The approvers said no, or the approval lapsed, or it could not be opened. -/
def OperationProgress.reject (p : OperationProgress) (id : Uuid) (reason : String) :
    Except DomainError Unit × OperationProgress :=
  match p.leaveAwaiting id .rejected with
  | (.error e, p) => (.error e, p)
  | (.ok (), p) => (.ok (), { p with failureReason := some reason })

/-- Approved, but could not be carried out. -/
def OperationProgress.fail (p : OperationProgress) (id : Uuid) (reason : String) :
    Except DomainError Unit × OperationProgress :=
  match p.leaveAwaiting id .failed with
  | (.error e, p) => (.error e, p)
  | (.ok (), p) => (.ok (), { p with failureReason := some reason })

/-- A command on an operation's progress. -/
inductive ProgressCommand
  | execute (resultId : String)
  | reject (reason : String)
  | fail (reason : String)
deriving DecidableEq, Repr

/-- Where a command takes an operation. -/
def ProgressCommand.target : ProgressCommand → OperationState
  | .execute _ => .executed
  | .reject _ => .rejected
  | .fail _ => .failed

/-- A command carried out. -/
def ProgressCommand.run (id : Uuid) (p : OperationProgress) :
    ProgressCommand → Except DomainError Unit × OperationProgress
  | .execute resultId => p.execute id resultId
  | .reject reason => p.reject id reason
  | .fail reason => p.fail id reason

/-- Commands one after another, and how many of them succeeded. -/
def OperationProgress.replay (id : Uuid) : OperationProgress → List ProgressCommand →
    Nat × OperationProgress
  | p, [] => (0, p)
  | p, c :: cs =>
    let r := c.run id p
    let rest := r.2.replay id cs
    ((if r.1.isOk then 1 else 0) + rest.1, rest.2)

/-- The level an approval was resolved to. -/
inductive ApprovalLevel
  | platform
  | scope
deriving DecidableEq, Repr

/-- Where an approval stands. -/
inductive ApprovalState
  | isOpen
  | passed
  | executed
  | executionFailed
  | rejected
  | vetoed
  | expired
  | cancelled
  | void
deriving DecidableEq, Repr

/-- A state's text. -/
def ApprovalState.asStr : ApprovalState → String
  | .isOpen => "open"
  | .passed => "passed"
  | .executed => "executed"
  | .executionFailed => "execution_failed"
  | .rejected => "rejected"
  | .vetoed => "vetoed"
  | .expired => "expired"
  | .cancelled => "cancelled"
  | .void => "void"

/-- One approval as the executing service is shown it. -/
structure ApprovalView where
  id : String
  kind : String
  scope : String
  subjectRef : String
  state : ApprovalState
  level : Option ApprovalLevel
  payloadHash : String
deriving DecidableEq, Repr

/-- A proposal banking opens for an operation. -/
structure Proposal where
  kind : String
  scope : String
  subjectRef : String
  reason : String
  fields : List ApprovalField
  dedupeKey : String
deriving DecidableEq, Repr

/-- The text a proposal's approval is hashed over. -/
def Proposal.payload (p : Proposal) : String :=
  approvalPayload p.kind p.scope p.subjectRef p.fields

/-- Why concierge did not answer. -/
inductive ApprovalsError
  | refused (reason : String)
  | unavailable (reason : String)
  | throttled (reason : String)
deriving DecidableEq, Repr

/-- How banking reports an approval it was pulled for. -/
inductive ApprovalOutcome
  | executed
  | failed
  | void
deriving DecidableEq, Repr

/-- How an operation leaves `awaiting_approval` without being executed. -/
inductive OperationEnd
  | rejected
  | failed
deriving DecidableEq, Repr

/-! ## The record -/

/-- An operation as recorded, with what the executor needs beside it. -/
structure RecordedOperation where
  operation : PendingOperation
  progress : OperationProgress
  subjectRef : SubjectRef
  linesDigest : Option String
  payloadHash : String
  approvalLevel : Option ApprovalLevel
  createdAt : Int
  decidedAt : Option Int

/-- What the digest of a payout's lines is taken over. -/
def linesDigestInput (lines : List RequestedLine) : String :=
  String.intercalate "\n"
    ((lines.map fun line => line.authSubject ++ "|" ++ toDecimalString line.amount).insertionSort
      (· ≤ ·))

/-- The same of an operation; a transfer has no lines. -/
def PendingOperation.linesDigestInput (op : PendingOperation) : Option String :=
  match op.terms.body with
  | .payout lines _ _ => some (Banking.linesDigestInput (lines.map (·.requested)))
  | .transfer .. => none

/-- The text of an operation's approval. -/
def PendingOperation.approvalPayload (op : PendingOperation) (linesDigest : Option String) :
    Except DomainError String :=
  (op.approvalFields linesDigest).map fun fields =>
    Banking.approvalPayload op.kind.asStr op.terms.scope.id op.approvalSubjectRef fields

section Hashed

variable (sha256Hex : String → String)

/-- A request as it is stored: its digest and its hash taken over what is stored. -/
def RecordedOperation.request (operation : PendingOperation) (subjectRef : SubjectRef)
    (now : Int) : Except DomainError RecordedOperation := do
  let linesDigest := operation.linesDigestInput.map sha256Hex
  let payload ← operation.approvalPayload linesDigest
  return { operation, progress := .awaiting, subjectRef, linesDigest
           payloadHash := sha256Hex payload, approvalLevel := none, createdAt := now
           decidedAt := none }

/-- The proposal opened for an operation; the service is named before its own words. -/
def RecordedOperation.proposal (r : RecordedOperation) : Except DomainError Proposal := do
  let fields ← r.operation.approvalFields r.linesDigest
  let terms := r.operation.terms
  let what :=
    if terms.memo = "" then
      match r.operation.kind with
      | .scopePayout => "payout request"
      | .accountTransfer | .scopeTransfer => "transfer request"
    else terms.memo
  return { kind := r.operation.kind.asStr, scope := terms.scope.id
           subjectRef := r.operation.approvalSubjectRef
           reason := "Service " ++ terms.client.id ++ ": " ++ what, fields
           dedupeKey := r.operation.approvalSubjectRef }

/-- Why a passed decision is not the stored operation's, if it is not. -/
def RecordedOperation.mismatch (r : RecordedOperation) (approval : ApprovalView) : Option String :=
  let payload := match r.operation.approvalPayload r.linesDigest with
    | .ok payload => some (sha256Hex payload)
    | .error _ => none
  if approval.kind ≠ r.operation.kind.asStr then some "kind"
  else if approval.scope ≠ r.operation.terms.scope.id then some "scope"
  else if approval.subjectRef ≠ r.operation.approvalSubjectRef then some "subject_ref"
  else if r.operation.linesDigestInput.map sha256Hex ≠ r.linesDigest then some "lines_digest"
  else if payload ≠ some r.payloadHash ∨ approval.payloadHash ≠ r.payloadHash then
    some "payload_hash"
  else none

/-- What a decision that does not mismatch is about: the operation's own proposal, under its hash.
-/
structure RecordedOperation.Approves (r : RecordedOperation) (approval : ApprovalView) : Prop where
  kind : approval.kind = r.operation.kind.asStr
  scope : approval.scope = r.operation.terms.scope.id
  subjectRef : approval.subjectRef = r.operation.approvalSubjectRef
  digest : r.linesDigest = r.operation.linesDigestInput.map sha256Hex
  proposed : ∃ proposal, r.proposal = .ok proposal ∧
    approval.payloadHash = sha256Hex proposal.payload

/-- **A decision that does not mismatch approves the operation's own proposal.** -/
theorem RecordedOperation.approves_of_mismatch {r : RecordedOperation} {approval : ApprovalView}
    (h : r.mismatch sha256Hex approval = none) : r.Approves sha256Hex approval := by
  unfold RecordedOperation.mismatch at h
  dsimp only at h
  split_ifs at h with hkind hscope href hdigest hpayload
  obtain ⟨hown, hhash⟩ := not_or.mp hpayload
  rw [not_not] at hkind hscope href hdigest hown hhash
  cases hfields : r.operation.approvalFields r.linesDigest with
  | error e => simp [PendingOperation.approvalPayload, hfields, Except.map] at hown
  | ok fields =>
    simp only [PendingOperation.approvalPayload, hfields, Except.map, Option.some.injEq] at hown
    have hproposal : ∃ proposal, r.proposal = .ok proposal ∧ proposal.payload =
        Banking.approvalPayload r.operation.kind.asStr r.operation.terms.scope.id
          r.operation.approvalSubjectRef fields := by
      simp only [RecordedOperation.proposal, hfields]
      exact ⟨_, rfl, rfl⟩
    obtain ⟨proposal, hok, htext⟩ := hproposal
    exact ⟨hkind, hscope, href, hdigest.symm, proposal, hok, by rw [hhash, ← hown, htext]⟩

end Hashed

/-! ## Payouts and transfers -/

/-- Everything a payout names. -/
structure PayoutTerms where
  client : ClientId
  scope : ScopeId
  fromLabel : ScopeAccountLabel
  lines : List PayoutLine
  reason : PayoutReason
  subjectRef : SubjectRef
  memo : String
  operationId : Option Uuid
deriving DecidableEq, Repr

/-- The rules of a payout's terms, and the total it pays. -/
def PayoutTerms.check (t : PayoutTerms) : Except DomainError Nat :=
  if t.scope.isMain then .error (.validation "a payout never names main")
  else if t.fromLabel.isReserved then
    .error (.forbidden (t.fromLabel.label ++ " is banking's own account"))
  else
    match checkLines (t.lines.map (·.requested)) with
    | .error e => .error e
    | .ok total =>
      if ¬ (t.lines.map (·.user)).Nodup then
        .error (.validation "one user may appear once in a payout")
      else if t.reason = .approved ∧ t.operationId = none then
        .error (.validation "an approved payout names its operation")
      else if t.reason ≠ .approved ∧ t.operationId.isSome then
        .error (.validation "an automatic payout executes no operation")
      else
        match validateMemo t.memo with
        | .error e => .error e
        | .ok () => .ok total

/-- A payout whose terms pass the check. -/
structure ScopePayout where
  id : Uuid
  terms : PayoutTerms
  total : Nat
  accepted : terms.check = .ok total

/-- A payout rebuilt from storage. -/
def ScopePayout.restore (id : Uuid) (terms : PayoutTerms) : Except DomainError ScopePayout :=
  match h : terms.check with
  | .error e => .error e
  | .ok total => .ok ⟨id, terms, total, h⟩

/-- The event the relay posts a payout from: one leg per line. -/
def ScopePayout.paidOut (p : ScopePayout) : ScopePayoutEvent :=
  .paidOut p.terms.scope p.terms.fromLabel (p.terms.lines.map fun line => ⟨line.user, line.amount⟩)

/-- A new payout and its event. -/
def ScopePayout.request (id : Uuid) (terms : PayoutTerms) :
    Except DomainError (ScopePayout × List ScopePayoutEvent) :=
  (ScopePayout.restore id terms).map fun p => (p, [p.paidOut])

/-- The terms of an approved operation's payout. -/
def PendingOperation.payoutTerms (op : PendingOperation) (subjectRef : SubjectRef)
    (lines : List PayoutLine) : PayoutTerms :=
  { client := op.terms.client, scope := op.terms.scope, fromLabel := op.terms.fromLabel, lines
    reason := .approved, subjectRef, memo := op.terms.memo, operationId := some op.id }

/-- How an approved operation was carried out, with the events raised; or why it cannot be. -/
inductive Execution
  | payout (payout : ScopePayout) (events : List ScopePayoutEvent)
  | transfer (transfer : ScopeTransfer) (events : List ScopeLedgerEvent)
  | fail (reason : String)

/-! ## Carrying an operation out -/

/-- Where a scope stands. -/
inductive ScopeState
  | active
  | frozen
  | closed
deriving DecidableEq, Repr

/-- Whether a scope takes a transfer in. -/
def receiving : ScopeState → Except LedgerRefusal Unit
  | .active => .ok ()
  | .frozen => .error .scopeFrozen
  | .closed => .error .scopeClosed

/-- What the control plane says about an approved operation at the moment it executes. -/
structure ExecutionFacts where
  scope : Option ScopeState
  sourceOwner : Option ClientId
  destinationOwner : Option ClientId
  destinationScope : Option ScopeState
  blockedUsers : List UserId
deriving DecidableEq, Repr

/-- Why an approved operation cannot be carried out, if the world moved since it was asked. -/
def PendingOperation.refusal (op : PendingOperation) (grants : Grants) (facts : ExecutionFacts)
    (scope : ScopeState) : Except TransferError (Option LedgerRefusal) :=
  if scope = .frozen then .ok (some .scopeFrozen)
  else if facts.sourceOwner ≠ some op.terms.client then .ok (some .notAccountOwner)
  else
    match op.terms.body with
    | .payout .. =>
      if ¬ grants.compartments op.terms.client op.terms.scope then .ok (some .notGranted)
      else if facts.blockedUsers ≠ [] then .ok (some .userFrozen)
      else .ok none
    | .transfer toScope _ _ =>
      if facts.destinationOwner ≠ some op.terms.client then .ok (some .notAccountOwner)
      else if toScope ≠ op.terms.scope then
        match facts.destinationScope with
        | none =>
          .error (.internal ("operation " ++ op.id.text ++ " names scope " ++ toScope.id
            ++ ", which banking does not know"))
        | some destination =>
          match receiving destination with
          | .error refusal => .ok (some refusal)
          | .ok () => .ok none
      else .ok none

/-- Turns a locked, still-awaiting operation into its payout or transfer, under the id `fresh`, or
into a failure recorded for good. -/
def RecordedOperation.carry (grants : Grants) (facts : ExecutionFacts)
    (spendable : Except DomainError Nat) (fresh : Uuid) (r : RecordedOperation) :
    Except TransferError Execution :=
  let op := r.operation
  match facts.scope with
  | none =>
    .error (.internal ("operation " ++ op.id.text ++ " names scope " ++ op.terms.scope.id
      ++ ", which banking does not know"))
  | some scope =>
    match op.refusal grants facts scope with
    | .error e => .error e
    | .ok (some refusal) => .ok (.fail refusal.reason)
    | .ok none =>
      match spendable with
      | .error e => .error (.domain e)
      | .ok spendable =>
        if spendable < op.total then .ok (.fail LedgerRefusal.insufficientFunds.reason)
        else
          match op.terms.body with
          | .payout lines _ _ =>
            match ScopePayout.request fresh (op.payoutTerms r.subjectRef lines) with
            | .error e => .error (.domain e)
            | .ok (payout, events) => .ok (.payout payout events)
          | .transfer toScope toLabel amount =>
            match ScopeTransfer.request fresh
                (op.transferTerms r.subjectRef toScope toLabel amount) with
            | .error e => .error (.domain e)
            | .ok (transfer, events) => .ok (.transfer transfer events)

/-! ## The store's writes -/

/-- Where an operation stands after it left `awaiting_approval`, stamped. -/
def RecordedOperation.storeProgress (r : RecordedOperation) (progress : OperationProgress)
    (now : Int) : RecordedOperation :=
  { r with progress, decidedAt := some now }

/-- The approval `approvalId` was opened for the operation. A repeat is a no-op; another id than the
one recorded is a conflict. -/
def RecordedOperation.opened (r : RecordedOperation) (approvalId : String)
    (level : Option ApprovalLevel) : Except DomainError Unit × RecordedOperation :=
  match r.progress.approvalId with
  | some known =>
    if known = approvalId then (.ok (), r)
    else
      (.error (.conflict ("operation " ++ r.operation.id.text ++ " is decided by approval " ++ known
        ++ ", not " ++ approvalId)), r)
  | none =>
    (.ok (), { r with
      progress := { r.progress with approvalId := some approvalId }, approvalLevel := level })

/-- Ends an awaiting operation unexecuted; answers whether it was awaiting. -/
def RecordedOperation.close (r : RecordedOperation) (finish : OperationEnd) (reason : String)
    (now : Int) : Except DomainError Bool × RecordedOperation :=
  if r.progress.state ≠ .awaitingApproval then (.ok false, r)
  else
    let done := match finish with
      | .rejected => r.progress.reject r.operation.id reason
      | .failed => r.progress.fail r.operation.id reason
    match done with
    | (.error e, _) => (.error e, r)
    | (.ok (), progress) => (.ok true, r.storeProgress progress now)

/-- Carries out an awaiting operation as `carried` decides, and what is written for it; one no
longer awaiting is left as it stands. A failure writes nothing. -/
def RecordedOperation.execute (r : RecordedOperation)
    (carried : RecordedOperation → Except TransferError Execution) (now : Int) :
    Except TransferError (Option Execution) × RecordedOperation :=
  if r.progress.state ≠ .awaitingApproval then (.ok none, r)
  else
    match carried r with
    | .error e => (.error e, r)
    | .ok done =>
      let written := match done with
        | .payout payout _ => r.progress.execute r.operation.id payout.id.text
        | .transfer transfer _ => r.progress.execute r.operation.id transfer.id.text
        | .fail reason => r.progress.fail r.operation.id reason
      match written with
      | (.error e, _) => (.error (.domain e), r)
      | (.ok (), progress) => (.ok (some done), r.storeProgress progress now)

/-! ## What is moved -/

/-- The amount a body moves: its lines', or its transfer's. -/
def OperationBody.amounts : OperationBody → List Nat
  | .payout lines _ _ => lines.map (·.amount)
  | .transfer _ _ amount => [amount]

/-- The lines' amounts, summed onto what was there. -/
theorem foldlM_checkLine_total {lines : List RequestedLine} :
    ∀ {total sum : Nat}, lines.foldlM checkLine total = .ok sum →
      sum = total + (lines.map (·.amount)).sum := by
  induction lines with
  | nil =>
    intro total sum h
    cases h
    rfl
  | cons line lines ih =>
    intro total sum h
    rw [List.foldlM_cons] at h
    obtain ⟨next, hline, hrest⟩ := bind_ok_iff.mp h
    unfold checkLine at hline
    split_ifs at hline
    cases hline
    rw [ih hrest, List.map_cons, List.sum_cons, Nat.add_assoc]

/-- The total of accepted lines is the sum of their amounts. -/
theorem checkLines_total {lines : List RequestedLine} {total : Nat}
    (h : checkLines lines = .ok total) : total = (lines.map (·.amount)).sum := by
  unfold checkLines at h
  cases hfold : lines.foldlM checkLine 0 with
  | error e =>
    simp only [hfold] at h
    split_ifs at h
  | ok sum =>
    simp only [hfold] at h
    split_ifs at h
    cases h
    rw [foldlM_checkLine_total hfold, Nat.zero_add]

/-- **An operation's total is what its body moves.** -/
theorem PendingOperation.total_eq (op : PendingOperation) :
    op.total = op.terms.body.amounts.sum := by
  have hchecked := op.checked
  unfold OperationTerms.check at hchecked
  split_ifs at hchecked
  cases hmemo : validateMemo op.terms.memo with
  | error e => simp [hmemo] at hchecked
  | ok u =>
    rw [hmemo] at hchecked
    cases hbody : op.terms.body with
    | payout lines distribution overScopeBudget =>
      rw [hbody] at hchecked
      dsimp only at hchecked
      cases hlines : checkLines (lines.map (·.requested)) with
      | error e => simp [hlines] at hchecked
      | ok total =>
        simp only [hlines] at hchecked
        split_ifs at hchecked
        cases hchecked
        rw [checkLines_total hlines, List.map_map]
        rfl
    | transfer toScope toLabel amount =>
      rw [hbody] at hchecked
      dsimp only at hchecked
      split_ifs at hchecked
      cases hchecked
      simp [OperationBody.amounts]

/-- What carries an operation out: a payout of its own lines or its own transfer, for its total. -/
def Execution.CarriesOut (r : RecordedOperation) : Execution → Prop
  | .payout p events => events = [p.paidOut] ∧ p.total = r.operation.total ∧
    ∃ lines distribution overScopeBudget,
      r.operation.terms.body = .payout lines distribution overScopeBudget ∧
      p.terms = r.operation.payoutTerms r.subjectRef lines
  | .transfer t events => events = [t.transferred] ∧ ∃ toScope toLabel,
      r.operation.terms.body = .transfer toScope toLabel r.operation.total ∧
      t.terms = r.operation.transferTerms r.subjectRef toScope toLabel r.operation.total
  | .fail _ => False

/-- How an execution is read: what it leaves the operation as. -/
def Execution.leaves : Execution → OperationState
  | .payout .. | .transfer .. => .executed
  | .fail _ => .failed

/-- A payout restored has the total of its lines. -/
theorem ScopePayout.request_ok {id : Uuid} {terms : PayoutTerms}
    {p : ScopePayout × List ScopePayoutEvent} (h : ScopePayout.request id terms = .ok p) :
    p.1.terms = terms ∧ p.2 = [p.1.paidOut] := by
  obtain ⟨p', hp, rfl⟩ := map_ok_iff.mp h
  unfold ScopePayout.restore at hp
  split at hp
  · cases hp
  · cases hp
    exact ⟨rfl, rfl⟩

/-- A payout's total is the sum of its lines. -/
theorem ScopePayout.total_eq (p : ScopePayout) : p.total = (p.terms.lines.map (·.amount)).sum := by
  have h := p.accepted
  unfold PayoutTerms.check at h
  cases hlines : checkLines (p.terms.lines.map (·.requested)) with
  | error e =>
    simp only [hlines] at h
    split_ifs at h
  | ok total =>
    cases hmemo : validateMemo p.terms.memo with
    | error e =>
      simp only [hlines, hmemo] at h
      split_ifs at h
    | ok u =>
      simp only [hlines, hmemo] at h
      split_ifs at h
      cases h
      rw [checkLines_total hlines, List.map_map]
      rfl

/-- **What `carry` answers carries the operation out**, or says why it cannot be. -/
theorem RecordedOperation.carry_carriesOut {grants : Grants} {facts : ExecutionFacts}
    {spendable : Except DomainError Nat} {fresh : Uuid} {r : RecordedOperation} {done : Execution}
    (h : r.carry grants facts spendable fresh = .ok done) (hdone : done.leaves = .executed) :
    done.CarriesOut r := by
  unfold RecordedOperation.carry at h
  dsimp only at h
  split at h
  · cases h
  · split at h
    · cases h
    · cases h
      cases hdone
    · split at h
      · cases h
      · split_ifs at h with hfunds
        · cases h
          cases hdone
        · have htotal := r.operation.total_eq
          split at h
          · next lines distribution overScopeBudget hbody =>
            split at h
            · cases h
            · next payout events hrequest =>
              cases h
              obtain ⟨hterms, hevents⟩ := ScopePayout.request_ok hrequest
              refine ⟨hevents, ?_, lines, distribution, overScopeBudget, hbody, hterms⟩
              rw [payout.total_eq, hterms, htotal, hbody]
              rfl
          · next toScope toLabel amount hbody =>
            have hamount : r.operation.total = amount := by
              rw [htotal, hbody]
              exact Nat.add_zero amount
            split at h
            · cases h
            · next transfer events hrequest =>
              cases h
              obtain ⟨hrestore, hevents⟩ := ScopeTransfer.request_ok hrequest
              have hterms := (ScopeTransfer.restore_ok_iff.mp hrestore).2
              exact ⟨hevents, toScope, toLabel, hamount ▸ hbody, hamount ▸ hterms⟩

/-! ## What the writes do -/

/-- What a record keeps whatever is written to it: all it was requested with, the approval it was
opened under, and its end once it has one. -/
structure RecordedOperation.Advances (r r' : RecordedOperation) : Prop where
  operation : r'.operation = r.operation
  subjectRef : r'.subjectRef = r.subjectRef
  linesDigest : r'.linesDigest = r.linesDigest
  payloadHash : r'.payloadHash = r.payloadHash
  approval : ∀ id, r.progress.approvalId = some id → r'.progress.approvalId = some id
  decided : r.progress.state ≠ .awaitingApproval → r'.progress.state = r.progress.state ∧
    r'.progress.resultId = r.progress.resultId ∧
    r'.progress.failureReason = r.progress.failureReason ∧ r'.decidedAt = r.decidedAt

theorem RecordedOperation.Advances.refl (r : RecordedOperation) : r.Advances r :=
  ⟨rfl, rfl, rfl, rfl, fun _ h => h, fun _ => ⟨rfl, rfl, rfl, rfl⟩⟩

theorem RecordedOperation.Advances.trans {a b c : RecordedOperation} (hab : a.Advances b)
    (hbc : b.Advances c) : a.Advances c where
  operation := hbc.operation.trans hab.operation
  subjectRef := hbc.subjectRef.trans hab.subjectRef
  linesDigest := hbc.linesDigest.trans hab.linesDigest
  payloadHash := hbc.payloadHash.trans hab.payloadHash
  approval id h := hbc.approval id (hab.approval id h)
  decided h := by
    obtain ⟨hstate, hresult, hreason, hat⟩ := hab.decided h
    obtain ⟨hstate', hresult', hreason', hat'⟩ := hbc.decided (hstate ▸ h)
    exact ⟨hstate'.trans hstate, hresult'.trans hresult, hreason'.trans hreason, hat'.trans hat⟩

section Writes

variable {r r' : RecordedOperation}

/-- Whether a decision matches does not depend on how far the operation got. -/
theorem RecordedOperation.Advances.mismatch (h : r.Advances r') (sha256Hex : String → String)
    (approval : ApprovalView) : r'.mismatch sha256Hex approval = r.mismatch sha256Hex approval := by
  unfold RecordedOperation.mismatch
  rw [h.operation, h.linesDigest, h.payloadHash]

/-- Nor does what carries an operation out. -/
theorem RecordedOperation.Advances.carriesOut (h : r.Advances r') (done : Execution) :
    done.CarriesOut r' ↔ done.CarriesOut r := by
  cases done <;> simp only [Execution.CarriesOut, h.operation, h.subjectRef]

/-- **Opening an approval**: refused under another id; else the approval is the record's, and only
that has changed. -/
theorem RecordedOperation.opened_cases (r : RecordedOperation) (approvalId : String)
    (level : Option ApprovalLevel) :
    ((∃ e, (r.opened approvalId level).1 = .error e) ∧ (r.opened approvalId level).2 = r) ∨
    ((r.opened approvalId level).1 = .ok () ∧
      (r.opened approvalId level).2.progress.approvalId = some approvalId ∧
      (r.opened approvalId level).2.progress.state = r.progress.state ∧
      r.Advances (r.opened approvalId level).2) := by
  cases hknown : r.progress.approvalId with
  | some known =>
    by_cases hsame : known = approvalId
    · have heq : r.opened approvalId level = (.ok (), r) := by
        simp [RecordedOperation.opened, hknown, hsame]
      rw [heq]
      exact .inr ⟨rfl, hsame ▸ hknown, rfl, .refl r⟩
    · refine .inl ⟨?_, ?_⟩ <;> simp [RecordedOperation.opened, hknown, hsame]
  | none =>
    have heq : r.opened approvalId level = (.ok (), { r with
        progress := { r.progress with approvalId := some approvalId }
        approvalLevel := level }) := by
      simp [RecordedOperation.opened, hknown]
    rw [heq]
    exact .inr ⟨rfl, rfl, rfl, rfl, rfl, rfl, rfl, (by simp [hknown]),
      fun _ => ⟨rfl, rfl, rfl, rfl⟩⟩

/-- **Ending an operation**: one awaiting ends with its reason, any other stays as it is. -/
theorem RecordedOperation.close_cases (r : RecordedOperation) (finish : OperationEnd)
    (reason : String) (now : Int) :
    (r.progress.state ≠ .awaitingApproval ∧ r.close finish reason now = (.ok false, r)) ∨
    (r.progress.state = .awaitingApproval ∧ ∃ r', r.close finish reason now = (.ok true, r') ∧
      r.Advances r' ∧ r'.progress.approvalId = r.progress.approvalId ∧
      r'.progress.state = match finish with
        | .rejected => .rejected
        | .failed => .failed) := by
  by_cases hstate : r.progress.state = .awaitingApproval
  · refine .inr ⟨hstate, ?_⟩
    have hkept : r.progress.state ≠ .awaitingApproval → False := fun h => h hstate
    cases finish with
    | rejected | failed =>
      simp only [RecordedOperation.close, hstate, ne_eq, not_true_eq_false, if_false,
        OperationProgress.reject, OperationProgress.fail, OperationProgress.leaveAwaiting]
      exact ⟨_, rfl, ⟨rfl, rfl, rfl, rfl, fun _ h => h, fun h => (hkept h).elim⟩, rfl, rfl⟩
  · exact .inl ⟨hstate, by simp [RecordedOperation.close, hstate]⟩

/-- **Carrying an operation out**: one awaiting is left as its execution says, or untouched by a
failure; any other stays as it is. -/
theorem RecordedOperation.execute_cases (r : RecordedOperation)
    (carried : RecordedOperation → Except TransferError Execution) (now : Int) :
    (r.progress.state ≠ .awaitingApproval ∧ r.execute carried now = (.ok none, r)) ∨
    (r.progress.state = .awaitingApproval ∧
      ((∃ e, carried r = .error e ∧ r.execute carried now = (.error e, r)) ∨
      ∃ done r', carried r = .ok done ∧ r.execute carried now = (.ok (some done), r') ∧
        r.Advances r' ∧ r'.progress.approvalId = r.progress.approvalId ∧
        r'.progress.state = done.leaves)) := by
  by_cases hstate : r.progress.state = .awaitingApproval
  · refine .inr ⟨hstate, ?_⟩
    simp only [RecordedOperation.execute, hstate, ne_eq, not_true_eq_false, if_false]
    cases hcarried : carried r with
    | error e => exact .inl ⟨e, rfl, rfl⟩
    | ok done =>
      refine .inr ⟨done, ?_⟩
      cases done with
      | payout | transfer | fail =>
        simp only [OperationProgress.execute, OperationProgress.fail,
          OperationProgress.leaveAwaiting, hstate]
        exact ⟨_, trivial, rfl, ⟨rfl, rfl, rfl, rfl, fun _ h => h, fun h => absurd hstate h⟩, rfl,
          rfl⟩
  · exact .inl ⟨hstate, by simp [RecordedOperation.execute, hstate]⟩

end Writes

end Banking
