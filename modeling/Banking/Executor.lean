import Banking.Lib.Pool
import Banking.OperationRuns

/-! # The executor of approved operations

A round of the executor, asking concierge and the store one thing at a time: it opens the approvals
that are due, carries out the decisions that passed and ends the operations whose approval ended
otherwise. Any number of replicas run rounds at once; concierge answers whatever it likes. -/

namespace Banking

open Interactive (Prog World Config Runs PoolStep)

/-! ## The world -/

/-- A report of an approval's outcome to concierge. -/
structure OutcomeReport where
  approvalId : String
  outcome : ApprovalOutcome
  detail : String
deriving DecidableEq, Repr

/-- What happened, as concierge and the store could tell. -/
inductive ExecutorEvent
  | pulled (view : ApprovalView)
  | answered (view : ApprovalView)
  | recorded (id : Uuid) (done : Execution)
  | reported (report : OutcomeReport)

/-- What carries the operation `id` out, of an event. -/
def ExecutorEvent.effect (id : Uuid) : ExecutorEvent → Option Execution
  | .recorded id' done => if id' = id then some done else none
  | _ => none

/-- The operations as stored, and what happened, the newest first. -/
structure ExecutorWorld where
  rows : Uuid → Option RecordedOperation
  log : List ExecutorEvent

/-- Nothing stored, nothing happened. -/
def ExecutorWorld.empty : ExecutorWorld := ⟨fun _ => none, []⟩

/-- What was recorded to carry an operation out. -/
def ExecutorWorld.effects (w : ExecutorWorld) (id : Uuid) : List Execution :=
  w.log.filterMap (·.effect id)

/-- A row written. -/
def ExecutorWorld.setRow (w : ExecutorWorld) (id : Uuid) (r : RecordedOperation) : ExecutorWorld :=
  { w with rows := fun id' => if id' = id then some r else w.rows id' }

/-- Something more happened. -/
def ExecutorWorld.logs (w : ExecutorWorld) (events : List ExecutorEvent) : ExecutorWorld :=
  { w with log := events ++ w.log }

@[simp] theorem ExecutorWorld.setRow_log (w : ExecutorWorld) (id : Uuid) (r : RecordedOperation) :
    (w.setRow id r).log = w.log := rfl

@[simp] theorem ExecutorWorld.setRow_rows (w : ExecutorWorld) (id id' : Uuid)
    (r : RecordedOperation) :
    (w.setRow id r).rows id' = if id' = id then some r else w.rows id' := rfl

@[simp] theorem ExecutorWorld.logs_rows (w : ExecutorWorld) (events : List ExecutorEvent) :
    (w.logs events).rows = w.rows := rfl

@[simp] theorem ExecutorWorld.logs_log (w : ExecutorWorld) (events : List ExecutorEvent) :
    (w.logs events).log = events ++ w.log := rfl

/-! ## The store's writes -/

/-- `opened` of an operation of the store. -/
def ExecutorWorld.opened (w : ExecutorWorld) (id : Uuid) (approvalId : String)
    (level : Option ApprovalLevel) : Except DomainError Unit × ExecutorWorld :=
  match w.rows id with
  | none => (.error (.notFound "operation" id.text), w)
  | some r =>
    let written := r.opened approvalId level
    (written.1, w.setRow id written.2)

/-- `close` of an operation of the store. -/
def ExecutorWorld.close (w : ExecutorWorld) (id : Uuid) (finish : OperationEnd) (reason : String)
    (now : Int) : Except DomainError Bool × ExecutorWorld :=
  match w.rows id with
  | none => (.ok false, w)
  | some r =>
    let written := r.close finish reason now
    (written.1, w.setRow id written.2)

/-- `execute` of an operation of the store: its end and what carries it out are one write. -/
def ExecutorWorld.execute (w : ExecutorWorld) (id : Uuid)
    (carried : RecordedOperation → Except TransferError Execution) (now : Int) :
    Except TransferError RecordedOperation × ExecutorWorld :=
  match w.rows id with
  | none => (.error (.domain (.notFound "operation" id.text)), w)
  | some r =>
    match r.execute carried now with
    | (.error e, _) => (.error e, w)
    | (.ok none, _) => (.ok r, w)
    | (.ok (some done), r') =>
      (.ok r', (w.setRow id r').logs
        (if done.leaves = .executed then [.recorded id done] else []))

/-! ## Operations -/

/-- What the executor asks for: the store's operations and concierge's calls. -/
inductive ExecutorOp
  | ensureCatalog
  | staleUnopened
  | dueToPropose
  | dueToCheck
  | operationById (id : Uuid)
  | opened (id : Uuid) (approvalId : String) (level : Option ApprovalLevel)
  | postpone (id : Uuid)
  | close (id : Uuid) (finish : OperationEnd) (reason : String)
  | execute (id : Uuid)
  | propose (proposal : Proposal)
  | withdraw (approvalId : String)
  | pullApproved
  | get (approvalId : String)
  | report (report : OutcomeReport)

/-- What an operation is answered with. -/
abbrev ExecutorOp.Ans : ExecutorOp → Type
  | .ensureCatalog => Bool
  | .staleUnopened => Except DomainError (List Uuid)
  | .dueToPropose | .dueToCheck => Except DomainError (List RecordedOperation)
  | .operationById _ => Except DomainError (Option RecordedOperation)
  | .opened .. | .postpone _ => Except DomainError Unit
  | .close .. => Except DomainError Bool
  | .execute _ => Except TransferError RecordedOperation
  | .propose _ | .get _ => Except ApprovalsError ApprovalView
  | .withdraw _ | .report _ => Except ApprovalsError Unit
  | .pullApproved => Except ApprovalsError (List ApprovalView)

/-- How a write of the store is answered: it was made; it was made and its answer was lost; it was
not made. -/
inductive Written {ε α : Type} (fault : String → ε) (w : ExecutorWorld)
    (made : Except ε α × ExecutorWorld) : Except ε α → ExecutorWorld → Prop
  | done : Written fault w made made.1 made.2
  | lost (detail : String) : Written fault w made (.error (fault detail)) made.2
  | outage (detail : String) : Written fault w made (.error (fault detail)) w

/-- An operation of the store that is due for a step of the executor. -/
def ExecutorWorld.Due (w : ExecutorWorld) (isOpened : Bool) (r : RecordedOperation) : Prop :=
  w.rows r.operation.id = some r ∧ r.progress.state = .awaitingApproval ∧
    r.progress.approvalId.isSome = isOpened

/-- **How an operation may be answered.** The store answers what it holds, or fails; concierge
answers what it likes, and an answer of its own is kept in the log even when it does not arrive. -/
inductive ExecutorStep (grants : Grants) :
    (op : ExecutorOp) → ExecutorWorld → op.Ans → ExecutorWorld → Prop
  | ensureCatalog (w : ExecutorWorld) (ready : Bool) : ExecutorStep grants .ensureCatalog w ready w
  | staleUnopened (w : ExecutorWorld) (now : Int) (ids : List Uuid)
      (h : ∀ id ∈ ids, ∃ r, w.rows id = some r ∧ w.Due false r ∧
        r.createdAt < now - UNOPENED_MAX_AGE_SECS) :
      ExecutorStep grants .staleUnopened w (.ok ids) w
  | staleFailed (w : ExecutorWorld) (detail : String) :
      ExecutorStep grants .staleUnopened w (.error (.repository detail)) w
  | dueToPropose (w : ExecutorWorld) (rs : List RecordedOperation) (h : ∀ r ∈ rs, w.Due false r) :
      ExecutorStep grants .dueToPropose w (.ok rs) w
  | proposeFailed (w : ExecutorWorld) (detail : String) :
      ExecutorStep grants .dueToPropose w (.error (.repository detail)) w
  | dueToCheck (w : ExecutorWorld) (rs : List RecordedOperation) (h : ∀ r ∈ rs, w.Due true r) :
      ExecutorStep grants .dueToCheck w (.ok rs) w
  | checkFailed (w : ExecutorWorld) (detail : String) :
      ExecutorStep grants .dueToCheck w (.error (.repository detail)) w
  | operationById (w : ExecutorWorld) (id : Uuid) :
      ExecutorStep grants (.operationById id) w (.ok (w.rows id)) w
  | readFailed (w : ExecutorWorld) (id : Uuid) (e : DomainError) :
      ExecutorStep grants (.operationById id) w (.error e) w
  | opened {w w' : ExecutorWorld} {id : Uuid} {approvalId : String} {level : Option ApprovalLevel}
      {a : Except DomainError Unit}
      (h : Written .repository w (w.opened id approvalId level) a w') :
      ExecutorStep grants (.opened id approvalId level) w a w'
  | postpone (w : ExecutorWorld) (id : Uuid) (a : Except DomainError Unit) :
      ExecutorStep grants (.postpone id) w a w
  | close {w w' : ExecutorWorld} {id : Uuid} {finish : OperationEnd} {reason : String} (now : Int)
      {a : Except DomainError Bool}
      (h : Written .repository w (w.close id finish reason now) a w') :
      ExecutorStep grants (.close id finish reason) w a w'
  | execute {w w' : ExecutorWorld} {id : Uuid} (facts : ExecutionFacts)
      (spendable : Except DomainError Nat) (fresh : Uuid) (now : Int)
      {a : Except TransferError RecordedOperation}
      (h : Written (fun detail => .domain (.repository detail)) w
        (w.execute id (·.carry grants facts spendable fresh) now) a w') :
      ExecutorStep grants (.execute id) w a w'
  | propose (w : ExecutorWorld) (proposal : Proposal) (a : Except ApprovalsError ApprovalView) :
      ExecutorStep grants (.propose proposal) w a w
  | withdraw (w : ExecutorWorld) (approvalId : String) (a : Except ApprovalsError Unit) :
      ExecutorStep grants (.withdraw approvalId) w a w
  | pullApproved (w : ExecutorWorld) (views : List ApprovalView) :
      ExecutorStep grants .pullApproved w (.ok views) (w.logs (views.map .pulled))
  | pullFailed (w : ExecutorWorld) (e : ApprovalsError) :
      ExecutorStep grants .pullApproved w (.error e) w
  | get (w : ExecutorWorld) (approvalId : String) (view : ApprovalView) :
      ExecutorStep grants (.get approvalId) w (.ok view) (w.logs [.answered view])
  | getFailed (w : ExecutorWorld) (approvalId : String) (e : ApprovalsError) :
      ExecutorStep grants (.get approvalId) w (.error e) w
  | report (w : ExecutorWorld) (report : OutcomeReport) (a : Except ApprovalsError Unit) :
      ExecutorStep grants (.report report) w a (w.logs [.reported report])

/-! ## The program -/

/-- A program of the executor. -/
abbrev ExecutorProg (α : Type) : Type := Prog ExecutorOp ExecutorOp.Ans DomainError α

/-- A read or a write of the store whose error ends the step. -/
def orExit {α : Type} : Except DomainError α → ExecutorProg α
  | .ok a => .ret a
  | .error e => .exit e

/-- Whether the round's step goes on to the next operation. -/
inductive Flow
  | next
  | stop
deriving DecidableEq, Repr

/-- An operation's step for each of a list, until one stops; one that failed is set aside. -/
def whileNext (f : RecordedOperation → ExecutorProg Flow) :
    List RecordedOperation → ExecutorProg Unit
  | [] => .ret ()
  | r :: rs =>
    (f r).outcome.bind fun
      | .ok .next => whileNext f rs
      | .ok .stop => .ret ()
      | .error _ => (Prog.ask (ExecutorOp.postpone r.operation.id)).bind fun _ => whileNext f rs

/-- Tell concierge an outcome; one it does not get is told again on a later pull. -/
def reportOutcome (approvalId : String) (outcome : ApprovalOutcome) (detail : String) :
    ExecutorProg Unit :=
  (Prog.ask (ExecutorOp.report ⟨approvalId, outcome, detail⟩)).bind fun _ => .ret ()

/-- End an operation unexecuted. -/
def closeOperation (id : Uuid) (finish : OperationEnd) (reason : String) : ExecutorProg Unit :=
  (Prog.ask (ExecutorOp.close id finish reason)).bind fun a => (orExit a).bind fun _ => .ret ()

/-- Open the approval of one operation. -/
def proposeOne (r : RecordedOperation) : ExecutorProg Flow :=
  let id := r.operation.id
  (orExit r.proposal).bind fun proposal =>
    (Prog.ask (ExecutorOp.propose proposal)).bind fun
      | .ok view =>
        if view.payloadHash ≠ r.payloadHash then
          (closeOperation id .rejected "approval_mismatch").bind fun _ =>
            (Prog.ask (ExecutorOp.withdraw view.id)).bind fun _ => .ret .next
        else
          (Prog.ask (ExecutorOp.opened id view.id view.level)).bind fun a =>
            (orExit a).bind fun _ => .ret .next
      | .error (.refused _) =>
        (closeOperation id .rejected "proposal_refused").bind fun _ => .ret .next
      | .error (.throttled _) =>
        (Prog.ask (ExecutorOp.postpone id)).bind fun a => (orExit a).bind fun _ => .ret .next
      | .error (.unavailable _) =>
        (Prog.ask (ExecutorOp.postpone id)).bind fun a => (orExit a).bind fun _ => .ret .stop

/-- End what was never opened in time, then open what is due. -/
def proposeDue : ExecutorProg Unit :=
  (Prog.ask ExecutorOp.staleUnopened).bind fun stale => (orExit stale).bind fun ids =>
    (Prog.each (fun id => closeOperation id .rejected "proposal_not_opened") ids).bind fun _ =>
      (Prog.ask ExecutorOp.dueToPropose).bind fun due => (orExit due).bind fun rs =>
        whileNext proposeOne rs

/-- Why an operation was not carried out. -/
def RecordedOperation.failure (r : RecordedOperation) : String :=
  r.progress.failureReason.getD "not executed"

/-- Carry an operation out under a decision that is its own, and report how it ended. -/
def executeUnder (id : Uuid) (approvalId : String) : ExecutorProg Unit :=
  (Prog.ask (ExecutorOp.execute id)).bind fun
    | .error (.domain e) => .exit e
    | .error (.internal _) | .error (.refused _) | .error (.exhausted _) => .ret ()
    | .ok done =>
      match done.progress.state with
      | .executed => reportOutcome approvalId .executed ""
      | .failed => reportOutcome approvalId .failed done.failure
      | .rejected => reportOutcome approvalId .void done.failure
      | .awaitingApproval => .ret ()

section Hashed

variable (sha256Hex : String → String)

/-- Act on a decision as it was re-read: only on one that is still passed, and only when it is the
operation's own. -/
def actOn (pulled : ApprovalView) (r : RecordedOperation) (approval : ApprovalView) :
    ExecutorProg Unit :=
  let id := r.operation.id
  if approval.state ≠ .passed ∨ approval.id ≠ pulled.id then .ret ()
  else
    match r.mismatch sha256Hex approval with
    | some _ =>
      (closeOperation id .failed "approval_mismatch").bind fun _ =>
        reportOutcome approval.id .void "the decision does not match the requested operation"
    | none =>
      if r.progress.approvalId = none then
        (Prog.ask (ExecutorOp.opened id approval.id approval.level)).bind fun a =>
          (orExit a).bind fun _ => executeUnder id approval.id
      else executeUnder id approval.id

/-- Carry out one passed decision on the operation it names, as it was read. -/
def carryOut (pulled : ApprovalView) (r : RecordedOperation) : ExecutorProg Unit :=
  if r.progress.approvalId.any (· ≠ pulled.id) then
    reportOutcome pulled.id .void "another approval decides this operation"
  else
    match r.progress.state with
    | .executed => reportOutcome pulled.id .executed ""
    | .failed => reportOutcome pulled.id .failed r.failure
    | .rejected => reportOutcome pulled.id .void r.failure
    | .awaitingApproval =>
      (Prog.ask (ExecutorOp.get pulled.id)).bind fun
        | .error _ => .ret ()
        | .ok approval => actOn sha256Hex pulled r approval

/-- The kind of an approval's text. -/
def OperationKind.parse (raw : String) : Option OperationKind :=
  if raw = OperationKind.scopePayout.asStr then some .scopePayout
  else if raw = OperationKind.accountTransfer.asStr then some .accountTransfer
  else if raw = OperationKind.scopeTransfer.asStr then some .scopeTransfer
  else none

variable (parseUuid : String → Option Uuid)

/-- The operation an approval's reference names, written just so. -/
def operationRef (subjectRef : String) : Option Uuid :=
  if "pending_operation:".toList.isPrefixOf subjectRef.toList then
    let raw := String.ofList (subjectRef.toList.drop "pending_operation:".toList.length)
    (parseUuid raw).filter fun id => id.text = raw
  else none

/-- One passed decision on the operation it names, as it was found. -/
def executeFound (view : ApprovalView) :
    Except DomainError (Option RecordedOperation) → ExecutorProg Unit
  | .error _ => .ret ()
  | .ok none => reportOutcome view.id .void "no such operation"
  | .ok (some r) => (carryOut sha256Hex view r).outcome.bind fun _ => .ret ()

/-- One passed decision of a pull; another kind, and one that names no operation, is left. -/
def executePulled (view : ApprovalView) : ExecutorProg Unit :=
  match OperationKind.parse view.kind with
  | none => .ret ()
  | some _ =>
    match operationRef parseUuid view.subjectRef with
    | none => .ret ()
    | some id => (Prog.ask (ExecutorOp.operationById id)).bind (executeFound sha256Hex view)

/-- Carry out the decisions that passed. -/
def executeApproved : ExecutorProg Unit :=
  (Prog.ask ExecutorOp.pullApproved).bind fun
    | .error _ => .ret ()
    | .ok views => Prog.each (executePulled sha256Hex parseUuid) views

/-- Ask where one operation's approval stands. -/
def settleOne (r : RecordedOperation) : ExecutorProg Flow :=
  let id := r.operation.id
  let postpone := fun flow => (Prog.ask (ExecutorOp.postpone id)).bind fun a =>
    (orExit a).bind fun _ => .ret flow
  match r.progress.approvalId with
  | none => .ret .next
  | some approvalId =>
    (Prog.ask (ExecutorOp.get approvalId)).bind fun
      | .error (.unavailable _) | .error (.throttled _) => postpone .stop
      | .error (.refused _) => postpone .next
      | .ok approval =>
        match approval.state with
        | .isOpen | .passed => postpone .next
        | .rejected | .vetoed | .expired | .cancelled | .void =>
          (closeOperation id .rejected ("approval_" ++ approval.state.asStr)).bind fun _ =>
            .ret .next
        | .executed | .executionFailed => postpone .next

/-- End the operations whose approval ended otherwise. -/
def settleDecided : ExecutorProg Unit :=
  (Prog.ask ExecutorOp.dueToCheck).bind fun due => (orExit due).bind fun rs =>
    whileNext settleOne rs

/-- **One round.** -/
def executorRound : ExecutorProg Unit :=
  (Prog.ask ExecutorOp.ensureCatalog).bind fun ready =>
    (if ready then proposeDue else .ret ()).bind fun _ =>
      (executeApproved sha256Hex parseUuid).bind fun _ => settleDecided

/-! ## The others -/

/-- What the clients do meanwhile: one asks for an operation, under an id nobody has named yet. -/
inductive ExecutorEnv : ExecutorWorld → ExecutorWorld → Prop
  | requested {w : ExecutorWorld} (r : RecordedOperation) (hnew : r.progress = .awaiting)
      (habsent : w.rows r.operation.id = none)
      (hfresh : ∀ view, .pulled view ∈ w.log →
        operationRef parseUuid view.subjectRef ≠ some r.operation.id) :
      ExecutorEnv w (w.setRow r.operation.id r)

/-- The worlds reached when any number of replicas run rounds from an empty store. -/
def ExecutorRuns (grants : Grants) :
    Config ExecutorOp ExecutorOp.Ans DomainError Unit ExecutorWorld → Prop :=
  Runs (ExecutorStep grants) (ExecutorEnv parseUuid)
    (fun p => p = executorRound sha256Hex parseUuid) (fun _ _ => True) (.empty, [])

end Hashed

end Banking
