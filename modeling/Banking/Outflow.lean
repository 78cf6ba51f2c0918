import Banking.Ceilings
import Banking.Operations
import Banking.Relay
import Banking.Lib.Locks
import Banking.Lib.Pool

/-! # What leaves a scope without the owners

Automatic payouts and transfers, requested operations, and the execution of an approved one, as the
store records them: each in a transaction whose time is its start, on totals of the last day read
under a lock of the scope's budget or of the client's ceiling, which it holds until it commits. -/

namespace Banking

open Interactive (Prog Held World PoolStep Runs Config)

/-! ## Admissions -/

/-- A scope as banking knows it. -/
structure ScopeRecord where
  state : ScopeState
  policy : ScopePolicy

/-- A user a line names, as banking resolved them. -/
structure ResolvedUser where
  authSubject : String
  user : UserId
  blocked : Bool
deriving DecidableEq, Repr

/-- What the control plane says about a payout or a requested operation, but for its totals. -/
structure OutflowReads where
  scope : Option ScopeRecord
  sourceOwner : Option ClientId
  users : List ResolvedUser
  destinationOwner : Option ClientId
  destinationScope : Option ScopeRecord
  liveOperations : Nat

/-- What an admission is decided on. -/
structure OutflowFacts extends OutflowReads where
  paid24h : Nat
  scopeOut24h : Nat

/-- The scope of a call, if banking knows it. -/
def knownScope (record : Option ScopeRecord) (scope : ScopeId) : Except TransferError ScopeRecord :=
  match record with
  | none => .error (.domain (.notFound "scope" scope.id))
  | some record => .ok record

/-- A frozen scope takes no new debit; a closed one may still pay out what it holds. -/
def notFrozen : ScopeState → Except TransferError Unit
  | .frozen => .error (.refused .scopeFrozen)
  | .active | .closed => .ok ()

/-- A refusal unless a condition holds. -/
def allow (condition : Prop) [Decidable condition] (error : TransferError) :
    Except TransferError Unit :=
  if condition then .ok () else .error error

/-- A line with its user. -/
def resolveLine (users : List ResolvedUser) (line : RequestedLine) :
    Except TransferError PayoutLine :=
  match users.find? (·.authSubject = line.authSubject) with
  | none => .error (.domain (.notFound "user" line.authSubject))
  | some known =>
    if known.blocked then .error (.refused .userFrozen)
    else .ok ⟨known.user, line.authSubject, line.amount⟩

/-- The lines with their users resolved, in the order asked. -/
def resolveLines (users : List ResolvedUser) (lines : List RequestedLine) :
    Except TransferError (List PayoutLine) :=
  lines.mapM (resolveLine users)

/-- What `spendable` covers. -/
def checkCover (spendable : Except DomainError Nat) (total : Nat) : Except TransferError Unit :=
  match spendable with
  | .error e => .error (.domain e)
  | .ok spendable =>
    if spendable < total then .error (.refused .insufficientFunds) else .ok ()

/-- The admission of an automatic payout, under the id `fresh`. -/
def PayoutRequest.admitted (grants : Grants) (r : PayoutRequest) (total : Nat) (facts : OutflowFacts)
    (spendable : Except DomainError Nat) (fresh : Uuid) :
    Except TransferError (ScopePayout × List ScopePayoutEvent) := do
  let scope ← knownScope facts.scope r.scope
  allow (grants.compartments r.client r.scope ∧ grants.mayOpen r.client r.scope r.fromLabel)
    (.refused .notGranted)
  allow (facts.sourceOwner = some r.client) (.refused .notAccountOwner)
  notFrozen scope.state
  let lines ← resolveLines facts.users r.lines
  (scope.policy.admitAutoPayout
    ⟨total, maxLine r.lines, facts.paid24h, facts.scopeOut24h⟩).mapError .refused
  checkCover spendable total
  (ScopePayout.request fresh
    { client := r.client, scope := r.scope, fromLabel := r.fromLabel, lines, reason := r.reason
      subjectRef := r.subjectRef, memo := r.memo, operationId := none }).mapError .domain

/-- How many operations one client may have awaiting an approval in one scope. -/
def MAX_LIVE_OPERATIONS : Nat := 20

/-- The request limit and the source's cover, checked for every requested operation. -/
def mayAsk (facts : OutflowFacts) (spendable : Except DomainError Nat) (total : Nat) :
    Except TransferError Unit :=
  if MAX_LIVE_OPERATIONS ≤ facts.liveOperations then
    .error (.exhausted ("at most " ++ toString MAX_LIVE_OPERATIONS
      ++ " operations may await an approval in one scope at once"))
  else checkCover spendable total

/-- Terms whose identifiers have their shapes. -/
structure OperationTerms.Shaped (t : OperationTerms) : Prop where
  client : t.client.Shaped
  scope : t.scope.Shaped
  fromLabel : t.fromLabel.Shaped
  body : t.body.Shaped

/-- An id drawn for a new record. -/
abbrev FreshId : Type := { id : Uuid // id.Minted }

/-- A new operation. -/
def PendingOperation.request (id : FreshId) (terms : OperationTerms) (h : terms.Shaped) :
    Except DomainError PendingOperation :=
  match hchecked : terms.check with
  | .error e => .error e
  | .ok total => .ok
    { id := id.1, terms, total, id_minted := id.2, checked := hchecked, client_shaped := h.client
      scope_shaped := h.scope, from_shaped := h.fromLabel, body_shaped := h.body }

/-- What a client asks of `RequestPayout`, parsed. -/
structure RequestPayoutRequest where
  client : ClientId
  scope : ScopeId
  fromLabel : ScopeAccountLabel
  lines : List RequestedLine
  distribution : Bool
  subjectRef : SubjectRef
  memo : String
  client_shaped : client.Shaped
  scope_shaped : scope.Shaped
  from_shaped : fromLabel.Shaped

/-- What a client asks of `RequestTransfer`, parsed. -/
structure RequestTransferRequest where
  client : ClientId
  scope : ScopeId
  fromLabel : ScopeAccountLabel
  toScope : Option ScopeId
  toLabel : ScopeAccountLabel
  amount : Nat
  subjectRef : SubjectRef
  memo : String
  client_shaped : client.Shaped
  scope_shaped : scope.Shaped
  from_shaped : fromLabel.Shaped
  toScope_shaped : (toScope.getD scope).Shaped
  to_shaped : toLabel.Shaped

/-- Where a requested transfer goes. -/
def RequestTransferRequest.destination (r : RequestTransferRequest) : ScopeId :=
  r.toScope.getD r.scope

/-- What an automatic transfer is decided on, but for its total. -/
structure TransferReads where
  scope : Option ScopeRecord
  sourceOwner : Option ClientId
  destinationOwner : Option ClientId
  routeOpen : Bool

/-- Another scope must take the transfer in. -/
def RequestTransferRequest.checkDestination (r : RequestTransferRequest) (facts : OutflowFacts) :
    Except TransferError Unit :=
  if r.destination = r.scope then .ok ()
  else do
    let destination ← knownScope facts.destinationScope r.destination
    (receiving destination.state).mapError .refused

section Hashed

variable (sha256Hex : String → String) (grants : Grants)

/-- The admission of a requested payout: its flag is decided on what left the scope today. -/
def RequestPayoutRequest.admitted (r : RequestPayoutRequest) (facts : OutflowFacts)
    (spendable : Except DomainError Nat) (fresh : FreshId) (now : Int) :
    Except TransferError RecordedOperation := do
  let scope ← knownScope facts.scope r.scope
  allow (grants.compartments r.client r.scope) (.refused .notGranted)
  allow (facts.sourceOwner = some r.client) (.refused .notAccountOwner)
  notFrozen scope.state
  let lines ← resolveLines facts.users r.lines
  let total ← (checkLines r.lines).mapError .domain
  mayAsk facts spendable total
  let overScopeBudget := scope.policy.overScopeBudget facts.scopeOut24h total
  let operation ← (PendingOperation.request fresh
    { client := r.client, scope := r.scope, fromLabel := r.fromLabel
      body := .payout lines r.distribution overScopeBudget, memo := r.memo }
    ⟨r.client_shaped, r.scope_shaped, r.from_shaped, trivial⟩).mapError .domain
  (RecordedOperation.request sha256Hex operation r.subjectRef now).mapError .domain

/-- The admission of a requested transfer. -/
def RequestTransferRequest.admitted (r : RequestTransferRequest) (facts : OutflowFacts)
    (spendable : Except DomainError Nat) (fresh : FreshId) (now : Int) :
    Except TransferError RecordedOperation := do
  let scope ← knownScope facts.scope r.scope
  allow (facts.sourceOwner = some r.client ∧ facts.destinationOwner = some r.client)
    (.refused .notAccountOwner)
  notFrozen scope.state
  r.checkDestination facts
  mayAsk facts spendable r.amount
  let operation ← (PendingOperation.request fresh
    { client := r.client, scope := r.scope, fromLabel := r.fromLabel
      body := .transfer r.destination r.toLabel r.amount, memo := r.memo }
    ⟨r.client_shaped, r.scope_shaped, r.from_shaped, r.toScope_shaped, r.to_shaped⟩).mapError
      .domain
  (RecordedOperation.request sha256Hex operation r.subjectRef now).mapError .domain

/-- The admission of an automatic transfer. -/
def ScopeTransfer.admitted (t : ScopeTransfer) (reads : TransferReads) (transferred24h : Nat)
    (spendable : Except DomainError Nat) : Except TransferError Unit := do
  let scope ← knownScope reads.scope t.terms.scope
  allow (grants.mayOpen t.terms.client t.terms.scope t.terms.fromLabel) (.refused .notGranted)
  allow (reads.sourceOwner = some t.terms.client) (.refused .notAccountOwner)
  allow (reads.destinationOwner.any ClientId.isBanking)
    (.internal ("scope " ++ t.terms.scope.id ++ " has no fee collector owned by banking"))
  allow reads.routeOpen (.refused .feeRouteUnavailable)
  notFrozen scope.state
  (scope.policy.admitAutoTransfer ⟨t.terms.amount, transferred24h⟩).mapError .refused
  checkCover spendable t.terms.amount

end Hashed

/-! ## The gates before a transaction -/

/-- The longest idempotency key. -/
def MAX_IDEMPOTENCY_KEY : Nat := 128

/-- An idempotency key is short and plain. -/
def checkKey (key : String) : Except TransferError Unit :=
  if key.length = 0 ∨ MAX_IDEMPOTENCY_KEY < key.length then
    .error (.domain (.validation "idempotency_key must be 1..128 characters"))
  else if key.toList.any isControl then
    .error (.domain (.validation "idempotency_key must not contain control characters"))
  else .ok ()

/-- `main` is banking's, and a scope the client holds no grant in is not its business. -/
def grantedScope (grants : Grants) (client : ClientId) (scope : ScopeId) :
    Except TransferError Unit :=
  if scope.isMain ∨ grants.inScope client scope = [] then .error (.refused .notGranted)
  else .ok ()

/-- The checks of a requested payout before its key is looked up. -/
def RequestPayoutRequest.accept (r : RequestPayoutRequest) : Except TransferError Unit :=
  if r.fromLabel.isReserved then .error (.refused .notAccountOwner)
  else (checkLines r.lines).mapError .domain |>.map fun _ => ()

/-- The text stored beside a requested payout's key. -/
def RequestPayoutRequest.canonical (r : RequestPayoutRequest) : String :=
  Banking.canonical [r.fromLabel.label, if r.distribution then "distribution" else "",
    r.subjectRef.text, r.memo, canonicalLines r.lines]

/-- The key a requested payout is recorded under. -/
def RequestPayoutRequest.requestKey (r : RequestPayoutRequest) (key : String) : RequestKey :=
  ⟨r.client, r.scope, .requestPayout, key⟩

/-- The checks of a requested transfer before its key is looked up. -/
def RequestTransferRequest.accept (r : RequestTransferRequest) : Except TransferError Unit :=
  if r.fromLabel.isReserved ∨ r.toLabel.isReserved ∨ r.destination.isMain then
    .error (.refused .notAccountOwner)
  else if r.amount = 0 then .error (.domain (.validation "amount must be positive"))
  else if r.destination = r.scope ∧ r.toLabel = r.fromLabel then
    .error (.domain (.validation "a transfer needs two different accounts"))
  else .ok ()

/-- The text stored beside a requested transfer's key. -/
def RequestTransferRequest.canonical (r : RequestTransferRequest) : String :=
  Banking.canonical [r.fromLabel.label, r.destination.id, r.toLabel.label, toString r.amount,
    r.subjectRef.text, r.memo]

/-- The key a requested transfer is recorded under. -/
def RequestTransferRequest.requestKey (r : RequestTransferRequest) (key : String) : RequestKey :=
  ⟨r.client, r.scope, .requestTransfer, key⟩

/-! ## The store -/

/-- What a transaction locks before it sums a day: a scope's budget, or one client's ceiling in it.
-/
inductive OutflowLock
  | budget (scope : ScopeId)
  | ceiling (client : ClientId) (scope : ScopeId)
deriving DecidableEq, Repr

/-- A payout as recorded. -/
structure RecordedPayout where
  payout : ScopePayout
  state : MoveState
  failureReason : Option String
  createdAt : Int

/-- A transfer as recorded. -/
structure RecordedTransfer where
  transfer : ScopeTransfer
  state : MoveState
  failureReason : Option String
  createdAt : Int

/-- Whether a row still counts: pending or posted. -/
def MoveState.counts : MoveState → Bool
  | .pending | .posted => true
  | .failed => false

/-- A scope's payout that no operation made and that has not failed. -/
def RecordedPayout.automatic (r : RecordedPayout) (scope : ScopeId) : Bool :=
  r.payout.terms.scope = scope && r.payout.terms.operationId = none && r.state.counts

/-- A client's transfer in a scope that no operation made and that has not failed. -/
def RecordedTransfer.automatic (r : RecordedTransfer) (client : ClientId) (scope : ScopeId) :
    Bool :=
  r.transfer.terms.client = client && r.transfer.terms.scope = scope &&
    r.transfer.terms.operationId = none && r.state.counts

/-- A scope's payout operation whose decision is the scope's own; one not opened yet counts as it.
-/
def RecordedOperation.ownDecision (r : RecordedOperation) (scope : ScopeId) : Bool :=
  r.operation.terms.scope = scope && r.operation.kind = .scopePayout &&
    r.approvalLevel.getD .scope = .scope

/-- The tables, the locks and the database's clock. -/
structure OutflowWorld where
  clock : Int
  locks : OutflowLock → Nat
  payouts : List RecordedPayout
  operations : List RecordedOperation
  transfers : List RecordedTransfer

/-- Nothing recorded. -/
def OutflowWorld.empty : OutflowWorld := ⟨0, fun _ => 0, [], [], []⟩

/-- Amounts summed. -/
def sumAmounts (amounts : List Nat) (what : String) : Except DomainError Nat :=
  amounts.foldlM (fun total amount =>
    match Usdt.checkedAdd total amount with
    | none => .error (.repository (what ++ " overflow"))
    | some total => .ok total) 0

section Queries

variable (day : Int) (w : OutflowWorld)

/-- The client's automatic payouts in the scope over the last day, pending and posted. -/
def OutflowWorld.paid24h (client : ClientId) (scope : ScopeId) (now : Int) : List Nat :=
  (w.payouts.filter fun r => r.payout.terms.client = client && r.automatic scope &&
    now - day < r.createdAt).map (·.payout.total)

/-- What left the scope's accounts over the last day without the platform owners: every client's
automatic payouts, and the payout decisions taken inside the scope, live or executed in it. -/
def OutflowWorld.scopeOut24h (scope : ScopeId) (now : Int) : List Nat :=
  (w.payouts.filter fun r => r.automatic scope && now - day < r.createdAt).map (·.payout.total) ++
    (w.operations.filter fun r => r.ownDecision scope &&
      (r.progress.state = .awaitingApproval ||
        r.progress.state = .executed && r.decidedAt.any (now - day < ·))).map (·.operation.total)

/-- The client's own transfers in the scope over the last day, pending and posted. -/
def OutflowWorld.transferred24h (client : ClientId) (scope : ScopeId) (now : Int) : List Nat :=
  (w.transfers.filter fun r => r.automatic client scope && now - day < r.createdAt).map
    (·.transfer.terms.amount)

end Queries

/-- An operation's row rewritten. -/
def OutflowWorld.update (w : OutflowWorld) (id : Uuid)
    (f : RecordedOperation → RecordedOperation) : OutflowWorld :=
  { w with operations := w.operations.map fun r => if r.operation.id = id then f r else r }

/-- What an execution records beside the operation. -/
def OutflowWorld.recordsDone (w : OutflowWorld) (now : Int) : Option Execution → OutflowWorld
  | some (.payout payout _) => { w with payouts := ⟨payout, .pending, none, now⟩ :: w.payouts }
  | some (.transfer transfer _) =>
    { w with transfers := ⟨transfer, .pending, none, now⟩ :: w.transfers }
  | some (.fail _) | none => w

/-- The execution of an operation as `carried` decides, under its row's lock. -/
def OutflowWorld.execute (w : OutflowWorld) (id : Uuid)
    (carried : RecordedOperation → Except TransferError Execution) (now : Int) :
    Except TransferError (Option Execution) × OutflowWorld :=
  match w.operations.find? (·.operation.id = id) with
  | none => (.error (.domain (.notFound "operation" id.text)), w)
  | some r =>
    match (r.execute carried now).1 with
    | .error e => (.error e, w)
    | .ok done =>
      (.ok done, (w.update id fun r => (r.execute carried now).2).recordsDone now done)

/-- What an earlier call under a key recorded. -/
structure StoredRequest where
  terms : String
  resultId : String
deriving DecidableEq, Repr

/-! ## What is asked of it -/

/-- One operation of a transaction. A commit writes what the transaction made, unless another took
its key first. -/
inductive OutflowOp
  | begin
  | findRequest (key : RequestKey)
  | lock (l : OutflowLock)
  | outflowReads (scope : ScopeId) (source : ScopeAccountLabel)
      (destination : Option (ScopeId × ScopeAccountLabel)) (subjects : List String)
  | transferReads (terms : TransferTerms)
  | paid24h (client : ClientId) (scope : ScopeId) (now : Int)
  | scopeOut24h (scope : ScopeId) (now : Int)
  | transferred24h (client : ClientId) (scope : ScopeId) (now : Int)
  | spendable (scope : ScopeId) (label : ScopeAccountLabel)
  | fresh
  | commitPayout (held : Held OutflowLock) (r : RecordedPayout) (key : RequestKey)
  | commitOperation (held : Held OutflowLock) (r : RecordedOperation) (key : RequestKey)
  | commitTransfer (held : Held OutflowLock) (r : RecordedTransfer) (key : RequestKey)
  | operationById (id : Uuid)
  | execute (id : Uuid) (now : Int)

/-- What an operation is answered with. -/
abbrev OutflowOp.Ans : OutflowOp → Type
  | .begin => Int
  | .findRequest _ => Option StoredRequest
  | .lock _ => Nat
  | .outflowReads .. => OutflowReads
  | .transferReads _ => TransferReads
  | .paid24h .. | .scopeOut24h .. | .transferred24h .. => Except DomainError Nat
  | .spendable .. => Except DomainError Nat
  | .fresh => FreshId
  | .commitPayout .. | .commitOperation .. | .commitTransfer .. => Option StoredRequest
  | .operationById _ => Option RecordedOperation
  | .execute .. => Except TransferError (Option Execution)

/-- **How an operation may be answered**, while the policy of `scope` is `policy`. A lock is held
until its transaction commits; a transaction commits only while its locks are its own. -/
inductive OutflowStep (grants : Grants) (day : Int) (scope : ScopeId) (policy : ScopePolicy) :
    (op : OutflowOp) → OutflowWorld → op.Ans → OutflowWorld → Prop
  | begin (w : OutflowWorld) : OutflowStep grants day scope policy .begin w w.clock w
  | findRequest (w : OutflowWorld) (key : RequestKey) (a : Option StoredRequest) :
      OutflowStep grants day scope policy (.findRequest key) w a w
  | lock (w : OutflowWorld) (l : OutflowLock) :
      OutflowStep grants day scope policy (.lock l) w (w.locks l) w
  | outflowReads (w : OutflowWorld) (place : ScopeId) (source : ScopeAccountLabel)
      (destination : Option (ScopeId × ScopeAccountLabel)) (subjects : List String)
      (a : OutflowReads) (h : ∀ record ∈ a.scope, place = scope → record.policy = policy) :
      OutflowStep grants day scope policy (.outflowReads place source destination subjects) w a w
  | transferReads (w : OutflowWorld) (terms : TransferTerms) (a : TransferReads)
      (h : ∀ record ∈ a.scope, terms.scope = scope → record.policy = policy) :
      OutflowStep grants day scope policy (.transferReads terms) w a w
  | paid24h (w : OutflowWorld) (client : ClientId) (place : ScopeId) (now : Int) :
      OutflowStep grants day scope policy (.paid24h client place now) w
        (sumAmounts (w.paid24h day client place now) "payouts in 24 h") w
  | scopeOut24h (w : OutflowWorld) (place : ScopeId) (now : Int) :
      OutflowStep grants day scope policy (.scopeOut24h place now) w
        (sumAmounts (w.scopeOut24h day place now) "scope outflow in 24 h") w
  | transferred24h (w : OutflowWorld) (client : ClientId) (place : ScopeId) (now : Int) :
      OutflowStep grants day scope policy (.transferred24h client place now) w
        (sumAmounts (w.transferred24h day client place now) "transfers in 24 h") w
  | spendable (w : OutflowWorld) (place : ScopeId) (label : ScopeAccountLabel)
      (a : Except DomainError Nat) :
      OutflowStep grants day scope policy (.spendable place label) w a w
  | fresh (w : OutflowWorld) (id : FreshId) : OutflowStep grants day scope policy .fresh w id w
  | commitPayout (w : OutflowWorld) (held : Held OutflowLock) (r : RecordedPayout)
      (key : RequestKey) (h : held.Own w.locks) :
      OutflowStep grants day scope policy (.commitPayout held r key) w none
        { w with locks := held.release w.locks, payouts := r :: w.payouts }
  | racedPayout (w : OutflowWorld) (held : Held OutflowLock) (r : RecordedPayout)
      (key : RequestKey) (stored : StoredRequest) :
      OutflowStep grants day scope policy (.commitPayout held r key) w (some stored) w
  | commitOperation (w : OutflowWorld) (held : Held OutflowLock) (r : RecordedOperation)
      (key : RequestKey) (h : held.Own w.locks)
      (hnew : ∀ s ∈ w.operations, s.operation.id ≠ r.operation.id) :
      OutflowStep grants day scope policy (.commitOperation held r key) w none
        { w with locks := held.release w.locks, operations := r :: w.operations }
  | racedOperation (w : OutflowWorld) (held : Held OutflowLock) (r : RecordedOperation)
      (key : RequestKey) (stored : StoredRequest) :
      OutflowStep grants day scope policy (.commitOperation held r key) w (some stored) w
  | commitTransfer (w : OutflowWorld) (held : Held OutflowLock) (r : RecordedTransfer)
      (key : RequestKey) (h : held.Own w.locks) :
      OutflowStep grants day scope policy (.commitTransfer held r key) w none
        { w with locks := held.release w.locks, transfers := r :: w.transfers }
  | racedTransfer (w : OutflowWorld) (held : Held OutflowLock) (r : RecordedTransfer)
      (key : RequestKey) (stored : StoredRequest) :
      OutflowStep grants day scope policy (.commitTransfer held r key) w (some stored) w
  | operationById (w : OutflowWorld) (id : Uuid) :
      OutflowStep grants day scope policy (.operationById id) w
        (w.operations.find? (·.operation.id = id)) w
  | execute (w : OutflowWorld) (id : Uuid) (now : Int) (facts : ExecutionFacts)
      (spendable : Except DomainError Nat) (fresh : Uuid) :
      OutflowStep grants day scope policy (.execute id now) w
        (w.execute id (·.carry grants facts spendable fresh) now).1
        (w.execute id (·.carry grants facts spendable fresh) now).2

/-! ## The calls -/

/-- A program of calls to the scope ledger. -/
abbrev OutflowProg (α : Type) : Type := Prog OutflowOp OutflowOp.Ans TransferError α

/-- One operation. -/
def askStore (op : OutflowOp) : OutflowProg op.Ans := Prog.ask op

/-- A call refused ends. -/
def orRefuse {α : Type} : Except TransferError α → OutflowProg α
  | .ok a => .ret a
  | .error e => .exit e

/-- How a request under a key ended: recorded now, or as an earlier call recorded it. -/
inductive Recorded (α : Type)
  | new (a : α)
  | existing (stored : StoredRequest)

/-- A repeat gets the first call's result, when it asks for the same thing. -/
def repeated {α : Type} (stored : StoredRequest) (terms : String) : OutflowProg (Recorded α) :=
  orRefuse ((sameTerms stored.terms terms).mapError .domain |>.map fun _ => .existing stored)

/-- What was committed, or what the call that took the key first recorded. -/
def committed {α : Type} (a : α) (terms : String) :
    Option StoredRequest → OutflowProg (Recorded α)
  | none => .ret (.new a)
  | some stored => repeated stored terms

section Calls

variable (sha256Hex : String → String) (grants : Grants)

/-- `Payout`: an automatic payout, at once and inside every ceiling. -/
def recordPayout (r : PayoutRequest) (key : String) : OutflowProg (Recorded RecordedPayout) := do
  orRefuse (checkKey key)
  orRefuse (grantedScope grants r.client r.scope)
  let total ← orRefuse r.accept
  let now ← askStore .begin
  match ← askStore (.findRequest (r.requestKey key)) with
  | some stored => repeated stored r.canonical
  | none =>
    let count ← askStore (.lock (.budget r.scope))
    let reads ← askStore (.outflowReads r.scope r.fromLabel none (r.lines.map (·.authSubject)))
    let paid ← askStore (.paid24h r.client r.scope now)
    let paid24h ← orRefuse (paid.mapError .domain)
    let out ← askStore (.scopeOut24h r.scope now)
    let scopeOut24h ← orRefuse (out.mapError .domain)
    let spendable ← askStore (.spendable r.scope r.fromLabel)
    let fresh ← askStore .fresh
    let admitted ← orRefuse
      (r.admitted grants total { reads with paid24h, scopeOut24h } spendable fresh.1)
    let recorded : RecordedPayout := ⟨admitted.1, .pending, none, now⟩
    let raced ← askStore
      (.commitPayout [(.budget r.scope, count)] recorded (r.requestKey key))
    committed recorded r.canonical raced

/-- `RequestPayout`: a payout to be decided by an approval, counted from now on unless it is flagged
over the budget. -/
def requestPayout (r : RequestPayoutRequest) (key : String) :
    OutflowProg (Recorded RecordedOperation) := do
  orRefuse (checkKey key)
  orRefuse (grantedScope grants r.client r.scope)
  orRefuse r.accept
  let now ← askStore .begin
  match ← askStore (.findRequest (r.requestKey key)) with
  | some stored => repeated stored r.canonical
  | none =>
    let count ← askStore (.lock (.budget r.scope))
    let out ← askStore (.scopeOut24h r.scope now)
    let scopeOut24h ← orRefuse (out.mapError .domain)
    let reads ← askStore (.outflowReads r.scope r.fromLabel none (r.lines.map (·.authSubject)))
    let spendable ← askStore (.spendable r.scope r.fromLabel)
    let fresh ← askStore .fresh
    let recorded ← orRefuse
      (r.admitted sha256Hex grants { reads with paid24h := 0, scopeOut24h } spendable fresh now)
    let raced ← askStore
      (.commitOperation [(.budget r.scope, count)] recorded (r.requestKey key))
    committed recorded r.canonical raced

/-- `RequestTransfer`: a transfer to be decided by an approval; it leaves no user's hands and takes
no budget. -/
def requestTransfer (r : RequestTransferRequest) (key : String) :
    OutflowProg (Recorded RecordedOperation) := do
  orRefuse (checkKey key)
  orRefuse (grantedScope grants r.client r.scope)
  orRefuse r.accept
  let now ← askStore .begin
  match ← askStore (.findRequest (r.requestKey key)) with
  | some stored => repeated stored r.canonical
  | none =>
    let reads ← askStore
      (.outflowReads r.scope r.fromLabel (some (r.destination, r.toLabel)) [])
    let spendable ← askStore (.spendable r.scope r.fromLabel)
    let fresh ← askStore .fresh
    let recorded ← orRefuse
      (r.admitted sha256Hex { reads with paid24h := 0, scopeOut24h := 0 } spendable fresh now)
    let raced ← askStore (.commitOperation [] recorded (r.requestKey key))
    committed recorded r.canonical raced

/-- `Transfer`: a client's automatic transfer into the scope's fee collector. -/
def recordTransfer (client : ClientId) (r : ScopeTransferRequest) (key : String) :
    OutflowProg (Recorded RecordedTransfer) := do
  orRefuse (checkKey key)
  orRefuse (grantedScope grants client r.scope)
  let terms ← orRefuse (r.accept client)
  let fresh ← askStore .fresh
  let requested ← orRefuse ((ScopeTransfer.request fresh.1 terms).mapError .domain)
  let now ← askStore .begin
  match ← askStore (.findRequest (r.requestKey client key)) with
  | some stored => repeated stored terms.canonical
  | none =>
    let count ← askStore (.lock (.ceiling client r.scope))
    let reads ← askStore (.transferReads terms)
    let moved ← askStore (.transferred24h client r.scope now)
    let transferred24h ← orRefuse (moved.mapError .domain)
    let spendable ← askStore (.spendable r.scope terms.fromLabel)
    orRefuse (requested.1.admitted grants reads transferred24h spendable)
    let recorded : RecordedTransfer := ⟨requested.1, .pending, none, now⟩
    let raced ← askStore
      (.commitTransfer [(.ceiling client r.scope, count)] recorded (r.requestKey client key))
    committed recorded terms.canonical raced

/-- The executor's call: an operation it has read is carried out, in a transaction begun later. -/
def executeOperation (id : Uuid) : OutflowProg Unit := do
  match ← askStore (.operationById id) with
  | none => .exit (.domain (.notFound "operation" id.text))
  | some _ =>
    let now ← askStore .begin
    let _ ← askStore (.execute id now)
    return ()

/-- A call, its result dropped. -/
inductive OutflowCall : OutflowProg Unit → Prop
  | payout (r : PayoutRequest) (key : String) :
      OutflowCall ((recordPayout grants r key).bind fun _ => .ret ())
  | requestPayout (r : RequestPayoutRequest) (key : String) :
      OutflowCall ((requestPayout sha256Hex grants r key).bind fun _ => .ret ())
  | requestTransfer (r : RequestTransferRequest) (key : String) :
      OutflowCall ((requestTransfer sha256Hex grants r key).bind fun _ => .ret ())
  | transfer (client : ClientId) (r : ScopeTransferRequest) (key : String) :
      OutflowCall ((recordTransfer grants client r key).bind fun _ => .ret ())
  | execute (id : Uuid) : OutflowCall (executeOperation id)

end Calls

/-! ## What others do -/

/-- The ledger's answer to a payout, which only a pending one takes. -/
def RecordedPayout.mark (r : RecordedPayout) (id : Uuid) (state : MoveState)
    (failureReason : Option String) : RecordedPayout :=
  if r.payout.id = id ∧ r.state = .pending then { r with state, failureReason } else r

/-- The ledger's answer to a transfer, which only a pending one takes. -/
def RecordedTransfer.mark (r : RecordedTransfer) (id : Uuid) (state : MoveState)
    (failureReason : Option String) : RecordedTransfer :=
  if r.transfer.id = id ∧ r.state = .pending then { r with state, failureReason } else r

/-- What happens besides the calls: time passes; the relay stamps what the ledger took or refused,
and records banking's own route of swept fees; an approval is opened for an operation, and one ends
unexecuted. -/
inductive OutflowEnv : OutflowWorld → OutflowWorld → Prop
  | tick {w : OutflowWorld} {clock : Int} (h : w.clock ≤ clock) : OutflowEnv w { w with clock }
  | payoutMarked (w : OutflowWorld) (id : Uuid) (state : MoveState) (why : Option String) :
      OutflowEnv w { w with payouts := w.payouts.map (·.mark id state why) }
  | transferMarked (w : OutflowWorld) (id : Uuid) (state : MoveState) (why : Option String) :
      OutflowEnv w { w with transfers := w.transfers.map (·.mark id state why) }
  | feeRouted (w : OutflowWorld) (r : RecordedTransfer) (h : r.transfer.terms.reason = .feeRoute) :
      OutflowEnv w { w with transfers := r :: w.transfers }
  | opened (w : OutflowWorld) (id : Uuid) (approvalId : String) (level : Option ApprovalLevel) :
      OutflowEnv w (w.update id fun r => (r.opened approvalId level).2)
  | closed (w : OutflowWorld) (id : Uuid) (finish : OperationEnd) (reason : String) (now : Int) :
      OutflowEnv w (w.update id fun r => (r.close finish reason now).2)

/-- The configurations reached while the policy of `scope` is `policy`: any number of calls at once,
each step of each in any order, any of them lost anywhere. -/
def OutflowRuns (sha256Hex : String → String) (grants : Grants) (day : Int) (scope : ScopeId)
    (policy : ScopePolicy) (c : Config OutflowOp OutflowOp.Ans TransferError Unit OutflowWorld) :
    Prop :=
  Runs (OutflowStep grants day scope policy) OutflowEnv (OutflowCall sha256Hex grants)
    (fun _ _ => True) (.empty, []) c

/-! ## What a day holds -/

section Day

variable (w : OutflowWorld) (lo hi : Int)

/-- The automatic payouts of a scope recorded after `lo` up to `hi` that have not failed. -/
def OutflowWorld.paidIn (scope : ScopeId) : Nat :=
  ((w.payouts.filter fun r => r.automatic scope && (lo < r.createdAt && r.createdAt ≤ hi)).map
    (·.payout.total)).sum

/-- Those of one client. -/
def OutflowWorld.paidByIn (client : ClientId) (scope : ScopeId) : Nat :=
  ((w.payouts.filter fun r => r.payout.terms.client = client && r.automatic scope &&
    (lo < r.createdAt && r.createdAt ≤ hi)).map (·.payout.total)).sum

/-- The automatic transfers of one client recorded in that time that have not failed. -/
def OutflowWorld.transferredByIn (client : ClientId) (scope : ScopeId) : Nat :=
  ((w.transfers.filter fun r => r.automatic client scope &&
    r.transfer.terms.reason = .feeSweep && (lo < r.createdAt && r.createdAt ≤ hi)).map
      (·.transfer.terms.amount)).sum

/-- An operation that pays out of a scope within its budget, as its request was flagged. -/
def RecordedOperation.unflagged (r : RecordedOperation) (scope : ScopeId) : Bool :=
  r.operation.terms.scope = scope &&
    match r.operation.terms.body with
    | .payout _ _ overScopeBudget => !overScopeBudget
    | .transfer .. => false

/-- The unflagged payout operations of a scope executed in that time, of those `counts` picks. -/
def OutflowWorld.executedIn (counts : RecordedOperation → Bool) (scope : ScopeId) : Nat :=
  ((w.operations.filter fun r => r.unflagged scope && counts r && r.progress.state = .executed &&
    r.decidedAt.any fun time => lo < time && time ≤ hi).map (·.operation.total)).sum

end Day

end Banking
