import Mathlib.Data.List.Dedup
import Mathlib.Data.List.Sort
import Mathlib.Logic.Function.Basic
import Mathlib.Logic.Relation
import Banking.Lib.CursorLog
import Banking.MoneyEventNames

/-! # The money-event log

Any number of transactions append events at once, each holding one lock from its first event to its
end; any number of clients read their own, page after page, each from its cursor. What a client has
read is every event addressed to it up to its cursor, in order and once, because a position not yet
seen is past every cursor. -/

namespace Banking

open CursorLog

/-! ## Tables -/

/-- A row of the log. Its event's audience is stored as the row's deliveries. -/
structure MoneyEventRow where
  position : Int
  event : NewMoneyEvent
deriving DecidableEq, Repr

/-- A client that receives an event. -/
structure MoneyEventDelivery where
  client : ClientId
  position : Int
  scope : ScopeId
deriving DecidableEq, Repr

/-- Who receives an event, each once; banking itself never does. -/
def NewMoneyEvent.recipients (e : NewMoneyEvent) : List ClientId :=
  (e.audience.filter fun client => !client.isBanking).dedup

/-- The deliveries written with a row. -/
def MoneyEventRow.deliveries (r : MoneyEventRow) : List MoneyEventDelivery :=
  r.event.recipients.map fun client => ⟨client, r.position, r.event.scope⟩

/-- A row of `scope_accounts`. -/
structure OwnedAccount where
  scope : ScopeId
  label : ScopeAccountLabel
  owner : ClientId
deriving DecidableEq, Repr

/-- Who owns what once an account's row is seen. -/
def ownersWith (owners : ScopeId → ScopeAccountLabel → Option ClientId) :
    Option OwnedAccount → ScopeId → ScopeAccountLabel → Option ClientId
  | none => owners
  | some account => fun scope label =>
    if scope = account.scope ∧ label = account.label then some account.owner else owners scope label

/-- A transaction that writes events: the account it opens and the outbox row it records, if any;
what it has still to append; and what it has written, which nobody else sees before its commit. -/
structure EventTxn where
  opened : Option OwnedAccount
  record : Option OutboxRow
  todo : List NewMoneyEvent
  events : List MoneyEventRow
  deliveries : List MoneyEventDelivery
deriving DecidableEq, Repr

/-- An event as a client is shown it. -/
structure MoneyEventRecord where
  position : Int
  event : MoneyEvent
deriving DecidableEq, Repr

/-- A client that reads page after page, and what it has received. -/
structure EventReader where
  client : ClientId
  scope : Option ScopeId
  cursor : Int
  received : List MoneyEventRecord
deriving DecidableEq, Repr

/-- The tables as every session sees them, the counter and the lock of the log, the transactions
that are open, and the readers. `recorded` lists the outbox rows whose events were committed. -/
structure MoneyLog where
  owners : ScopeId → ScopeAccountLabel → Option ClientId
  payouts : Uuid → Option PayoutFacts
  events : List MoneyEventRow
  deliveries : List MoneyEventDelivery
  next : Int
  lock : Option Nat
  txns : Nat → Option EventTxn
  recorded : List OutboxRow
  readers : Nat → Option EventReader

/-! ## Appending -/

/-- A transaction once its next event is appended: a row of the event's id keeps a second from being
written. -/
def MoneyLog.written (log : MoneyLog) (txn : EventTxn) (event : NewMoneyEvent)
    (rest : List NewMoneyEvent) : EventTxn :=
  let row : MoneyEventRow := ⟨log.next, event⟩
  if ∀ r ∈ log.events ++ txn.events, r.event.eventId ≠ event.eventId then
    { txn with
      todo := rest
      events := txn.events ++ [row]
      deliveries := txn.deliveries ++ row.deliveries }
  else { txn with todo := rest }

/-- `append_checked` after its lock. The position is drawn whether or not the row is written. -/
def MoneyLog.append (log : MoneyLog) (i : Nat) (txn : EventTxn) (event : NewMoneyEvent)
    (rest : List NewMoneyEvent) : MoneyLog :=
  { log with
    next := log.next + 1
    txns := Function.update log.txns i (some (log.written txn event rest)) }

/-- The lock once a transaction is over. -/
def MoneyLog.released (log : MoneyLog) (i : Nat) : Option Nat :=
  if log.lock = some i then none else log.lock

/-- What a transaction wrote becomes seen, and its lock is free. -/
def MoneyLog.commit (log : MoneyLog) (i : Nat) (txn : EventTxn) : MoneyLog :=
  { log with
    owners := ownersWith log.owners txn.opened
    events := log.events ++ txn.events
    deliveries := log.deliveries ++ txn.deliveries
    lock := log.released i
    txns := Function.update log.txns i none
    recorded := txn.record.toList ++ log.recorded }

/-- A transaction that ends without a commit leaves the counter where it is. -/
def MoneyLog.abort (log : MoneyLog) (i : Nat) : MoneyLog :=
  { log with
    lock := log.released i
    txns := Function.update log.txns i none }

/-! ## Pulling -/

/-- Events per page when the client asks for none in particular. -/
def DEFAULT_PULL_LIMIT : Nat := 100

/-- The most events per page a client may ask for. -/
def MAX_PULL_LIMIT : Nat := 500

/-- The page size a request gets. -/
def pullLimit (limit : Nat) : Nat :=
  if limit = 0 then DEFAULT_PULL_LIMIT else min limit MAX_PULL_LIMIT

/-- The rows delivered to a client in some scopes past a position, oldest first. -/
def MoneyLog.delivered (log : MoneyLog) (client : ClientId) (scopes : List ScopeId) (after : Int) :
    List MoneyEventRow :=
  ((log.deliveries.filter fun d =>
    d.client = client ∧ after < d.position ∧ d.scope ∈ scopes).flatMap fun d =>
      log.events.filter fun r => r.position = d.position).insertionSort
        fun r r' => r.position ≤ r'.position

/-- A row as a client is shown it: without the balances of accounts it does not own. -/
def MoneyEventRow.shownTo (client : ClientId) (r : MoneyEventRow) : MoneyEventRecord where
  position := r.position
  event :=
    { r.event.toMoneyEvent with balances := r.event.balances.filter fun b => b.owner = client }

/-- A page of a client's events, and the cursor after it. -/
structure PulledEvents where
  events : List MoneyEventRecord
  nextPosition : Int
deriving DecidableEq, Repr

/-- The scopes a request reads: the one it names, when the client has a grant there, or all of its
grants'. -/
def Grants.pulled (grants : Grants) (client : ClientId) :
    Option ScopeId → Except TransferError (List ScopeId)
  | some scope =>
    if scope.isMain || (grants.inScope client scope).isEmpty then .error (.refused .notGranted)
    else .ok [scope]
  | none => .ok (grants.scopesOf client)

/-- The events delivered to a client past a position. -/
def MoneyLog.pull (log : MoneyLog) (grants : Grants) (client : ClientId) (scope : Option ScopeId)
    (after : Int) (limit : Nat) : Except TransferError PulledEvents :=
  if after < 0 then
    .error (.domain (.validation "after_position must not be negative"))
  else do
    let scopes ← grants.pulled client scope
    if scopes.isEmpty then .ok ⟨[], after⟩
    else
      let page := (log.delivered client scopes after).take (pullLimit limit)
      .ok ⟨page.map (·.shownTo client), resume (·.position) after page⟩

/-! ## Steps -/

/-- An event that a step moving no money writes itself. -/
inductive NewMoneyEvent.Direct : NewMoneyEvent → Prop
  | holdRefused (hold : Uuid) (scope : ScopeId) (client : ClientId) (authSubject : String)
      (held version : Nat) : Direct (holdRefused hold scope client authSubject held version)
  | invoiceStep {client : ClientId} {subjectRef : String} {invoice : Invoice} {e : NewMoneyEvent}
      (h : invoiceStep client subjectRef invoice = .ok e) : Direct e
  | operation (id : Uuid) (terms : OperationTerms) (total : Nat) (subjectRef : String)
      (kind : MoneyEventKind) (version : Nat) (failureReason : String) :
      Direct (operationEvent id terms total subjectRef kind version failureReason)
  | mandate (mandate : Mandate) (authSubject : String) (kind : MoneyEventKind) (version : Nat) :
      Direct (mandateEvent mandate authSubject kind version)

/-- Answers the tables gave at some moment up to now: neither an account's row nor a payout's is
ever changed. -/
structure MoneyLog.Answered (log : MoneyLog) (reads : EventReads) : Prop where
  owner : ∀ scope label client, reads.owner scope label = .ok (some client) →
    log.owners scope label = some client
  payout : ∀ id facts, reads.payout id = .ok facts → log.payouts id = some facts

/-- How a transaction that writes events begins: it opened an account that no seen row and no open
transaction has, it made a step that moves no money, or it records a relayed row from what was
answered before it began. -/
inductive EventTxn.Begins (log : MoneyLog) : EventTxn → Prop
  | opening (account : OwnedAccount) (hseen : log.owners account.scope account.label = none)
      (hopen : ∀ i txn other, log.txns i = some txn → txn.opened = some other →
        ¬ (other.scope = account.scope ∧ other.label = account.label)) :
      Begins log ⟨some account, none, [accountOpened account.scope account.label account.owner],
        [], []⟩
  | direct {events : List NewMoneyEvent} (h : ∀ e ∈ events, e.Direct) :
      Begins log ⟨none, none, events, [], []⟩
  | recording {row : OutboxRow} {reads : EventReads} {events : List NewMoneyEvent}
      (h : reads.relayed row = .ok events) (hanswered : log.Answered reads) :
      Begins log ⟨none, some row, events, [], []⟩

/-- One step of the writers or of a reader. -/
inductive MoneyLog.Step (grants : Grants) (log : MoneyLog) : MoneyLog → Prop
  | begins {i : Nat} {txn : EventTxn} (hfree : log.txns i = none) (h : txn.Begins log) :
      Step grants log { log with txns := Function.update log.txns i (some txn) }
  | locks {i : Nat} {txn : EventTxn} (htxn : log.txns i = some txn) (hfree : log.lock = none) :
      Step grants log { log with lock := some i }
  | appends {i : Nat} {txn : EventTxn} {event : NewMoneyEvent} {rest : List NewMoneyEvent}
      (htxn : log.txns i = some txn) (htodo : txn.todo = event :: rest)
      (hheld : log.lock = some i) : Step grants log (log.append i txn event rest)
  | commits {i : Nat} {txn : EventTxn} (htxn : log.txns i = some txn) (hdone : txn.todo = []) :
      Step grants log (log.commit i txn)
  | aborts {i : Nat} {txn : EventTxn} (htxn : log.txns i = some txn) : Step grants log (log.abort i)
  | feeOpened {scope : ScopeId} {label : ScopeAccountLabel}
      (hseen : log.owners scope label = none)
      (hopen : ∀ i txn other, log.txns i = some txn → txn.opened = some other →
        ¬ (other.scope = scope ∧ other.label = label)) :
      Step grants log { log with owners := ownersWith log.owners (some ⟨scope, label, .banking⟩) }
  | payoutRecorded {id : Uuid} (facts : PayoutFacts) (hnew : log.payouts id = none) :
      Step grants log { log with payouts := Function.update log.payouts id (some facts) }
  | joins {j : Nat} (client : ClientId) (scope : Option ScopeId) (hnew : log.readers j = none) :
      Step grants log
        { log with readers := Function.update log.readers j (some ⟨client, scope, 0, []⟩) }
  | pulls {j limit : Nat} {reader : EventReader} {page : PulledEvents}
      (hreader : log.readers j = some reader)
      (hpull : log.pull grants reader.client reader.scope reader.cursor limit = .ok page) :
      Step grants log { log with readers := Function.update log.readers j (some
        { reader with
          cursor := page.nextPosition
          received := reader.received ++ page.events }) }

/-- A log nothing has been appended to, with no reader. -/
structure MoneyLog.Fresh (log : MoneyLog) : Prop where
  events : log.events = []
  deliveries : log.deliveries = []
  next : log.next = 1
  lock : log.lock = none
  txns : ∀ i, log.txns i = none
  recorded : log.recorded = []
  readers : ∀ j, log.readers j = none

/-- What any run from a fresh log comes to. -/
def MoneyLog.Reached (grants : Grants) (log : MoneyLog) : Prop :=
  ∃ fresh : MoneyLog, fresh.Fresh ∧ Relation.ReflTransGen (MoneyLog.Step grants) fresh log

end Banking
