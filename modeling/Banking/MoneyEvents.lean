import Banking.Arrivals
import Banking.Grants
import Banking.Invoice
import Banking.Mandates
import Banking.Outflow
import Banking.Relay

/-! # Money events

What scope services are told of the money plane: an event for each thing that happened, with who is
to receive it, decided when it is written. A step that moves no money writes its event itself; a
movement's is made by the relay, right after the ledger took it, from what the tables and the ledger
answer then. Every event has an id that names what it is about. -/

namespace Banking

/-! ## Events -/

/-- The kinds of money events. -/
inductive MoneyEventKind
  | accountOpened
  | holdPlaced
  | holdCaptured
  | holdVoided
  | holdExpired
  | transferred
  | charged
  | paidOut
  | operationRequested
  | operationRejected
  | operationFailed
  | invoiceCreated
  | invoicePaid
  | invoiceCancelled
  | invoiceExpired
  | mandateGranted
  | mandateRevoked
deriving DecidableEq, Repr

/-- A kind's name, as it is stored. -/
def MoneyEventKind.asStr : MoneyEventKind → String
  | .accountOpened => "account_opened"
  | .holdPlaced => "hold_placed"
  | .holdCaptured => "hold_captured"
  | .holdVoided => "hold_voided"
  | .holdExpired => "hold_expired"
  | .transferred => "transferred"
  | .charged => "charged"
  | .paidOut => "paid_out"
  | .operationRequested => "operation_requested"
  | .operationRejected => "operation_rejected"
  | .operationFailed => "operation_failed"
  | .invoiceCreated => "invoice_created"
  | .invoicePaid => "invoice_paid"
  | .invoiceCancelled => "invoice_cancelled"
  | .invoiceExpired => "invoice_expired"
  | .mandateGranted => "mandate_granted"
  | .mandateRevoked => "mandate_revoked"

/-- One side of a movement, as an event names it. -/
inductive EventAccount
  | account (label : ScopeAccountLabel)
  | user (authSubject : String)
deriving DecidableEq, Repr

/-- An account an event touched: who owns it, and its balance right after. -/
structure EventBalance where
  label : ScopeAccountLabel
  owner : ClientId
  balance : Nat
deriving DecidableEq, Repr

/-- A money event, as its row keeps it. -/
structure MoneyEvent where
  eventId : Uuid
  scope : ScopeId
  kind : MoneyEventKind
  refId : String
  aggregateVersion : Nat
  authSubject : String
  amount : Option Nat
  source : Option EventAccount
  target : Option EventAccount
  subjectRef : String
  initiatorClient : String
  balances : List EventBalance
  holdRemaining : Option Nat
  counterpartyScope : String
  failureReason : String
  paidFrom : String
deriving DecidableEq, Repr

/-- A money event about to be written, and who is to receive it. -/
structure NewMoneyEvent extends MoneyEvent where
  audience : List ClientId
deriving DecidableEq, Repr

/-- The id of an event, by what it is about. -/
def moneyEventId (name : String) : Uuid := .v5 NAMESPACE_OID ("money_event:" ++ name)

/-- The opening of an account, for its owner. -/
def accountOpened (scope : ScopeId) (label : ScopeAccountLabel) (owner : ClientId) :
    NewMoneyEvent where
  eventId := moneyEventId ("account_opened:" ++ scope.id ++ ":" ++ label.label)
  scope
  kind := .accountOpened
  refId := ""
  aggregateVersion := 1
  authSubject := ""
  amount := none
  source := none
  target := some (.account label)
  subjectRef := ""
  initiatorClient := owner.id
  balances := [⟨label, owner, 0⟩]
  holdRemaining := none
  counterpartyScope := ""
  failureReason := ""
  paidFrom := ""
  audience := [owner]

/-- A hold whose reservation the ledger refused: banking's doing, for the client that placed it. -/
def holdRefused (hold : Uuid) (scope : ScopeId) (client : ClientId) (authSubject : String)
    (held version : Nat) : NewMoneyEvent where
  eventId := moneyEventId ("hold:" ++ hold.text ++ ":" ++ toString version)
  scope
  kind := .holdVoided
  refId := hold.text
  aggregateVersion := version
  authSubject
  amount := some held
  source := none
  target := none
  subjectRef := ""
  initiatorClient := ""
  balances := []
  holdRemaining := some 0
  counterpartyScope := ""
  failureReason := "ledger_refused"
  paidFrom := ""
  audience := [client]

/-- An invoice as it stands right after its creation, cancellation or expiry, for its issuer. -/
def invoiceStep (client : ClientId) (subjectRef : String) (invoice : Invoice) :
    Except DomainError NewMoneyEvent :=
  let step (kind : MoneyEventKind) (initiator : String) : NewMoneyEvent :=
    { eventId := moneyEventId ("invoice:" ++ invoice.id.text ++ ":" ++ toString invoice.version)
      scope := invoice.terms.scope
      kind
      refId := invoice.id.text
      aggregateVersion := invoice.version
      authSubject := ""
      amount := some invoice.terms.amount
      source := none
      target := some (.account invoice.terms.toLabel)
      subjectRef
      initiatorClient := initiator
      balances := []
      holdRemaining := none
      counterpartyScope := ""
      failureReason := ""
      paidFrom := ""
      audience := [client] }
  match invoice.state with
  | .opened => .ok (step .invoiceCreated client.id)
  | .cancelled => .ok (step .invoiceCancelled client.id)
  | .expired => .ok (step .invoiceExpired "")
  | .paid => .error (.repository
      ("invoice " ++ invoice.id.text ++ ": a payment's event is the relay's"))

/-- A step of an operation's life, for the client that requested it. -/
def operationEvent (id : Uuid) (terms : OperationTerms) (total : Nat) (subjectRef : String)
    (kind : MoneyEventKind) (version : Nat) (failureReason : String) : NewMoneyEvent where
  eventId := moneyEventId ("operation:" ++ id.text ++ ":" ++ kind.asStr)
  scope := terms.scope
  kind
  refId := id.text
  aggregateVersion := version
  authSubject := ""
  amount := some total
  source := some (.account terms.fromLabel)
  target :=
    match terms.body with
    | .payout .. => none
    | .transfer _ toLabel _ => some (.account toLabel)
  subjectRef
  initiatorClient := terms.client.id
  balances := []
  holdRemaining := none
  counterpartyScope :=
    match terms.body with
    | .payout .. => ""
    | .transfer toScope .. => if toScope = terms.scope then "" else toScope.id
  failureReason
  paidFrom := ""
  audience := [terms.client]

/-- A grant of a mandate, or its revoke, for the mandate's client. -/
def mandateEvent (mandate : Mandate) (authSubject : String) (kind : MoneyEventKind)
    (version : Nat) : NewMoneyEvent where
  eventId := moneyEventId ("mandate:" ++ mandate.id.text ++ ":" ++ toString version)
  scope := mandate.terms.scope
  kind
  refId := mandate.id.text
  aggregateVersion := version
  authSubject
  amount := none
  source := none
  target := none
  subjectRef := ""
  initiatorClient := ""
  balances := []
  holdRemaining := none
  counterpartyScope := ""
  failureReason := ""
  paidFrom := ""
  audience := [mandate.terms.client]

/-! ## What the relay records -/

/-- A transfer's row: who asked for it, and whose sweep it routes. -/
structure TransferFacts where
  client : ClientId
  subjectRef : String
  sweptBy : Option ClientId
deriving DecidableEq, Repr

/-- A line of a payout, as recorded. -/
structure RecordedLine where
  lineNo : Nat
  authSubject : String
  amount : Nat
deriving DecidableEq, Repr

/-- A payout's rows: who asked for it, and its lines in order. -/
structure PayoutFacts where
  client : ClientId
  subjectRef : String
  lines : List RecordedLine
deriving DecidableEq, Repr

/-- A hold's row. -/
structure HoldFacts where
  client : ClientId
  authSubject : String
  subjectRef : String
deriving DecidableEq, Repr

/-- An invoice's row, as a payment finds it. -/
structure PaidInvoiceFacts where
  client : ClientId
  subjectRef : String
  paidBy : Option String
deriving DecidableEq, Repr

/-- A charge's row. -/
structure ChargeFacts where
  client : ClientId
  subjectRef : String
  authSubject : String
deriving DecidableEq, Repr

/-- A compartment's name. -/
def Compartment.asStr : Compartment → String
  | .main => "main"
  | .scope s => s.id

/-- What the tables and the ledger answer, each at the moment it is asked. `stepRef` is the subject
reference in the payload of a hold's step. -/
structure EventReads where
  owner : ScopeId → ScopeAccountLabel → Except MoneyEventError (Option ClientId)
  posted : ScopeId → ScopeAccountLabel → Except MoneyEventError Nat
  authSubject : UserId → Except MoneyEventError String
  transfer : Uuid → Except MoneyEventError TransferFacts
  payout : Uuid → Except MoneyEventError PayoutFacts
  hold : Uuid → Except MoneyEventError HoldFacts
  invoice : Uuid → Except MoneyEventError PaidInvoiceFacts
  charge : Uuid → Except MoneyEventError ChargeFacts
  stepRef : Option String

/-- A scope account's owner and its balance now; none when banking has no such account. -/
def EventReads.balanceOf (reads : EventReads) (scope : ScopeId) (label : ScopeAccountLabel) :
    Except MoneyEventError (Option EventBalance) := do
  match ← reads.owner scope label with
  | none => .ok none
  | some owner =>
    let balance ← reads.posted scope label
    .ok (some ⟨label, owner, balance⟩)

/-- One side of a transfer. A sweep's client sees the side it is shown, without a balance. -/
def transferSide (id : Uuid) (facts : TransferFacts) (source target : ScopeAccountLabel)
    (amount : Nat) (name : String) (scope : ScopeId) (counterpartyScope : String)
    (balances : List EventBalance) (shownToSweeper : Bool) : NewMoneyEvent where
  eventId := moneyEventId name
  scope
  kind := .transferred
  refId := id.text
  aggregateVersion := 1
  authSubject := ""
  amount := some amount
  source := some (.account source)
  target := some (.account target)
  subjectRef := facts.subjectRef
  initiatorClient := if facts.client.isBanking then "" else facts.client.id
  balances
  holdRemaining := none
  counterpartyScope
  failureReason := ""
  paidFrom := ""
  audience := facts.client :: balances.map (·.owner) ++
    if shownToSweeper then facts.sweptBy.toList else []

/-- A transfer inside one scope is one event naming both accounts; one between two is an event per
side, each in its own scope with its own balance. -/
def EventReads.transferred (reads : EventReads) (id : Uuid) :
    ScopeLedgerEvent → Except MoneyEventError (List NewMoneyEvent)
  | .transferred scope source toScope target amount => do
    let facts ← reads.transfer id
    let fromBalance ← reads.balanceOf scope source
    let toBalance ← reads.balanceOf toScope target
    let side := transferSide id facts source target amount
    let name := "transferred:" ++ id.text
    if scope = toScope then
      .ok [side name scope "" (fromBalance.toList ++ toBalance.toList) true]
    else
      .ok [side name scope toScope.id fromBalance.toList true,
        side (name ++ ":in") toScope scope.id toBalance.toList false]

/-- One event per line of a payout, each with the source's balance after all of them. -/
def EventReads.paidOut (reads : EventReads) (id : Uuid) :
    ScopePayoutEvent → Except MoneyEventError (List NewMoneyEvent)
  | .paidOut scope source _ => do
    let facts ← reads.payout id
    let balance ← reads.balanceOf scope source
    .ok <| facts.lines.map fun line =>
      { eventId := moneyEventId ("paid_out:" ++ id.text ++ ":" ++ toString line.lineNo)
        scope
        kind := .paidOut
        refId := id.text
        aggregateVersion := 1
        authSubject := line.authSubject
        amount := some line.amount
        source := some (.account source)
        target := some (.user line.authSubject)
        subjectRef := facts.subjectRef
        initiatorClient := facts.client.id
        balances := balance.toList
        holdRemaining := none
        counterpartyScope := ""
        failureReason := ""
        paidFrom := ""
        audience := facts.client :: balance.toList.map (·.owner) }

/-- What every event of a hold has. -/
def holdBase (id : Uuid) (facts : HoldFacts) (scope : ScopeId) (kind : MoneyEventKind)
    (version : Nat) : NewMoneyEvent where
  eventId := moneyEventId ("hold:" ++ id.text ++ ":" ++ toString version)
  scope
  kind
  refId := id.text
  aggregateVersion := version
  authSubject := facts.authSubject
  amount := none
  source := none
  target := none
  subjectRef := ""
  initiatorClient := facts.client.id
  balances := []
  holdRemaining := none
  counterpartyScope := ""
  failureReason := ""
  paidFrom := ""
  audience := [facts.client]

/-- A step of a hold, for the client that placed it and the owner of the account it goes to. -/
def EventReads.holdEvent (reads : EventReads) :
    HoldEvent → Except MoneyEventError NewMoneyEvent
  | .placed id scope _ amount version => do
    let facts ← reads.hold id
    .ok { holdBase id facts scope .holdPlaced version with
      amount := some amount
      subjectRef := facts.subjectRef
      holdRemaining := some amount }
  | .captured id scope _ version _ held amount target => do
    let facts ← reads.hold id
    let base := holdBase id facts scope .holdCaptured version
    let (balances, target) ← match target with
      | .account label => do
        let balance ← reads.balanceOf scope label
        .ok (balance.toList, EventAccount.account label)
      | .user user => do
        let subject ← reads.authSubject user
        .ok ([], EventAccount.user subject)
    if held < amount then
      .error (.unrecordable ("scope hold " ++ id.text ++ ": captured more than held"))
    else
      .ok { base with
        amount := some amount
        target := some target
        subjectRef := reads.stepRef.getD ""
        balances
        holdRemaining := some (held - amount)
        audience := base.audience ++ balances.map (·.owner) }
  | .released id scope _ version _ held expired => do
    let facts ← reads.hold id
    let base := holdBase id facts scope (if expired then .holdExpired else .holdVoided) version
    .ok { base with
      amount := some held
      subjectRef := reads.stepRef.getD ""
      holdRemaining := some 0
      initiatorClient := if expired then "" else base.initiatorClient }

/-- A payment of an invoice, for its issuer and the owner of the account it paid into. Its other
steps wrote their events themselves. -/
def EventReads.invoicePaid (reads : EventReads) (id : Uuid) :
    InvoiceEvent → Except MoneyEventError (Option NewMoneyEvent)
  | .paid scope label amount _ source version => do
    let facts ← reads.invoice id
    let payer ← match facts.paidBy with
      | some payer => .ok payer
      | none => .error (.unrecordable
          ("scope invoice " ++ id.text ++ ": relayed a payment of an unpaid invoice"))
    let balance ← reads.balanceOf scope label
    .ok <| some
      { eventId := moneyEventId ("invoice:" ++ id.text ++ ":" ++ toString version)
        scope
        kind := .invoicePaid
        refId := id.text
        aggregateVersion := version
        authSubject := payer
        amount := some amount
        source := none
        target := some (.account label)
        subjectRef := facts.subjectRef
        initiatorClient := ""
        balances := balance.toList
        holdRemaining := none
        counterpartyScope := ""
        failureReason := ""
        paidFrom := source.asStr
        audience := facts.client :: balance.toList.map (·.owner) }
  | .created _ | .cancelled _ | .expired _ | .paymentFailed .. => .ok none

/-- A charge, for the client that made it. -/
def EventReads.charged (reads : EventReads) (id : Uuid) :
    ChargeEvent → Except MoneyEventError NewMoneyEvent
  | .charged scope _ label amount => do
    let facts ← reads.charge id
    let balance ← reads.balanceOf scope label
    .ok
      { eventId := moneyEventId ("charged:" ++ id.text)
        scope
        kind := .charged
        refId := id.text
        aggregateVersion := 1
        authSubject := facts.authSubject
        amount := some amount
        source := none
        target := some (.account label)
        subjectRef := facts.subjectRef
        initiatorClient := facts.client.id
        balances := balance.toList
        holdRemaining := none
        counterpartyScope := ""
        failureReason := ""
        paidFrom := ""
        audience := facts.client :: balance.toList.map (·.owner) }

/-- The money events of a row the relay applied to the ledger; most kinds have none. -/
def EventReads.relayed (reads : EventReads) (row : OutboxRow) :
    Except MoneyEventError (List NewMoneyEvent) :=
  match row.payload with
  | .scopeLedger event => reads.transferred row.aggregateId event
  | .scopeHolds event => (reads.holdEvent event).map ([·])
  | .scopePayouts event => reads.paidOut row.aggregateId event
  | .scopeInvoices event => (reads.invoicePaid row.aggregateId event).map (·.toList)
  | .scopeCharges event => (reads.charged row.aggregateId event).map ([·])
  | .undecodable .scopeLedger error => .error (.unrecordable ("scope_ledger payload: " ++ error))
  | .undecodable .scopeHolds error => .error (.unrecordable ("scope_holds payload: " ++ error))
  | .undecodable .scopePayouts error => .error (.unrecordable ("scope_payouts payload: " ++ error))
  | .undecodable .scopeInvoices error =>
    .error (.unrecordable ("scope_invoices payload: " ++ error))
  | .undecodable .scopeCharges error => .error (.unrecordable ("scope_charges payload: " ++ error))
  | _ => .ok []

end Banking
