import Mathlib.Data.List.Sort
import Mathlib.Data.String.Basic
import Banking.Approvals
import Banking.Mandates

/-! # Idempotency keys

What is stored beside an idempotency key: the terms of the request it was used for, as one text. A
repeat of the key is answered with the first result where the texts are equal, and refused as a
conflict where they are not. A key is a client's own in one scope (a user's own, for a mandate), so
the client and the scope are not written again; within one key's namespace the text is the terms
(`Banking.KeyBinding`). -/

namespace Banking

open Framing (Delimited delimited_terminated)

/-! ## The canonical text -/

/-- One field: its length in bytes, a colon, the field. -/
def canonicalField (field : String) : String := toString field.utf8ByteSize ++ ":" ++ field

/-- `len:value` per field, joined by `|`. -/
def canonical (fields : List String) : String :=
  String.intercalate "|" (fields.map canonicalField)

/-- The caller's reference for the business object behind a call. -/
structure SubjectRef where
  text : String
deriving DecidableEq, Repr

/-- Why the scope ledger refused a call. -/
inductive LedgerRefusal
  | notGranted
  | notAccountOwner
  | scopeFrozen
  | scopeClosed
  | insufficientFunds
  | approvalRequired
  | userFrozen
  | feeRouteUnavailable
deriving DecidableEq, Repr

/-- A refusal in the words callers are told. -/
def LedgerRefusal.reason : LedgerRefusal → String
  | .notGranted => "not_granted"
  | .notAccountOwner => "not_account_owner"
  | .scopeFrozen => "scope_frozen"
  | .scopeClosed => "scope_closed"
  | .insufficientFunds => "insufficient_funds"
  | .approvalRequired => "approval_required"
  | .userFrozen => "user_frozen"
  | .feeRouteUnavailable => "fee_route_unavailable"

/-- How a call to the scope ledger fails. -/
inductive TransferError
  | refused (refusal : LedgerRefusal)
  | exhausted (reason : String)
  | internal (reason : String)
  | domain (error : DomainError)
deriving DecidableEq, Repr

/-! ## Transfers -/

/-- Why money moves between scope accounts without an approval. -/
inductive TransferReason
  | feeSweep
  | approved
  | feeRoute
deriving DecidableEq, Repr

/-- A reason's stored text. -/
def TransferReason.asStr : TransferReason → String
  | .feeSweep => "fee_sweep"
  | .approved => "approved"
  | .feeRoute => "fee_route"

/-- Everything a transfer names. -/
structure TransferTerms where
  client : ClientId
  scope : ScopeId
  fromLabel : ScopeAccountLabel
  toScope : ScopeId
  toLabel : ScopeAccountLabel
  amount : Nat
  reason : TransferReason
  subjectRef : SubjectRef
  memo : String
  operationId : Option Uuid
deriving DecidableEq, Repr

/-- banking itself, the owner of its reserved accounts. -/
def ClientId.banking : ClientId := ⟨"banking"⟩

/-- The rules of a transfer's terms. -/
def TransferTerms.check (t : TransferTerms) : Except DomainError Unit :=
  let routed := t.reason = .feeRoute
  if t.amount = 0 then .error (.validation "amount must be positive")
  else if t.scope.isMain ∨ t.toScope.isMain ∧ ¬ routed then
    .error (.validation "a client's transfer never names main")
  else if t.scope = t.toScope ∧ t.fromLabel = t.toLabel then
    .error (.validation "a transfer needs two different accounts")
  else if t.fromLabel.isReserved ∧ ¬ routed then
    .error (.forbidden (t.fromLabel.label ++ " is banking's own account"))
  else
    match t.reason with
    | .feeSweep =>
      if t.toLabel ≠ .fee ∨ t.toScope ≠ t.scope then
        .error (.validation "a fee sweep goes into its scope's fee collector")
      else if t.operationId.isSome then
        .error (.validation "a fee sweep executes no operation")
      else validateMemo t.memo
    | .approved =>
      if t.operationId.isNone then .error (.validation "an approved transfer names its operation")
      else if t.toLabel.isReserved then
        .error (.forbidden (t.toLabel.label ++ " is banking's own account"))
      else validateMemo t.memo
    | .feeRoute =>
      if t.client ≠ .banking ∨ t.operationId.isSome ∨ t.fromLabel ≠ .fee then
        .error (.forbidden
          "a fee route is banking's own, out of the scope's fee collector")
      else validateMemo t.memo

/-- The text stored beside a transfer's key. -/
def TransferTerms.canonical (t : TransferTerms) : String :=
  Banking.canonical [t.fromLabel.label, t.toLabel.label, toString t.amount, t.reason.asStr,
    t.subjectRef.text, t.memo]

/-- A client's transfer as it is asked for. -/
structure ScopeTransferRequest where
  scope : ScopeId
  fromLabel : ScopeAccountLabel
  toLabel : ScopeAccountLabel
  amount : Nat
  reason : TransferReason
  subjectRef : SubjectRef
  memo : String
deriving DecidableEq, Repr

/-- The terms of a client's transfer: never out of banking's labels, only into the scope's fee
collector. -/
def ScopeTransferRequest.accept (client : ClientId) (r : ScopeTransferRequest) :
    Except TransferError TransferTerms :=
  if r.fromLabel.isReserved then .error (.refused .notAccountOwner)
  else if r.toLabel ≠ .fee then .error (.refused .approvalRequired)
  else
    let terms : TransferTerms :=
      { client, scope := r.scope, fromLabel := r.fromLabel, toScope := r.scope
        toLabel := r.toLabel, amount := r.amount, reason := r.reason, subjectRef := r.subjectRef
        memo := r.memo, operationId := none }
    match terms.check with
    | .error e => .error (.domain e)
    | .ok () => .ok terms

/-! ## Invoices -/

/-- Everything a `CreateInvoice` names. -/
structure CreateInvoice where
  client : ClientId
  terms : InvoiceTerms
  memo : String
  subjectRef : SubjectRef
deriving DecidableEq, Repr

/-- The checks of a subject a client names. -/
def checkSubject (raw : String) : Except DomainError Unit :=
  if raw = "" ∨ MAX_AUTH_SUBJECT < raw.utf8ByteSize ∨ raw.toList.any isControl then
    .error (.validation "auth_subject must be 1..255 bytes of plain text")
  else .ok ()

/-- The checks of an invoice before its key is looked up. -/
def CreateInvoice.accept (c : CreateInvoice) : Except DomainError Unit := do
  match c.terms.payerAuthSubject with
  | some payer => checkSubject payer
  | none => pure ()
  validateMemo c.memo
  if c.terms.amount = 0 then throw (.validation "amount must be positive")

/-- The text stored beside an invoice's key. -/
def CreateInvoice.canonical (c : CreateInvoice) : String :=
  Banking.canonical [c.terms.toLabel.label, toString c.terms.amount, c.memo,
    toString c.terms.expiresAt, c.terms.payerAuthSubject.getD "", c.subjectRef.text]

/-! ## Mandates -/

/-- The text stored beside a mandate's key. -/
def MandateTerms.canonical (t : MandateTerms) : String :=
  String.intercalate "\n" [t.scope.id, t.client.id, toString t.caps.perOp, toString t.caps.per24h,
    toString t.caps.outstanding, (t.caps.bookFill24h.map fun cap => toString cap).getD "",
    String.intercalate "," (t.operations.map MandateOperation.asStr),
    (t.expiresAt.map fun time => toString time).getD ""]

/-! ## Payouts -/

/-- One line as the key stores it. -/
def RequestedLine.rendered (line : RequestedLine) : String :=
  line.authSubject ++ "|" ++ toString line.amount

/-- The lines as the key stores them, sorted. -/
def canonicalLines (lines : List RequestedLine) : String :=
  canonical ((lines.map RequestedLine.rendered).insertionSort (· ≤ ·))

/-- Why money leaves a scope account for users' compartments. -/
inductive PayoutReason
  | redemption
  | book
  | feeRebate
  | approved
deriving DecidableEq, Repr

/-- A reason's stored text. -/
def PayoutReason.asStr : PayoutReason → String
  | .redemption => "redemption"
  | .book => "book"
  | .feeRebate => "fee_rebate"
  | .approved => "approved"

/-- A client's payout as it is asked for. -/
structure PayoutRequest where
  client : ClientId
  scope : ScopeId
  fromLabel : ScopeAccountLabel
  lines : List RequestedLine
  reason : PayoutReason
  subjectRef : SubjectRef
  memo : String
deriving DecidableEq, Repr

/-- The checks of a payout before its key is looked up; answers the total. -/
def PayoutRequest.accept (r : PayoutRequest) : Except TransferError Nat :=
  if r.reason = .approved then
    .error (.domain (.validation
      "an approved payout is banking's to execute, not a client's reason"))
  else if r.fromLabel.isReserved then .error (.refused .notAccountOwner)
  else
    match checkLines r.lines with
    | .error e => .error (.domain e)
    | .ok total => .ok total

/-- The text stored beside a payout's key. -/
def PayoutRequest.canonical (r : PayoutRequest) : String :=
  Banking.canonical [r.fromLabel.label, r.reason.asStr, r.subjectRef.text, r.memo,
    canonicalLines r.lines]

/-! ## Keys -/

/-- Which rpc a key was used for. -/
inductive Rpc
  | transfer
  | createInvoice
  | payout
  | requestPayout
  | requestTransfer
deriving DecidableEq, Repr

/-- An idempotency key of a client: its own in one scope, for one rpc. -/
structure RequestKey where
  client : ClientId
  scope : ScopeId
  rpc : Rpc
  key : String
deriving DecidableEq, Repr

/-- The key a client's transfer is recorded under. -/
def ScopeTransferRequest.requestKey (client : ClientId) (r : ScopeTransferRequest) (key : String) :
    RequestKey :=
  ⟨client, r.scope, .transfer, key⟩

/-- The key an invoice is recorded under. -/
def CreateInvoice.requestKey (c : CreateInvoice) (key : String) : RequestKey :=
  ⟨c.client, c.terms.scope, .createInvoice, key⟩

/-- The key a payout is recorded under. -/
def PayoutRequest.requestKey (r : PayoutRequest) (key : String) : RequestKey :=
  ⟨r.client, r.scope, .payout, key⟩

/-- A user's idempotency key for their mandates. -/
structure MandateKey where
  user : UserId
  key : String
deriving DecidableEq, Repr

/-- The key a mandate is recorded under. -/
def MandateTerms.mandateKey (t : MandateTerms) (key : String) : MandateKey := ⟨t.user, key⟩

/-- What answers a repeat whose terms differ. -/
def IDEMPOTENCY_CONFLICT : String := "idempotency_conflict"

/-- Whether a repeat of a key asks for what the key was used for. -/
def sameTerms (stored terms : String) : Except DomainError Unit :=
  if stored = terms then .ok () else .error (.conflict IDEMPOTENCY_CONFLICT)

end Banking
