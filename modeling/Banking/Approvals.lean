import Mathlib.Data.List.Sort
import Mathlib.Data.String.Basic
import Banking.Scopes

/-! # Approvals

What concierge's voters are shown of an operation, and the text their decision is bound to: the
kind, the scope and banking's own reference, then the fields sorted by key, each on a line of its
own. The text is read back to what it was written from (`approval_payload_binds`), because no part
of it holds a line feed, and no key or type a tab. -/

namespace Banking

open Framing (Delimited delimited_terminated)

/-! ## Fields and the catalog -/

/-- The currency every amount on an approval is denominated in. -/
def APPROVAL_CURRENCY : String := "USDT"

/-- The type of an approval field. -/
inductive FieldType
  | text
  | amount
  | flag
  | user
  | count
deriving DecidableEq, Repr

/-- A typed value on an approval. -/
inductive ApprovalValue
  | text (s : String)
  | amount (units : Nat)
  | flag (b : Bool)
  | user (authSubject : String)
  | count (n : Nat)
deriving DecidableEq, Repr

/-- The name of a value's type in the payload. -/
def ApprovalValue.typeName : ApprovalValue → String
  | .text _ => "TEXT"
  | .amount _ => "AMOUNT"
  | .flag _ => "FLAG"
  | .user _ => "USER"
  | .count _ => "COUNT"

/-- The type of a value. -/
def ApprovalValue.fieldType : ApprovalValue → FieldType
  | .text _ => .text
  | .amount _ => .amount
  | .flag _ => .flag
  | .user _ => .user
  | .count _ => .count

/-- A value as the payload encodes it. -/
def ApprovalValue.encoded : ApprovalValue → String
  | .text s | .user s => s
  | .amount units => toDecimalString units ++ " " ++ APPROVAL_CURRENCY
  | .flag b => if b then "true" else "false"
  | .count n => toString n

/-- One field of an approval. -/
structure ApprovalField where
  key : String
  value : ApprovalValue
deriving DecidableEq, Repr

/-- One field of a kind. -/
structure FieldSpec where
  key : String
  fieldType : FieldType
  required : Bool
deriving DecidableEq, Repr

/-- One kind of approval banking proposes. -/
structure KindSpec where
  kind : String
  fields : List FieldSpec
deriving DecidableEq, Repr

/-- The fields of the two kinds of transfer. -/
def TRANSFER_FIELDS : List FieldSpec :=
  [⟨"service", .text, true⟩, ⟨"from_account", .text, true⟩, ⟨"to_account", .text, true⟩,
    ⟨"amount", .amount, true⟩]

/-- The kind of a payment order the platform owners decide. -/
def PAYMENT_KIND : String := "bank:payment"

/-- The scope a payment is proposed in. -/
def PAYMENT_APPROVAL_SCOPE : String := "main"

/-- The fields of a payment. -/
def PAYMENT_FIELDS : List FieldSpec :=
  [⟨"tier", .text, true⟩, ⟨"source", .text, true⟩, ⟨"destination", .text, true⟩,
    ⟨"amount", .amount, true⟩, ⟨"reason", .text, true⟩]

/-- The fields of a payout. -/
def PAYOUT_FIELDS : List FieldSpec :=
  [⟨"service", .text, true⟩, ⟨"from_account", .text, true⟩, ⟨"total", .amount, true⟩,
    ⟨"recipients", .count, true⟩, ⟨"max_line", .amount, true⟩, ⟨"recipient", .user, false⟩,
    ⟨"lines_digest", .text, true⟩, ⟨"distribution", .flag, true⟩,
    ⟨"over_scope_budget", .flag, true⟩]

/-- What a pending operation is. -/
inductive OperationKind
  | scopePayout
  | accountTransfer
  | scopeTransfer
deriving DecidableEq, Repr

/-- A kind's name. -/
def OperationKind.asStr : OperationKind → String
  | .scopePayout => "bank:scope_payout"
  | .accountTransfer => "bank:account_transfer"
  | .scopeTransfer => "bank:scope_transfer"

/-- The kinds banking proposes. -/
def BANK_CATALOG : List KindSpec :=
  [⟨OperationKind.scopePayout.asStr, PAYOUT_FIELDS⟩,
    ⟨OperationKind.accountTransfer.asStr, TRANSFER_FIELDS⟩, ⟨PAYMENT_KIND, PAYMENT_FIELDS⟩,
    ⟨OperationKind.scopeTransfer.asStr, TRANSFER_FIELDS⟩]

/-! ## The payload -/

/-- The order of fields: by key. -/
def ApprovalField.keyLE (a b : ApprovalField) : Prop := a.key ≤ b.key

instance : DecidableRel ApprovalField.keyLE := fun a b => inferInstanceAs (Decidable (a.key ≤ b.key))

instance : Std.Total ApprovalField.keyLE := ⟨fun a b => le_total a.key b.key⟩

instance : IsTrans ApprovalField ApprovalField.keyLE := ⟨fun _ _ _ => le_trans⟩

/-- A field's line. -/
def ApprovalField.line (f : ApprovalField) : String :=
  f.key ++ "\t" ++ f.value.typeName ++ "\t" ++ f.value.encoded ++ "\n"

/-- The first line of every payload. -/
def APPROVAL_VERSION : String := "ev-approval-v1\n"

/-- The text an approval's hash is taken over. -/
def approvalPayload (kind scope subjectRef : String) (fields : List ApprovalField) : String :=
  APPROVAL_VERSION ++ kind ++ "\n" ++ scope ++ "\n" ++ subjectRef ++ "\n"
    ++ String.join ((fields.insertionSort ApprovalField.keyLE).map ApprovalField.line)

/-! ## Operations -/

/-- Most lines one payout may carry. -/
def MAX_PAYOUT_LINES : Nat := 1000

/-- The longest subject accepted, in bytes. -/
def MAX_AUTH_SUBJECT : Nat := 255

/-- One line as a client asks for it. -/
structure RequestedLine where
  authSubject : String
  amount : Nat
deriving DecidableEq, Repr

/-- One line's checks: a short plain subject, a positive amount, a total that fits. -/
def checkLine (total : Nat) (line : RequestedLine) : Except DomainError Nat :=
  if line.authSubject = "" ∨ MAX_AUTH_SUBJECT < line.authSubject.utf8ByteSize ∨
      line.authSubject.toList.any isControl then
    .error (.validation "auth_subject must be 1..255 bytes of plain text")
  else if line.amount = 0 then
    .error (.validation ("the line for " ++ line.authSubject ++ " must be positive"))
  else if 2 ^ 128 ≤ total + line.amount then
    .error (.validation "the payout's total overflows")
  else .ok (total + line.amount)

/-- The total of a payout's lines: between one and a thousand of them, one for each subject. -/
def checkLines (lines : List RequestedLine) : Except DomainError Nat :=
  if lines = [] ∨ MAX_PAYOUT_LINES < lines.length then
    .error (.validation ("a payout has 1..=1000 lines, got " ++ toString lines.length))
  else
    match lines.foldlM checkLine 0 with
    | .error e => .error e
    | .ok total =>
      if (lines.map (·.authSubject)).Nodup then .ok total
      else .error (.validation "one user may appear once in a payout")

/-- The largest single line. -/
def maxLine (lines : List RequestedLine) : Nat := (lines.map (·.amount)).foldl max 0

/-- One line of a payout, its user resolved. -/
structure PayoutLine where
  user : UserId
  authSubject : String
  amount : Nat
deriving DecidableEq, Repr

/-- A line as it was asked for. -/
def PayoutLine.requested (line : PayoutLine) : RequestedLine := ⟨line.authSubject, line.amount⟩

/-- What an operation moves, beyond its source. -/
inductive OperationBody
  | payout (lines : List PayoutLine) (distribution overScopeBudget : Bool)
  | transfer (toScope : ScopeId) (toLabel : ScopeAccountLabel) (amount : Nat)
deriving DecidableEq, Repr

/-- A body whose identifiers have their shapes. -/
def OperationBody.Shaped : OperationBody → Prop
  | .payout .. => True
  | .transfer toScope toLabel _ => toScope.Shaped ∧ toLabel.Shaped

/-- What a requested operation names. -/
structure OperationTerms where
  client : ClientId
  scope : ScopeId
  fromLabel : ScopeAccountLabel
  body : OperationBody
  memo : String

/-- The checks of a request, and the total it moves. -/
def OperationTerms.check (t : OperationTerms) : Except DomainError Nat :=
  if t.scope.isMain then .error (.validation "an operation never names main as its scope")
  else if t.fromLabel.isReserved then
    .error (.forbidden (t.fromLabel.label ++ " is banking's own account"))
  else
    match validateMemo t.memo with
    | .error e => .error e
    | .ok () =>
      match t.body with
      | .payout lines _ _ =>
        match checkLines (lines.map (·.requested)) with
        | .error e => .error e
        | .ok total =>
          if (lines.map (·.user)).Nodup then .ok total
          else .error (.validation "one user may appear once in a payout")
      | .transfer toScope toLabel amount =>
        if amount = 0 then .error (.validation "amount must be positive")
        else if toScope.isMain || toLabel.isReserved then
          .error (.forbidden (toScope.id ++ ":" ++ toLabel.label ++ " is banking's own account"))
        else if toScope = t.scope ∧ toLabel = t.fromLabel then
          .error (.validation "a transfer needs two different accounts")
        else .ok amount

/-- **An operation a client asked for**, its request checked. -/
structure PendingOperation where
  id : Uuid
  terms : OperationTerms
  total : Nat
  id_minted : id.Minted
  checked : terms.check = .ok total
  client_shaped : terms.client.Shaped
  scope_shaped : terms.scope.Shaped
  from_shaped : terms.fromLabel.Shaped
  body_shaped : terms.body.Shaped

/-- The kind of a pending operation. -/
def PendingOperation.kind (op : PendingOperation) : OperationKind :=
  match op.terms.body with
  | .payout .. => .scopePayout
  | .transfer toScope _ _ => if toScope = op.terms.scope then .accountTransfer else .scopeTransfer

/-- banking's own reference for the approval of an operation. -/
def PendingOperation.approvalSubjectRef (op : PendingOperation) : String :=
  "pending_operation:" ++ op.id.text

/-- An account as an approval names it. -/
def accountText (scope : ScopeId) (label : ScopeAccountLabel) : String :=
  scope.id ++ ":" ++ label.label

/-- The fields of an operation's approval. -/
def PendingOperation.approvalFields (op : PendingOperation) (linesDigest : Option String) :
    Except DomainError (List ApprovalField) :=
  let service : ApprovalField := ⟨"service", .text op.terms.client.id⟩
  let source : ApprovalField :=
    ⟨"from_account", .text (accountText op.terms.scope op.terms.fromLabel)⟩
  match op.terms.body with
  | .payout lines distribution overScopeBudget =>
    match linesDigest with
    | none => .error (.validation "a payout's approval carries its lines_digest")
    | some digest =>
      .ok ([service, source, ⟨"total", .amount op.total⟩, ⟨"recipients", .count lines.length⟩,
        ⟨"max_line", .amount (maxLine (lines.map (·.requested)))⟩,
        ⟨"lines_digest", .text digest⟩, ⟨"distribution", .flag distribution⟩,
        ⟨"over_scope_budget", .flag overScopeBudget⟩] ++
        match lines with
        | [only] => [⟨"recipient", .user only.authSubject⟩]
        | _ => [])
  | .transfer toScope toLabel amount =>
    .ok [service, source, ⟨"to_account", .text (accountText toScope toLabel)⟩,
      ⟨"amount", .amount amount⟩]

/-- One end of a payment in words. -/
def partyLabel : Party → String
  | .service id =>
    if id = .fee then "the fee allocation"
    else if id = .fund then "the fund allocation"
    else "the " ++ id.slug ++ " product"
  | .user id => "investor " ++ id.text
  | .treasury => "banking's treasury"

/-- A text field of a payment's approval, refused when the approval would not carry it. -/
def plainField (key value : String) : Except DomainError ApprovalField :=
  if isPlainText value then .ok ⟨key, .text value⟩
  else
    .error (.validation ("the " ++ key ++ " of a payment decided by the platform owners is at most "
      ++ "200 bytes of plain text without a link"))

/-- The fields of a payment's approval. -/
def PaymentTerms.approvalFields (t : PaymentTerms) (destination : String) :
    Except DomainError (List ApprovalField) := do
  let tier ← plainField "tier" t.tier.asStr
  let source ← plainField "source" (partyLabel t.source)
  let destination ← plainField "destination" destination
  let reason ← plainField "reason" t.reason.text
  return [tier, source, destination, ⟨"amount", .amount t.amount⟩, reason]

/-- The reference of the approval over a payment order. -/
def approvalSubjectRef (id : Uuid) : String := "payment:" ++ id.text

/-- An operation banking proposes: a pending one with the digest of its lines, or a payment order
with its destination in words. -/
inductive Operation
  | pending (op : PendingOperation) (linesDigest : Option String)
      (plain : ∀ digest ∈ linesDigest, isPlainText digest = true)
  | payment (order : PaymentOrder) (destination : String) (minted : order.id.Minted)

/-- The kind an operation is proposed as. -/
def Operation.kind : Operation → String
  | .pending op _ _ => op.kind.asStr
  | .payment .. => PAYMENT_KIND

/-- The scope an operation is proposed in. -/
def Operation.scope : Operation → String
  | .pending op _ _ => op.terms.scope.id
  | .payment .. => PAYMENT_APPROVAL_SCOPE

/-- The reference an operation is proposed under. -/
def Operation.subjectRef : Operation → String
  | .pending op _ _ => op.approvalSubjectRef
  | .payment order _ _ => approvalSubjectRef order.id

/-- The fields an operation is proposed with. -/
def Operation.approvalFields : Operation → Except DomainError (List ApprovalField)
  | .pending op linesDigest _ => op.approvalFields linesDigest
  | .payment order destination _ => order.terms.approvalFields destination

/-- The text the decision over an operation is bound to. -/
def Operation.approvalPayload (o : Operation) : Except DomainError String := do
  let fields ← o.approvalFields
  return Banking.approvalPayload o.kind o.scope o.subjectRef fields

end Banking
