import Banking.TxRef

/-! # Invoices

The invoice aggregate: issued open, paid once, and open again when the ledger refuses the payment.
Every event takes the next version, so each payment is an attempt of its own. -/

namespace Banking

/-- The stored state of an invoice. -/
inductive InvoiceState
  | opened
  | paid
  | cancelled
  | expired
deriving DecidableEq, Repr

/-- What an invoice asks for. -/
structure InvoiceTerms where
  scope : ScopeId
  toLabel : ScopeAccountLabel
  amount : Nat
  expiresAt : Int
  payerAuthSubject : Option String
deriving DecidableEq, Repr

/-- A payment of an invoice, final once `posted`. -/
structure InvoicePayment where
  payer : UserId
  payerAuthSubject : String
  source : Compartment
  paidAt : Int
  posted : Bool
deriving DecidableEq, Repr

/-- Why an invoice command is refused. -/
inductive InvoiceRefusal
  | notOpen
  | processing
  | otherPayer
deriving DecidableEq, Repr

/-- An invoice: a payment belongs to a paid one and to it alone, and comes from `main` or from the
invoice's own scope. -/
structure Invoice where
  id : Uuid
  terms : InvoiceTerms
  state : InvoiceState
  version : Nat
  payment : Option InvoicePayment
  paid_iff : state = .paid ↔ payment.isSome
  source_scope : ∀ p ∈ payment, p.source = .main ∨ p.source = .scope terms.scope
deriving DecidableEq

/-- A reserved label takes no payment from a client's invoice. -/
def ScopeAccountLabel.isReserved (l : ScopeAccountLabel) : Bool := l = .treasury || l = .fee

/-- A new open invoice: a positive amount, asked for outside `main` into a label of the client's
own, with an expiry in the future and at most 30 days ahead. -/
def Invoice.issue (id : Uuid) (terms : InvoiceTerms) (now : Int) :
    Except DomainError (Invoice × List InvoiceEvent) :=
  if terms.expiresAt ≤ now then .error (.validation "expires_at must be in the future")
  else if 2592000 < terms.expiresAt - now then
    .error (.validation "expires_at must be at most 30 days ahead")
  else if terms.amount = 0 then .error (.validation "amount must be positive")
  else if terms.scope.isMain then .error (.validation "an invoice is never issued in main")
  else if terms.toLabel.isReserved then
    .error (.validation (terms.toLabel.label ++ " is banking's own account"))
  else if terms.payerAuthSubject = some "" then
    .error (.validation "payer_auth_subject must not be empty when set")
  else
    .ok ({ id, terms, state := .opened, version := 1, payment := none, paid_iff := by simp,
           source_scope := by simp }, [.created 1])

/-- Open, but past its expiry. -/
def Invoice.isDue (i : Invoice) (now : Int) : Bool :=
  i.state = .opened && i.terms.expiresAt ≤ now

/-- Whether the subject may pay it. -/
def Invoice.payableBy (i : Invoice) (subject : String) : Bool :=
  i.terms.payerAuthSubject.all (· = subject)

/-- Pay it once, as the next version. -/
def Invoice.pay (i : Invoice) (payer : UserId) (subject : String) (source : Compartment)
    (paidAt : Int) : Except InvoiceRefusal (Invoice × List InvoiceEvent) :=
  if ¬ i.payableBy subject then .error .otherPayer
  else if i.state ≠ .opened ∨ i.isDue paidAt then .error .notOpen
  else if h : source = .main ∨ source = .scope i.terms.scope then
    .ok ({ i with
             state := .paid
             version := i.version + 1
             payment := some { payer, payerAuthSubject := subject, source, paidAt, posted := false }
             paid_iff := by simp
             source_scope := by simpa using h },
      [.paid i.terms.scope i.terms.toLabel i.terms.amount payer source (i.version + 1)])
  else .error .notOpen

/-- The ledger refused the payment: open again, as the next version. Nothing when no payment waits
for the ledger. -/
def Invoice.failPayment (i : Invoice) (reason : String) : Option (Invoice × List InvoiceEvent) :=
  match i.payment with
  | some p =>
    if p.posted then none
    else
      some ({ i with state := .opened, version := i.version + 1, payment := none,
                     paid_iff := by simp, source_scope := by simp },
        [.paymentFailed (i.version + 1) reason])
  | none => none

/-- The ledger took the payment. -/
def Invoice.postPayment (i : Invoice) : Invoice :=
  match hp : i.payment with
  | some p =>
    { i with
        payment := some { p with posted := true }
        paid_iff := by simpa [hp] using i.paid_iff
        source_scope := by simpa [hp] using i.source_scope }
  | none => i

/-- Close an open invoice as the next version. -/
def Invoice.close (i : Invoice) (h : i.state = .opened) (expired : Bool) :
    Invoice × List InvoiceEvent :=
  ({ i with
       state := if expired then .expired else .cancelled
       version := i.version + 1
       paid_iff := by
         have hp : i.payment.isSome = false := by
           rw [← Bool.not_eq_true, ← i.paid_iff, h]
           simp
         cases expired <;> simp [hp] },
    [if expired then .expired (i.version + 1) else .cancelled (i.version + 1)])

/-- Withdraw an open invoice. -/
def Invoice.cancel (i : Invoice) (now : Int) :
    Except InvoiceRefusal (Invoice × List InvoiceEvent) :=
  if i.state = .cancelled then .ok (i, [])
  else if h : i.state = .opened then
    if i.isDue now then .error .notOpen else .ok (i.close h false)
  else if i.payment.any (! ·.posted) then .error .processing
  else .error .notOpen

/-- The reaper's expiry of an invoice past its date; nothing when it is not due. -/
def Invoice.expire (i : Invoice) (now : Int) : Option (Invoice × List InvoiceEvent) :=
  if h : i.state = .opened then if i.isDue now then some (i.close h true) else none else none

end Banking
