import Banking.ConsiliumStore
import Banking.Payments

/-! # The consent to a payment

A payment order as it is stored, with the one seat that decides it: the owners' quorum or their
concierge approval for money of the fund, the investor's own consent for theirs, mailed with a token
and a code or given signed in. Every change locks the order's row first. -/

namespace Banking

/-! ## Seats -/

/-- Who must approve a payment. -/
inductive PaymentApproval
  | ownerConsilium
  | subjectConsent (user : UserId)
deriving DecidableEq, Repr

/-- It is read off the source alone. -/
def PaymentTerms.requirement (t : PaymentTerms) : PaymentApproval :=
  match t.source with
  | .user user => .subjectConsent user
  | .service _ | .treasury => .ownerConsilium

/-- What the investor answered. -/
inductive ConsentDecision
  | pending
  | approve
  | reject
deriving DecidableEq, Repr

/-- Audit facts the edge supplies with a consent. -/
structure ConsentAudit where
  clientIp : String
  userAgent : String
deriving DecidableEq, Repr

/-- What the users table says of the investor: the revoke floors of both planes and the mailbox. -/
structure SubjectStanding where
  conciergeTokenVersion : Int
  tokenVersion : Int
  email : String
deriving DecidableEq, Repr

/-- A revoke on either plane counts. -/
def SubjectStanding.revokeFloor (s : SubjectStanding) : Int :=
  max s.conciergeTokenVersion s.tokenVersion

/-- Why a seat stopped being trustworthy. -/
inductive ConsentInvalidation
  | sessionsRevoked (atOpen now : Int)
  | emailChanged
deriving DecidableEq, Repr

/-- The cause, as the order records it. -/
def ConsentInvalidation.text : ConsentInvalidation → String
  | .sessionsRevoked atOpen now =>
    "the investor's sessions were revoked after this consent was issued (token version "
      ++ toString atOpen ++ " at open, " ++ toString now ++ " now), so the consent is void"
  | .emailChanged =>
    "the investor's mailbox changed after this consent was issued, so the consent is void"

/-- What was true of the investor when the seat was opened. -/
structure ConsentPins where
  tokenVersionAtOpen : Int
  emailHashAtOpen : List UInt8
deriving DecidableEq

/-- The mailed seat, and the digests of its token and code. -/
structure ConsentSeat where
  subject : UserId
  decision : ConsentDecision
  decidedAt : Option Int
  tokenHash : List UInt8
  codeHash : List UInt8
  attempts : Nat
  burned : Bool
  expiresAt : Int
  usedAt : Option Int
  pins : ConsentPins
  audit : Option ConsentAudit
  payloadHash : Option (List UInt8)
deriving DecidableEq

/-- Wrong codes after which a seat's token burns, and the payment with it. -/
def ConsentSeat.MAX_CODE_ATTEMPTS : Nat := 5

/-- The signed-in seat: the session is the credential. -/
structure SessionSeat where
  subject : UserId
  decision : ConsentDecision
  decidedAt : Option Int
  pins : ConsentPins
  audit : Option ConsentAudit
  payloadHash : Option (List UInt8)
deriving DecidableEq

/-- **The one seat that decides an order.** -/
inductive ApprovalSeat
  | consilium (id : Uuid)
  | consent (seat : ConsentSeat)
  | concierge (approvalId : Option String) (executeBy : Option Int)
  | session (seat : SessionSeat)
deriving DecidableEq

/-- What a seat of the investor's answered. -/
def ApprovalSeat.decision : ApprovalSeat → ConsentDecision
  | .consent seat => seat.decision
  | .session seat => seat.decision
  | .consilium _ | .concierge .. => .pending

/-- **A payment order as stored**: the order, what it was hashed to, who opened it, its seat, the
investor as the users table has them, and the events written to the outbox. -/
structure StoredPayment where
  order : PaymentOrder
  payloadHash : List UInt8
  initiator : UserId
  seat : ApprovalSeat
  standing : SubjectStanding
  outbox : List PaymentEvent

/-! ## Opening -/

/-- A seat as it is written beside a new order. -/
def ApprovalSeat.Fresh (order : PaymentOrder) : ApprovalSeat → Prop
  | .consilium _ => order.terms.requirement = .ownerConsilium
  | .concierge approvalId executeBy =>
    order.terms.requirement = .ownerConsilium ∧ approvalId = none ∧ executeBy = none
  | .consent seat =>
    order.terms.requirement = .subjectConsent seat.subject ∧ seat.decision = .pending ∧
      seat.decidedAt = none ∧ seat.attempts = 0 ∧ seat.burned = false ∧
      seat.expiresAt = order.expiresAt ∧ seat.usedAt = none ∧ seat.audit = none ∧
      seat.payloadHash = none
  | .session seat =>
    order.terms.requirement = .subjectConsent seat.subject ∧ seat.decision = .pending ∧
      seat.decidedAt = none ∧ seat.audit = none ∧ seat.payloadHash = none

/-- A new order with its seat. -/
def StoredPayment.opened (id : Uuid) (terms : PaymentTerms) (createdAt ttl : Int)
    (payloadHash : List UInt8) (initiator : UserId) (seat : ApprovalSeat)
    (standing : SubjectStanding) : StoredPayment :=
  let order := PaymentOrder.openFor id terms createdAt ttl
  { order := order.drainEvents.2, payloadHash, initiator, seat, standing
    outbox := order.drainEvents.1 }

/-! ## Reading and writing -/

/-- Write a transition back, and its events to the outbox. -/
def StoredPayment.persist (s : StoredPayment) (order : PaymentOrder) : StoredPayment :=
  { s with order := order.drainEvents.2, outbox := s.outbox ++ order.drainEvents.1 }

@[simp] theorem StoredPayment.persist_seat (s : StoredPayment) (order : PaymentOrder) :
    (s.persist order).seat = s.seat := rfl

@[simp] theorem StoredPayment.persist_state (s : StoredPayment) (order : PaymentOrder) :
    (s.persist order).order.state = order.state := rfl

@[simp] theorem StoredPayment.persist_expiresAt (s : StoredPayment) (order : PaymentOrder) :
    (s.persist order).order.expiresAt = order.expiresAt := rfl

/-- A command carried out under the row's lock; a refusal rolls back. -/
def StoredPayment.change (s : StoredPayment) (command : PaymentOrder → PaymentAnswer) :
    Except DomainError StoredPayment :=
  match command s.order with
  | (.error e, _) => .error e
  | (.ok (), order) => .ok (s.persist order)

/-- What a transaction leaves: itself where it was refused. -/
def StoredPayment.committed (s : StoredPayment) (r : Except DomainError StoredPayment) :
    StoredPayment :=
  match r with
  | .ok s' => s'
  | .error _ => s

section Seats

variable (digest : String → List UInt8)

/-- Which of the two pins has moved. -/
def ConsentPins.moved (pins : ConsentPins) (standing : SubjectStanding) :
    Option ConsentInvalidation :=
  if standing.revokeFloor ≠ pins.tokenVersionAtOpen then
    some (.sessionsRevoked pins.tokenVersionAtOpen standing.revokeFloor)
  else if digest standing.email ≠ pins.emailHashAtOpen then some .emailChanged
  else none

/-! ## Answers -/

/-- What every unusable token is answered. -/
def consentNotFound : DomainError := .notFound "consent" ""

/-- What an accepted answer did: whether it decided the order, and whether by approval. -/
structure ConsentOutcome where
  decided : Bool
  approved : Bool
deriving DecidableEq, Repr

/-- What a submission presents: a token's digest, a code and an answer. -/
structure ConsentSubmission where
  tokenHash : List UInt8
  code : String
  decision : ConsentDecision
  audit : ConsentAudit
  time : Int

/-- A submission's answer, whether the code it compared was right, and what is stored after it. -/
structure ConsentSubmitted where
  answer : Except DomainError ConsentOutcome
  compared : Option Bool
  stored : StoredPayment

/-- The order's verdict by an answer. -/
def StoredPayment.decide (s : StoredPayment) (decision : ConsentDecision) (time : Int) :
    Except DomainError StoredPayment :=
  match decision with
  | .approve => s.change (·.approve time)
  | .reject => s.change (·.reject time)
  | .pending => .error (.validation "a consent must approve or reject")

/-- What an answer is told once its verdict is in. -/
def StoredPayment.outcome (s : StoredPayment) : ConsentOutcome :=
  ⟨true, s.order.state = .approved⟩

/-- The mailed seat with an answer recorded in it. -/
def ConsentSeat.answer (seat : ConsentSeat) (sub : ConsentSubmission) (payloadHash : List UInt8) :
    ConsentSeat :=
  { seat with
    decision := sub.decision, decidedAt := some sub.time, usedAt := some sub.time
    audit := some sub.audit, payloadHash := some payloadHash }

/-- The end of a submission whose code is right, `counted` being its seat. An answer that is none
breaks the row's CHECK, and rolls back. -/
def StoredPayment.recordConsent (s : StoredPayment) (counted : ConsentSeat)
    (sub : ConsentSubmission) : ConsentSubmitted :=
  if sub.decision = .pending then
    ⟨.error (.repository "violates check constraint \"payment_consent_decision_is_atomic\""),
      some true, s⟩
  else
    match { s with seat := .consent (counted.answer sub s.payloadHash) }.decide sub.decision
        sub.time with
    | .error e => ⟨.error e, some true, s⟩
    | .ok decided => ⟨.ok decided.outcome, some true, decided⟩

/-- A pending order closed for a reason the holder is told. -/
def StoredPayment.voidConsent (s : StoredPayment) (cause : ConsentInvalidation) (time : Int) :
    Except DomainError ConsentOutcome × StoredPayment :=
  match s.change (·.reject time) with
  | .error e => (.error e, s)
  | .ok closed => (.error (.conflict cause.text), closed)

/-- **Submit an answer with the mailed token and code.** Only a seat that has not answered pays for
a wrong code. -/
def StoredPayment.submit (s : StoredPayment) (sub : ConsentSubmission) : ConsentSubmitted :=
  match s.seat with
  | .consilium _ | .concierge .. | .session _ => ⟨.error consentNotFound, none, s⟩
  | .consent seat =>
    if seat.tokenHash ≠ sub.tokenHash then ⟨.error consentNotFound, none, s⟩
    else if seat.burned ∨ seat.expiresAt ≤ sub.time then ⟨.error consentNotFound, none, s⟩
    else if s.order.state ≠ .pending ∧ seat.decision = .pending then
      ⟨.error consentNotFound, none, s⟩
    else if seat.decision = .pending then
      match seat.pins.moved digest s.standing with
      | some cause =>
        let (answer, closed) := s.voidConsent cause sub.time
        ⟨answer, none, closed⟩
      | none =>
        -- counted before the comparison is looked at
        let counted := { seat with
          attempts := min (seat.attempts + 1) ConsentSeat.MAX_CODE_ATTEMPTS }
        if digest sub.code ≠ seat.codeHash then
          if ConsentSeat.MAX_CODE_ATTEMPTS ≤ counted.attempts then
            -- the burn fails the payment closed
            match { s with seat := .consent { counted with burned := true } }.change
                (·.reject sub.time) with
            | .error e => ⟨.error e, some false, s⟩
            | .ok closed => ⟨.error consentNotFound, some false, closed⟩
          else
            ⟨.error (.validation ("incorrect code — "
                ++ toString (ConsentSeat.MAX_CODE_ATTEMPTS - counted.attempts)
                ++ " attempts remaining")), some false, { s with seat := .consent counted }⟩
        else s.recordConsent counted sub
    else if digest sub.code ≠ seat.codeHash then
      ⟨.error (.validation "incorrect code"), some false, s⟩
    else if seat.decision ≠ sub.decision then
      ⟨.error (.conflict "this payment has already been answered"), some true, s⟩
    else ⟨.ok ⟨false, false⟩, some true, s⟩

/-- The signed-in seat with an answer recorded in it. -/
def SessionSeat.answer (seat : SessionSeat) (decision : ConsentDecision) (audit : ConsentAudit)
    (time : Int) (payloadHash : List UInt8) : SessionSeat :=
  { seat with
    decision, decidedAt := some time, audit := some audit, payloadHash := some payloadHash }

/-- **Answer signed in.** -/
def StoredPayment.answerSession (s : StoredPayment) (subject : UserId) (decision : ConsentDecision)
    (audit : ConsentAudit) (time : Int) : Except DomainError ConsentOutcome × StoredPayment :=
  if decision = .pending then (.error (.validation "a consent must approve or reject"), s)
  else
    match s.seat with
    | .consilium _ | .concierge .. | .consent _ => (.error consentNotFound, s)
    | .session seat =>
      if seat.subject ≠ subject then (.error consentNotFound, s)
      else if seat.decision ≠ .pending then
        if seat.decision ≠ decision then
          (.error (.conflict "this payment has already been answered"), s)
        else (.ok ⟨false, false⟩, s)
      else if s.order.state ≠ .pending ∨ s.order.expiresAt ≤ time then (.error consentNotFound, s)
      else
        match seat.pins.moved digest s.standing with
        | some cause => s.voidConsent cause time
        | none =>
          match { s with seat := .session (seat.answer decision audit time s.payloadHash) }.decide
              decision time with
          | .error e => (.error e, s)
          | .ok decided => (.ok decided.outcome, decided)

end Seats

/-- Open the mailed link: read only, whoever fetches it. -/
def StoredPayment.invitation (s : StoredPayment) (tokenHash : List UInt8) (time : Int) :
    Except DomainError Nat :=
  match s.seat with
  | .consilium _ | .concierge .. | .session _ => .error consentNotFound
  | .consent seat =>
    if seat.tokenHash ≠ tokenHash ∨ seat.burned ∨ seat.usedAt.isSome ∨ seat.expiresAt ≤ time ∨
        s.order.state ≠ .pending then .error consentNotFound
    else .ok (ConsentSeat.MAX_CODE_ATTEMPTS - seat.attempts)

/-! ## The other changes -/

/-- Withdraw an order, by the operator who opened it. -/
def StoredPayment.cancel (s : StoredPayment) (caller : UserId) (time : Int) :
    Except DomainError StoredPayment :=
  if s.initiator ≠ caller then
    .error (.forbidden "only the operator who opened this payment may withdraw it")
  else s.change (·.cancel time)

/-- Close one order whose window ran out. -/
def StoredPayment.expireOne (s : StoredPayment) (time : Int) : Except DomainError StoredPayment :=
  if s.order.state ≠ .pending then .ok s else s.change (·.expire time)

/-- The owners' quorum carried. -/
def StoredPayment.recordApproval (s : StoredPayment) (consilium : Uuid) (time : Int) :
    Except DomainError StoredPayment :=
  match s.seat with
  | .consilium linked =>
    if linked ≠ consilium then
      .error (.conflict "this consilium does not decide this payment")
    else s.change (·.approve time)
  | _ => .error (.conflict "this payment is not decided by a consilium")

/-- The owners' quorum refused, expired or was withdrawn. -/
def StoredPayment.recordRejection (s : StoredPayment) (time : Int) :
    Except DomainError StoredPayment :=
  if s.order.state = .pending then s.change (·.reject time) else .ok s

/-- The owners' concierge approval was carried here. -/
def StoredPayment.recordConciergeApproval (s : StoredPayment) (approvalId : String)
    (executeBy time : Int) : Except DomainError StoredPayment :=
  match s.seat with
  | .concierge known deadline =>
    if known.any (· ≠ approvalId) then
      .error (.conflict "another approval decides this payment")
    else
      let seated := { s with
        seat := .concierge (known.or (some approvalId))
          (deadline.or (if executeBy = 0 then none else some executeBy)) }
      if s.order.state = .approved ∨ s.order.state = .executed then .ok seated
      else if s.order.expiresAt ≤ time then
        .error (.conflict "the payment's window ended before the decision was carried out")
      else seated.change (·.approve time)
  | _ => .error (.conflict "this payment is not decided by a concierge approval")

end Banking
