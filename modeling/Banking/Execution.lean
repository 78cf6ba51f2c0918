import Banking.Arrivals
import Banking.Lib.Pool
import Banking.Payments
import Banking.VoteGate

/-! # Executing a consilium

An approved consilium is turned into its effect by whoever gets to it: the vote that carried it, and
the sweeper after a crash. One call reads the consilium, checks that the approval may still be
spent, produces the effect of the consilium's kind and records how it went; each of these is a
transaction of its own, and any of them may fail, or take effect without its answer arriving.

The effect stands in another table, under an id derived from the consilium or its subject
(`EffectRow`). `written` counts, for the proofs only, how many times it was made. -/

namespace Banking

open Interactive (Prog)

/-! ## The effect's row -/

/-- Where a change of fee terms stands. -/
inductive FeePolicyChangeState
  | awaitingConsilium
  | scheduled
  | active
  | superseded
  | rejected
  | cancelled
deriving DecidableEq, Repr

/-- A state's stored text. -/
def FeePolicyChangeState.asStr : FeePolicyChangeState → String
  | .awaitingConsilium => "awaiting_consilium"
  | .scheduled => "scheduled"
  | .active => "active"
  | .superseded => "superseded"
  | .rejected => "rejected"
  | .cancelled => "cancelled"

/-- A change of fee terms: what it changes, who decides it and where it stands. -/
structure FeePolicyChange where
  service : ServiceId
  policy : FeePolicy
  reason : String
  consiliumId : Option Uuid
  byOwners : Bool
  state : FeePolicyChangeState
deriving DecidableEq

/-- What stands under the id of a consilium's effect: the order it approves and the consilium the
order is linked to, its mark, the change it schedules, the issuance under its key, the subscription
under its reference and who it is for. -/
inductive EffectRow
  | payment (order : Option PaymentOrder) (link : Option Uuid)
  | valuation (mark : Bool)
  | feePolicy (change : FeePolicyChange)
  | holderGrant (issuance : Option Uuid)
  | seedCapital (subscription : Option UserId)

/-- The kind of the consilium an effect belongs to. -/
def EffectRow.kind : EffectRow → ConsiliumKind
  | .payment .. => .payment
  | .valuation _ => .valuationOverride
  | .feePolicy _ => .feePolicy
  | .holderGrant _ => .holderGrant
  | .seedCapital _ => .seedCapital

/-- **What a call of `execute` reads and writes**: the consilium, the users, the time of the last
roster change and the effect's row. -/
structure ExecWorld where
  stored : StoredConsilium
  standings : Standings
  rosterChangedAt : Option Int
  effect : EffectRow
  written : Nat

/-- Whose seed the consilium decides. -/
def ExecWorld.depositor (w : ExecWorld) : Option UserId :=
  match w.stored.row.terms with
  | .seedCapital terms => some terms.depositor
  | _ => none

/-! ## Operations -/

/-- One transaction of a call, or one check of a writer made before its own. -/
inductive ExecOp
  | find
  | lastRosterChangeAt
  | findOrder
  | recordApproval (consilium : Uuid) (time : Int)
  | executeOrder
  | findMark
  | recordValuation
  | scheduleApproved (subject : FeePolicySubject) (consilium : Uuid)
  | findIssuance
  | admitUnits
  | issueUnits (id : Uuid)
  | findSubscription
  | seedFundCapital (depositor : UserId)
  | recordExecution (outcome : ExecutionOutcome) (time : Int)

/-- What an operation answers when it succeeds. -/
abbrev ExecOp.Res : ExecOp → Type
  | .find => Consilium
  | .lastRosterChangeAt => Option Int
  | .findOrder => Option PaymentOrder
  | .findMark | .findSubscription => Bool
  | .findIssuance => Option Uuid
  | .issueUnits _ => Uuid
  | .recordApproval .. | .executeOrder | .recordValuation | .scheduleApproved .. | .admitUnits
  | .seedFundCapital _ | .recordExecution .. => Unit

/-- What an operation answers. -/
abbrev ExecOp.Ans (op : ExecOp) : Type := Except DomainError op.Res

/-- The effect made once more. -/
def ExecWorld.make (w : ExecWorld) (effect : EffectRow) : ExecWorld :=
  { w with effect, written := w.written + 1 }

/-- A change scheduled once its consilium carried. -/
def FeePolicyChange.scheduleApproved (change : FeePolicyChange) (subject : FeePolicySubject)
    (consilium : Uuid) : Except DomainError Bool :=
  if change.consiliumId ≠ some consilium ∨ ¬ change.byOwners then
    .error (.conflict "this consilium does not decide this fee-policy change")
  else if change.service ≠ subject.service ∨ change.policy ≠ subject.toPolicy ∨
      change.reason ≠ subject.reason then
    .error (.conflict "the fee-policy change no longer matches the terms the owners approved")
  else
    match change.state with
    | .scheduled => .ok false
    | .awaitingConsilium => .ok true
    | .active | .superseded | .rejected | .cancelled =>
      .error (.conflict ("the fee-policy change is " ++ change.state.asStr
        ++ ", no longer awaiting the owners"))

/-- An order approved by the consilium it is linked to; whether it was not approved before. -/
def approveLinked (order : PaymentOrder) (link : Option Uuid) (consilium : Uuid) (time : Int) :
    Except DomainError (PaymentOrder × Bool) :=
  match link with
  | none => .error (.conflict "this payment is not decided by a consilium")
  | some linked =>
    if linked ≠ consilium then .error (.conflict "this consilium does not decide this payment")
    else
      match order.approve time with
      | (.error e, _) => .error e
      | (.ok (), approved) => .ok (approved, order.state = .pending)

/-- Close what a consilium decides, where it waits for the verdict. -/
def EffectRow.closeDecided (row : EffectRow) (consilium : Uuid) (time : Int) : EffectRow :=
  match row with
  | .payment (some order) link =>
    if order.state = .pending then .payment (some (order.reject time).2) link
    else .payment (some order) link
  | .feePolicy change =>
    if change.consiliumId = some consilium ∧ change.state = .awaitingConsilium then
      .feePolicy { change with state := .rejected }
    else .feePolicy change
  | row => row

/-- Record how an attempt ended; a failure closes what the consilium decides. -/
def ExecWorld.recordExecution (w : ExecWorld) (outcome : ExecutionOutcome) (time : Int) :
    Except DomainError Unit × ExecWorld :=
  match w.stored.recordExecution w.standings outcome with
  | (.error e, _) => (.error e, w)
  | (.ok (), stored) =>
    if stored.row.state = .executionFailed then
      (.ok (), { w with stored, effect := w.effect.closeDecided stored.row.id time })
    else (.ok (), { w with stored })

/-- **What an operation does**, where nothing else a writer reads refuses it. -/
def ExecOp.run : (op : ExecOp) → ExecWorld → op.Ans × ExecWorld
  | .find, w => (.ok (w.stored.rehydrate w.standings), w)
  | .lastRosterChangeAt, w => (.ok w.rosterChangedAt, w)
  | .findOrder, w =>
    match w.effect with
    | .payment order _ => (.ok order, w)
    | _ => (.ok none, w)
  | .recordApproval consilium time, w =>
    match w.effect with
    | .payment (some order) link =>
      match approveLinked order link consilium time with
      | .error e => (.error e, w)
      | .ok (approved, true) => (.ok (), w.make (.payment (some approved) link))
      | .ok (approved, false) => (.ok (), { w with effect := .payment (some approved) link })
    | _ => (.error (.repository "payment not found"), w)
  -- the order's own step: what it does to the order is among the others' steps
  | .executeOrder, w => (.ok (), w)
  | .findMark, w =>
    match w.effect with
    | .valuation mark => (.ok mark, w)
    | _ => (.ok false, w)
  | .recordValuation, w =>
    match w.effect with
    | .valuation false => (.ok (), w.make (.valuation true))
    | _ => (.error (.repository "duplicate key value violates unique constraint"), w)
  | .scheduleApproved subject consilium, w =>
    match w.effect with
    | .feePolicy change =>
      match change.scheduleApproved subject consilium with
      | .error e => (.error e, w)
      | .ok false => (.ok (), w)
      | .ok true => (.ok (), w.make (.feePolicy { change with state := .scheduled }))
    | _ => (.error (.repository "fee policy change not found"), w)
  | .findIssuance, w =>
    match w.effect with
    | .holderGrant issuance => (.ok issuance, w)
    | _ => (.ok none, w)
  | .admitUnits, w => (.ok (), w)
  | .issueUnits id, w =>
    match w.effect with
    | .holderGrant none => (.ok id, w.make (.holderGrant (some id)))
    -- lost the race to a send of the same request: the winner's row is the answer
    | .holderGrant (some existing) => (.ok existing, w)
    | _ => (.error (.repository "unit issuance not recorded"), w)
  | .findSubscription, w =>
    match w.effect with
    | .seedCapital subscription => (.ok subscription.isSome, w)
    | _ => (.ok false, w)
  | .seedFundCapital depositor, w =>
    match w.effect with
    | .seedCapital none => (.ok (), w.make (.seedCapital (some depositor)))
    | .seedCapital (some _) => (.ok (), w)
    | _ => (.error (.repository "subscription not recorded"), w)
  | .recordExecution outcome time, w => w.recordExecution outcome time

/-- A writer that reads more than the effect's row, and may refuse for what it reads there: the
price, the cap, the chain, the registry. -/
def ExecOp.gated : ExecOp → Bool
  | .recordValuation | .admitUnits | .seedFundCapital _ => true
  | _ => false

/-- **How an operation may be answered.** -/
inductive ExecStep (op : ExecOp) (w : ExecWorld) : op.Ans → ExecWorld → Prop
  /-- It was carried out. -/
  | done : ExecStep op w (op.run w).1 (op.run w).2
  /-- It was carried out, and its answer did not arrive. -/
  | lost (detail : String) : ExecStep op w (.error (.repository detail)) (op.run w).2
  /-- It was not carried out. -/
  | outage (detail : String) : ExecStep op w (.error (.repository detail)) w
  /-- Its writer refused it. -/
  | refused (hgated : op.gated = true) (e : DomainError) : ExecStep op w (.error e) w

/-! ## The program -/

/-- A program of a call. -/
abbrev ExecProg (α : Type) : Type := Prog ExecOp ExecOp.Ans DomainError α

/-- One operation whose error ends the call. -/
def query (op : ExecOp) : ExecProg op.Res :=
  (Prog.ask op).bind fun
    | .ok r => .ret r
    | .error e => .exit e

/-- How long after the voting window closes an approval may still be spent: a day. -/
def EXECUTION_GRACE_SECS : Int := 24 * 60 * 60

/-- What the owners are told when the effect could not be made. -/
def failureReason : DomainError → String
  | .validation message => "validation failed: " ++ message
  | .forbidden message => "forbidden: " ++ message
  | .conflict message => "conflict: " ++ message
  | .precondition message => "precondition failed: " ++ message
  | .notFound entity id => entity ++ " not found: " ++ id
  | .repository _ =>
    "the payout could not be created because of an internal error; an operator has been alerted"

/-- The id of the mark a consilium records. -/
def valuationId (consilium : Uuid) : Uuid := .v5 consilium "consilium:valuation-override"

/-- The bytes an order is hashed over. -/
def PaymentOrder.subjectBytes (order : PaymentOrder) : List UInt8 :=
  asBytes PaymentSubject.DOMAIN ++ (pushField order.id.asBytes ++ order.terms.canonicalBytes)

/-- Whether an order is approved, or has gone past approval. -/
def PaymentState.pastApproval : PaymentState → Bool
  | .approved | .executed | .executionFailed => true
  | .pending | .rejected | .expired | .cancelled => false

/-- The order's approval is the effect; its money moves in a step of its own. -/
def approvedPayment (paymentId : Uuid) : ExecProg ExecutionOutcome :=
  (Prog.ask ExecOp.executeOrder).bind fun _ => .ret (.executed (.payment paymentId))

section Programs

variable (sha256 : List UInt8 → List UInt8)

/-- Carry an approved payment order past its one requirement. -/
def executePayment (c : Consilium) (subject : PaymentSubject) (now : Int) :
    ExecProg ExecutionOutcome :=
  (query .findOrder).bind fun
    | none => .ret (.failed ("payment " ++ subject.paymentId.text ++ " no longer exists"))
    | some order =>
      if sha256 order.subjectBytes ≠ c.payloadHash then
        .ret (.failed "the payment order no longer matches the terms the owners approved")
      else
        (Prog.ask (ExecOp.recordApproval c.id now)).bind fun
          | .ok () => approvedPayment subject.paymentId
          | .error e =>
            -- a refusal is not proof that the approval did not land
            (query .findOrder).bind fun
              | some order =>
                if order.state.pastApproval then approvedPayment subject.paymentId
                else .ret (.failed (failureReason e))
              | none => .ret (.failed (failureReason e))

/-- Record the mark an approved valuation override authorizes. -/
def executeValuationOverride (c : Consilium) : ExecProg ExecutionOutcome :=
  (query .findMark).bind fun mark =>
    if mark then .ret (.executed (.valuation (valuationId c.id)))
    else
      (Prog.ask ExecOp.recordValuation).bind fun
        | .ok () => .ret (.executed (.valuation (valuationId c.id)))
        | .error e =>
          (query .findMark).bind fun mark =>
            if mark then .ret (.executed (.valuation (valuationId c.id)))
            else .ret (.failed (failureReason e))

/-- Schedule an approved change of fee terms. -/
def executeFeePolicy (c : Consilium) (subject : FeePolicySubject) : ExecProg ExecutionOutcome :=
  (Prog.ask (ExecOp.scheduleApproved subject c.id)).bind fun
    | .ok () => .ret (.executed (.feePolicy subject.changeId))
    | .error (.repository detail) => .exit (.repository detail)
    | .error e => .ret (.failed (failureReason e))

/-- Mint the units an approved grant authorizes, `fresh` being the new issuance's id. -/
def executeHolderGrant (fresh : Uuid) : ExecProg ExecutionOutcome :=
  (query .findIssuance).bind fun
    | some existing => .ret (.executed (.issuance existing))
    | none =>
      (Prog.ask ExecOp.admitUnits).bind fun
        | .error (.repository detail) => .exit (.repository detail)
        | .error e => .ret (.failed (failureReason e))
        | .ok () =>
          (Prog.ask (ExecOp.issueUnits fresh)).bind fun
            | .ok id => .ret (.executed (.issuance id))
            | .error (.repository detail) => .exit (.repository detail)
            | .error e => .ret (.failed (failureReason e))

/-- Book the seed an approved consilium authorizes. -/
def executeSeedCapital (terms : SeedCapitalTerms) : ExecProg ExecutionOutcome :=
  let effect := ConsiliumEffect.subscription (seedSubscriptionId terms.txRef)
  (query .findSubscription).bind fun found =>
    if found then .ret (.executed effect)
    else
      (Prog.ask (ExecOp.seedFundCapital terms.depositor)).bind fun
        | .ok () => .ret (.executed effect)
        | .error e =>
          (query .findSubscription).bind fun found =>
            if found then .ret (.executed effect)
            else
              match e with
              | .repository detail => .exit (.repository detail)
              | e => .ret (.failed (failureReason e))

/-- The effect of a consilium's kind. -/
def executeTerms (c : Consilium) (now : Int) (fresh : Uuid) : ExecProg ExecutionOutcome :=
  match c.terms with
  | .payment subject => executePayment sha256 c subject now
  | .valuationOverride _ => executeValuationOverride c
  | .feePolicy subject => executeFeePolicy c subject
  | .holderGrant _ => executeHolderGrant fresh
  | .seedCapital terms => executeSeedCapital terms

/-- **Turn an approved consilium into its effect.** -/
def execute (now : Int) (fresh : Uuid) : ExecProg Unit :=
  (query .find).bind fun c =>
    let record := fun outcome => query (.recordExecution outcome now)
    if c.state = .executed then .ret ()
    else if c.state ≠ .approved then
      .exit (.conflict ("consilium is " ++ c.state.asStr ++ ", not executable"))
    else if sha256 c.terms.canonicalBytes ≠ c.payloadHash then
      record (.failed "the stored terms no longer match the payload hash the owners approved")
    else if c.approvals < c.threshold then
      record (.failed ("only " ++ toString c.approvals ++ " of the " ++ toString c.threshold
        ++ " required approvals are still held by current owners — the roster changed after the "
        ++ "vote carried"))
    else
      (query .lastRosterChangeAt).bind fun changedAt =>
        if changedAt.any (c.createdAt ≤ ·) then
          record (.failed
            "the owner roster changed while this request was open, so the approval was voided")
        else if saturatingAdd c.expiresAt EXECUTION_GRACE_SECS < now then
          record (.failed ("the approval went stale: execution did not run within the grace "
            ++ "period after the voting window closed"))
        else (executeTerms sha256 c now fresh).bind record

end Programs

/-! ## The others -/

/-- What the others do between two operations: the users and the roster change, votes and verdicts
change the consilium, and the effect's row goes its own way. -/
inductive ExecEnv (digest : String → List UInt8) : ExecWorld → ExecWorld → Prop
  | users (w : ExecWorld) (standings : Standings) (rosterChangedAt : Option Int) :
      ExecEnv digest w { w with standings, rosterChangedAt }
  | store (w : ExecWorld) (step : StoreStep)
      (hstep : ∀ standings outcome, step ≠ .record standings outcome) :
      ExecEnv digest w { w with stored := step.run digest w.stored }
  | order (w : ExecWorld) {order : PaymentOrder} {link : Option Uuid}
      (h : w.effect = .payment (some order) link) (command : PaymentCommand)
      (hcommand : ∀ time, command ≠ .approve time) :
      ExecEnv digest w { w with effect := .payment (some (command.run order).2) link }
  | change (w : ExecWorld) {change : FeePolicyChange} (h : w.effect = .feePolicy change)
      (state : FeePolicyChangeState)
      (hstate : match change.state with
        | .awaitingConsilium => state = .rejected ∨ state = .cancelled
        | .scheduled => state = .active ∨ state = .superseded ∨ state = .cancelled
        | .active => state = .superseded
        | .superseded | .rejected | .cancelled => False) :
      ExecEnv digest w { w with effect := .feePolicy { change with state } }
  /-- Another writer books the seed's reference, for whomever it was asked. -/
  | booked (w : ExecWorld) (h : w.effect = .seedCapital none) (user : UserId) :
      ExecEnv digest w
        { w with
          effect := .seedCapital (some user)
          written := if w.depositor = some user then w.written + 1 else w.written }

end Banking
