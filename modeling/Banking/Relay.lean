import Banking.Gateway
import Banking.Lib.Interactive

/-! # The relay

The single worker that drains the outbox: `dispatch` applies one row to the ledger, behind the
guards it reads first, and `drainBatch` stamps what came of it. Both are programs over the relay's
atomic operations (`RelayOp`): every control-plane transaction, ledger call and custody call is one
operation, answered by the environment, so a crash is a program that stops anywhere and a fault is
an answer. -/

namespace Banking

open Interactive (Prog)

/-! ## Postings -/

/-- An event whose ledger move is recorded on a control-plane row of its own, `pending` until the
relay posts it. -/
inductive Posting
  | move
  | scopeTransfer
  | scopePayout
  | invoicePayment
  | scopeCharge
deriving DecidableEq, Repr

/-- Where a posting stands. -/
inductive MoveState
  | pending
  | posted
  | failed
deriving DecidableEq, Repr

/-- The posting a kind of event is. -/
def Posting.of : Option Kind → Option Posting
  | some .compartments => some .move
  | some .scopeLedger => some .scopeTransfer
  | some .scopePayouts => some .scopePayout
  | some .scopeInvoices => some .invoicePayment
  | some .scopeCharges => some .scopeCharge
  | some .balance | some .withdrawals | some .subscriptions | some .redemptions | some .fees
  | some .issuances | some .book | some .payments | some .scopeHolds | none => none

/-- What the relay's messages call a posting. -/
def Posting.name : Posting → String
  | .move => "compartment move"
  | .scopeTransfer => "scope transfer"
  | .scopePayout => "scope payout"
  | .invoicePayment => "invoice payment"
  | .scopeCharge => "scope charge"

/-- The reason recorded on a row the ledger refused for want of funds. -/
def Posting.insufficientFunds : Posting → String
  | .move | .scopeTransfer | .scopePayout | .scopeCharge | .invoicePayment => "insufficient_funds"

/-! ## Operations -/

/-- Why a custody broadcast was not sent. -/
inductive CustodyError
  | unavailable (detail : String)
  | rejected (detail : String)
deriving DecidableEq, Repr

/-- Why the money event of an applied row was not written. -/
inductive MoneyEventError
  | unavailable (reason : String)
  | unrecordable (reason : String)
deriving DecidableEq, Repr

/-- The relay's atomic operations. -/
inductive RelayOp
  | nextBatch (limit : Nat)
  | probeLock
  | reserveRefused (hold : Uuid)
  | postingState (posting : Posting) (row : OutboxRow)
  | pastPostingWindow (charge : Uuid)
  | reserveApplied (withdrawal : Uuid)
  | withdrawalState (withdrawal : Uuid)
  | broadcastRecorded (withdrawal : Uuid)
  | transferExists (id : Uuid)
  | balance (key : LedgerAccountKey)
  | ledger (call : LedgerCall)
  | broadcast (request : BroadcastRequest)
  | recordSagaStep (eventId : Uuid) (leg : Nat) (role : Role) (transferId : Uuid)
  | projectSubscription (row : OutboxRow)
  | projectIssuance (row : OutboxRow)
  | projectTrade (row : OutboxRow)
  | recordRelayed (row : OutboxRow)
  | markPosted (posting : Posting) (row : OutboxRow)
  | markFailed (posting : Posting) (row : OutboxRow) (reason : String)
  | markDispatched (seq : Nat)
  | markParked (seq : Nat) (reason : String)
  | parkRefusedReserve (seq : Nat) (reason : String) (hold : Uuid)
  | markRejected (order : Uuid) (reason : String)
  | markCompensated (seq : Nat)
  | recordFailure (seq : Nat) (reason : String)
  | recordMoneyEventFailure (seq : Nat) (reason : String)
deriving DecidableEq, Repr

/-- What an operation is answered with. -/
@[reducible] def RelayOp.Ans : RelayOp → Type
  | .nextBatch _ => Except String (List OutboxRow)
  | .reserveRefused _ | .pastPostingWindow _ | .reserveApplied _ | .broadcastRecorded _ =>
    Except String Bool
  | .postingState .. => Except String (Option MoveState)
  | .withdrawalState _ => Except String (Option String)
  | .transferExists _ => Except LedgerError Bool
  | .balance _ => Except LedgerError LedgerBalance
  | .ledger _ => Except LedgerError Unit
  | .broadcast _ => Except CustodyError Unit
  | .recordRelayed _ => Except MoneyEventError Unit
  | .recordMoneyEventFailure .. => Except String Nat
  | .probeLock | .recordSagaStep .. | .projectSubscription _ | .projectIssuance _ | .projectTrade _
  | .markPosted .. | .markFailed .. | .markDispatched _ | .markParked .. | .parkRefusedReserve ..
  | .markRejected .. | .markCompensated _ | .recordFailure .. => Except String Unit

/-! ## What came of a dispatch -/

/-- What a dispatch ends in: applied; a transient outage, waited out without bound; a missing money
event, or a retryable ledger state, waited out for a bounded number of tries; or terminal, with the
number of legs that applied before. -/
inductive Outcome
  | done
  | retry (reason : String)
  | moneyEvent (reason : String)
  | retryBounded (reason : String)
  | park (reason : String) (appliedLegs : Nat)
deriving DecidableEq, Repr

/-- A program that ends early with an outcome. -/
abbrev Step (α : Type) := Prog RelayOp RelayOp.Ans Outcome α

/-- One operation of a dispatch. -/
def ask (op : RelayOp) : Step op.Ans := Prog.ask op

/-- Park before any leg applied. -/
def parkNow {α : Type} (reason : String) : Step α := .exit (.park reason 0)

/-- The answer of a control-plane read or write; a failure is waited out. -/
def orRetry {α : Type} (context : String) : Except String α → Step α
  | .ok a => pure a
  | .error e => .exit (.retry (context ++ e))

/-- The answer of a ledger read made before any leg: an outage is waited out, a retryable state for a
bounded number of tries, anything else parks. -/
def orPark {α : Type} (context : String) : Except LedgerError α → Step α
  | .ok a => pure a
  | .error (.unavailable d) => .exit (.retry d)
  | .error (.retryable d) => .exit (.retryBounded d)
  | .error e => parkNow (context ++ e.text)

/-- A money event that was not written: an outage is waited out, anything else is tried a bounded
number of times. -/
def orMoneyEvent (context : String) : Except MoneyEventError Unit → Step Unit
  | .ok () => pure ()
  | .error (.unavailable reason) => .exit (.retry (context ++ "money event: " ++ reason))
  | .error (.unrecordable reason) => .exit (.moneyEvent (context ++ reason))

/-! ## The guards -/

/-- The hold of a reservation event that applied nothing. -/
def refusedReserve (row : OutboxRow) (appliedLegs : Nat) : Option Uuid :=
  if appliedLegs > 0 then none
  else
    match row.payload with
    | .scopeHolds (.placed holdId ..) => some holdId
    | _ => none

/-- A reservation the ledger refused once, with its hold voided for it, is never placed again. -/
def refusedGate (row : OutboxRow) : Step Unit :=
  match refusedReserve row 0 with
  | none => pure ()
  | some hold => do
    let refused ← orRetry "hold refusal read: " (← ask (.reserveRefused hold))
    if refused then .exit .done else pure ()

/-- A posting whose leg is on the ledger from an earlier delivery: the money event it owes, and its
stamp. -/
def stampApplied (posting : Posting) (row : OutboxRow) : Step Unit := do
  orMoneyEvent (posting.name ++ ": ") (← ask (.recordRelayed row))
  orRetry (posting.name ++ " posted stamp: ") (← ask (.markPosted posting row))
  .exit .done

/-- A charge that waited past its window is refused rather than carried out now. -/
def windowGate (row : OutboxRow) : Posting → Step Unit
  | .scopeCharge => do
    let past ← orRetry (Posting.scopeCharge.name ++ " age read: ")
      (← ask (.pastPostingWindow row.aggregateId))
    if past then do
      orRetry (Posting.scopeCharge.name ++ " failed stamp: ")
        (← ask (.markFailed .scopeCharge row "expired"))
      .exit .done
    else pure ()
  | .move | .scopeTransfer | .scopePayout | .invoicePayment => pure ()

/-- Only a `pending` posting may reach the ledger, and only once: a failed one is a refused intent,
and the ledger says whether its leg already moved. -/
def postingGate (posting : Posting) (row : OutboxRow) (ops : List PlannedOp) : Step Unit := do
  match ← orRetry (posting.name ++ " state read: ") (← ask (.postingState posting row)) with
  | some .pending =>
    match ops with
    | [] => parkNow (posting.name ++ " planned no leg")
    | leg :: _ => do
      let applied ← orPark (posting.name ++ " applied check: ") (← ask (.transferExists leg.transferId))
      if applied then stampApplied posting row else windowGate row posting
  | some .posted | some .failed => .exit .done
  | none => parkNow (posting.name ++ " row is missing")

/-- The settle-time pre-check of one leg: unless the leg is on the ledger already, the account it
depends on must hold its amount. -/
def checkLiquidity (id : Uuid) (guarded : LedgerAccountKey) (atHand : LedgerBalance → Nat)
    (amount : Nat) : Step Unit := do
  let applied ← orPark "settle applied-leg check: " (← ask (.transferExists id))
  if applied then pure ()
  else do
    let balance ← orPark "settle liquidity check: " (← ask (.balance guarded))
    if atHand balance < amount then
      parkNow (guarded.logicalKey ++ " liquidity insufficient at settle")
    else pure ()

/-- The gated legs: a disbursement leaves a rail's custody, a payout leaves the fund's claim. -/
def liquidityGate (op : PlannedOp) : Step Unit :=
  match op.action, op.role with
  | .post t, .withdrawDisburse => checkLiquidity op.transferId t.credit (·.posted) t.amount
  | .post t, .redeemPayout | .post t, .feePayout =>
    checkLiquidity op.transferId t.debit (·.available) t.amount
  | _, _ => pure ()

/-- A broadcast goes out only with the withdrawal's reservation applied and its row processing. -/
def broadcastGate (row : OutboxRow) (op : PlannedOp) : Step Unit :=
  match op.action with
  | .broadcast _ => do
    let applied ← orRetry "reserve-applied check: " (← ask (.reserveApplied row.aggregateId))
    if applied then
      match ← orRetry "broadcast-state check: " (← ask (.withdrawalState row.aggregateId)) with
      | some state =>
        if state = "processing" then pure ()
        else parkNow ("withdrawal is " ++ state ++ ", not processing — refusing to broadcast")
      | none => parkNow "withdrawal row is missing — refusing to broadcast"
    else
      parkNow "withdrawal reserve never applied to the ledger (parked?) — refusing to broadcast"
  | .post _ | .postLinked _ | .reserve _ | .complete _ | .linked _ => pure ()

/-- A failed withdrawal whose broadcast may have landed is never voided. -/
def voidGate (row : OutboxRow) (op : PlannedOp) : Step Unit :=
  if op.transferId = tid row.aggregateId CLEARING_VOID_FAIL then do
    let recorded ← orRetry "broadcast-row check: " (← ask (.broadcastRecorded row.aggregateId))
    if recorded then
      parkNow "broadcast row exists — refusing to void a possibly-landed withdrawal"
    else pure ()
  else pure ()

/-- A hold's capture or release needs the reservation it voids, or its own first leg, on the
ledger. -/
def checkReservation (void : PendingCompletion) : Step Unit := do
  let this ← ask (.transferExists void.id)
  let reserved ← ask (.transferExists void.pendingId)
  match this, reserved with
  | .ok this, .ok reserved =>
    if this || reserved then pure ()
    else
      parkNow "hold reservation never applied to the ledger (parked?) — nothing to capture or release"
  | .error (.unavailable d), _ => .exit (.retry d)
  | _, .error (.unavailable d) => .exit (.retry d)
  | .error e, _ => parkNow ("hold reservation check: " ++ e.text)
  | _, .error e => parkNow ("hold reservation check: " ++ e.text)

/-- The guard of a hold's capture or release. -/
def holdGate (op : PlannedOp) : Step Unit :=
  match op.action, op.role with
  | .linked (.complete void :: _), .holdCapture | .linked (.complete void :: _), .holdRelease =>
    checkReservation void
  | _, _ => pure ()

/-! ## The legs -/

/-- Custody failures as ledger outcomes: an outage is transient, a refusal is not. -/
def custodyToLedger : CustodyError → LedgerError
  | .unavailable d => .unavailable ("custody unavailable: " ++ d)
  | .rejected d => .conflict ("custody rejected: " ++ d)

/-- Perform one planned operation. -/
def perform (op : PlannedOp) : Step (Except LedgerError Unit) :=
  match op.action with
  | .post t => ask (.ledger (.post t))
  | .postLinked ts => ask (.ledger (.postLinked ts))
  | .reserve t => ask (.ledger (.reserve t))
  | .complete c => ask (.ledger (.complete c))
  | .linked legs => ask (.ledger (.applyLinked legs))
  | .broadcast request => do
    match ← ask (.broadcast request) with
    | .ok () => pure (.ok ())
    | .error e => pure (.error (custodyToLedger e))

/-- An applied leg is recorded; a broadcast is no transfer, so it is not. -/
def recordLeg (row : OutboxRow) (op : PlannedOp) (leg : Nat) : Step Unit :=
  match op.action with
  | .broadcast _ => pure ()
  | .post _ | .postLinked _ | .reserve _ | .complete _ | .linked _ => do
    orRetry "saga step record: " (← ask (.recordSagaStep row.eventId leg op.role op.transferId))

/-- A leg refused for want of funds: a posting's terminal outcome, anything else parks. -/
def refuseFunds (posting : Option Posting) (row : OutboxRow) (appliedLegs : Nat) : Step Unit :=
  match posting with
  | some p => do
    orRetry (p.name ++ " failed stamp: ") (← ask (.markFailed p row p.insufficientFunds))
    .exit .done
  | none => .exit (.park "insufficient funds" appliedLegs)

/-- What follows a leg's answer. `leg` is its index, and so the number of legs applied before it. -/
def afterLeg (posting : Option Posting) (row : OutboxRow) (op : PlannedOp) (leg : Nat) :
    Except LedgerError Unit → Step Unit
  | .ok () => recordLeg row op leg
  | .error (.unavailable d) => .exit (.retry d)
  | .error (.retryable d) => .exit (.retryBounded d)
  | .error .insufficientFunds => refuseFunds posting row leg
  | .error (.conflict d) => .exit (.park ("ledger conflict: " ++ d) leg)

/-- One leg, in its turn. -/
def applyLeg (posting : Option Posting) (row : OutboxRow) (op : PlannedOp) (leg : Nat) :
    Step Unit := do
  afterLeg posting row op leg (← perform op)

/-! ## One row -/

/-- The projection an applied event owes. -/
def project (row : OutboxRow) : Step Unit :=
  match row.payload.kind with
  | some .subscriptions => do
    orRetry "subscribe cost-basis projection: " (← ask (.projectSubscription row))
  | some .issuances => do
    orRetry "issuance applied projection: " (← ask (.projectIssuance row))
  | some .book => do
    orRetry "book trade projection: " (← ask (.projectTrade row))
  | _ => pure ()

/-- What follows the legs: the projection, the money event, the posting's stamp. -/
def finish (posting : Option Posting) (row : OutboxRow) : Step Unit := do
  project row
  orMoneyEvent "" (← ask (.recordRelayed row))
  match posting with
  | some p => do
    orRetry (p.name ++ " posted stamp: ") (← ask (.markPosted p row))
  | none => pure ()

/-- The gate of a row whose event is a posting. -/
def postingGuard (posting : Option Posting) (row : OutboxRow) (ops : List PlannedOp) : Step Unit :=
  match posting with
  | some p => postingGate p row ops
  | none => pure ()

/-- The guards of a planned row, all read before any leg. -/
def guards (posting : Option Posting) (row : OutboxRow) (ops : List PlannedOp) : Step Unit := do
  postingGuard posting row ops
  Prog.each liquidityGate ops
  Prog.each (broadcastGate row) ops
  Prog.each (voidGate row) ops
  Prog.each holdGate ops

/-- The legs of a planned row, in order. -/
def applyLegs (posting : Option Posting) (row : OutboxRow) (ops : List PlannedOp) : Step Unit :=
  Prog.each (fun leg => applyLeg posting row leg.1 leg.2) ops.zipIdx

/-- A planned row: its guards, its legs, what follows them. -/
def dispatchPlanned (row : OutboxRow) (ops : List PlannedOp) : Step Unit := do
  guards (Posting.of row.payload.kind) row ops
  applyLegs (Posting.of row.payload.kind) row ops
  finish (Posting.of row.payload.kind) row

/-- The body of a dispatch: a normal end is `done`, an early one its outcome. -/
def dispatchBody (row : OutboxRow) : Step Unit := do
  refusedGate row
  match plan row with
  | .ok ops => dispatchPlanned row ops
  | .error reason => parkNow ("unplannable event: " ++ reason)

/-! ## The drain -/

/-- How a drain of one batch ended. -/
inductive DrainStep
  | drained
  | more
  | throttle
  | lostLock
deriving DecidableEq, Repr

/-- A program that ends early with a drain step. -/
abbrev Drain (α : Type) := Prog RelayOp RelayOp.Ans DrainStep α

/-- One operation of the drain. -/
def askDrain (op : RelayOp) : Drain op.Ans := Prog.ask op

/-- An operation of the drain whose failure is only logged. -/
def tell (op : RelayOp) : Drain Unit := do
  let _ ← askDrain op
  pure ()

/-- The outcome of a body that ended. -/
def outcomeOf : Except Outcome Unit → Outcome
  | .ok () => .done
  | .error o => o

/-- **Dispatch one row.** -/
def dispatch (row : OutboxRow) : Drain Outcome := do
  let o ← (dispatchBody row).outcome
  pure (outcomeOf o)

/-- The bound on consecutive bounded retries. -/
def MAX_RETRYABLE_ATTEMPTS : Nat := 25

/-- The kind of a park, for a parked posting's failure reason. -/
def parkKind (reason : String) : String :=
  if reason.startsWith "ledger conflict" then "conflict"
  else if reason.startsWith "compartment move applied check" ||
      reason.startsWith "scope transfer applied check" ||
      reason.startsWith "scope payout applied check" ||
      reason.startsWith "scope charge applied check" then "applied_check"
  else if reason.startsWith "unplannable" then "unplannable"
  else if reason.startsWith "retryable exhausted" then "retry_exhausted"
  else "other"

/-- A parked charge is left `pending` when the ledger's answer is unknown. -/
def chargeStaysPendingOnPark (reason : String) : Bool :=
  parkKind reason = "applied_check" || parkKind reason = "retry_exhausted"

/-- The stamp of a park; a refused hold reservation voids its hold with it. -/
def stampParked (row : OutboxRow) (reason : String) (appliedLegs : Nat) : Drain Unit :=
  match refusedReserve row appliedLegs with
  | some hold => tell (.parkRefusedReserve row.seq reason hold)
  | none => tell (.markParked row.seq reason)

/-- A parked escrow lock takes its order off the book. -/
def rejectOrder (row : OutboxRow) (reason : String) : Drain Unit :=
  match row.payload with
  | .book (.orderPlaced orderId ..) =>
    tell (.markRejected orderId ("ledger refused the escrow: " ++ reason))
  | _ => pure ()

/-- A parked posting is a refused one. -/
def failPosting (row : OutboxRow) (reason : String) : Drain Unit :=
  match Posting.of row.payload.kind with
  | some p =>
    if p = .scopeCharge && chargeStaysPendingOnPark reason then pure ()
    else tell (.markFailed p row ("parked:" ++ parkKind reason))
  | none => pure ()

/-- Park a row: the stamp, what the park changes in the control plane, and the marker of a
half-applied event. -/
def park (row : OutboxRow) (reason : String) (appliedLegs : Nat) : Drain Unit := do
  stampParked row reason appliedLegs
  rejectOrder row reason
  failPosting row reason
  if appliedLegs > 0 then tell (.markCompensated row.seq) else pure ()

/-- Park a row the ledger fully applied but whose money event cannot be recorded. -/
def parkUnrecorded (row : OutboxRow) (reason : String) : Drain Unit :=
  tell (.markParked row.seq reason)

/-- What the drain does with an outcome. A row it advances past lets the batch go on; any other ends
the drain. -/
def settle (row : OutboxRow) : Outcome → Drain Unit
  | .done => tell (.markDispatched row.seq)
  | .park reason appliedLegs => park row reason appliedLegs
  | .retry reason => do
    tell (.recordFailure row.seq reason)
    .exit .throttle
  | .moneyEvent reason => do
    match ← askDrain (.recordMoneyEventFailure row.seq reason) with
    | .ok tries =>
      if MAX_RETRYABLE_ATTEMPTS ≤ tries then parkUnrecorded row ("money event: " ++ reason)
      else .exit .throttle
    | .error _ => .exit .throttle
  | .retryBounded reason =>
    if MAX_RETRYABLE_ATTEMPTS ≤ row.attempts + 1 then
      park row ("retryable exhausted after " ++ toString (row.attempts + 1) ++ " attempts: " ++ reason)
        0
    else do
      tell (.recordFailure row.seq reason)
      .exit .throttle

/-- One row of a batch, behind the lock's probe. -/
def drainRow (row : OutboxRow) : Drain Unit := do
  match ← askDrain .probeLock with
  | .ok () => do
    let o ← dispatch row
    settle row o
  | .error _ => .exit .lostLock

/-- **Drain one batch** in `seq` order. -/
def drainBatch : Drain DrainStep := do
  match ← askDrain (.nextBatch 128) with
  | .error _ => pure .throttle
  | .ok [] => pure .drained
  | .ok batch => do
    Prog.each drainRow batch
    pure .more

end Banking
