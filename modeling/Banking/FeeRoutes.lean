import Banking.RelayRules
import Banking.ScopeTransfers

/-! # banking routes the fees its clients sweep

A client's fee sweep, once the ledger took it, has banking's own transfer carry the same amount on:
out of the scope's collector to wherever its fees go. The route is recorded with the sweep's stamp,
under a savepoint, or by the reaper where the stamp could not; one whose destination does not exist
is recorded failed, and revived once it does. The relay posts it like any other transfer. -/

namespace Banking

open Interactive (Prog)

/-! ## The tables -/

/-- A row of `scope_transfers`. -/
structure TransferRow where
  id : Uuid
  terms : TransferTerms
  state : MoveState
  failureReason : Option String
  feeRouteOf : Option Uuid
  updatedAt : Nat
deriving DecidableEq, Repr

/-- Why a route is recorded without being made. -/
def DESTINATION_MISSING : String := "destination_missing"

/-- Whether a transfer failed for want of its destination. -/
def TransferRow.missing (r : TransferRow) : Bool :=
  r.state = .failed ∧ r.failureReason = some DESTINATION_MISSING

/-- The transfer of a row. -/
def TransferRow.recorded (r : TransferRow) : Except DomainError ScopeTransfer :=
  ScopeTransfer.restore r.id r.terms

/-- What happened to the transfers. -/
inductive TransferFact
  | posted (id : Uuid)
  | missing (id : Uuid)
  /-- A failed route was made pending, `accounts` being those open then. -/
  | revived (id : Uuid) (accounts : List (ScopeId × ScopeAccountLabel))
deriving DecidableEq, Repr

/-- The transfers, the scope accounts that exist, every event ever put on the outbox, the time, the
time routes were introduced, and what happened. -/
structure RouteDb where
  transfers : List TransferRow
  accounts : List (ScopeId × ScopeAccountLabel)
  outbox : List OutboxRow
  now : Nat
  installedOn : Nat
  log : List TransferFact

/-- The row of an id. -/
def RouteDb.row? (db : RouteDb) (id : Uuid) : Option TransferRow := db.transfers.find? (·.id = id)

/-- A row rewritten. -/
def RouteDb.updateRow (db : RouteDb) (id : Uuid) (f : TransferRow → TransferRow) : RouteDb :=
  { db with transfers := db.transfers.map fun r => if r.id = id then f r else r }

/-- Note what happened. -/
def RouteDb.note (db : RouteDb) (fact : TransferFact) : RouteDb := { db with log := fact :: db.log }

/-- Put a transfer's event on the outbox. -/
def RouteDb.insertEvent (db : RouteDb) (eventId : Uuid) (t : ScopeTransfer) : RouteDb :=
  { db with outbox :=
      ⟨db.outbox.length, eventId, t.id, .scopeLedger t.transferred, 0⟩ :: db.outbox }

/-- Put it on the outbox again, and restart its reaper clock. -/
def RouteDb.enqueueEvent (db : RouteDb) (eventId : Uuid) (t : ScopeTransfer) : RouteDb :=
  (db.insertEvent eventId t).updateRow t.id fun r => { r with updatedAt := db.now }

/-! ## The transactions -/

/-- A client's sweep, or an approved operation's transfer, with its event. The row's CHECK refuses a
route that names no sweep. -/
def RouteDb.recordTransfer (db : RouteDb) (id eventId : Uuid) (terms : TransferTerms) :
    Except String RouteDb :=
  match ScopeTransfer.request id terms with
  | .error _ => .error "refused"
  | .ok (t, _) =>
    if terms.reason = .feeRoute then
      .error "violates check constraint \"scope_transfers_fee_route_shape\""
    else if (db.row? id).isSome then .error "duplicate key"
    else
      .ok (({ db with transfers := ⟨id, t.terms, .pending, none, none, db.now⟩ :: db.transfers }
        ).insertEvent eventId t)

/-- A route's row: pending where its destination exists, failed where it does not. -/
def RouteDb.routeRow (db : RouteDb) (sweep : Uuid) (route : ScopeTransfer) : TransferRow :=
  if (route.terms.toScope, route.terms.toLabel) ∈ db.accounts then
    ⟨route.id, route.terms, .pending, none, some sweep, db.now⟩
  else ⟨route.id, route.terms, .failed, some DESTINATION_MISSING, some sweep, db.now⟩

/-- A new route's row, and its event unless it failed. -/
def RouteDb.insertRoute (db : RouteDb) (eventId sweep : Uuid) (route : ScopeTransfer) : RouteDb :=
  let inserted := { db with transfers := db.routeRow sweep route :: db.transfers }
  if (db.routeRow sweep route).missing then inserted.note (.missing route.id)
  else inserted.insertEvent eventId route

/-- **Record banking's route of a posted sweep**; a sweep that has one is left alone. -/
def RouteDb.routeSweptFee (db : RouteDb) (routeId eventId sweep : Uuid) (scope : ScopeId)
    (amount : Nat) : Except String RouteDb :=
  match ScopeTransfer.routeFee routeId sweep scope amount with
  | .error _ => .error "refused"
  | .ok (route, _) =>
    if db.transfers.any (·.feeRouteOf = some sweep) then .ok db
    else if (db.row? routeId).isSome then .error "duplicate key"
    else if (db.row? sweep).isNone then .error "violates foreign key constraint"
    else .ok (db.insertRoute eventId sweep route)

/-- The posted stamp of one row. -/
def RouteDb.stampPosted (db : RouteDb) (id : Uuid) : RouteDb :=
  (db.updateRow id fun r => { r with state := .posted, updatedAt := db.now }).note (.posted id)

/-- **The ledger took a transfer**: only a pending row moves, and a sweep takes its route with the
same stamp, under a savepoint: where the route cannot be made (`routeId` is none when it failed for
a reason of the database's), the stamp stands alone. -/
def RouteDb.markPosted (db : RouteDb) (id : Uuid) (routeId : Option Uuid) (eventId : Uuid) :
    RouteDb :=
  match db.row? id with
  | some row =>
    if row.state = .pending then
      if row.terms.reason = .feeSweep then
        match routeId with
        | some routeId =>
          match (db.stampPosted id).routeSweptFee routeId eventId id row.terms.scope
              row.terms.amount with
          | .ok routed => routed
          | .error _ => db.stampPosted id
        | none => db.stampPosted id
      else db.stampPosted id
    else db
  | none => db

/-- The ledger refused a transfer. -/
def RouteDb.markFailed (db : RouteDb) (id : Uuid) (reason : String) : RouteDb :=
  match db.row? id with
  | some row =>
    if row.state = .pending then
      db.updateRow id fun r =>
        { r with state := .failed, failureReason := some reason, updatedAt := db.now }
    else db
  | none => db

/-- The posted sweeps without a route. -/
def RouteDb.unrouted (db : RouteDb) : List TransferRow :=
  db.transfers.filter fun s => s.terms.reason = .feeSweep ∧ s.state = .posted ∧
    db.installedOn ≤ s.updatedAt ∧ ¬ db.transfers.any fun r => r.feeRouteOf = some s.id

/-- The routes that failed for want of their destination. -/
def RouteDb.missingRoutes (db : RouteDb) : List Uuid :=
  (db.transfers.filter fun r => r.terms.reason = .feeRoute ∧ r.missing).map (·.id)

/-- **A failed route made pending again**, with its event, once its destination exists; whether it
was. -/
def RouteDb.reviveRoute (db : RouteDb) (id eventId : Uuid) : Except String (Bool × RouteDb) :=
  match (db.row? id).filter (·.missing) with
  | none => .ok (false, db)
  | some row =>
    match row.recorded with
    | .error _ => .error "corrupt row"
    | .ok t =>
      if (t.terms.toScope, t.terms.toLabel) ∈ db.accounts then
        .ok (true, ((db.updateRow id fun r =>
          { r with state := .pending, failureReason := none, updatedAt := db.now }).enqueueEvent
            eventId t).note (.revived id db.accounts))
      else .ok (false, db)

/-- The pending transfers untouched since `before`. -/
def RouteDb.staleTransfers (db : RouteDb) (before : Nat) : List Uuid :=
  (db.transfers.filter fun r => r.state = .pending ∧ r.updatedAt < before).map (·.id)

/-- One stale transfer's event put back on the outbox. -/
def RouteDb.redriveOne (db : RouteDb) (id eventId : Uuid) : Except String RouteDb :=
  match (db.row? id).filter (·.state = .pending) with
  | none => .ok db
  | some row =>
    match row.recorded with
    | .error _ => .error "corrupt row"
    | .ok t => .ok (db.enqueueEvent eventId t)

/-! ## The workers -/

/-- What the relay and the reaper ask. -/
inductive RouteOp
  | relay (op : RelayOp)
  | unrouted
  | routeSweptFee (sweep : Uuid) (scope : ScopeId) (amount : Nat)
  | missingRoutes
  | reviveRoute (id : Uuid)
  | staleTransfers (olderThan : Nat)
  | redriveOne (id : Uuid)

/-- What each is answered with. -/
@[reducible] def RouteOp.Ans : RouteOp → Type
  | .relay op => op.Ans
  | .unrouted => Except String (List (Uuid × ScopeId × Nat))
  | .missingRoutes | .staleTransfers _ => Except String (List Uuid)
  | .routeSweptFee .. => Except String Unit
  | .reviveRoute _ | .redriveOne _ => Except String Bool

/-- A worker's program; a failure ends it. -/
abbrev RouteProg (α : Type) : Type := Prog RouteOp RouteOp.Ans String α

/-- The relay's program among the workers'. -/
def relayed {ε α : Type} : Prog RelayOp RelayOp.Ans ε α → RouteProg Unit
  | .ret _ | .exit _ => .ret ()
  | .call op k => .call (.relay op) fun a => relayed (k a)

/-- One batch of the relay. -/
def relayBatch : RouteProg Unit := relayed drainBatch

/-- One operation. -/
def askRoute (op : RouteOp) : RouteProg op.Ans := Prog.ask op

/-- An answer with its failure passed on. -/
def orFail {α : Type} : Except String α → RouteProg α
  | .ok a => .ret a
  | .error e => .exit e

/-- What one pass over the routes did. -/
structure FeeRouteRepair where
  routed : Nat
  revived : Nat
  stuck : Nat
deriving DecidableEq, Repr

/-- Route each sweep; how many were. -/
def routeEach : List (Uuid × ScopeId × Nat) → RouteProg Nat
  | [] => .ret 0
  | (sweep, scope, amount) :: rest => do
    let routed : Except String Unit ← askRoute (.routeSweptFee sweep scope amount)
    let others ← routeEach rest
    pure (others + if routed.isOk then 1 else 0)

/-- Revive each route; how many were, and how many still cannot be. -/
def reviveEach : List Uuid → RouteProg (Nat × Nat)
  | [] => .ret (0, 0)
  | id :: rest => do
    let revived : Except String Bool ← askRoute (.reviveRoute id)
    let (done, stuck) ← reviveEach rest
    match revived with
    | .ok true => pure (done + 1, stuck)
    | .ok false => pure (done, stuck + 1)
    | .error _ => pure (done, stuck)

/-- **Make good what the route's own step could not.** -/
def redriveFeeRoutes : RouteProg FeeRouteRepair := do
  let unrouted ← orFail (← askRoute .unrouted)
  let routed ← routeEach unrouted
  let failed ← orFail (← askRoute .missingRoutes)
  let (revived, stuck) ← reviveEach failed
  pure ⟨routed, revived, stuck⟩

/-- Re-enqueue each stale transfer; how many were. -/
def redriveEach : List Uuid → RouteProg Nat
  | [] => .ret 0
  | id :: rest => do
    let redriven : Except String Bool ← askRoute (.redriveOne id)
    let others ← redriveEach rest
    pure (others + if redriven.toOption = some true then 1 else 0)

/-- Re-enqueue what nobody posted. -/
def redriveStaleTransfers (olderThan : Nat) : RouteProg Nat := do
  let stale ← orFail (← askRoute (.staleTransfers olderThan))
  redriveEach stale

end Banking
