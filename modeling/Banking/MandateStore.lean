import Banking.Hold
import Banking.Mandates
import Banking.Relay
import Banking.Roster

/-! # What a client draws on a compartment

The rows one client has on one user's compartment: the mandates the user granted it, the holds it
placed with their captures and fills, and its charges. A draw, a grant and a revoke are each a
transaction of several statements, with the rows it has locked; what other operations do goes on
between any two of them. Times are the database's, in microseconds; a row is stamped with the start
of the transaction that writes it. -/

namespace Banking

/-! ## Rows -/

/-- How long the rolling caps of a mandate look back: 24 hours. -/
def MANDATE_WINDOW : Int := 24 * 60 * 60 * 1000000

/-- A capture of a hold, or a fill, as the caps count it. -/
structure CaptureRow where
  version : Nat
  amount : Nat
  createdAt : Int
deriving DecidableEq, Repr

/-- A hold as recorded, with the captures and the fills counted of it. `committedAt` is when its
transaction ended: no one knows its id before. -/
structure HoldRow where
  hold : Hold
  mandateId : Uuid
  createdAt : Int
  committedAt : Int
  captures : List CaptureRow
  bookFills : List CaptureRow
  ledgerRefused : Bool
deriving DecidableEq, Repr

/-- A charge as recorded. -/
structure ChargeRow where
  id : Uuid
  mandateId : Uuid
  amount : Nat
  state : MoveState
  createdAt : Int
deriving DecidableEq, Repr

/-- Whether the hold is active. -/
def HoldRow.isActive (r : HoldRow) : Bool := r.hold.progress.state = .active

/-- What of a hold placed in the window counts: all of it until it is released, then what was
captured. -/
def HoldRow.counted (r : HoldRow) : Nat :=
  match r.hold.progress.state with
  | .voided | .expired => r.hold.progress.captured
  | .active | .captured => r.hold.terms.amount

/-- An expiry no later than `limit`, by the shortening of a grant. -/
def HoldRow.shorten (r : HoldRow) (limit : Int) : HoldRow :=
  let expiresAt := some (min (r.hold.terms.expiresAt.getD limit) limit)
  { r with hold := { r.hold with terms := { r.hold.terms with expiresAt } } }

/-- The sum of what rows have after `since`. -/
def CaptureRow.since (since : Int) (rows : List CaptureRow) : Nat :=
  ((rows.filter fun c => since < c.createdAt).map (·.amount)).sum

/-! ## Transactions -/

/-- What a client asks to draw. -/
inductive Draw
  | reserve (id : Uuid) (amount ttlSeconds : Nat)
  | charge (id : Uuid) (amount : Nat)
deriving DecidableEq, Repr

/-- The operation the mandate must list for it. -/
def Draw.operation : Draw → MandateOperation
  | .reserve .. => .reserve
  | .charge .. => .charge

/-- How much of it. -/
def Draw.amount : Draw → Nat
  | .reserve _ amount _ => amount
  | .charge _ amount => amount

/-- How far a statement over the active holds has come: the ids it has yet to go to, and those it
has locked. -/
inductive Sweep
  | waiting
  | rows (todo locked : List Uuid)
deriving DecidableEq, Repr

/-- The hold rows a sweep has locked. -/
def Sweep.locked : Sweep → List Uuid
  | .waiting => []
  | .rows _ locked => locked

/-- A transaction under way. A draw was admitted under `mandate`; a grant has stamped the mandate
it replaces, and a revoke the one it ends. -/
inductive MandateTx
  | draw (startedAt : Int) (mandate : Mandate) (draw : Draw)
  | grant (startedAt : Int) (terms : MandateTerms) (replaces : Option Uuid) (sweep : Sweep)
  | revoke (startedAt : Int) (id : Uuid) (sweep : Sweep)
deriving DecidableEq

/-- The mandate row a transaction has locked. -/
def MandateTx.mandateRow : MandateTx → Option Uuid
  | .draw _ mandate _ => some mandate.id
  | .grant _ _ replaces _ => replaces
  | .revoke _ id _ => some id

/-- The hold rows a transaction has locked. -/
def MandateTx.holdRows : MandateTx → List Uuid
  | .draw .. => []
  | .grant _ _ _ sweep | .revoke _ _ sweep => sweep.locked

/-- Whether a transaction has the lock of every spender of the compartment. -/
def MandateTx.hasClaim : MandateTx → Bool
  | .draw .. => true
  | .grant .. | .revoke .. => false

/-- Whether a transaction has the lock of the user's grants to the client. -/
def MandateTx.hasGrants : MandateTx → Bool
  | .grant .. => true
  | .draw .. | .revoke .. => false

/-! ## The store -/

/-- One client's rows on one user's compartment, and the transactions under way on them. -/
structure MandateStore where
  user : UserId
  scope : ScopeId
  client : ClientId
  clock : Int
  mandates : List Mandate
  holds : List HoldRow
  charges : List ChargeRow
  txs : List MandateTx
deriving DecidableEq

/-- Nothing granted yet. -/
def MandateStore.empty (user : UserId) (scope : ScopeId) (client : ClientId) (clock : Int) :
    MandateStore :=
  ⟨user, scope, client, clock, [], [], [], []⟩

/-- Neither revoked nor replaced. -/
def Mandate.isCurrent (m : Mandate) : Bool := m.revokedAt.isNone && m.replacedAt.isNone

/-- The user's current mandate for the client. -/
def MandateStore.current (s : MandateStore) : Option Mandate := s.mandates.find? (·.isCurrent)

/-- What the client has drawn, to a statement of a transaction that began at `now`. -/
def MandateStore.usage (s : MandateStore) (now : Int) : MandateUsage :=
  let since := now - MANDATE_WINDOW
  let placed := s.holds.filter fun r => since < r.createdAt
  let older := s.holds.filter fun r => r.createdAt ≤ since
  let charged := s.charges.filter fun c => c.state ≠ .failed ∧ since < c.createdAt
  let active := s.holds.filter (·.isActive)
  { drawn24h := (placed.map (·.counted)).sum + CaptureRow.since since (older.flatMap (·.captures)) +
      (charged.map (·.amount)).sum
    outstanding :=
      (active.map fun r => r.hold.terms.amount - r.hold.progress.captured).sum
    bookFilled24h := CaptureRow.since since (s.holds.flatMap (·.bookFills)) }

/-- No transaction under way has the mandate's row locked. -/
def MandateStore.mandateFree (s : MandateStore) (id : Uuid) : Bool :=
  s.txs.all fun t => t.mandateRow ≠ some id

/-- No transaction under way has the hold's row locked. -/
def MandateStore.holdFree (s : MandateStore) (id : Uuid) : Bool :=
  s.txs.all fun t => id ∉ t.holdRows

/-- The hold with an id. -/
def MandateStore.findHold (s : MandateStore) (id : Uuid) : Option HoldRow :=
  s.holds.find? fun r => r.hold.id = id

/-- The store with one hold's row rewritten. -/
def MandateStore.updateHold (s : MandateStore) (id : Uuid) (f : HoldRow → HoldRow) :
    MandateStore :=
  { s with holds := s.holds.map fun r => if r.hold.id = id then f r else r }

/-! ## Draws -/

/-- A reserve or a charge as far as its admission: the compartment's claim lock taken, the current
mandate's row locked, the usage read, the draw admitted. Nothing else that may still refuse it
depends on the mandate. -/
def MandateStore.openDraw (s : MandateStore) (startedAt : Int) (draw : Draw) :
    Option MandateStore :=
  match s.current with
  | none => none
  | some mandate =>
    if startedAt ≤ s.clock ∧ (s.txs.all fun t => !t.hasClaim) ∧ s.mandateFree mandate.id ∧
        draw.amount ≠ 0 ∧
        mandate.admitDraw draw.operation draw.amount (s.usage startedAt) (epochSecs startedAt) then
      some { s with txs := .draw startedAt mandate draw :: s.txs }
    else none

/-- Its row inserted, and the transaction committed. -/
def MandateStore.recordDraw (s : MandateStore) (n : Nat) : Option MandateStore :=
  match s.txs[n]? with
  | some (.draw startedAt mandate (.reserve id amount ttlSeconds)) =>
    match s.findHold id with
    | some _ => none
    | none =>
      let expiresAt := mandate.holdExpiry ttlSeconds (epochSecs startedAt)
      match Hold.place id { scope := s.scope, user := s.user, amount, expiresAt } with
      | .error _ => none
      | .ok (hold, _) =>
        let row : HoldRow :=
          { hold
            mandateId := mandate.id
            createdAt := startedAt
            committedAt := s.clock
            captures := []
            bookFills := []
            ledgerRefused := false }
        some { s with holds := row :: s.holds, txs := s.txs.eraseIdx n }
  | some (.draw startedAt mandate (.charge id amount)) =>
    if s.charges.any (·.id = id) then none
    else
      let row : ChargeRow :=
        { id, mandateId := mandate.id, amount, state := .pending, createdAt := startedAt }
      some { s with charges := row :: s.charges, txs := s.txs.eraseIdx n }
  | _ => none

/-! ## Holds -/

/-- What is asked of a hold. -/
inductive HoldAsk
  | capture (amount : Option Nat) (target : HoldDestination)
  | void
  | expire
deriving DecidableEq, Repr

/-- The command it is, at a time. -/
def HoldAsk.command (now : Int) : HoldAsk → HoldCommand
  | .capture amount target => .capture amount target now
  | .void => .void now
  | .expire => .expire now

/-- Whether the captured money goes to another user. -/
def HoldAsk.isFill : HoldAsk → Bool
  | .capture _ (.user _) => true
  | _ => false

/-- Whether the mandates let it: a fill needs the one the hold was placed under and the current
one. -/
def MandateStore.admitsAsk (s : MandateStore) (r : HoldRow) (now : Int) (ask : HoldAsk) : Bool :=
  match ask with
  | .capture amount (.user _) =>
    match s.mandates.find? fun m => m.id = r.mandateId with
    | none => false
    | some placed =>
      placed.admitBookFill s.current (amount.getD r.hold.remaining) (s.usage now) (epochSecs now)
  | _ => true

/-- The row after a command changed its hold, with what was captured counted. -/
def HoldRow.changed (r : HoldRow) (now : Int) (isFill : Bool) (hold : Hold) : HoldRow :=
  let captured := hold.progress.captured - r.hold.progress.captured
  let rows : List CaptureRow :=
    if captured = 0 then [] else [⟨hold.progress.version, captured, now⟩]
  { r with
    hold
    captures := rows ++ r.captures
    bookFills := (if isFill then rows else []) ++ r.bookFills }

/-- A capture, a void, or the reaper's release of one hold, in a transaction that locks its row. It
was asked by someone who knows the hold's id. -/
def MandateStore.changeHold (s : MandateStore) (startedAt : Int) (id : Uuid) (ask : HoldAsk) :
    Option MandateStore :=
  match s.findHold id with
  | none => none
  | some r =>
    if s.holdFree id ∧ r.committedAt ≤ startedAt ∧ startedAt ≤ s.clock ∧
        s.admitsAsk r startedAt ask then
      match r.hold.apply (ask.command (epochSecs startedAt)) with
      | none => none
      | some (hold, _) =>
        some (s.updateHold id fun r => r.changed startedAt ask.isFill hold)
    else none

/-- The hold of a reservation the ledger did not place: voided with nothing captured. -/
def HoldRow.refused (r : HoldRow) : HoldRow :=
  let progress :=
    { r.hold.progress with captured := 0, state := .voided, version := r.hold.progress.version + 1 }
  { r with
    hold := { r.hold with progress }
    captures := []
    bookFills := []
    ledgerRefused := true }

/-- The relay parks a hold's reservation. -/
def MandateStore.parkRefusedReserve (s : MandateStore) (id : Uuid) : Option MandateStore :=
  if s.holdFree id then
    some (s.updateHold id fun r => if r.ledgerRefused then r else r.refused)
  else none

/-- The relay stamps a pending charge. -/
def MandateStore.markCharge (s : MandateStore) (id : Uuid) (state : MoveState) : MandateStore :=
  { s with charges := s.charges.map fun c =>
      if c.id = id ∧ c.state = .pending then { c with state } else c }

/-! ## Grants and revokes -/

/-- A grant as far as its first statement: the lock of the user's grants to the client taken, the
current mandate stamped. -/
def MandateStore.openGrant (s : MandateStore) (startedAt : Int) (terms : MandateTerms) :
    Option MandateStore :=
  if startedAt ≤ s.clock ∧ terms.user = s.user ∧ terms.scope = s.scope ∧ terms.client = s.client ∧
      terms.checkExpiry (epochSecs startedAt) = .ok () ∧ (s.txs.all fun t => !t.hasGrants) ∧
      s.current.all (fun m => s.mandateFree m.id) then
    some { s with txs := .grant startedAt terms (s.current.map (·.id)) .waiting :: s.txs }
  else none

/-- A revoke as far as its second statement: the mandate's row locked, and stamped when it is
current. One that is not is left as it is, and the revoke is done. -/
def MandateStore.openRevoke (s : MandateStore) (startedAt : Int) (id : Uuid) :
    Option MandateStore :=
  match s.mandates.find? fun m => m.id = id with
  | none => none
  | some mandate =>
    if startedAt ≤ s.clock ∧ s.mandateFree id then
      if mandate.isCurrent then some { s with txs := .revoke startedAt id .waiting :: s.txs }
      else some s
    else none

/-- The statement over the active holds begins: those it will go through. -/
def MandateStore.readHolds (s : MandateStore) (n : Nat) : Option MandateStore :=
  let found : Sweep := .rows ((s.holds.filter (·.isActive)).map (·.hold.id)) []
  match s.txs[n]? with
  | some (.grant startedAt terms replaces .waiting) =>
    if terms.expiresAt.isSome then
      some { s with txs := s.txs.set n (.grant startedAt terms replaces found) }
    else none
  | some (.revoke startedAt id .waiting) =>
    some { s with txs := s.txs.set n (.revoke startedAt id found) }
  | _ => none

/-- A sweep at the next hold: its row is locked, or passed over when it is no longer active. -/
def MandateStore.lockNext (s : MandateStore) : Sweep → Option Sweep
  | .rows (id :: todo) locked =>
    if s.holdFree id then
      if (s.findHold id).any (·.isActive) then some (.rows todo (id :: locked))
      else some (.rows todo locked)
    else none
  | _ => none

/-- The statement over the active holds goes on. -/
def MandateStore.lockHold (s : MandateStore) (n : Nat) : Option MandateStore :=
  match s.txs[n]? with
  | some (.grant startedAt terms replaces sweep) =>
    (s.lockNext sweep).map fun sweep =>
      { s with txs := s.txs.set n (.grant startedAt terms replaces sweep) }
  | some (.revoke startedAt id sweep) =>
    (s.lockNext sweep).map fun sweep =>
      { s with txs := s.txs.set n (.revoke startedAt id sweep) }
  | _ => none

/-- A grant inserts its mandate and commits: the holds it locked expire no later than it. -/
def MandateStore.commitGrant (s : MandateStore) (n : Nat) (id : Uuid) : Option MandateStore :=
  match s.txs[n]? with
  | some (.grant startedAt terms replaces sweep) =>
    let now := epochSecs startedAt
    let stamped := s.mandates.map fun m =>
      if replaces = some m.id then { m with replacedAt := some now } else m
    let mandate : Mandate :=
      { id, terms, createdAt := now, revokedAt := none, replacedAt := none }
    if s.mandates.any (·.id = id) then none
    else
      match terms.expiresAt, sweep with
      | none, .waiting =>
        some { s with mandates := mandate :: stamped, txs := s.txs.eraseIdx n }
      | some limit, .rows [] locked =>
        let holds := s.holds.map fun r => if r.hold.id ∈ locked then r.shorten limit else r
        some { s with mandates := mandate :: stamped, holds, txs := s.txs.eraseIdx n }
      | _, _ => none
  | _ => none

/-- A revoke releases the holds it locked and commits. -/
def MandateStore.commitRevoke (s : MandateStore) (n : Nat) : Option MandateStore :=
  match s.txs[n]? with
  | some (.revoke startedAt id (.rows [] locked)) =>
    let now := epochSecs startedAt
    let mandates := s.mandates.map fun m =>
      if m.id = id then { m with revokedAt := some now } else m
    let holds := s.holds.map fun r =>
      if r.hold.id ∈ locked then
        (r.hold.voidByUser now).elim r fun released => { r with hold := released.1 }
      else r
    some { s with mandates, holds, txs := s.txs.eraseIdx n }
  | _ => none

/-! ## Runs -/

/-- One step. -/
inductive MandateAct
  | tick (elapsed : Nat)
  | openDraw (startedAt : Int) (draw : Draw)
  | recordDraw (n : Nat)
  | changeHold (startedAt : Int) (id : Uuid) (ask : HoldAsk)
  | parkRefusedReserve (id : Uuid)
  | markPosted (id : Uuid)
  | markFailed (id : Uuid)
  | openGrant (startedAt : Int) (terms : MandateTerms)
  | openRevoke (startedAt : Int) (id : Uuid)
  | readHolds (n : Nat)
  | lockHold (n : Nat)
  | commitGrant (n : Nat) (id : Uuid)
  | commitRevoke (n : Nat)
  | abandon (n : Nat)
deriving DecidableEq

/-- What a step does, when it can be taken: a call that is refused, or that repeats a key, changes
nothing, and a transaction that is lost leaves nothing. -/
def MandateStore.step (s : MandateStore) : MandateAct → Option MandateStore
  | .tick elapsed => some { s with clock := s.clock + elapsed }
  | .openDraw startedAt draw => s.openDraw startedAt draw
  | .recordDraw n => s.recordDraw n
  | .changeHold startedAt id ask => s.changeHold startedAt id ask
  | .parkRefusedReserve id => s.parkRefusedReserve id
  | .markPosted id => some (s.markCharge id .posted)
  | .markFailed id => some (s.markCharge id .failed)
  | .openGrant startedAt terms => s.openGrant startedAt terms
  | .openRevoke startedAt id => s.openRevoke startedAt id
  | .readHolds n => s.readHolds n
  | .lockHold n => s.lockHold n
  | .commitGrant n id => s.commitGrant n id
  | .commitRevoke n => s.commitRevoke n
  | .abandon n => some { s with txs := s.txs.eraseIdx n }

/-- A run of steps. -/
def MandateStore.run (s : MandateStore) (acts : List MandateAct) : Option MandateStore :=
  acts.foldlM MandateStore.step s

/-- What is reached from nothing granted, whatever is done and in whatever order. -/
def MandateStore.Reached (s : MandateStore) : Prop :=
  ∃ user scope client clock acts, (MandateStore.empty user scope client clock).run acts = some s

end Banking
