import Banking.ChartKeys
import Banking.Operations
import Banking.Lib.Pool

/-! # The scope registry follows concierge's stream

Concierge announces every change of a scope as a whole snapshot with the scope's own version. One
consumer pulls the stream by position, applies what its build can read, parks the rest by position
and moves its cursor once a whole page was applied or parked; a later build pulls each parked
position again. What a scope takes in is decided by the registry this keeps. -/

namespace Banking

open Interactive

/-! ## Events -/

/-- A scope as concierge sends it. -/
structure ScopeSnapshot where
  id : String
  displayName : String
  version : Nat
  state : Int
deriving DecidableEq, Repr

/-- One row of the stream. -/
structure ScopeEvent where
  eventId : String
  position : Int
  scope : String
  kind : Int
  scopeSnapshot : Option ScopeSnapshot
deriving DecidableEq, Repr

/-- A page of the stream. -/
structure ScopeEventsPage where
  events : List ScopeEvent
  nextPosition : Int
deriving DecidableEq, Repr

/-- The kinds of events banking knows of. -/
inductive ScopeEventKind
  | scopeChanged
  | grantsChanged
  | memberJoined
deriving DecidableEq, Repr

/-- What the numbers on the wire stand for; the unspecified ones and those nobody assigned stand for
nothing. -/
structure ScopeContract where
  kind : Int → Option ScopeEventKind
  state : Int → Option ScopeState

/-- A build of the consumer: the numbers its copy of the contract names. -/
structure ScopeBuild where
  namesKind : Int → Bool
  namesState : Int → Bool

/-- The kind a build reads. -/
def ScopeBuild.kind (b : ScopeBuild) (contract : ScopeContract) (wire : Int) :
    Option ScopeEventKind := if b.namesKind wire then contract.kind wire else none

/-- The state a build reads. -/
def ScopeBuild.state (b : ScopeBuild) (contract : ScopeContract) (wire : Int) : Option ScopeState :=
  if b.namesState wire then contract.state wire else none

/-- `scopes.display_name`'s CHECK. -/
def MAX_DISPLAY_NAME_CHARS : Nat := 128

/-- `min_kyc_level` of a scope nobody has set a policy for: no tier reaches it. -/
def CLOSED_UNTIL_SET_KYC : Nat := 2 ^ 31 - 1

/-- The name a scope is shown under. -/
def ScopeSnapshot.shownName (s : ScopeSnapshot) : String :=
  if 1 ≤ s.displayName.length ∧ s.displayName.length ≤ MAX_DISPLAY_NAME_CHARS then s.displayName
  else s.id

/-- What a build makes of an event before it looks at the registry. -/
inductive ScopeReading
  | ignore
  | park (reason : String)
  | snapshot (id : ScopeId) (version : Nat) (state : Option ScopeState) (displayName : String)
deriving DecidableEq, Repr

/-- The checks of a snapshot, in their order. -/
def ScopeBuild.readScope (b : ScopeBuild) (contract : ScopeContract) (event : ScopeEvent)
    (snapshot : ScopeSnapshot) : ScopeReading :=
  if snapshot.id = "main" then .ignore
  else if snapshot.id ≠ event.scope then .park "SCOPE_CHANGED whose snapshot names another scope"
  else
    match ScopeId.parse snapshot.id with
    | .error _ => .park "a scope id outside banking's format"
    | .ok id =>
      if 2 ^ 63 ≤ snapshot.version then .park "a scope version past BIGINT"
      else .snapshot id snapshot.version (b.state contract snapshot.state) snapshot.shownName

/-- What a build makes of an event. -/
def ScopeBuild.read (b : ScopeBuild) (contract : ScopeContract) (event : ScopeEvent) :
    ScopeReading :=
  match b.kind contract event.kind with
  | some .scopeChanged =>
    match event.scopeSnapshot with
    | some snapshot => b.readScope contract event snapshot
    | none => .park "SCOPE_CHANGED without its scope snapshot"
  | some .grantsChanged | some .memberJoined => .ignore
  | none => .park "a scope event kind this build cannot name"

/-! ## The registry -/

/-- A row of `scopes`. -/
structure ScopeRow where
  state : ScopeState
  displayName : String
  version : Nat
deriving DecidableEq, Repr

/-- A row of `scope_events_parked`. -/
structure ParkedScopeEvent where
  position : Int
  eventId : String
  scope : String
  kind : Int
  reason : String
deriving DecidableEq, Repr

/-- What the consumer reads and writes. -/
structure ScopeDb where
  scopes : ScopeId → Option ScopeRow
  minKycLevel : ScopeId → Option Nat
  feeOwner : ScopeId → Option String
  parked : List ParkedScopeEvent
  position : Int
  lastEventId : Option String

/-- What became of an event. -/
inductive ScopeOutcome
  | applied
  | ignored
  | parked
deriving DecidableEq, Repr

/-- An insert that leaves a row already there alone. -/
def insertNew {α : Type} (rows : ScopeId → Option α) (id : ScopeId) (row : α) :
    ScopeId → Option α := fun id' => if id' = id then (rows id).or (some row) else rows id'

/-- A row of `scopes` written. -/
def ScopeDb.setScope (db : ScopeDb) (id : ScopeId) (row : ScopeRow) : ScopeDb :=
  { db with scopes := fun id' => if id' = id then some row else db.scopes id' }

/-- A scope banking has not seen, with a policy closed to moves in and banking's fee collector;
whether its row is new. -/
def ScopeDb.register (db : ScopeDb) (id : ScopeId) (state : ScopeState) (displayName : String)
    (version : Nat) : Bool × ScopeDb :=
  ((db.scopes id).isNone,
    { db with
      scopes := insertNew db.scopes id ⟨state, displayName, version⟩
      minKycLevel := insertNew db.minKycLevel id CLOSED_UNTIL_SET_KYC
      feeOwner := insertNew db.feeOwner id "banking" })

/-- An event recorded for a build that can read it; a position is recorded once. -/
def ScopeDb.park (db : ScopeDb) (event : ScopeEvent) (reason : String) : ScopeDb :=
  if db.parked.any (·.position = event.position) then db
  else { db with
    parked := ⟨event.position, event.eventId, event.scope, event.kind, reason⟩ :: db.parked }

/-- The reason an event with an unreadable state is parked for. -/
def UNNAMED_STATE : String := "a scope state this build cannot name"

/-- A row frozen where it takes money in. -/
def ScopeDb.failClosed (db : ScopeDb) (id : ScopeId) (row : ScopeRow) : ScopeDb :=
  if row.state = .active then db.setScope id { row with state := .frozen } else db

/-- A snapshot against the row it is about. -/
def ScopeDb.applyScope (db : ScopeDb) (event : ScopeEvent) (id : ScopeId) (version : Nat)
    (state : Option ScopeState) (displayName : String) : ScopeOutcome × ScopeDb :=
  match db.scopes id, state with
  | none, state =>
    -- registered taking nothing in, at version 0 so that the replay applies
    let (written, version) := (state.map fun state => (state, version)).getD (.frozen, 0)
    let (inserted, registered) := db.register id written displayName version
    if !inserted then (.ignored, registered)
    else if state.isNone then (.parked, registered.park event UNNAMED_STATE)
    else (.applied, registered)
  | some row, state =>
    if version = row.version then (.ignored, db)
    else if version < row.version then (.ignored, db)
    else
      match state with
      | none => (.parked, (db.failClosed id row).park event UNNAMED_STATE)
      | some state =>
        -- a closed scope is not reopened
        let written := if row.state = .closed ∧ state ≠ .closed then .closed else state
        (.applied, db.setScope id ⟨written, displayName, version⟩)

/-- What a build does with one event. -/
def ScopeDb.apply (db : ScopeDb) (contract : ScopeContract) (b : ScopeBuild) (event : ScopeEvent) :
    ScopeOutcome × ScopeDb :=
  match b.read contract event with
  | .ignore => (.ignored, db)
  | .park reason => (.parked, db.park event reason)
  | .snapshot id version state displayName => db.applyScope event id version state displayName

/-- A parked row dropped. -/
def ScopeDb.unpark (db : ScopeDb) (position : Int) : ScopeDb :=
  { db with parked := db.parked.filter fun row => row.position ≠ position }

/-- The cursor moves only from where the page was pulled. -/
def ScopeDb.advanceCursor (db : ScopeDb) (start next : Int) (eventId : String) : ScopeDb :=
  if db.position = start then { db with position := next, lastEventId := some eventId } else db

/-! ## Pages -/

/-- The first position not after the one before it. -/
def positionFault (after : Int) : Int → List ScopeEvent → Except String Int
  | previous, [] => .ok previous
  | previous, event :: events =>
    if event.position ≤ previous then
      .error (if previous = after then "an event at or before the cursor"
        else "positions that do not strictly increase")
    else positionFault after event.position events

/-- What makes a page unusable. -/
def pageFault (after : Int) (page : ScopeEventsPage) : Option String :=
  match positionFault after after page.events with
  | .error fault => some fault
  | .ok last =>
    if page.nextPosition ≠ last then
      some (if page.events.isEmpty then "an empty page that moves the cursor"
        else "a next_position other than the last event's")
    else none

/-! ## The consumer -/

/-- Why a call failed. -/
inductive ScopeFault
  | unimplemented
  | failed
deriving DecidableEq, Repr

/-- What the consumer asks concierge, its database and its lock's session. -/
inductive ScopeOp
  | pull (after : Int) (limit : Nat)
  | cursor
  | apply (b : ScopeBuild) (event : ScopeEvent)
  | advanceCursor (start next : Int) (eventId : String)
  | notePulled
  | noteUnimplemented
  | parked
  | parkedTotal
  | touchParked (position : Int)
  | unpark (position : Int)
  | stillHeld
  | checkDue

/-- What each answers with. -/
abbrev ScopeOp.Reply : ScopeOp → Type
  | .pull _ _ => ScopeEventsPage
  | .cursor => Int × Option String
  | .apply _ _ => ScopeOutcome
  | .parked => List (Int × String)
  | .parkedTotal => Nat
  | .stillHeld | .checkDue => Bool
  | .advanceCursor _ _ _ | .notePulled | .noteUnimplemented | .touchParked _ | .unpark _ => Unit

/-- Any of them may fail. -/
abbrev ScopeOp.Ans (op : ScopeOp) : Type := Except ScopeFault op.Reply

abbrev ScopeProg (α : Type) : Type := Prog ScopeOp ScopeOp.Ans ScopeFault α

/-- An operation with its failure passed on. -/
def askScope (op : ScopeOp) : ScopeProg op.Reply :=
  .call op fun answer => match answer with
    | .ok reply => .ret reply
    | .error fault => .exit fault

/-- An operation whose failure is only reported. -/
def noteScope (op : ScopeOp) : ScopeProg Unit := .call op fun _ => .ret ()

/-- Rows requested per pull. -/
def PULL_LIMIT : Nat := 256

/-- The events of a page, in order. -/
def ScopeBuild.applyAll (b : ScopeBuild) (events : List ScopeEvent) : ScopeProg Unit :=
  Prog.each (fun event => (askScope (.apply b event)).bind fun _ => .ret ()) events

/-- One page pulled, applied and passed; whether there may be more. -/
def ScopeBuild.pullAndApply (b : ScopeBuild) : ScopeProg Bool := do
  let (after, _) ← askScope .cursor
  let page ← askScope (.pull after PULL_LIMIT)
  match pageFault after page, page.events.getLast? with
  | some _, _ => return false
  | none, none =>
    askScope .notePulled
    return false
  | none, some last =>
    b.applyAll page.events
    askScope (.advanceCursor after page.nextPosition last.eventId)
    let _ ← askScope .parkedTotal
    return decide (PULL_LIMIT ≤ page.events.length)

/-- Pages until a short one; `pages` bounds how many. -/
def ScopeBuild.drain (b : ScopeBuild) : Nat → ScopeProg Unit
  | 0 => return
  | pages + 1 => do
    if ← b.pullAndApply then b.drain pages

/-- A parked position pulled again and applied if it can be read now. -/
def ScopeBuild.replayOne (b : ScopeBuild) (position : Int) (eventId : String) : ScopeProg Unit := do
  let page ← askScope (.pull (position - 1) 1)
  match page.events.head?.filter fun e => e.position = position ∧ e.eventId = eventId with
  | none => askScope (.touchParked position)
  | some event =>
    if (← askScope (.apply b event)) = .parked then askScope (.touchParked position)
    else askScope (.unpark position)

/-- Every parked position; how many could not be pulled or written. -/
def ScopeBuild.replayEach (b : ScopeBuild) : List (Int × String) → ScopeProg Nat
  | [] => return 0
  | (position, eventId) :: rest => do
    match ← (b.replayOne position eventId).outcome with
    | .ok () => b.replayEach rest
    | .error _ =>
      noteScope (.touchParked position)
      return (← b.replayEach rest) + 1

/-- The parked rows replayed. -/
def ScopeBuild.replayParked (b : ScopeBuild) : ScopeProg Nat := do
  b.replayEach (← askScope .parked)

/-- The replay of a tenure, pending until one left nothing unresolved. -/
def ScopeBuild.replayOnce (b : ScopeBuild) (replayed : Bool) : ScopeProg Bool :=
  if replayed then return true
  else do
    let unresolved ← b.replayParked.outcome
    return unresolved.toOption = some 0

/-- Whether concierge still holds the event the cursor stands on. -/
def checkContinuity : ScopeProg Bool := do
  match ← askScope .cursor with
  | (0, _) | (_, none) => return true
  | (position, some expected) =>
    let page ← askScope (.pull (position - 1) 1)
    return page.events.head?.any fun e => e.position = position ∧ e.eventId = expected

/-- The last verdict on the event under the cursor. -/
inductive Continuity
  | unchecked
  | intact
  | broken
deriving DecidableEq, Repr

/-- A failed cycle, with concierge's UNIMPLEMENTED noted. -/
def noteFailure : Except ScopeFault Unit → ScopeProg Unit
  | .error .unimplemented => noteScope .noteUnimplemented
  | .error .failed | .ok () => return

/-- The re-check of the stream, and what it failed with. -/
def Continuity.recheck (continuity : Continuity) :
    ScopeProg (Continuity × Except ScopeFault Unit) := do
  let due ← (askScope .checkDue).outcome
  if continuity = .unchecked ∨ due = .ok true then
    match ← checkContinuity.outcome with
    | .ok true => return (.intact, .ok ())
    | .ok false => return (.broken, .ok ())
    | .error fault => return (continuity, .error fault)
  else return (continuity, .ok ())

/-- The stream drained where it is intact, and what failed noted. -/
def ScopeBuild.drainIntact (b : ScopeBuild) (pages : Nat) :
    Continuity → Except ScopeFault Unit → ScopeProg Unit
  | .intact, .ok () => do noteFailure (← (b.drain pages).outcome)
  | _, checked => noteFailure checked

/-- The consumer under its lock: `cycles` bounds its cycles and the pages of each. -/
def ScopeBuild.follow (b : ScopeBuild) : Nat → Bool → Continuity → ScopeProg Unit
  | 0, _, _ => return
  | cycles + 1, replayed, continuity => do
    let replayed ← b.replayOnce replayed
    let (continuity, checked) ← continuity.recheck
    b.drainIntact cycles continuity checked
    if ← askScope .stillHeld then b.follow cycles replayed continuity

end Banking
