import Banking.Subjects
import Banking.Lib.Pool
import Banking.Lib.Text

/-! # The lifecycle bridge

Concierge owns identity; banking mirrors the slice that gates money. One task pulls the lifecycle
events by position, applies each to the subject's row when its sequence advances the row's own, and
moves the cursor once a whole batch was taken. An event of a subject that has no row yet, or that
has an earlier event waiting, is parked and replayed later; one of a kind this build cannot name
stops the cursor. -/

namespace Banking

open Interactive

/-! ## Events -/

/-- The user's role. -/
inductive UserRole
  | investor
  | operator
  | admin
  | owner
deriving DecidableEq, Repr

/-- Its stored form. -/
def UserRole.asStr : UserRole → String
  | .investor => "investor"
  | .operator => "operator"
  | .admin => "admin"
  | .owner => "owner"

/-- The stored form read back. -/
def UserRole.parse (raw : String) : Except DomainError UserRole :=
  match raw with
  | "investor" => .ok .investor
  | "operator" => .ok .operator
  | "admin" => .ok .admin
  | "owner" => .ok .owner
  | other => .error (.validation s!"unknown role: {other}")

/-- The role of an event: what is empty or unknown is an investor's. -/
def UserRole.parseOrDefault (raw : String) : UserRole :=
  match UserRole.parse raw with
  | .ok role => role
  | .error _ => .investor

/-- The kinds of lifecycle events. -/
inductive LifecycleKind
  | created
  | suspended
  | reinstated
  | kycChanged
  | roleChanged
  | permissionsChanged
  | sessionsRevoked
deriving DecidableEq, Repr

/-- A lifecycle event as concierge sends it. -/
structure UserLifecycleEvent where
  eventId : String
  userId : String
  authSubject : String
  kind : Int
  sequence : BitVec 64
  email : String
  emailVerified : Bool
  kycLevel : BitVec 32
  role : String
  tokenVersion : BitVec 64
  occurredAt : Int
  seatPermissions : Option (List String)
deriving DecidableEq, Repr

/-- Its sequence as the tables hold it. -/
def UserLifecycleEvent.order (e : UserLifecycleEvent) : Int := e.sequence.toInt

/-- A batch of the stream. -/
structure PullUserLifecycleResponse where
  events : List UserLifecycleEvent
  nextPosition : Int
deriving DecidableEq, Repr

/-- How many events a pull asks for. -/
def Bridge.PULL_LIMIT : Nat := 256

/-- What the kinds on the wire stand for, those that stand for anything; how the standard library
spells a text in lower case; and which texts are user ids. -/
structure BridgeContract where
  kind : Int → Option LifecycleKind
  lowercase : String → String
  parseUuid : String → Option Uuid

/-- A build of the consumer, by the kinds its copy of the contract names. -/
structure BridgeBuild where
  names : Int → Bool

/-- The kind of an event, as a build reads it; none is what it cannot name. -/
def BridgeBuild.kind (build : BridgeBuild) (contract : BridgeContract) (e : UserLifecycleEvent) :
    Option LifecycleKind :=
  if build.names e.kind then contract.kind e.kind else none

/-! ## The tables -/

/-- A user's row: who it is, and what is mirrored. -/
structure UserRow where
  id : Uuid
  authSubject : String
  conciergeUserId : Option Uuid
  email : String
  emailVerified : Bool
  frozen : Bool
  kycLevel : Int
  role : String
  permissions : Option (List String)
  conciergeTokenVersion : Int
  lastLifecycleSequence : Int
deriving DecidableEq, Repr

/-- A parked event. -/
structure DeferredEvent where
  eventId : String
  authSubject : String
  kind : Int
  sequence : Int
  conciergeUserId : Option Uuid
  email : String
  emailVerified : Bool
  kycLevel : Int
  role : String
  tokenVersion : Int
  occurredAt : Int
  permissions : Option (List String)
deriving DecidableEq, Repr

/-- A change of the voting roster. -/
structure RosterEntry where
  userId : Uuid
  fromRole : String
  toRole : String
deriving DecidableEq, Repr

/-- The users, the parked events, the cursor and the roster's journal; with the events the consumer
was done with, by id, and those that changed a row, both newest first. -/
structure BridgeDb where
  users : List UserRow
  deferred : List DeferredEvent
  position : Int
  roster : List RosterEntry
  taken : List String
  applied : List UserLifecycleEvent

/-- The row of a subject. -/
def BridgeDb.user? (db : BridgeDb) (subject : String) : Option UserRow :=
  db.users.find? (·.authSubject = subject)

/-- An event parked: its columns. -/
def UserLifecycleEvent.parked (contract : BridgeContract) (e : UserLifecycleEvent) :
    DeferredEvent :=
  { eventId := e.eventId, authSubject := e.authSubject, kind := e.kind, sequence := e.order
    conciergeUserId := contract.parseUuid e.userId, email := e.email
    emailVerified := e.emailVerified, kycLevel := e.kycLevel.toInt, role := e.role
    tokenVersion := e.tokenVersion.toInt, occurredAt := e.occurredAt
    permissions := e.seatPermissions }

/-- The event read back from its columns. -/
def DeferredEvent.intoEvent (d : DeferredEvent) : UserLifecycleEvent :=
  { eventId := d.eventId, userId := (d.conciergeUserId.map (·.text)).getD ""
    authSubject := d.authSubject, kind := d.kind, sequence := BitVec.ofInt 64 d.sequence
    email := d.email, emailVerified := d.emailVerified, kycLevel := BitVec.ofInt 32 d.kycLevel
    role := d.role, tokenVersion := BitVec.ofInt 64 d.tokenVersion, occurredAt := d.occurredAt
    seatPermissions := d.permissions }

/-! ## One event's transaction -/

/-- An address, trimmed and in lower case, when it looks like one. -/
def parseEmail (contract : BridgeContract) (raw : String) : Except DomainError String :=
  let normalized := contract.lowercase (String.ofList (Text.trim raw.toList))
  if normalized.utf8ByteSize < 3 ∨ '@' ∉ normalized.toList then
    .error (.validation "email must contain '@'")
  else .ok normalized

/-- Whether an earlier event of the subject is parked. -/
def BridgeDb.blocked (db : BridgeDb) (subject : String) (sequence : Int) : Bool :=
  db.deferred.any fun d => d.authSubject = subject ∧ d.sequence < sequence

/-- The consumer is done with an event. -/
def BridgeDb.done (db : BridgeDb) (e : UserLifecycleEvent) : BridgeDb :=
  { db with taken := e.eventId :: db.taken }

/-- Park an event, once. -/
def BridgeDb.defer (db : BridgeDb) (contract : BridgeContract) (e : UserLifecycleEvent) :
    BridgeDb :=
  if db.deferred.any (·.eventId = e.eventId) then db.done e
  else BridgeDb.done { db with deferred := db.deferred ++ [e.parked contract] } e

/-- A change of who the owners are is journalled, and no other. -/
def BridgeDb.recordRosterChange (db : BridgeDb) (userId : Uuid) (fromRole toRole : String) :
    BridgeDb :=
  if fromRole = toRole ∨ fromRole ≠ UserRole.owner.asStr ∧ toRole ≠ UserRole.owner.asStr then db
  else { db with roster := ⟨userId, fromRole, toRole⟩ :: db.roster }

/-- The row a CREATED makes of a subject that has none. -/
def UserRow.seated (contract : BridgeContract) (id : Uuid) (e : UserLifecycleEvent) : UserRow :=
  { id, authSubject := e.authSubject, conciergeUserId := contract.parseUuid e.userId
    email := e.email, emailVerified := e.emailVerified, frozen := false
    kycLevel := e.kycLevel.toInt, role := (UserRole.parseOrDefault e.role).asStr
    permissions := e.seatPermissions, conciergeTokenVersion := 0
    lastLifecycleSequence := e.order }

/-- A CREATED of a subject that has no row makes it. -/
def BridgeDb.seat (db : BridgeDb) (contract : BridgeContract) (kind : LifecycleKind) (id : Uuid)
    (e : UserLifecycleEvent) : BridgeDb :=
  if kind = .created ∧ (db.user? e.authSubject).isNone then
    BridgeDb.recordRosterChange
      { db with users := UserRow.seated contract id e :: db.users, applied := e :: db.applied }
      id UserRole.investor.asStr (UserRole.parseOrDefault e.role).asStr
  else db

/-- Whether an event's profile still describes its subject: one just pulled does, a replayed one may
not. -/
inductive Freshness
  | live
  | stale
deriving DecidableEq, Repr

/-- The address of an event, when it is one. -/
def UserRow.refreshProfileSnapshot (contract : BridgeContract) (e : UserLifecycleEvent)
    (u : UserRow) : UserRow :=
  match parseEmail contract e.email with
  | .ok email => { u with email, emailVerified := e.emailVerified }
  | .error _ => u

/-- The permissions of an event, when it states them. -/
def UserRow.seatPermissions (e : UserLifecycleEvent) (u : UserRow) : UserRow :=
  match e.seatPermissions with
  | some bank => { u with permissions := some bank }
  | none => u

/-- What an event's kind changes, and the sequence. -/
def UserRow.applyKind (contract : BridgeContract) (kind : LifecycleKind) (e : UserLifecycleEvent)
    (u : UserRow) : UserRow :=
  match kind with
  | .created =>
    { u with
      kycLevel := e.kycLevel.toInt, role := (UserRole.parseOrDefault e.role).asStr
      lastLifecycleSequence := e.order
      conciergeUserId := u.conciergeUserId.or (contract.parseUuid e.userId) }
  | .suspended => { u with frozen := true, lastLifecycleSequence := e.order }
  | .reinstated => { u with frozen := false, lastLifecycleSequence := e.order }
  | .kycChanged => { u with kycLevel := e.kycLevel.toInt, lastLifecycleSequence := e.order }
  | .roleChanged =>
    { u with
      role := (UserRole.parseOrDefault e.role).asStr, lastLifecycleSequence := e.order }
  | .permissionsChanged => { u with lastLifecycleSequence := e.order }
  | .sessionsRevoked =>
    { u with
      conciergeTokenVersion := max u.conciergeTokenVersion e.tokenVersion.toInt
      lastLifecycleSequence := e.order }

/-- The row an event leaves. -/
def UserRow.mutated (contract : BridgeContract) (kind : LifecycleKind) (freshness : Freshness)
    (e : UserLifecycleEvent) (u : UserRow) : UserRow :=
  let refreshed := if freshness = .live then u.refreshProfileSnapshot contract e else u
  (refreshed.seatPermissions e).applyKind contract kind e

/-- An event that advances the row of its subject. -/
def BridgeDb.mutate (db : BridgeDb) (contract : BridgeContract) (kind : LifecycleKind)
    (freshness : Freshness) (e : UserLifecycleEvent) (u : UserRow) : BridgeDb :=
  let updated := u.mutated contract kind freshness e
  let db := { db with
    users := db.users.map fun r => if r.authSubject = e.authSubject then updated else r
    applied := e :: db.applied }
  match kind with
  | .created | .roleChanged => db.recordRosterChange u.id u.role updated.role
  | _ => db

/-- **Mirror an event**: none when its subject has no row; one that does not advance the row is
dropped as a redelivery. -/
def BridgeDb.mirror (db : BridgeDb) (contract : BridgeContract) (kind : LifecycleKind)
    (freshness : Freshness) (id : Uuid) (e : UserLifecycleEvent) : Option BridgeDb :=
  let seated := db.seat contract kind id e
  match seated.user? e.authSubject with
  | none => none
  | some u =>
    if e.order ≤ u.lastLifecycleSequence then some (seated.done e)
    else some ((seated.mutate contract kind freshness e u).done e)

/-- The parked events whose subjects have a row, each subject's in order. -/
def BridgeDb.replayable (db : BridgeDb) : List DeferredEvent :=
  (db.deferred.filter fun d => (db.user? d.authSubject).isSome).mergeSort fun a b =>
    a.authSubject < b.authSubject ∨ a.authSubject = b.authSubject ∧ a.sequence ≤ b.sequence

/-- A replayed event is parked no longer. -/
def BridgeDb.unpark (db : BridgeDb) (eventId : String) : BridgeDb :=
  { db with deferred := db.deferred.filter (·.eventId ≠ eventId) }

/-- The cursor moves on from where the batch was pulled, and never back. -/
def BridgeDb.advanceCursor (db : BridgeDb) (start next : Int) : BridgeDb :=
  if next ≤ start then db
  else if db.position = start then { db with position := next }
  else db

/-- **A sign-in**: an existing row takes the address, a subject that has none gets a row that
mirrors nothing yet. -/
def BridgeDb.provision (db : BridgeDb) (id : Uuid) (subject email : String)
    (emailVerified : Bool) : BridgeDb :=
  match db.user? subject with
  | some _ =>
    { db with users := db.users.map fun u =>
        if u.authSubject = subject then { u with email, emailVerified } else u }
  | none =>
    { db with users :=
        ⟨id, subject, none, email, emailVerified, false, 0, "investor", none, 0, 0⟩ :: db.users }

/-! ## The consumer -/

/-- What the consumer asks of the tables and of concierge. -/
inductive BridgeOp
  | cursor
  | pull (after : Int) (limit : Nat)
  | blocked (subject : String) (sequence : Int)
  | defer (e : UserLifecycleEvent)
  | mirror (kind : LifecycleKind) (freshness : Freshness) (e : UserLifecycleEvent)
  | parked
  | delete (eventId : String)
  | advance (start next : Int)

/-- What each is answered with. -/
@[reducible] def BridgeOp.Ans : BridgeOp → Type
  | .cursor => Except String Int
  | .pull _ _ => Except String PullUserLifecycleResponse
  | .blocked _ _ => Except String Bool
  | .mirror _ _ _ => Except String Bool
  | .parked => Except String (List DeferredEvent)
  | .defer _ | .delete _ | .advance _ _ => Except String Unit

/-- The consumer's programs; a failure ends the cycle. -/
abbrev BridgeProg (α : Type) : Type := Prog BridgeOp BridgeOp.Ans String α

/-- An answer, or the cycle's failure. -/
def orEnd {α : Type} : Except String α → BridgeProg α
  | .ok a => .ret a
  | .error e => .exit e

/-- What was done with an event. -/
inductive LifecycleOutcome
  | mirrored
  | parked
  | unreadable
deriving DecidableEq, Repr

/-- What one pull did. -/
structure Pull where
  progressed : Bool
  more : Bool
  wedged : Bool
deriving DecidableEq, Repr

/-- Nothing to consume. -/
def Pull.IDLE : Pull := ⟨false, false, false⟩

/-- A batch the cursor cannot move past. -/
def Pull.WEDGED : Pull := ⟨false, false, true⟩

/-- Park an event, and be done with it. -/
def parkEvent (e : UserLifecycleEvent) : BridgeProg LifecycleOutcome :=
  (Prog.ask (.defer e)).bind fun deferred => (orEnd deferred).bind fun _ => .ret .parked

/-- Mirror an event, or park it when its subject has no row. -/
def mirrorOrPark (kind : LifecycleKind) (freshness : Freshness) (e : UserLifecycleEvent) :
    BridgeProg LifecycleOutcome :=
  (Prog.ask (.mirror kind freshness e)).bind fun mirrored =>
    (orEnd mirrored).bind fun seated => if seated then .ret .mirrored else parkEvent e

/-- **Apply one event**: an earlier one of its subject still parked parks it too. -/
def applyEvent (build : BridgeBuild) (contract : BridgeContract) (freshness : Freshness)
    (e : UserLifecycleEvent) : BridgeProg LifecycleOutcome :=
  match build.kind contract e with
  | none => .ret .unreadable
  | some kind =>
    (Prog.ask (.blocked e.authSubject e.order)).bind fun answer =>
      (orEnd answer).bind fun blocked =>
        if blocked then parkEvent e else mirrorOrPark kind freshness e

/-- Apply a batch, in order, up to the first event the build cannot read; whether there was none. -/
def applyBatch (build : BridgeBuild) (contract : BridgeContract) :
    List UserLifecycleEvent → BridgeProg Bool
  | [] => .ret true
  | e :: rest => (applyEvent build contract .live e).bind fun outcome =>
    if outcome = .unreadable then .ret false else applyBatch build contract rest

/-- **Pull one batch from the cursor and apply it.** -/
def pullAndApply (build : BridgeBuild) (contract : BridgeContract) : BridgeProg Pull :=
  (Prog.ask .cursor).bind fun cursor => (orEnd cursor).bind fun after =>
  (Prog.ask (.pull after Bridge.PULL_LIMIT)).bind fun pulled => (orEnd pulled).bind fun response =>
  if response.events.isEmpty then .ret Pull.IDLE
  else (applyBatch build contract response.events).bind fun readable =>
    if readable = false then .ret Pull.WEDGED
    else if response.nextPosition ≤ after then .ret Pull.WEDGED
    else (Prog.ask (.advance after response.nextPosition)).bind fun advanced =>
      (orEnd advanced).bind fun _ =>
        .ret ⟨true, decide (Bridge.PULL_LIMIT ≤ response.events.length), false⟩

/-- Replay parked events; only what was mirrored is removed. -/
def replayEach (build : BridgeBuild) (contract : BridgeContract) :
    List DeferredEvent → BridgeProg Unit
  | [] => .ret ()
  | d :: rest => (applyEvent build contract .stale d.intoEvent).bind fun outcome =>
    if outcome = .mirrored then
      (Prog.ask (.delete d.eventId)).bind fun deleted =>
        (orEnd deleted).bind fun _ => replayEach build contract rest
    else replayEach build contract rest

/-- **Replay the parked events whose subjects now have a row.** -/
def replayDeferred (build : BridgeBuild) (contract : BridgeContract) : BridgeProg Unit :=
  (Prog.ask .parked).bind fun answer => (orEnd answer).bind (replayEach build contract)

/-- **Drain the backlog**, `n` batches of it at most. -/
def drainBridge (build : BridgeBuild) (contract : BridgeContract) : Nat → BridgeProg Unit
  | 0 => .ret ()
  | n + 1 => (pullAndApply build contract).bind fun pull =>
    (replayDeferred build contract).bind fun _ =>
      if pull.more then drainBridge build contract n else .ret ()

end Banking
