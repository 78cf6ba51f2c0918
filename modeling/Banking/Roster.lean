import Banking.Execution

/-! # Changes of the owner roster

The consilia of the fund beside the journal of its owners' comings and goings. A roster change is
journalled by the transaction that makes it, under the time that transaction began; a consilium is
opened by a call that reads the journal first and writes its row later, in a transaction of its own
with a time of its own. Votes, sweeps and executions go on between any two of these steps.

The database's times are in microseconds (`clock`); the code reads them in whole seconds. -/

namespace Banking

open Interactive (Prog)

/-! ## The cooling-off period -/

/-- A time of the database, as the code reads it: the nearest whole second. -/
def epochSecs (t : Int) : Int := (t + 500000) / 1000000

/-- How long a roster change keeps consilia from being opened: two days. -/
def ROSTER_COOLING_OFF_SECS : Int := 48 * 60 * 60

/-- The refusal of an opening, `remaining` seconds before the period lifts. -/
def coolingOffRefusal (kind : ConsiliumKind) (remaining : Int) : DomainError :=
  .conflict ("the owner roster changed less than " ++ toString (ROSTER_COOLING_OFF_SECS / 3600)
    ++ "h ago; a " ++ kind.noun
    ++ " consilium cannot be opened until the cooling-off period lifts in "
    ++ toString (remaining / 3600) ++ "h " ++ toString (remaining % 3600 / 60) ++ "m")

/-- Refuse to open a consilium in the shadow of a roster change. -/
def requireSettledRoster (kind : ConsiliumKind) (changedAt : Option Int) (now : Int) :
    Except DomainError Unit :=
  match changedAt with
  | none => .ok ()
  | some changedAt =>
    let liftsAt := saturatingAdd changedAt ROSTER_COOLING_OFF_SECS
    if liftsAt ≤ now then .ok () else .error (coolingOffRefusal kind (liftsAt - now))

/-! ## The world -/

/-- A consilium beside its effect's row, and when its row was written. -/
structure GovernedConsilium where
  stored : StoredConsilium
  effect : EffectRow
  written : Nat
  createdAt : Int

/-- An opening as it happened: when its row was written, the time the call took it to be, the last
roster change it had read of and the last there was. -/
structure Opening where
  createdAt : Int
  now : Int
  checked : Option Int
  lastChange : Option Int
deriving DecidableEq, Repr

/-- **The consilia and the roster's journal.** `openings`, `straddled` (open when a roster change
committed) and `spent` (its effect set about by a call) are for the proofs only. -/
structure RosterWorld where
  clock : Int
  owners : List UserId
  standings : Standings
  changes : List Int
  ids : List Uuid
  consilia : Uuid → Option GovernedConsilium
  openings : List Opening
  straddled : Uuid → Bool
  spent : Uuid → Bool

/-- The last roster change journalled. -/
def RosterWorld.lastRosterChangeAt (w : RosterWorld) : Option Int := w.changes.max?.map epochSecs

/-- What a call of `execute` reads of a consilium. -/
def RosterWorld.view (w : RosterWorld) (g : GovernedConsilium) : ExecWorld :=
  { stored := g.stored, standings := w.standings, rosterChangedAt := w.lastRosterChangeAt
    effect := g.effect, written := g.written }

/-- A consilium after something was done to what a call of `execute` reads of it. -/
def GovernedConsilium.after (g : GovernedConsilium) (e : ExecWorld) : GovernedConsilium :=
  { g with stored := e.stored, effect := e.effect, written := e.written }

/-- One consilium written back. -/
def RosterWorld.put (w : RosterWorld) (id : Uuid) (g : GovernedConsilium) : RosterWorld :=
  { w with consilia := Function.update w.consilia id (some g) }

/-- Whether a consilium is open. -/
def RosterWorld.isOpen (w : RosterWorld) (id : Uuid) : Bool :=
  (w.consilia id).any fun g => g.stored.row.state = .opened

/-- Whether an operation sets about a consilium's effect. -/
def ExecOp.produces : ExecOp → Bool
  | .recordApproval .. | .executeOrder | .recordValuation | .scheduleApproved .. | .issueUnits _
  | .seedFundCapital _ => true
  | _ => false

/-! ## Operations -/

/-- One transaction, or the beginning of one. -/
inductive RosterOp
  /-- A transaction begins: its time. -/
  | begin
  | lastRosterChangeAt
  | ownerRoster
  /-- The transaction begun at `createdAt` writes a consilium. The call took the time to be `now`
  and had read of the roster change `checked`. -/
  | insertConsilium (c : Consilium) (credentials : List VoterCredential) (effect : EffectRow)
      (createdAt now : Int) (checked : Option Int)
  /-- The transaction begun at `changedAt` changes the roster, and journals it. -/
  | insertRosterChange (changedAt : Int) (owners : List UserId) (standings : Standings)
  | dueToVoid (before : Int)
  | voidOne (id : Uuid) (time : Int)
  | execution (id : Uuid) (op : ExecOp)

/-- What an operation answers when it succeeds. -/
abbrev RosterOp.Res : RosterOp → Type
  | .begin => Int
  | .lastRosterChangeAt => Option Int
  | .ownerRoster => List UserId
  | .insertConsilium .. | .insertRosterChange .. => Unit
  | .dueToVoid _ => List Uuid
  | .voidOne .. => Bool
  | .execution _ op => op.Res

/-- What an operation answers. -/
abbrev RosterOp.Ans (op : RosterOp) : Type := Except DomainError op.Res

/-- A consilium after an operation of an execution of it. -/
def RosterWorld.executed (w : RosterWorld) (id : Uuid) (g : GovernedConsilium) (op : ExecOp)
    (e : ExecWorld) : RosterWorld :=
  { w.put id (g.after e) with
    spent := if op.produces then Function.update w.spent id true else w.spent }

/-- **What an operation does.** -/
def RosterOp.run : (op : RosterOp) → RosterWorld → op.Ans × RosterWorld
  | .begin, w => (.ok w.clock, w)
  | .lastRosterChangeAt, w => (.ok w.lastRosterChangeAt, w)
  | .ownerRoster, w => (.ok w.owners, w)
  | .insertConsilium c credentials effect createdAt now checked, w =>
    match w.consilia c.id with
    | some _ =>
      (.error (.conflict "a consilium is already open — cancel it before opening another"), w)
    | none =>
      match c.openOn credentials (epochSecs createdAt) with
      | .error e => (.error e, w)
      | .ok stored =>
        (.ok (),
          { w.put c.id { stored, effect, written := 0, createdAt } with
            ids := w.ids ++ [c.id]
            openings := ⟨createdAt, now, checked, w.lastRosterChangeAt⟩ :: w.openings })
  | .insertRosterChange changedAt owners standings, w =>
    (.ok (),
      { w with
        owners, standings
        changes := changedAt :: w.changes
        straddled := fun id => w.straddled id || w.isOpen id })
  | .dueToVoid before, w =>
    (.ok (w.ids.filter fun id => (w.consilia id).any fun g =>
      g.stored.row.state = .opened ∧ g.createdAt < before * 1000000), w)
  | .voidOne id time, w =>
    match w.consilia id with
    | none => (.error (.repository "consilium not found"), w)
    | some g =>
      match g.stored.voidOne w.standings time with
      | (answer, stored) => (answer, w.put id { g with stored })
  | .execution id op, w =>
    match w.consilia id with
    | none => (.error (.repository "consilium not found"), w)
    | some g =>
      match op.run (w.view g) with
      | (answer, e) => (answer, w.executed id g op e)

/-- An operation that something else may refuse: the one open consilium of a source, and what
refuses an execution's own. -/
def RosterOp.gated : RosterOp → Bool
  | .insertConsilium .. => true
  | .execution _ op => op.gated
  | _ => false

/-- **How an operation may be answered.** -/
inductive RosterStep (op : RosterOp) (w : RosterWorld) : op.Ans → RosterWorld → Prop
  /-- It was carried out. -/
  | done : RosterStep op w (op.run w).1 (op.run w).2
  /-- It was carried out, and its answer did not arrive. -/
  | lost (detail : String) : RosterStep op w (.error (.repository detail)) (op.run w).2
  /-- It was not carried out. -/
  | outage (detail : String) : RosterStep op w (.error (.repository detail)) w
  /-- It was refused. -/
  | refused (hgated : op.gated = true) (e : DomainError) : RosterStep op w (.error e) w

/-! ## Programs -/

/-- A program of a call. -/
abbrev RosterProg (α : Type) : Type := Prog RosterOp RosterOp.Ans DomainError α

/-- One operation whose error ends the call. -/
def RosterOp.query (op : RosterOp) : RosterProg op.Res :=
  (Prog.ask op).bind fun
    | .ok r => .ret r
    | .error e => .exit e

/-- **Open a consilium.** Every kind reads the journal before its owners and writes its row last;
the gates of its own that stand between refuse it or leave it as it is. -/
def openConsilium (id : Uuid) (terms : ConsiliumTerms) (payloadHash : List UInt8)
    (initiator : UserId) (mint : UserId → VoterCredential) (effect : EffectRow) (now : Int) :
    RosterProg Unit :=
  (RosterOp.query .lastRosterChangeAt).bind fun checked =>
    match requireSettledRoster terms.kind checked now with
    | .error e => .exit e
    | .ok () =>
      (RosterOp.query .ownerRoster).bind fun owners =>
        match Consilium.openOver id terms payloadHash initiator owners now with
        | .error e => .exit e
        | .ok c =>
          (RosterOp.query .begin).bind fun createdAt =>
            RosterOp.query
              (.insertConsilium c (c.eligible.map mint) effect createdAt now checked)

/-- Change the owner roster, with its journal entry. -/
def recordRosterChange (owners : List UserId) (standings : Standings) : RosterProg Unit :=
  (RosterOp.query .begin).bind fun changedAt =>
    RosterOp.query (.insertRosterChange changedAt owners standings)

/-- Void the consilia that were open across the last roster change. The second covers a change read
back as the second before it. -/
def voidOpenForRosterChange (now : Int) : RosterProg Unit :=
  (RosterOp.query .lastRosterChangeAt).bind fun
    | none => .ret ()
    | some changedAt =>
      (RosterOp.query (.dueToVoid (changedAt + 1))).bind
        (Prog.each fun id => (Prog.ask (RosterOp.voidOne id now)).bind fun _ => .ret ())

/-- A program of an execution, of one consilium among the others. -/
def onConsilium {α : Type} (id : Uuid) : ExecProg α → RosterProg α
  | .ret a => .ret a
  | .exit e => .exit e
  | .call op k => .call (.execution id op) fun a => onConsilium id (k a)

/-- The calls: openings, roster changes, sweeps and executions, each at its own time. -/
inductive IsRosterCall (sha256 : List UInt8 → List UInt8) : RosterProg Unit → Prop
  | opening (id : Uuid) (terms : ConsiliumTerms) (payloadHash : List UInt8) (initiator : UserId)
      (mint : UserId → VoterCredential) (effect : EffectRow) (now : Int) :
      IsRosterCall sha256 (openConsilium id terms payloadHash initiator mint effect now)
  | change (owners : List UserId) (standings : Standings) :
      IsRosterCall sha256 (recordRosterChange owners standings)
  | sweep (now : Int) : IsRosterCall sha256 (voidOpenForRosterChange now)
  | execution (id : Uuid) (now : Int) (fresh : Uuid) :
      IsRosterCall sha256 (onConsilium id (execute sha256 now fresh))

/-! ## The others -/

/-- What happens between two operations: the database's clock goes on, users are frozen, and a
consilium is voted on, withdrawn or expires, or its effect's row goes its own way. -/
inductive RosterEnv (digest : String → List UInt8) : RosterWorld → RosterWorld → Prop
  | tick (w : RosterWorld) {t : Int} (h : w.clock ≤ t) (hmax : t ≤ I64_MAX) :
      RosterEnv digest w { w with clock := t }
  | users (w : RosterWorld) (standings : Standings) : RosterEnv digest w { w with standings }
  | consilium (w : RosterWorld) {id : Uuid} {g : GovernedConsilium} (h : w.consilia id = some g)
      {e : ExecWorld} (henv : ExecEnv digest (w.view g) e) :
      RosterEnv digest w (w.put id (g.after e))

end Banking
