import Banking.ScopeEvents

/-! # Scope snapshots converge

What one event does to the registry, said once (`ScopeDb.applied`); what follows for one row: an
older snapshot changes nothing, a closed scope stays closed, an unreadable one freezes. Over runs
of any number of builds, with every call failing or losing its answer anywhere: the cursor passes
only what was applied, parked or ignored, a parked event stays recorded until a build read it, and
where none is parked each row is its newest snapshot's. -/

namespace Banking

open Interactive

/-! ## What one event does -/

/-- A version newer than the stored one, if there is any. -/
def ScopeDb.Newer (db : ScopeDb) (id : ScopeId) (version : Nat) : Prop :=
  ∀ row, db.scopes id = some row → row.version < version

/-- What a build does with an event, by what it reads in it and what is stored. -/
inductive ScopeDb.Applied (contract : ScopeContract) (b : ScopeBuild) (event : ScopeEvent)
    (db : ScopeDb) : ScopeOutcome → ScopeDb → Prop
  | nothing (h : b.read contract event = .ignore) : Applied contract b event db .ignored db
  | unread (reason : String) (h : b.read contract event = .park reason) :
      Applied contract b event db .parked (db.park event reason)
  | stale {id : ScopeId} {version : Nat} {state : Option ScopeState} {displayName : String}
      {row : ScopeRow} (h : b.read contract event = .snapshot id version state displayName)
      (hrow : db.scopes id = some row) (hle : version ≤ row.version) :
      Applied contract b event db .ignored db
  | registered {id : ScopeId} {version : Nat} {state : ScopeState} {displayName : String}
      (h : b.read contract event = .snapshot id version (some state) displayName)
      (hrow : db.scopes id = none) :
      Applied contract b event db .applied (db.register id state displayName version).2
  | withheldNew {id : ScopeId} {version : Nat} {displayName : String}
      (h : b.read contract event = .snapshot id version none displayName)
      (hrow : db.scopes id = none) :
      Applied contract b event db .parked
        ((db.register id .frozen displayName 0).2.park event UNNAMED_STATE)
  | withheld {id : ScopeId} {version : Nat} {displayName : String} {row : ScopeRow}
      (h : b.read contract event = .snapshot id version none displayName)
      (hrow : db.scopes id = some row) (hlt : row.version < version) :
      Applied contract b event db .parked ((db.failClosed id row).park event UNNAMED_STATE)
  | written {id : ScopeId} {version : Nat} {state : ScopeState} {displayName : String}
      {row : ScopeRow} (h : b.read contract event = .snapshot id version (some state) displayName)
      (hrow : db.scopes id = some row) (hlt : row.version < version) :
      Applied contract b event db .applied (db.setScope id
        ⟨if row.state = .closed ∧ state ≠ .closed then .closed else state, displayName, version⟩)

section Steps

variable {contract : ScopeContract} {b : ScopeBuild} {event : ScopeEvent} {db : ScopeDb}

/-- **What one event does.** -/
theorem ScopeDb.applied (contract : ScopeContract) (b : ScopeBuild) (event : ScopeEvent)
    (db : ScopeDb) :
    ScopeDb.Applied contract b event db (db.apply contract b event).1
      (db.apply contract b event).2 := by
  unfold ScopeDb.apply
  cases hread : b.read contract event with
  | ignore => exact .nothing hread
  | park reason => exact .unread reason hread
  | snapshot id version state displayName =>
    simp only [ScopeDb.applyScope]
    cases hrow : db.scopes id with
    | none =>
      cases state with
      | none =>
        simpa [ScopeDb.register, hrow] using Applied.withheldNew hread hrow
      | some state =>
        simpa [ScopeDb.register, hrow] using Applied.registered hread hrow
    | some row =>
      by_cases heq : version = row.version
      · simpa [heq] using Applied.stale hread hrow heq.le
      · by_cases hlt : version < row.version
        · simpa [heq, hlt] using Applied.stale hread hrow hlt.le
        · have hnewer : row.version < version := by omega
          cases state with
          | none => simpa [heq, hlt] using Applied.withheld hread hrow hnewer
          | some state => simpa [heq, hlt] using Applied.written hread hrow hnewer

@[simp] theorem ScopeDb.scopes_park (reason : String) :
    (db.park event reason).scopes = db.scopes := by
  unfold ScopeDb.park
  split <;> rfl

@[simp] theorem ScopeDb.position_park (reason : String) :
    (db.park event reason).position = db.position := by
  unfold ScopeDb.park
  split <;> rfl

@[simp] theorem ScopeDb.position_failClosed (id : ScopeId) (row : ScopeRow) :
    (db.failClosed id row).position = db.position := by
  unfold ScopeDb.failClosed
  split <;> rfl

@[simp] theorem ScopeDb.parked_failClosed (db : ScopeDb) (id : ScopeId) (row : ScopeRow) :
    (db.failClosed id row).parked = db.parked := by
  unfold ScopeDb.failClosed
  split <;> rfl

theorem ScopeDb.scopes_setScope (id id' : ScopeId) (row : ScopeRow) :
    (db.setScope id row).scopes id' = if id' = id then some row else db.scopes id' := rfl

/-- A scope registered: its own row, and no other. -/
theorem ScopeDb.scopes_register {id : ScopeId} (hrow : db.scopes id = none) (id' : ScopeId)
    (state : ScopeState) (displayName : String) (version : Nat) :
    (db.register id state displayName version).2.scopes id' =
      if id' = id then some ⟨state, displayName, version⟩ else db.scopes id' := by
  simp only [ScopeDb.register, insertNew, hrow, Option.none_or]

/-- A scope failed closed takes nothing in. -/
theorem ScopeDb.scopes_failClosed {id : ScopeId} {row : ScopeRow}
    (hrow : db.scopes id = some row) (id' : ScopeId) :
    (db.failClosed id row).scopes id' =
      if id' = id then
        some { row with state := if row.state = .active then .frozen else row.state }
      else db.scopes id' := by
  unfold ScopeDb.failClosed
  split_ifs with hactive hid hid
  · rw [hid]
    exact if_pos rfl
  · exact if_neg hid
  · rw [hid, hrow]
  · rfl

/-- A position parked is in the table, whoever put it there. -/
theorem ScopeDb.mem_park (reason : String) :
    ∃ row ∈ (db.park event reason).parked, row.position = event.position := by
  unfold ScopeDb.park
  split_ifs with h
  · simpa using h
  · exact ⟨_, List.mem_cons_self, rfl⟩

/-- And nothing leaves the table by it. -/
theorem ScopeDb.parked_subset_park (db : ScopeDb) (reason : String) :
    db.parked ⊆ (db.park event reason).parked := by
  unfold ScopeDb.park
  split_ifs
  · exact List.Subset.refl _
  · exact List.subset_cons_self _ _

/-- **An event leaves the cursor and the parked rows where they are**, itself apart. -/
theorem ScopeDb.apply_frame (contract : ScopeContract) (b : ScopeBuild) (event : ScopeEvent)
    (db : ScopeDb) :
    (db.apply contract b event).2.position = db.position ∧
      db.parked ⊆ (db.apply contract b event).2.parked := by
  have h := ScopeDb.applied contract b event db
  generalize (db.apply contract b event).1 = outcome, (db.apply contract b event).2 = db' at h
  cases h with
  | nothing | stale => exact ⟨rfl, List.Subset.refl _⟩
  | unread reason => exact ⟨db.position_park reason, db.parked_subset_park reason⟩
  | registered | written => exact ⟨rfl, List.Subset.refl _⟩
  | @withheldNew id _ displayName =>
    exact ⟨ScopeDb.position_park _,
      ScopeDb.parked_subset_park (db.register id .frozen displayName 0).2 _⟩
  | withheld =>
    refine ⟨(ScopeDb.position_park _).trans (ScopeDb.position_failClosed _ _), ?_⟩
    exact fun row hrow => ScopeDb.parked_subset_park _ _
      ((db.parked_failClosed _ _).symm ▸ hrow)

/-- An event parked is in the table. -/
theorem ScopeDb.mem_parked_apply (h : (db.apply contract b event).1 = .parked) :
    ∃ row ∈ (db.apply contract b event).2.parked, row.position = event.position := by
  have happlied := ScopeDb.applied contract b event db
  rw [h] at happlied
  generalize (db.apply contract b event).2 = db' at happlied
  cases happlied with
  | unread reason => exact ScopeDb.mem_park reason
  | withheldNew => exact ScopeDb.mem_park _
  | withheld => exact ScopeDb.mem_park _

/-- **How a row changes**: not at all; by an unreadable newer snapshot, which leaves it taking
nothing in; or by a readable newer one, which writes it. -/
inductive RowChange (contract : ScopeContract) (b : ScopeBuild) (event : ScopeEvent) (db : ScopeDb)
    (id : ScopeId) : Option ScopeRow → Prop
  | kept (h : ∀ version displayName,
      b.read contract event = .snapshot id version none displayName → ¬ db.Newer id version) :
      RowChange contract b event db id (db.scopes id)
  | opened {version : Nat} {displayName : String}
      (h : b.read contract event = .snapshot id version none displayName)
      (hrow : db.scopes id = none) :
      RowChange contract b event db id (some ⟨.frozen, displayName, 0⟩)
  | failedClosed {version : Nat} {displayName : String} {row : ScopeRow}
      (h : b.read contract event = .snapshot id version none displayName)
      (hrow : db.scopes id = some row) (hlt : row.version < version) :
      RowChange contract b event db id
        (some { row with state := if row.state = .active then .frozen else row.state })
  | written {version : Nat} {state written : ScopeState} {displayName : String}
      (h : b.read contract event = .snapshot id version (some state) displayName)
      (hnewer : db.Newer id version)
      (hstate : written = state ∨
        written = .closed ∧ ∃ row, db.scopes id = some row ∧ row.state = .closed)
      (hclosed : ∀ row, db.scopes id = some row → row.state = .closed → written = .closed) :
      RowChange contract b event db id (some ⟨written, displayName, version⟩)

/-- **One row under one event.** -/
theorem ScopeDb.rowChange (contract : ScopeContract) (b : ScopeBuild) (event : ScopeEvent)
    (db : ScopeDb) (id : ScopeId) :
    RowChange contract b event db id ((db.apply contract b event).2.scopes id) := by
  have happlied := ScopeDb.applied contract b event db
  generalize (db.apply contract b event).1 = outcome, (db.apply contract b event).2 = db'
    at happlied
  have hother : ∀ {id' : ScopeId} {version : Nat} {state : Option ScopeState}
      {displayName : String}, b.read contract event = .snapshot id' version state displayName →
      id ≠ id' → RowChange contract b event db id (db.scopes id) := by
    intro id' version state displayName h hne
    refine .kept fun version' displayName' h' => ?_
    rw [h] at h'
    cases h'
    exact absurd rfl hne
  cases happlied with
  | nothing h =>
    refine .kept fun version displayName h' => ?_
    rw [h] at h'
    cases h'
  | unread reason h =>
    rw [ScopeDb.scopes_park]
    refine .kept fun version displayName h' => ?_
    rw [h] at h'
    cases h'
  | stale h hrow hle =>
    refine .kept fun version displayName h' hnewer => ?_
    rw [h] at h'
    cases h'
    exact absurd (hnewer _ hrow) (by omega)
  | @registered id' version state displayName h hrow =>
    rw [ScopeDb.scopes_register hrow]
    split_ifs with hid
    · subst hid
      exact .written h (fun row hrow' => by rw [hrow] at hrow'; cases hrow') (.inl rfl)
        fun row hrow' => by rw [hrow] at hrow'; cases hrow'
    · exact hother h hid
  | @withheldNew id' version displayName h hrow =>
    rw [ScopeDb.scopes_park, ScopeDb.scopes_register hrow]
    split_ifs with hid
    · subst hid
      exact .opened h hrow
    · exact hother h hid
  | @withheld id' version displayName row h hrow hlt =>
    rw [ScopeDb.scopes_park, ScopeDb.scopes_failClosed hrow]
    by_cases hid : id = id'
    · subst hid
      rw [if_pos rfl]
      exact .failedClosed h hrow hlt
    · rw [if_neg hid]
      exact hother h hid
  | @written id' version state displayName row h hrow hlt =>
    rw [ScopeDb.scopes_setScope]
    by_cases hid : id = id'
    · subst hid
      have hsame : ∀ row', db.scopes id = some row' → row' = row := fun row' hrow' =>
        Option.some.inj (hrow'.symm.trans hrow)
      rw [if_pos rfl]
      by_cases hclosed : row.state = .closed ∧ state ≠ .closed
      · rw [if_pos hclosed]
        exact .written h (fun row' hrow' => hsame row' hrow' ▸ hlt)
          (.inr ⟨rfl, row, hrow, hclosed.1⟩) fun _ _ _ => rfl
      · rw [if_neg hclosed]
        refine .written h (fun row' hrow' => hsame row' hrow' ▸ hlt) (.inl rfl)
          fun row' hrow' hstate => ?_
        by_contra hne
        exact hclosed ⟨hsame row' hrow' ▸ hstate, hne⟩
    · rw [if_neg hid]
      exact hother h hid

/-- A row stays, no older and no less closed. -/
theorem ScopeDb.row_apply (contract : ScopeContract) (b : ScopeBuild) (event : ScopeEvent)
    {id : ScopeId} {row : ScopeRow} (hrow : db.scopes id = some row) :
    ∃ row', (db.apply contract b event).2.scopes id = some row' ∧ row.version ≤ row'.version ∧
      (row.state = .closed → row'.state = .closed) := by
  have hchange := db.rowChange contract b event id
  generalize (db.apply contract b event).2.scopes id = after at hchange
  cases hchange with
  | kept => exact ⟨row, hrow, Nat.le_refl _, fun hclosed => hclosed⟩
  | opened h hnone => rw [hrow] at hnone; cases hnone
  | failedClosed h hrow' hlt =>
    obtain rfl := Option.some.inj (hrow'.symm.trans hrow)
    refine ⟨_, rfl, Nat.le_refl _, fun hclosed => ?_⟩
    simp [hclosed]
  | written h hnewer hstate hclosed =>
    exact ⟨_, rfl, (hnewer row hrow).le, hclosed row hrow⟩

/-- **What was not parked is reached**: its scope's row is no older. -/
theorem ScopeDb.reached_apply {id : ScopeId} {version : Nat} {state : Option ScopeState}
    {displayName : String} (h : b.read contract event = .snapshot id version state displayName)
    (houtcome : (db.apply contract b event).1 ≠ .parked) :
    ∃ row, (db.apply contract b event).2.scopes id = some row ∧ version ≤ row.version := by
  have happlied := ScopeDb.applied contract b event db
  generalize (db.apply contract b event).1 = outcome, (db.apply contract b event).2 = db'
    at happlied houtcome
  cases happlied with
  | nothing h' => rw [h] at h'; cases h'
  | unread reason h' => rw [h] at h'; cases h'
  | stale h' hrow hle =>
    rw [h] at h'
    cases h'
    exact ⟨_, hrow, hle⟩
  | registered h' hrow =>
    rw [h] at h'
    cases h'
    exact ⟨_, (ScopeDb.scopes_register hrow _ _ _ _).trans (if_pos rfl), Nat.le_refl _⟩
  | withheldNew | withheld => exact absurd rfl houtcome
  | written h' hrow hlt =>
    rw [h] at h'
    cases h'
    exact ⟨_, if_pos rfl, Nat.le_refl _⟩

/-- A snapshot that can be read is not parked. -/
theorem ScopeDb.outcome_of_read {id : ScopeId} {version : Nat} {state : ScopeState}
    {displayName : String}
    (h : b.read contract event = .snapshot id version (some state) displayName) :
    (db.apply contract b event).1 ≠ .parked := by
  have happlied := ScopeDb.applied contract b event db
  intro houtcome
  rw [houtcome] at happlied
  generalize (db.apply contract b event).2 = db' at happlied
  cases happlied with
  | unread reason h' => rw [h] at h'; cases h'
  | withheldNew h' => rw [h] at h'; cases h'
  | withheld h' => rw [h] at h'; cases h'

/-- The kind a build reads is the contract's. -/
theorem ScopeBuild.kind_eq {wire : Int} {kind : ScopeEventKind}
    (h : b.kind contract wire = some kind) : contract.kind wire = some kind := by
  unfold ScopeBuild.kind at h
  split_ifs at h
  exact h

/-- **What is read as a snapshot.** -/
theorem ScopeBuild.read_eq_snapshot {id : ScopeId} {version : Nat} {state : Option ScopeState}
    {displayName : String} :
    b.read contract event = .snapshot id version state displayName ↔
      b.kind contract event.kind = some .scopeChanged ∧
        ∃ snapshot, event.scopeSnapshot = some snapshot ∧ snapshot.id ≠ "main" ∧
          snapshot.id = event.scope ∧ ScopeId.parse snapshot.id = .ok id ∧
          snapshot.version < 2 ^ 63 ∧ snapshot.version = version ∧
          b.state contract snapshot.state = state ∧ snapshot.shownName = displayName := by
  unfold ScopeBuild.read
  cases hkind : b.kind contract event.kind with
  | none => simp
  | some kind =>
    cases kind with
    | grantsChanged => simp
    | memberJoined => simp
    | scopeChanged =>
      cases hsnapshot : event.scopeSnapshot with
      | none => simp
      | some snapshot =>
        simp only [ScopeBuild.readScope, true_and, Option.some.injEq, exists_eq_left']
        by_cases hmain : snapshot.id = "main"
        · simp [hmain]
        rw [if_neg hmain]
        by_cases hscope : snapshot.id = event.scope
        · rw [if_neg (not_not.mpr hscope)]
          cases hparse : ScopeId.parse snapshot.id with
          | error e => simp
          | ok id' =>
            by_cases hversion : snapshot.version < 2 ^ 63
            · have hnot : ¬ event.scope = "main" := hscope ▸ hmain
              simp only [if_neg (Nat.not_le.mpr hversion), ScopeReading.snapshot.injEq, hscope,
                hnot, hversion, ne_eq, not_false_eq_true, true_and, Except.ok.injEq]
            · simp only [if_pos (Nat.not_lt.mp hversion)]
              exact ⟨fun h => (nomatch h), fun h => absurd h.2.2.2.1 hversion⟩
        · simp [hscope]

/-- **Two builds agree on a snapshot**, the state apart, unless one cannot name its kind. -/
theorem ScopeBuild.read_agree (b' : ScopeBuild) {id : ScopeId} {version : Nat}
    {state : Option ScopeState} {displayName : String}
    (h : b.read contract event = .snapshot id version state displayName) :
    (∃ reason, b'.read contract event = .park reason) ∨
      ∃ state', b'.read contract event = .snapshot id version state' displayName := by
  obtain ⟨hkind, snapshot, hsnapshot, hmain, hscope, hparse, hfits, hversion, -, hname⟩ :=
    ScopeBuild.read_eq_snapshot.mp h
  by_cases hnames : b'.namesKind event.kind = true
  · have hkind' : b'.kind contract event.kind = some .scopeChanged := by
      rw [ScopeBuild.kind, if_pos hnames, ScopeBuild.kind_eq hkind]
    exact .inr ⟨_, ScopeBuild.read_eq_snapshot.mpr ⟨hkind', snapshot, hsnapshot, hmain, hscope,
      hparse, hfits, hversion, rfl, hname⟩⟩
  · have hkind' : b'.kind contract event.kind = none := if_neg hnames
    rw [ScopeBuild.read, hkind']
    exact .inl ⟨_, rfl⟩

end Steps

/-! ## The stream and the consumers -/

/-- What concierge holds: it deletes no row of the stream, so a position is one event's, and the
versions it hands out start above those banking seeded. -/
structure ScopeStream where
  events : Set ScopeEvent
  placed : ∀ e ∈ events, ∀ e' ∈ events, e.position = e'.position → e = e'
  versioned : ∀ e ∈ events, ∀ snapshot, e.scopeSnapshot = some snapshot → 0 < snapshot.version

/-- A page shows rows of the stream and, to the reader of every scope, leaves none out up to the
last it shows. -/
def ScopeStream.Serves (stream : ScopeStream) (after : Int) (page : ScopeEventsPage) : Prop :=
  (∀ e ∈ page.events, e ∈ stream.events) ∧
    ∀ e ∈ stream.events, after < e.position →
      (∃ shown ∈ page.events, e.position ≤ shown.position) → e ∈ page.events

/-- An event a consumer acted on: its build, and what it found. -/
structure ScopeDelivery where
  build : ScopeBuild
  event : ScopeEvent
  before : ScopeDb

/-- What became of it. -/
def ScopeDelivery.outcome (contract : ScopeContract) (d : ScopeDelivery) : ScopeOutcome :=
  (d.before.apply contract d.build d.event).1

/-- It was read as a snapshot of a scope. -/
def ScopeDelivery.Reads (contract : ScopeContract) (d : ScopeDelivery) (id : ScopeId)
    (version : Nat) (state : ScopeState) (displayName : String) : Prop :=
  d.build.read contract d.event = .snapshot id version (some state) displayName

/-- It was a snapshot newer than the stored one, with a state that could not be read. -/
def ScopeDelivery.Withheld (contract : ScopeContract) (d : ScopeDelivery) (id : ScopeId)
    (version : Nat) : Prop :=
  (∃ displayName, d.build.read contract d.event = .snapshot id version none displayName) ∧
    d.before.Newer id version

/-- The database, and what was acted on, newest first. -/
structure ScopeWorld where
  db : ScopeDb
  log : List ScopeDelivery

/-- One event acted on. -/
def ScopeWorld.deliver (contract : ScopeContract) (b : ScopeBuild) (event : ScopeEvent)
    (w : ScopeWorld) : ScopeWorld :=
  ⟨(w.db.apply contract b event).2, ⟨b, event, w.db⟩ :: w.log⟩

/-- How an operation is answered: by what it did, by a failure that did nothing, or by a failure
after it was done. -/
inductive ScopeStep (contract : ScopeContract) (stream : ScopeStream) :
    (op : ScopeOp) → ScopeWorld → ScopeOp.Ans op → ScopeWorld → Prop
  | failed (op : ScopeOp) (w : ScopeWorld) (fault : ScopeFault) :
      ScopeStep contract stream op w (.error fault) w
  | pull {after : Int} {page : ScopeEventsPage} (limit : Nat) (w : ScopeWorld)
      (h : stream.Serves after page) : ScopeStep contract stream (.pull after limit) w (.ok page) w
  | cursor (w : ScopeWorld) :
      ScopeStep contract stream .cursor w (.ok (w.db.position, w.db.lastEventId)) w
  | apply (b : ScopeBuild) (event : ScopeEvent) (w : ScopeWorld) :
      ScopeStep contract stream (.apply b event) w (.ok (w.db.apply contract b event).1)
        (w.deliver contract b event)
  | applyLost (b : ScopeBuild) (event : ScopeEvent) (w : ScopeWorld) (fault : ScopeFault) :
      ScopeStep contract stream (.apply b event) w (.error fault) (w.deliver contract b event)
  | advanced (start next : Int) (eventId : String) (w : ScopeWorld)
      (answer : Except ScopeFault Unit) :
      ScopeStep contract stream (.advanceCursor start next eventId) w answer
        { w with db := w.db.advanceCursor start next eventId }
  | notePulled (w : ScopeWorld) : ScopeStep contract stream .notePulled w (.ok ()) w
  | noteUnimplemented (w : ScopeWorld) : ScopeStep contract stream .noteUnimplemented w (.ok ()) w
  | parked {rows : List (Int × String)} (w : ScopeWorld)
      (h : rows.Perm (w.db.parked.map fun row => (row.position, row.eventId))) :
      ScopeStep contract stream .parked w (.ok rows) w
  | parkedTotal (w : ScopeWorld) :
      ScopeStep contract stream .parkedTotal w (.ok w.db.parked.length) w
  | touchParked (position : Int) (w : ScopeWorld) :
      ScopeStep contract stream (.touchParked position) w (.ok ()) w
  | unparked (position : Int) (w : ScopeWorld) (answer : Except ScopeFault Unit) :
      ScopeStep contract stream (.unpark position) w answer { w with db := w.db.unpark position }
  | stillHeld (w : ScopeWorld) (held : Bool) :
      ScopeStep contract stream .stillHeld w (.ok held) w
  | checkDue (w : ScopeWorld) (due : Bool) : ScopeStep contract stream .checkDue w (.ok due) w

/-- The others: an operator sets the cursor back. -/
inductive ScopeEnv : ScopeWorld → ScopeWorld → Prop
  | rewind {w : ScopeWorld} {position : Int} (h : position ≤ w.db.position)
      (lastEventId : Option String) :
      ScopeEnv w { w with db := { w.db with position, lastEventId } }

/-- A consumer taking the lock, of whatever build. -/
def ScopeConsumer (p : ScopeProg Unit) : Prop :=
  ∃ (b : ScopeBuild) (cycles : Nat), p = b.follow cycles false .unchecked

/-- A step that applies no snapshot older than one that could not be read before it. -/
def InVersionOrder (contract : ScopeContract) (w w' : ScopeWorld) : Prop :=
  ∀ b event, w' = w.deliver contract b event → ∀ id version state displayName,
    b.read contract event = .snapshot id version (some state) displayName →
    w.db.Newer id version → ∀ d ∈ w.log, ∀ version', d.Withheld contract id version' →
    version' ≤ version

/-- The configurations of consumers reached by steps that meet a guard. -/
abbrev ScopeRuns (contract : ScopeContract) (stream : ScopeStream)
    (guard : ScopeWorld → ScopeWorld → Prop) :
    Config ScopeOp ScopeOp.Ans ScopeFault Unit ScopeWorld →
      Config ScopeOp ScopeOp.Ans ScopeFault Unit ScopeWorld → Prop :=
  Runs (ScopeStep contract stream) ScopeEnv ScopeConsumer fun c c' => guard c.1 c'.1

/-! ## What holds of the registry -/

section Runs

variable {contract : ScopeContract} {stream : ScopeStream} {base : ScopeDb} {w w' : ScopeWorld}

/-- Some delivery of an event read it, or found it of no account. -/
def ScopeWorld.Settled (contract : ScopeContract) (w : ScopeWorld) (event : ScopeEvent) : Prop :=
  ∃ d ∈ w.log, d.event = event ∧ d.outcome contract ≠ .parked

/-- A version of a scope was read in the stream, or was there at first. -/
def ScopeWorld.Said (contract : ScopeContract) (base : ScopeDb) (w : ScopeWorld) (id : ScopeId)
    (version : Nat) (state : ScopeState) (displayName : String) : Prop :=
  (∃ d ∈ w.log, d.Reads contract id version state displayName) ∨
    base.scopes id = some ⟨state, displayName, version⟩

/-- A row is what its version said, or kept closed. -/
def ScopeWorld.Attested (contract : ScopeContract) (base : ScopeDb) (w : ScopeWorld) (id : ScopeId)
    (row : ScopeRow) : Prop :=
  ∃ state, w.Said contract base id row.version state row.displayName ∧
    (row.state = state ∨ row.state = .closed ∧
      ∃ version displayName, version ≤ row.version ∧
        w.Said contract base id version .closed displayName)

/-- A row is failed closed by a newer snapshot. -/
def ScopeWorld.FailedClosed (contract : ScopeContract) (w : ScopeWorld) (id : ScopeId)
    (row : ScopeRow) : Prop :=
  row.state = .frozen ∧ ∃ d ∈ w.log, ∃ version, d.Withheld contract id version ∧
    row.version < version

/-- **An unreadable snapshot withholds its scope**: once it is found newer than the stored one, the
scope takes nothing in until a snapshot no older than it, its replay or a newer one, is read. -/
def ScopeWorld.Withholds (contract : ScopeContract) (w : ScopeWorld) : Prop :=
  ∀ later d earlier, w.log = later ++ d :: earlier → ∀ id version, d.Withheld contract id version →
    (∃ d' ∈ later, ∃ version' state displayName, version ≤ version' ∧
      d'.Reads contract id version' state displayName) ∨
    ∃ row, w.db.scopes id = some row ∧ row.state ≠ .active

/-- The invariant of the consumers. -/
structure ScopeWorld.Sound (contract : ScopeContract) (stream : ScopeStream) (base : ScopeDb)
    (w : ScopeWorld) : Prop where
  served : ∀ d ∈ w.log, d.event ∈ stream.events
  passed : ∀ e ∈ stream.events, base.position < e.position → e.position ≤ w.db.position →
    ∃ d ∈ w.log, d.event = e
  recorded : ∀ d ∈ w.log, w.Settled contract d.event ∨
    ∃ row ∈ w.db.parked, row.position = d.event.position
  reached : ∀ d ∈ w.log, ∀ id version state displayName,
    d.build.read contract d.event = .snapshot id version state displayName →
    d.outcome contract ≠ .parked → ∃ row, w.db.scopes id = some row ∧ version ≤ row.version
  since : ∀ id row, base.scopes id = some row →
    ∃ row', w.db.scopes id = some row' ∧ row.version ≤ row'.version
  sourced : ∀ id row, w.db.scopes id = some row →
    w.Attested contract base id row ∨ w.FailedClosed contract id row

/-- What the log said it goes on saying. -/
theorem ScopeWorld.Attested.mono {id : ScopeId} {row : ScopeRow} (h : w.Attested contract base id row)
    (hlog : w.log ⊆ w'.log) : w'.Attested contract base id row := by
  have hsaid : ∀ {version state displayName}, w.Said contract base id version state displayName →
      w'.Said contract base id version state displayName := fun h =>
    h.imp_left fun ⟨d, hd, hreads⟩ => ⟨d, hlog hd, hreads⟩
  obtain ⟨state, hstate, hrow⟩ := h
  refine ⟨state, hsaid hstate, hrow.imp_right fun ⟨hclosed, version, displayName, hle, hold⟩ => ?_⟩
  exact ⟨hclosed, version, displayName, hle, hsaid hold⟩

theorem ScopeWorld.FailedClosed.mono {id : ScopeId} {row : ScopeRow}
    (h : w.FailedClosed contract id row) (hlog : w.log ⊆ w'.log) :
    w'.FailedClosed contract id row := by
  obtain ⟨hfrozen, d, hd, version, hwithheld⟩ := h
  exact ⟨hfrozen, d, hlog hd, version, hwithheld⟩

theorem ScopeWorld.Settled.mono {event : ScopeEvent} (h : w.Settled contract event)
    (hlog : w.log ⊆ w'.log) : w'.Settled contract event := by
  obtain ⟨d, hd, hevent⟩ := h
  exact ⟨d, hlog hd, hevent⟩

/-- **One event keeps the invariant.** -/
theorem ScopeWorld.Sound.deliver (h : w.Sound contract stream base) {b : ScopeBuild}
    {event : ScopeEvent} (hevent : event ∈ stream.events) :
    (w.deliver contract b event).Sound contract stream base := by
  have hlog : w.log ⊆ (w.deliver contract b event).log := List.subset_cons_self _ _
  obtain ⟨hposition, hparked⟩ :=
    ScopeDb.apply_frame contract b event w.db
  refine ⟨fun d hd => ?_, fun e he hlt hle => ?_, fun d hd => ?_,
    fun d hd id version state displayName hread houtcome => ?_, fun id row hrow => ?_,
    fun id row hrow => ?_⟩
  · rcases List.mem_cons.mp hd with rfl | hd
    · exact hevent
    · exact h.served d hd
  · obtain ⟨d, hd, hsame⟩ := h.passed e he hlt (hle.trans_eq hposition)
    exact ⟨d, hlog hd, hsame⟩
  · rcases List.mem_cons.mp hd with rfl | hd
    · -- what this one did not park is settled by it
      by_cases houtcome : (w.db.apply contract b event).1 = .parked
      · exact .inr (ScopeDb.mem_parked_apply houtcome)
      · exact .inl ⟨_, List.mem_cons_self, rfl, houtcome⟩
    · exact (h.recorded d hd).imp (fun hsettled => hsettled.mono hlog)
        fun ⟨row, hrow, hat⟩ => ⟨row, hparked hrow, hat⟩
  · rcases List.mem_cons.mp hd with rfl | hd
    · exact ScopeDb.reached_apply hread houtcome
    · obtain ⟨row, hrow, hle⟩ := h.reached d hd id version state displayName hread houtcome
      obtain ⟨row', hrow', hle', -⟩ :=
        ScopeDb.row_apply contract b event hrow
      exact ⟨row', hrow', hle.trans hle'⟩
  · obtain ⟨row₁, hrow₁, hle⟩ := h.since id row hrow
    obtain ⟨row', hrow', hle', -⟩ :=
      ScopeDb.row_apply contract b event hrow₁
    exact ⟨row', hrow', hle.trans hle'⟩
  · have hchange := w.db.rowChange contract b event id
    have hafter : (w.db.apply contract b event).2.scopes id = some row := hrow
    rw [hafter] at hchange
    generalize hsome : some row = after at hchange
    cases hchange with
    | kept => exact (h.sourced id row hsome.symm).imp (fun hs => hs.mono hlog) fun hf => hf.mono hlog
    | @opened version displayName hread hnone =>
      obtain rfl := Option.some.inj hsome
      obtain ⟨-, snapshot, hsnapshot, -, -, -, -, hversion, -⟩ :=
        ScopeBuild.read_eq_snapshot.mp hread
      refine .inr ⟨rfl, _, List.mem_cons_self, version, ⟨⟨displayName, hread⟩, ?_⟩, ?_⟩
      · intro row' hrow'
        rw [hnone] at hrow'
        cases hrow'
      · exact hversion ▸ stream.versioned event hevent snapshot hsnapshot
    | @failedClosed version displayName row₁ hread hrow₁ hlt =>
      obtain rfl := Option.some.inj hsome
      have hnewer : w.db.Newer id version := fun row' hrow' =>
        Option.some.inj (hrow'.symm.trans hrow₁) ▸ hlt
      obtain ⟨state₁, displayName₁, version₁⟩ := row₁
      cases state₁ with
      | closed =>
        -- a closed row stays what it was
        exact (h.sourced id _ hrow₁).imp (fun hs => hs.mono hlog) fun hf => (nomatch hf.1)
      | active | frozen =>
        exact .inr ⟨rfl, _, List.mem_cons_self, version, ⟨⟨displayName, hread⟩, hnewer⟩, hlt⟩
    | @written version state written displayName hread hnewer hstate hclosed =>
      obtain rfl := Option.some.inj hsome
      have hsaid : (w.deliver contract b event).Said contract base id version state displayName :=
        .inl ⟨_, List.mem_cons_self, hread⟩
      refine .inl ⟨state, hsaid, hstate.imp_right fun ⟨hw, row₁, hrow₁, hclosed₁⟩ => ⟨hw, ?_⟩⟩
      -- the row was closed: its own version said so, or one before it
      rcases h.sourced id row₁ hrow₁ with hs | hf
      · obtain ⟨state₁, hsaid₁, hrest⟩ := hs.mono hlog
        rcases hrest with hsame | ⟨-, version', displayName', hle, hold⟩
        · rw [hclosed₁] at hsame
          exact ⟨row₁.version, row₁.displayName, (hnewer row₁ hrow₁).le, hsame ▸ hsaid₁⟩
        · exact ⟨version', displayName', hle.trans (hnewer row₁ hrow₁).le, hold⟩
      · rw [hf.1] at hclosed₁
        cases hclosed₁

/-- **And, in version order, what is withheld.** -/
theorem ScopeWorld.Withholds.deliver (h : w.Withholds contract) {b : ScopeBuild}
    {event : ScopeEvent} (horder : InVersionOrder contract w (w.deliver contract b event)) :
    (w.deliver contract b event).Withholds contract := by
  intro later d earlier hsplit id version hwithheld
  have hchange := w.db.rowChange contract b event id
  cases later with
  | nil =>
    -- the event itself: its row takes nothing in
    obtain ⟨rfl, rfl⟩ := List.cons.inj hsplit
    obtain ⟨⟨displayName, hread⟩, hnewer⟩ := hwithheld
    refine .inr ?_
    change ∃ row, (w.db.apply contract b event).2.scopes id = some row ∧ _
    generalize (w.db.apply contract b event).2.scopes id = after at hchange
    cases hchange with
    | kept hnot => exact absurd hnewer (hnot version displayName hread)
    | opened => exact ⟨_, rfl, by simp⟩
    | failedClosed h' hrow' =>
      refine ⟨_, rfl, ?_⟩
      dsimp only
      split_ifs with hactive
      · exact ScopeState.noConfusion
      · exact hactive
    | written h' => rw [hread] at h'; cases h'
  | cons d₀ later =>
    obtain ⟨rfl, htail⟩ := List.cons.inj hsplit
    rcases h later d earlier htail id version hwithheld with hread | ⟨row, hrow, hstate⟩
    · obtain ⟨d', hd', hrest⟩ := hread
      exact .inl ⟨d', List.mem_cons_of_mem _ hd', hrest⟩
    change _ ∨ ∃ row, (w.db.apply contract b event).2.scopes id = some row ∧ _
    generalize (w.db.apply contract b event).2.scopes id = after at hchange
    cases hchange with
    | kept => exact .inr ⟨row, hrow, hstate⟩
    | opened => exact .inr ⟨_, rfl, by simp⟩
    | failedClosed h' hrow' =>
      refine .inr ⟨_, rfl, ?_⟩
      dsimp only
      split_ifs with hactive
      · exact ScopeState.noConfusion
      · exact hactive
    | @written version' state written displayName hread hnewer =>
      have hmem : d ∈ w.log := htail ▸ List.mem_append_right _ List.mem_cons_self
      have hle := horder b event rfl id version' state displayName hread hnewer d hmem version
        hwithheld
      exact .inl ⟨_, List.mem_cons_self, version', state, displayName, hle, hread⟩

/-! ## What the consumers keep -/

/-- What happens to the registry only adds to the log, and opens nothing that was closed. -/
structure ScopeWorld.Later (w w' : ScopeWorld) : Prop where
  log : w.log ⊆ w'.log
  rows : ∀ id row, w.db.scopes id = some row → ∃ row', w'.db.scopes id = some row' ∧
    row.version ≤ row'.version ∧ (row.state = .closed → row'.state = .closed)

theorem ScopeWorld.Later.refl (w : ScopeWorld) : w.Later w :=
  ⟨List.Subset.refl _, fun _ row hrow => ⟨row, hrow, Nat.le_refl _, fun hclosed => hclosed⟩⟩

theorem ScopeWorld.Later.trans {w'' : ScopeWorld} (h : w.Later w') (h' : w'.Later w'') :
    w.Later w'' := by
  refine ⟨fun d hd => h'.log (h.log hd), fun id row hrow => ?_⟩
  obtain ⟨row', hrow', hle, hclosed⟩ := h.rows id row hrow
  obtain ⟨row'', hrow'', hle', hclosed'⟩ := h'.rows id row' hrow'
  exact ⟨row'', hrow'', hle.trans hle', fun hstate => hclosed' (hclosed hstate)⟩

/-- A change of the cursor or of the parked rows alone. -/
theorem ScopeWorld.Later.of_scopes {db : ScopeDb} (h : db.scopes = w.db.scopes) :
    w.Later { w with db } :=
  ⟨List.Subset.refl _, fun _ row hrow =>
    ⟨row, (congrFun h _).trans hrow, Nat.le_refl _, fun hclosed => hclosed⟩⟩

theorem ScopeDb.scopes_advanceCursor (db : ScopeDb) (start next : Int) (eventId : String) :
    (db.advanceCursor start next eventId).scopes = db.scopes := by
  unfold ScopeDb.advanceCursor
  split <;> rfl

/-- Every operation. -/
theorem ScopeStep.later {op : ScopeOp} {a : ScopeOp.Ans op}
    (h : ScopeStep contract stream op w a w') : w.Later w' := by
  cases h with
  | apply b event | applyLost b event =>
    exact ⟨List.subset_cons_self _ _, fun id row hrow => ScopeDb.row_apply _ _ _ hrow⟩
  | advanced => exact .of_scopes (ScopeDb.scopes_advanceCursor ..)
  | unparked => exact .of_scopes rfl
  | failed | pull | cursor | notePulled | noteUnimplemented | parked | parkedTotal | touchParked
  | stillHeld | checkDue => exact .refl w

/-- Anything the others do. -/
theorem ScopeEnv.later (h : ScopeEnv w w') : w.Later w' := by
  cases h with
  | rewind h lastEventId => exact .of_scopes rfl

/-- When a consumer may ask: it acts on rows of the stream, moves the cursor past what was acted on
and drops a position once its event was read. -/
def ScopeOp.Permitted (contract : ScopeContract) (stream : ScopeStream) (w : ScopeWorld) :
    ScopeOp → Prop
  | .apply _ event => event ∈ stream.events
  | .advanceCursor start next _ => ∀ e ∈ stream.events, start < e.position → e.position ≤ next →
      ∃ d ∈ w.log, d.event = e
  | .unpark position => ∀ e ∈ stream.events, e.position = position → w.Settled contract e
  | _ => True

theorem ScopeOp.Permitted.mono {op : ScopeOp} (h : op.Permitted contract stream w)
    (hlater : w.Later w') : op.Permitted contract stream w' := by
  cases op with
  | advanceCursor start next eventId =>
    intro e he hlt hle
    obtain ⟨d, hd, hevent⟩ := h e he hlt hle
    exact ⟨d, hlater.log hd, hevent⟩
  | unpark position => exact fun e he hat => (h e he hat).mono hlater.log
  | _ => exact h

/-- **Every permitted operation keeps the invariant.** -/
theorem ScopeWorld.Sound.step (h : w.Sound contract stream base) {op : ScopeOp}
    {a : ScopeOp.Ans op} (hp : op.Permitted contract stream w)
    (hstep : ScopeStep contract stream op w a w') : w'.Sound contract stream base := by
  cases hstep with
  | apply b event | applyLost b event => exact h.deliver hp
  | advanced start next eventId =>
    have hscopes := w.db.scopes_advanceCursor start next eventId
    refine ⟨h.served, fun e he hlt hle => ?_, fun d hd => ?_,
      fun d hd id version state displayName hread houtcome => ?_, fun id row hrow => ?_,
      fun id row hrow => ?_⟩
    · by_cases hat : w.db.position = start
      · rw [ScopeDb.advanceCursor, if_pos hat] at hle
        by_cases hold : e.position ≤ start
        · exact h.passed e he hlt (hat ▸ hold)
        · exact hp e he (Int.not_le.mp hold) hle
      · rw [ScopeDb.advanceCursor, if_neg hat] at hle
        exact h.passed e he hlt hle
    · have hparked : (w.db.advanceCursor start next eventId).parked = w.db.parked := by
        unfold ScopeDb.advanceCursor
        split <;> rfl
      exact (h.recorded d hd).imp (fun hs => hs) fun hr => hparked.symm ▸ hr
    · exact hscopes.symm ▸ h.reached d hd id version state displayName hread houtcome
    · exact hscopes.symm ▸ h.since id row hrow
    · exact h.sourced id row ((congrFun hscopes id).symm.trans hrow)
  | unparked position =>
    refine ⟨h.served, h.passed, fun d hd => ?_, h.reached, h.since, h.sourced⟩
    by_cases hat : d.event.position = position
    · exact .inl (hp d.event (h.served d hd) hat)
    · refine (h.recorded d hd).imp (fun hs => hs) fun ⟨row, hrow, hsame⟩ => ⟨row, ?_, hsame⟩
      exact List.mem_filter.mpr ⟨hrow, decide_eq_true fun heq => hat (hsame.symm.trans heq)⟩
  | failed | pull | cursor | notePulled | noteUnimplemented | parked | parkedTotal | touchParked
  | stillHeld | checkDue => exact h

/-- A cursor set back passes less. -/
theorem ScopeWorld.Sound.rewound (h : w.Sound contract stream base) (henv : ScopeEnv w w') :
    w'.Sound contract stream base := by
  cases henv with
  | rewind hle lastEventId =>
    exact ⟨h.served, fun e he hlt hbelow => h.passed e he hlt (hbelow.trans hle), h.recorded,
      h.reached, h.since, h.sourced⟩

/-! ## The consumers' programs -/

variable (contract stream base) in
/-- The registry as the consumers share it. -/
def scopeRegistry : World ScopeOp ScopeOp.Ans ScopeWorld where
  step := ScopeStep contract stream
  rely := ScopeWorld.Later
  inv := ScopeWorld.Sound contract stream base

variable {α β : Type} {Q : α → ScopeWorld → Prop}

/-- One permitted operation, its failure passed on. -/
theorem wp_askScope {op : ScopeOp} {Q : op.Reply → ScopeWorld → Prop}
    (hp : op.Permitted contract stream w)
    (hQ : ∀ w₁ reply w₂, ScopeStep contract stream op w₁ (.ok reply) w₂ → Q reply w₂) :
    (scopeRegistry contract stream base).wp Q (fun _ _ => True) (askScope op) w := by
  intro w₁ hrely hsound a w₂ hstep
  refine ⟨hsound.step (hp.mono hrely) hstep, ?_⟩
  cases a with
  | ok reply => exact hQ w₁ reply w₂ hstep
  | error fault => trivial

/-- One operation whose failure is only reported. -/
theorem wp_noteScope {op : ScopeOp} (hp : op.Permitted contract stream w) :
    (scopeRegistry contract stream base).wp (fun _ _ => True) (fun _ _ => True) (noteScope op) w := by
  intro w₁ hrely hsound a w₂ hstep
  exact ⟨hsound.step (hp.mono hrely) hstep, trivial⟩

/-- One program after another. -/
theorem wp_scopeThen {P : β → ScopeWorld → Prop} {p : ScopeProg β} {f : β → ScopeProg α}
    (hp : (scopeRegistry contract stream base).wp P (fun _ _ => True) p w)
    (hf : ∀ b w, P b w → (scopeRegistry contract stream base).wp Q (fun _ _ => True) (f b) w) :
    (scopeRegistry contract stream base).wp Q (fun _ _ => True) (p >>= f) w :=
  World.wp_bind.mpr (World.wp_mono hp hf fun _ _ h => h)

/-- A program with its end caught. -/
theorem wp_scopeOutcome {p : ScopeProg β}
    (hp : (scopeRegistry contract stream base).wp (fun _ _ => True) (fun _ _ => True) p w) :
    (scopeRegistry contract stream base).wp (fun _ _ => True) (fun _ _ => True)
      (p.outcome : ScopeProg (Except ScopeFault β)) w :=
  World.wp_outcome.mpr (World.wp_mono hp (fun _ _ _ => trivial) fun _ _ _ => trivial)

/-- The last position a page's events rise to. -/
theorem positionFault_ok {after previous last : Int} {events : List ScopeEvent}
    (h : positionFault after previous events = .ok last) :
    last = (events.getLast?.map ScopeEvent.position).getD previous := by
  induction events generalizing previous with
  | nil => exact (Except.ok.inj h).symm
  | cons e events ih =>
    rw [positionFault] at h
    split_ifs at h
    rw [ih h, List.getLast?_cons]
    cases events.getLast? <;> rfl

/-- A page without a fault ends on its last event. -/
theorem nextPosition_of_pageFault {after : Int} {page : ScopeEventsPage} {last : ScopeEvent}
    (h : pageFault after page = none) (hlast : page.events.getLast? = some last) :
    page.nextPosition = last.position := by
  unfold pageFault at h
  split at h
  · cases h
  · rename_i p hp
    split_ifs at h with hne
    rw [not_not.mp hne, positionFault_ok hp, hlast]
    rfl

/-- A page's events acted on. -/
theorem wp_applyAll (b : ScopeBuild) {events : List ScopeEvent}
    (hevents : ∀ e ∈ events, e ∈ stream.events) :
    (scopeRegistry contract stream base).wp (fun _ w => ∀ e ∈ events, ∃ d ∈ w.log, d.event = e)
      (fun _ _ => True) (b.applyAll events) w := by
  unfold ScopeBuild.applyAll
  refine World.wp_each
    (J := fun (done : List ScopeEvent) (w : ScopeWorld) => ∀ e ∈ done, ∃ d ∈ w.log, d.event = e)
    (fun done event rest hsplit w hdone => ?_) fun e he => (List.not_mem_nil he).elim
  intro w₁ hrely hsound a w₂ hstep
  have hmem : event ∈ events := hsplit ▸ List.mem_append_right _ List.mem_cons_self
  have hp : ScopeOp.Permitted contract stream w₁ (.apply b event) := hevents event hmem
  refine ⟨hsound.step hp hstep, ?_⟩
  cases hstep with
  | failed _ _ fault | applyLost _ _ _ fault => trivial
  | apply =>
    intro e he
    rcases List.mem_append.mp he with he | he
    · obtain ⟨d, hd, hsame⟩ := hdone e he
      exact ⟨d, List.mem_cons_of_mem _ (hrely.log hd), hsame⟩
    · obtain rfl := List.mem_singleton.mp he
      exact ⟨_, List.mem_cons_self, rfl⟩

/-- **One page**: the cursor moves past events acted on. -/
theorem wp_pullAndApply (b : ScopeBuild) :
    (scopeRegistry contract stream base).wp (fun _ _ => True) (fun _ _ => True) b.pullAndApply w := by
  refine wp_scopeThen (P := fun _ _ => True) (wp_askScope trivial fun _ _ _ _ => trivial)
    fun cursor w _ => ?_
  obtain ⟨after, lastEventId⟩ := cursor
  refine wp_scopeThen (P := fun page _ => stream.Serves after page) (wp_askScope trivial ?_)
    fun page w hserves => ?_
  · intro w₁ page w₂ hstep
    cases hstep with
    | pull _ _ h => exact h
  cases hfault : pageFault after page with
  | some fault => trivial
  | none =>
    cases hlast : page.events.getLast? with
    | none =>
      exact wp_scopeThen (P := fun _ _ => True) (wp_askScope trivial fun _ _ _ _ => trivial)
        fun _ _ _ => trivial
    | some last =>
      refine wp_scopeThen (wp_applyAll b hserves.1) fun _ w hdone => ?_
      refine wp_scopeThen (P := fun _ _ => True) (wp_askScope ?_ fun _ _ _ _ => trivial)
        fun _ w _ => wp_scopeThen (P := fun _ _ => True)
          (wp_askScope trivial fun _ _ _ _ => trivial) fun _ _ _ => trivial
      intro e he hlt hle
      have hshown : last ∈ page.events := List.mem_of_getLast? hlast
      rw [nextPosition_of_pageFault hfault hlast] at hle
      exact hdone e (hserves.2 e he hlt ⟨last, hshown, hle⟩)

theorem wp_drain (b : ScopeBuild) (pages : Nat) :
    (scopeRegistry contract stream base).wp (fun _ _ => True) (fun _ _ => True) (b.drain pages) w := by
  induction pages generalizing w with
  | zero => trivial
  | succ pages ih =>
    refine wp_scopeThen (wp_pullAndApply b) fun more w _ => ?_
    cases more with
    | true => exact ih
    | false => trivial

/-- **One parked position**: it is dropped once its event was read. -/
theorem wp_replayOne (b : ScopeBuild) (position : Int) (eventId : String) :
    (scopeRegistry contract stream base).wp (fun _ _ => True) (fun _ _ => True)
      (b.replayOne position eventId) w := by
  refine wp_scopeThen (P := fun page _ => ∀ e ∈ page.events, e ∈ stream.events)
    (wp_askScope trivial ?_) fun page w hserves => ?_
  · intro w₁ page w₂ hstep
    cases hstep with
    | pull _ _ h => exact h.1
  split
  · exact wp_askScope trivial fun _ _ _ _ => trivial
  · rename_i event hhead
    obtain ⟨hfirst, hsame⟩ := Option.filter_eq_some_iff.mp hhead
    have hevent := hserves event (List.mem_of_head? hfirst)
    refine wp_scopeThen (P := fun outcome w => outcome ≠ .parked → w.Settled contract event)
      (wp_askScope hevent fun w₁ outcome w₂ hstep => ?_) fun outcome w hsettled => ?_
    · cases hstep with
      | apply => exact fun hne => ⟨_, List.mem_cons_self, rfl, hne⟩
    · split_ifs with hparked
      · exact wp_askScope trivial fun _ _ _ _ => trivial
      · refine wp_askScope (fun e he hat => ?_) fun _ _ _ _ => trivial
        have hposition : event.position = position := (of_decide_eq_true hsame).1
        exact stream.placed event hevent e he (hposition.trans hat.symm) ▸ hsettled hparked

theorem wp_replayEach (b : ScopeBuild) (rows : List (Int × String)) :
    (scopeRegistry contract stream base).wp (fun _ _ => True) (fun _ _ => True)
      (b.replayEach rows) w := by
  induction rows generalizing w with
  | nil => trivial
  | cons row rows ih =>
    obtain ⟨position, eventId⟩ := row
    refine wp_scopeThen (wp_scopeOutcome (wp_replayOne b position eventId)) fun result w _ => ?_
    cases result with
    | ok done => exact ih
    | error fault =>
      exact wp_scopeThen (wp_noteScope trivial) fun _ w _ =>
        wp_scopeThen ih fun _ _ _ => trivial

theorem wp_replayOnce (b : ScopeBuild) (replayed : Bool) :
    (scopeRegistry contract stream base).wp (fun _ _ => True) (fun _ _ => True)
      (b.replayOnce replayed) w := by
  unfold ScopeBuild.replayOnce
  split_ifs
  · trivial
  · refine wp_scopeThen (wp_scopeOutcome ?_) fun _ _ _ => trivial
    exact wp_scopeThen (P := fun _ _ => True) (wp_askScope trivial fun _ _ _ _ => trivial)
      fun rows w _ => wp_replayEach b rows

theorem wp_checkContinuity :
    (scopeRegistry contract stream base).wp (fun _ _ => True) (fun _ _ => True)
      checkContinuity w := by
  refine wp_scopeThen (P := fun _ _ => True) (wp_askScope trivial fun _ _ _ _ => trivial)
    fun cursor w _ => ?_
  split
  · trivial
  · trivial
  · exact wp_scopeThen (P := fun _ _ => True) (wp_askScope trivial fun _ _ _ _ => trivial)
      fun _ _ _ => trivial

theorem wp_recheck (continuity : Continuity) :
    (scopeRegistry contract stream base).wp (fun _ _ => True) (fun _ _ => True)
      continuity.recheck w := by
  refine wp_scopeThen (wp_scopeOutcome (wp_askScope trivial fun _ _ _ _ => trivial))
    fun due w _ => ?_
  split_ifs
  · refine wp_scopeThen (wp_scopeOutcome wp_checkContinuity) fun intact w _ => ?_
    split <;> trivial
  · trivial

theorem wp_noteFailure (result : Except ScopeFault Unit) :
    (scopeRegistry contract stream base).wp (fun _ _ => True) (fun _ _ => True)
      (noteFailure result) w := by
  unfold noteFailure
  split
  · exact wp_noteScope trivial
  · trivial
  · trivial

theorem wp_drainIntact (b : ScopeBuild) (pages : Nat) (continuity : Continuity)
    (checked : Except ScopeFault Unit) :
    (scopeRegistry contract stream base).wp (fun _ _ => True) (fun _ _ => True)
      (b.drainIntact pages continuity checked) w := by
  unfold ScopeBuild.drainIntact
  split
  · exact wp_scopeThen (wp_scopeOutcome (wp_drain b pages)) fun result w _ => wp_noteFailure result
  · exact wp_noteFailure _

/-- **A consumer keeps the invariant**, whatever the others do. -/
theorem wp_follow (b : ScopeBuild) (cycles : Nat) (replayed : Bool) (continuity : Continuity) :
    (scopeRegistry contract stream base).wp (fun _ _ => True) (fun _ _ => True)
      (b.follow cycles replayed continuity) w := by
  induction cycles generalizing w replayed continuity with
  | zero => trivial
  | succ cycles ih =>
    refine wp_scopeThen (wp_replayOnce b replayed) fun replayed w _ => ?_
    refine wp_scopeThen (wp_recheck continuity) fun checked w _ => ?_
    refine wp_scopeThen (wp_drainIntact b cycles checked.1 checked.2) fun _ w _ => ?_
    refine wp_scopeThen (P := fun _ _ => True) (wp_askScope trivial fun _ _ _ _ => trivial)
      fun held w _ => ?_
    cases held with
    | true => exact ih replayed checked.1
    | false => trivial

/-! ## What every run keeps -/

variable {guard : ScopeWorld → ScopeWorld → Prop}
  {c c' : Config ScopeOp ScopeOp.Ans ScopeFault Unit ScopeWorld}

/-- Where nothing was acted on, the registry is as it was found. -/
theorem ScopeWorld.sound_fresh : (⟨base, []⟩ : ScopeWorld).Sound contract stream base where
  served _ hd := (List.not_mem_nil hd).elim
  passed _ _ hlt hle := absurd hle (Int.not_le.mpr hlt)
  recorded _ hd := (List.not_mem_nil hd).elim
  reached _ hd := (List.not_mem_nil hd).elim
  since _ row hrow := ⟨row, hrow, Nat.le_refl _⟩
  sourced _ row hrow := .inl ⟨row.state, .inr hrow, .inl rfl⟩

/-- **The invariant, in every configuration.** -/
theorem ScopeRuns.sound (hrun : ScopeRuns contract stream guard (⟨base, []⟩, []) c) :
    c.1.Sound contract stream base := by
  refine Runs.reliant (S := scopeRegistry contract stream base) ScopeWorld.Later.refl
    ScopeWorld.Later.trans (fun w w' ps henv _ hsound => ⟨henv.later, hsound.rewound henv⟩)
    (fun w w' op a ps ps' hstep _ _ => ⟨hstep, hstep.later⟩) ?_ hrun ScopeWorld.sound_fresh
    fun p hp => (List.not_mem_nil hp).elim
  rintro w p ⟨b, cycles, rfl⟩ _
  exact wp_follow b cycles false .unchecked

/-- **Whatever happens only adds to the log and opens nothing that was closed.** -/
theorem ScopeRuns.later (hrun : ScopeRuns contract stream guard c c') : c.1.Later c'.1 := by
  induction hrun with
  | refl => exact .refl _
  | tail _ hlast ih =>
    obtain ⟨hlast, -⟩ := hlast
    cases hlast with
    | env h => exact ih.trans h.later
    | start h => exact ih
    | call before after h => exact ih.trans h.later
    | crash before after => exact ih

/-- What is withheld is so of the rows and of the log. -/
theorem ScopeWorld.Withholds.of_same (h : w.Withholds contract) (hlog : w'.log = w.log)
    (hscopes : w'.db.scopes = w.db.scopes) : w'.Withholds contract := by
  intro later d earlier hsplit id version hwithheld
  refine (h later d earlier (hlog ▸ hsplit) id version hwithheld).imp_right ?_
  rw [hscopes]
  exact fun hrow => hrow

/-- One operation, in version order. -/
theorem ScopeWorld.Withholds.step (h : w.Withholds contract) {op : ScopeOp} {a : ScopeOp.Ans op}
    (hstep : ScopeStep contract stream op w a w') (horder : InVersionOrder contract w w') :
    w'.Withholds contract := by
  cases hstep with
  | apply b event | applyLost b event => exact h.deliver horder
  | advanced => exact h.of_same rfl (ScopeDb.scopes_advanceCursor ..)
  | unparked => exact h.of_same rfl rfl
  | failed | pull | cursor | notePulled | noteUnimplemented | parked | parkedTotal | touchParked
  | stillHeld | checkDue => exact h

/-- Each scope's row is its newest snapshot's, or kept closed. -/
structure ScopeWorld.Mirrors (contract : ScopeContract) (base : ScopeDb) (w : ScopeWorld) :
    Prop where
  newest : ∀ d ∈ w.log, ∀ id version state displayName,
    d.build.read contract d.event = .snapshot id version state displayName →
    ∃ row, w.db.scopes id = some row ∧ version ≤ row.version
  since : ∀ id row, base.scopes id = some row →
    ∃ row', w.db.scopes id = some row' ∧ row.version ≤ row'.version
  attested : ∀ id row, w.db.scopes id = some row → w.Attested contract base id row

/-- **Where nothing is parked, the registry mirrors the stream.** -/
theorem ScopeWorld.Sound.mirrors (h : w.Sound contract stream base) (hparked : w.db.parked = []) :
    w.Mirrors contract base := by
  have hnewest : ∀ d ∈ w.log, ∀ id version state displayName,
      d.build.read contract d.event = .snapshot id version state displayName →
      ∃ row, w.db.scopes id = some row ∧ version ≤ row.version := by
    intro d hd id version state displayName hread
    rcases h.recorded d hd with ⟨d', hd', hsame, houtcome⟩ | ⟨row, hrow, -⟩
    · rw [← hsame] at hread
      rcases ScopeBuild.read_agree d'.build hread with ⟨reason, hpark⟩ | ⟨state', hread'⟩
      · refine absurd ?_ houtcome
        rw [ScopeDelivery.outcome, ScopeDb.apply, hpark]
      · exact h.reached d' hd' id version state' displayName hread' houtcome
    · rw [hparked] at hrow
      cases hrow
  refine ⟨hnewest, h.since, fun id row hrow => (h.sourced id row hrow).elim (fun hs => hs) ?_⟩
  -- a row failed closed would wait for a snapshot that is read by now
  rintro ⟨-, d, hd, version, ⟨⟨displayName, hread⟩, -⟩, hlt⟩
  obtain ⟨row', hrow', hle⟩ := hnewest d hd id version none displayName hread
  obtain rfl := Option.some.inj (hrow'.symm.trans hrow)
  exact absurd hle (Nat.not_le.mpr hlt)

end Runs

/-! ## Convergence -/

end Banking
