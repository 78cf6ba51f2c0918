import Banking.BridgeRuns

/-! # The owners' journal is complete

Every transaction of the bridge, of a sign-in and of a profile's change either leaves the owners and
the journal as they were, or changes one user's seat and writes the one row that says so
(`BridgeDb.Journals`). Replayed from its first row on, the journal is the set of owners, in every
state any number of consumers get to. -/

namespace Banking

open Interactive

/-! ## Owners and their journal -/

/-- The keys of `users`: an id names one row, and so does a subject. -/
structure BridgeDb.Keyed (db : BridgeDb) : Prop where
  ids : (db.users.map (·.id)).Nodup
  subjects : (db.users.map (·.authSubject)).Nodup

/-- Whether a role is the owner's. -/
def isOwner (role : String) : Bool := role = UserRole.owner.asStr

/-- Whether a user is an owner. -/
def BridgeDb.owns (db : BridgeDb) (id : Uuid) : Bool :=
  db.users.any fun u => u.id = id ∧ isOwner u.role

/-- A row of the journal replayed: its user is an owner from there on, or is none. -/
def RosterEntry.replay (owners : Uuid → Bool) (e : RosterEntry) : Uuid → Bool :=
  Function.update owners e.userId (isOwner e.toRole)

/-- The owners a journal comes to, replayed from its first row on. -/
def ownersOf (journal : List RosterEntry) : Uuid → Bool :=
  journal.foldl RosterEntry.replay fun _ => false

/-- The journal, oldest first. -/
def BridgeDb.journal (db : BridgeDb) : List RosterEntry := db.roster.reverse

/-- **What a transaction does to the owners and to their journal**: nothing to either, or it seats
or unseats the one user its one row names, in the direction the row says. -/
inductive BridgeDb.Journals (db db' : BridgeDb) : Prop
  | unchanged (owners : ∀ id, db'.owns id = db.owns id) (roster : db'.roster = db.roster)
  | changed (entry : RosterEntry) (roster : db'.roster = entry :: db.roster)
      (before : db.owns entry.userId = isOwner entry.fromRole)
      (after : db'.owns entry.userId = isOwner entry.toRole)
      (change : isOwner entry.fromRole ≠ isOwner entry.toRole)
      (others : ∀ id, id ≠ entry.userId → db'.owns id = db.owns id)

section Db

variable {contract : BridgeContract} {db db' : BridgeDb} {e : UserLifecycleEvent}
  {kind : LifecycleKind} {freshness : Freshness} {id : Uuid} {u : UserRow}

theorem BridgeDb.owns_iff : db.owns id = true ↔ ∃ u ∈ db.users, u.id = id ∧ isOwner u.role := by
  simp [owns]

/-- One row decides whether its user is an owner. -/
theorem BridgeDb.Keyed.owns_eq (h : db.Keyed) (hu : u ∈ db.users) :
    db.owns u.id = isOwner u.role := by
  rw [Bool.eq_iff_iff, owns_iff]
  constructor
  · rintro ⟨v, hv, hid, hrole⟩
    exact List.inj_on_of_nodup_map h.ids hv hu hid ▸ hrole
  · exact fun hrole => ⟨u, hu, rfl, hrole⟩

/-- The journal replayed stays the set of owners. -/
theorem BridgeDb.Journals.replays (h : db.Journals db')
    (hreplay : ∀ id, db.owns id = ownersOf db.journal id) (id : Uuid) :
    db'.owns id = ownersOf db'.journal id := by
  cases h with
  | unchanged owners roster => rw [owners, hreplay, journal, journal, roster]
  | changed entry roster before after change others =>
    have hjournal : ownersOf db'.journal = entry.replay (ownersOf db.journal) := by
      rw [ownersOf, journal, roster, List.reverse_cons, List.foldl_append]
      rfl
    rw [hjournal, RosterEntry.replay]
    by_cases hid : id = entry.userId
    · rw [hid, Function.update_self, after]
    · rw [Function.update_of_ne hid, others id hid, hreplay]

/-! ## One transaction -/

/-- The rows and the journal as they were. -/
theorem BridgeDb.Journals.of_eq (husers : db'.users = db.users) (hroster : db'.roster = db.roster) :
    db.Journals db' :=
  .unchanged (fun id => by rw [owns, owns, husers]) hroster

/-- **A change of one user's role, journalled**: the row is written exactly when the seat moves. -/
theorem BridgeDb.Journals.recorded {fromRole toRole : String} (hroster : db'.roster = db.roster)
    (before : db.owns id = isOwner fromRole) (after : db'.owns id = isOwner toRole)
    (others : ∀ id', id' ≠ id → db'.owns id' = db.owns id') :
    db.Journals (db'.recordRosterChange id fromRole toRole) := by
  unfold recordRosterChange
  split_ifs with hquiet
  · refine .unchanged (fun id' => ?_) hroster
    have hsame : isOwner fromRole = isOwner toRole := by
      rcases hquiet with rfl | ⟨hfrom, hto⟩
      · rfl
      · simp [isOwner, hfrom, hto]
    by_cases hid : id' = id
    · rw [hid, before, after, hsame]
    · exact others id' hid
  · obtain ⟨hne, hsome⟩ := not_or.mp hquiet
    refine .changed ⟨id, fromRole, toRole⟩ (congrArg _ hroster) before after ?_ others
    -- the roles differ and one of them is the owner's
    simp only [isOwner, ne_eq, decide_eq_decide]
    intro hiff
    by_cases hfrom : fromRole = UserRole.owner.asStr
    · exact hne (hfrom.trans (hiff.mp hfrom).symm)
    · exact hsome ⟨hfrom, fun hto => hfrom (hiff.mpr hto)⟩

/-- A CREATED of a subject that has no row. -/
theorem BridgeDb.Keyed.seat (h : db.Keyed) (contract : BridgeContract) (kind : LifecycleKind)
    (e : UserLifecycleEvent) (hfresh : ∀ u ∈ db.users, u.id ≠ id) :
    (db.seat contract kind id e).Keyed ∧ db.Journals (db.seat contract kind id e) := by
  unfold BridgeDb.seat
  split_ifs with hseat
  · have hsubject : ∀ u ∈ db.users, u.authSubject ≠ e.authSubject := by
      simpa [user?] using hseat.2
    have hnone : db.owns id = false := by
      rw [Bool.eq_false_iff, ne_eq, owns_iff]
      rintro ⟨u, hu, hid, -⟩
      exact hfresh u hu hid
    have hkeyed : BridgeDb.Keyed { db with users := UserRow.seated contract id e :: db.users } :=
      ⟨List.nodup_cons.mpr ⟨fun hid => by
          obtain ⟨u, hu, hid⟩ := List.mem_map.mp hid
          exact hfresh u hu hid, h.ids⟩,
        List.nodup_cons.mpr ⟨fun hs => by
          obtain ⟨u, hu, hs⟩ := List.mem_map.mp hs
          exact hsubject u hu hs, h.subjects⟩⟩
    refine ⟨?_, .recorded rfl (hnone.trans (by decide)) ?_ fun id' hid => ?_⟩
    · unfold recordRosterChange
      split_ifs <;> exact ⟨hkeyed.ids, hkeyed.subjects⟩
    · exact hkeyed.owns_eq List.mem_cons_self
    · simp [owns, UserRow.seated, Ne.symm hid]
  · exact ⟨h, .of_eq rfl rfl⟩

/-- A rewriting of rows that leaves their keys alone. -/
theorem BridgeDb.Keyed.map {f : UserRow → UserRow} (h : db.Keyed)
    (hf : ∀ u ∈ db.users, (f u).id = u.id ∧ (f u).authSubject = u.authSubject)
    (husers : db'.users = db.users.map f) : db'.Keyed := by
  constructor
  · have hids : (db.users.map f).map (·.id) = db.users.map (·.id) := by
      rw [List.map_map]
      exact List.map_congr_left fun u hu => (hf u hu).1
    rw [husers, hids]
    exact h.ids
  · have hsubjects : (db.users.map f).map (·.authSubject) = db.users.map (·.authSubject) := by
      rw [List.map_map]
      exact List.map_congr_left fun u hu => (hf u hu).2
    rw [husers, hsubjects]
    exact h.subjects

/-- One that leaves a user's role alone too. -/
theorem BridgeDb.owns_map {f : UserRow → UserRow} (husers : db'.users = db.users.map f)
    (hf : ∀ u ∈ db.users, (f u).id = u.id ∧ (u.id = id → (f u).role = u.role)) :
    db'.owns id = db.owns id := by
  rw [Bool.eq_iff_iff, owns_iff, owns_iff, husers]
  constructor
  · rintro ⟨_, hv, hid, hrole⟩
    obtain ⟨u, hu, rfl⟩ := List.mem_map.mp hv
    have hid := (hf u hu).1.symm.trans hid
    exact ⟨u, hu, hid, (hf u hu).2 hid ▸ hrole⟩
  · rintro ⟨u, hu, hid, hrole⟩
    exact ⟨f u, List.mem_map_of_mem hu, (hf u hu).1.trans hid, ((hf u hu).2 hid).symm ▸ hrole⟩

/-- What an event leaves of a row's keys, and of its role where its kind does not move it. -/
theorem UserRow.mutated_keys (contract : BridgeContract) (kind : LifecycleKind)
    (freshness : Freshness) (e : UserLifecycleEvent) (u : UserRow) :
    (u.mutated contract kind freshness e).id = u.id ∧
      (u.mutated contract kind freshness e).authSubject = u.authSubject ∧
      (kind ≠ .created → kind ≠ .roleChanged →
        (u.mutated contract kind freshness e).role = u.role) := by
  have hrefresh : ∀ u : UserRow, (u.refreshProfileSnapshot contract e).id = u.id ∧
      (u.refreshProfileSnapshot contract e).authSubject = u.authSubject ∧
      (u.refreshProfileSnapshot contract e).role = u.role := by
    intro u
    unfold refreshProfileSnapshot
    split <;> exact ⟨rfl, rfl, rfl⟩
  have happly : ∀ u : UserRow,
      ((u.seatPermissions e).applyKind contract kind e).id = u.id ∧
        ((u.seatPermissions e).applyKind contract kind e).authSubject = u.authSubject ∧
        (kind ≠ .created → kind ≠ .roleChanged →
          ((u.seatPermissions e).applyKind contract kind e).role = u.role) := by
    intro u
    unfold seatPermissions
    cases e.seatPermissions <;> cases kind <;> simp [applyKind]
  unfold mutated
  split_ifs
  · obtain ⟨hid, hsubject, hrole⟩ := hrefresh u
    obtain ⟨hid', hsubject', hrole'⟩ := happly (u.refreshProfileSnapshot contract e)
    exact ⟨hid'.trans hid, hsubject'.trans hsubject, fun hc hr => (hrole' hc hr).trans hrole⟩
  · exact happly u

/-- **An event that advances a row**, of whatever kind. -/
theorem BridgeDb.Keyed.mutate (h : db.Keyed) (contract : BridgeContract) (kind : LifecycleKind)
    (freshness : Freshness) (hu : db.user? e.authSubject = some u) :
    (db.mutate contract kind freshness e u).Keyed ∧
      db.Journals (db.mutate contract kind freshness e u) := by
  obtain ⟨hmem, hmine⟩ := user?_some hu
  obtain ⟨hid, hsubject, hrole⟩ := UserRow.mutated_keys contract kind freshness e u
  let f : UserRow → UserRow := fun r =>
    if r.authSubject = e.authSubject then u.mutated contract kind freshness e else r
  -- the row of the subject is the one the event was locked on
  have hf : ∀ r ∈ db.users, r = u ∧ f r = u.mutated contract kind freshness e ∨
      r.id ≠ u.id ∧ f r = r := by
    intro r hr
    by_cases hs : r.authSubject = e.authSubject
    · exact .inl ⟨List.inj_on_of_nodup_map h.subjects hr hmem (hs.trans hmine.symm), if_pos hs⟩
    · refine .inr ⟨fun hr' => hs ?_, if_neg hs⟩
      rw [List.inj_on_of_nodup_map h.ids hr hmem hr', hmine]
  let moved : BridgeDb := { db with users := db.users.map f, applied := e :: db.applied }
  have hkeyed : moved.Keyed := h.map (f := f) (fun r hr => by
    rcases hf r hr with ⟨rfl, hfr⟩ | ⟨-, hfr⟩
    · rw [hfr]
      exact ⟨hid, hsubject⟩
    · rw [hfr]
      exact ⟨rfl, rfl⟩) rfl
  have hmoved : u.mutated contract kind freshness e ∈ moved.users :=
    List.mem_map.mpr ⟨u, hmem, if_pos hmine⟩
  have hafter : moved.owns u.id = isOwner (u.mutated contract kind freshness e).role := by
    rw [← hid]
    exact hkeyed.owns_eq hmoved
  have hothers : ∀ id', id' ≠ u.id → moved.owns id' = db.owns id' := by
    intro id' hne
    refine owns_map (f := f) rfl fun r hr => ?_
    rcases hf r hr with ⟨rfl, hfr⟩ | ⟨-, hfr⟩
    · rw [hfr]
      exact ⟨hid, fun hr' => absurd hr'.symm hne⟩
    · rw [hfr]
      exact ⟨rfl, fun _ => rfl⟩
  have hrecorded : db.Journals
      (moved.recordRosterChange u.id u.role (u.mutated contract kind freshness e).role) :=
    .recorded rfl (h.owns_eq hmem) hafter hothers
  have hquiet : kind ≠ .created → kind ≠ .roleChanged → db.Journals moved := by
    intro hcreated hchanged
    refine .unchanged (fun id' => ?_) rfl
    by_cases hne : id' = u.id
    · rw [hne, hafter, hrole hcreated hchanged, h.owns_eq hmem]
    · exact hothers id' hne
  have hkeyed' : (moved.recordRosterChange u.id u.role
      (u.mutated contract kind freshness e).role).Keyed := by
    unfold recordRosterChange
    split_ifs <;> exact ⟨hkeyed.ids, hkeyed.subjects⟩
  cases kind with
  | created | roleChanged => exact ⟨hkeyed', hrecorded⟩
  | suspended | reinstated | kycChanged | permissionsChanged | sessionsRevoked =>
    exact ⟨hkeyed, hquiet nofun nofun⟩

/-- The keys are of the rows alone. -/
theorem BridgeDb.Keyed.of_eq (h : db.Keyed) (husers : db'.users = db.users) : db'.Keyed :=
  ⟨husers ▸ h.ids, husers ▸ h.subjects⟩

/-- What else a transaction writes does not matter to the owners. -/
theorem BridgeDb.Journals.then_eq {db'' : BridgeDb} (h : db.Journals db')
    (husers : db''.users = db'.users) (hroster : db''.roster = db'.roster) : db.Journals db'' := by
  have howns : ∀ id, db''.owns id = db'.owns id := fun id => by rw [owns, owns, husers]
  cases h with
  | unchanged owners roster =>
    exact .unchanged (fun id => (howns id).trans (owners id)) (hroster.trans roster)
  | changed entry roster before after change others =>
    exact .changed entry (hroster.trans roster) before ((howns _).trans after) change
      fun id hid => (howns id).trans (others id hid)

/-- **A mirrored event journals what it does to the owners**, the row it makes included. -/
theorem BridgeDb.Keyed.mirror (h : db.Keyed) (hfresh : ∀ u ∈ db.users, u.id ≠ id)
    (hmirror : db.mirror contract kind freshness id e = some db') :
    db'.Keyed ∧ db.Journals db' := by
  obtain ⟨hseated, hjournals⟩ := h.seat contract kind e hfresh
  unfold BridgeDb.mirror at hmirror
  dsimp only at hmirror
  split at hmirror
  case h_1 => cases hmirror
  case h_2 u hu =>
    split_ifs at hmirror with hle
    · obtain rfl := Option.some.inj hmirror
      exact ⟨hseated.of_eq rfl, hjournals.then_eq rfl rfl⟩
    · obtain rfl := Option.some.inj hmirror
      by_cases hseat : kind = .created ∧ (db.user? e.authSubject).isNone
      · -- the row just made is at the event's own sequence
        exfalso
        rw [BridgeDb.seat, if_pos hseat, user?_recordRosterChange] at hu
        simp only [user?, UserRow.seated, List.find?_cons, decide_true] at hu
        obtain rfl := Option.some.inj hu
        exact hle le_rfl
      · rw [BridgeDb.seat, if_neg hseat] at hu ⊢
        obtain ⟨hkeyed, hmutate⟩ := h.mutate contract kind freshness hu
        exact ⟨hkeyed.of_eq rfl, hmutate.then_eq rfl rfl⟩

/-- **A sign-in seats nobody**: the row it makes is an investor's. -/
theorem BridgeDb.Keyed.provision (h : db.Keyed) {subject email : String} {emailVerified : Bool}
    (hfresh : ∀ u ∈ db.users, u.id ≠ id) :
    (db.provision id subject email emailVerified).Keyed ∧
      db.Journals (db.provision id subject email emailVerified) := by
  unfold BridgeDb.provision
  cases hu : db.user? subject with
  | some u =>
    have hf : ∀ r ∈ db.users,
        (if r.authSubject = subject then { r with email, emailVerified } else r).id = r.id ∧
          (if r.authSubject = subject then { r with email, emailVerified } else r).authSubject =
            r.authSubject ∧
          (if r.authSubject = subject then { r with email, emailVerified } else r).role =
            r.role := by
      intro r _
      split_ifs <;> exact ⟨rfl, rfl, rfl⟩
    exact ⟨h.map (fun r hr => ⟨(hf r hr).1, (hf r hr).2.1⟩) rfl,
      .unchanged (fun id' => owns_map rfl fun r hr => ⟨(hf r hr).1, fun _ => (hf r hr).2.2⟩) rfl⟩
  | none =>
    have hsubject : ∀ u ∈ db.users, u.authSubject ≠ subject := by
      simpa [user?] using hu
    refine ⟨⟨List.nodup_cons.mpr ⟨fun hid => ?_, h.ids⟩,
      List.nodup_cons.mpr ⟨fun hs => ?_, h.subjects⟩⟩, .unchanged (fun id' => ?_) rfl⟩
    · obtain ⟨u, hu, hid⟩ := List.mem_map.mp hid
      exact hfresh u hu hid
    · obtain ⟨u, hu, hs⟩ := List.mem_map.mp hs
      exact hsubject u hu hs
    · rw [owns, List.any_cons, show isOwner "investor" = false by decide]
      simp [owns]

end Db

/-! ## Every run -/

/-- A consumer's operation, where a row that is made has an id no row has. -/
def BridgeWorld.keyedStep (contract : BridgeContract) :
    (op : BridgeOp) → BridgeWorld → op.Ans → BridgeWorld → Prop
  | .mirror kind freshness e, w, a, w' => w.Commits a w' fun found db =>
    ∃ id, (∀ u ∈ w.db.users, u.id ≠ id) ∧
      match w.db.mirror contract kind freshness id e with
      | some mirrored => found = true ∧ db = mirrored
      | none => found = false ∧ db = w.db
  | op, w, a, w' => BridgeWorld.step contract op w a w'

/-- The others: concierge appends to its stream, users sign in, and profiles change. -/
inductive ProfileEnv : BridgeWorld → BridgeWorld → Prop
  | emitted (w : BridgeWorld) (x : StreamEntry) (s : LifecycleStream)
      (h : s.entries = w.stream.entries ++ [x]) : ProfileEnv w { w with stream := s }
  | signedIn (w : BridgeWorld) (id : Uuid) (subject email : String) (emailVerified : Bool)
      (fresh : ∀ u ∈ w.db.users, u.id ≠ id) :
      ProfileEnv w { w with db := w.db.provision id subject email emailVerified }
  | revised (w : BridgeWorld) (f : UserRow → UserRow)
      (h : ∀ u, (f u).id = u.id ∧ (f u).authSubject = u.authSubject ∧ (f u).mirror = u.mirror ∧
        (f u).lastLifecycleSequence = u.lastLifecycleSequence) :
      ProfileEnv w { w with db := { w.db with users := w.db.users.map f } }

/-- The configurations of consumers reached from one another. -/
abbrev RosterRuns (contract : BridgeContract) :
    Config BridgeOp BridgeOp.Ans String Unit BridgeWorld →
      Config BridgeOp BridgeOp.Ans String Unit BridgeWorld → Prop :=
  Runs (BridgeWorld.keyedStep contract) ProfileEnv (BridgeWorker contract) fun _ _ => True

/-- Before the journal's first row: users may have signed in, and nobody is an owner. -/
structure BridgeDb.Unseated (db : BridgeDb) : Prop where
  keyed : db.Keyed
  roster : db.roster = []
  nobody : ∀ u ∈ db.users, isOwner u.role = false

/-- **The journal accounts for the owners.** -/
structure BridgeDb.Accounted (db : BridgeDb) : Prop where
  keyed : db.Keyed
  replays : ∀ id, db.owns id = ownersOf db.journal id

theorem BridgeDb.Unseated.accounted {db : BridgeDb} (h : db.Unseated) : db.Accounted where
  keyed := h.keyed
  replays := by
    intro id
    have hnone : db.owns id = false := by
      rw [Bool.eq_false_iff, ne_eq, BridgeDb.owns_iff]
      rintro ⟨u, hu, -, hrole⟩
      exact Bool.false_ne_true ((h.nobody u hu).symm.trans hrole)
    rw [hnone, BridgeDb.journal, h.roster]
    rfl

section Steps

variable {contract : BridgeContract} {w w' : BridgeWorld}

/-- **Every operation journals what it does to the owners**, also one whose answer is lost. -/
theorem BridgeDb.Keyed.step {op : BridgeOp} {a : op.Ans} (h : w.db.Keyed)
    (hstep : BridgeWorld.keyedStep contract op w a w') : w'.db.Keyed ∧ w.db.Journals w'.db := by
  have hquiet : w.db.Keyed ∧ w.db.Journals w.db := ⟨h, .of_eq rfl rfl⟩
  have hrest : ∀ {β : Type} {b : Except String β} {change : β → BridgeDb → Prop},
      w.Commits b w' change →
      (∀ b db, change b db → db.users = w.db.users ∧ db.roster = w.db.roster) →
      w'.db.Keyed ∧ w.db.Journals w'.db := by
    rintro β b change (⟨-, rfl⟩ | ⟨b, db, hdb, rfl, -⟩) hchange
    · exact hquiet
    · obtain ⟨husers, hroster⟩ := hchange b db hdb
      exact ⟨h.of_eq husers, .of_eq husers hroster⟩
  cases op with
  | cursor | pull | blocked | parked =>
    obtain ⟨rfl, -⟩ := hstep
    exact hquiet
  | defer e =>
    refine hrest hstep fun _ db hdb => ?_
    rw [hdb, BridgeDb.defer]
    split_ifs <;> exact ⟨rfl, rfl⟩
  | delete eventId => exact hrest hstep fun _ db hdb => hdb ▸ ⟨rfl, rfl⟩
  | advance start next =>
    refine hrest hstep fun _ db hdb => ?_
    rw [hdb, BridgeDb.advanceCursor]
    split_ifs <;> exact ⟨rfl, rfl⟩
  | mirror kind freshness e =>
    rcases hstep with ⟨-, rfl⟩ | ⟨found, db, ⟨id, hfresh, hdb⟩, rfl, -⟩
    · exact hquiet
    · split at hdb
      case h_1 mirrored hmirror =>
        obtain rfl := hdb.2
        exact h.mirror hfresh hmirror
      case h_2 =>
        obtain rfl := hdb.2
        exact hquiet

/-- So does everything the others do. -/
theorem BridgeDb.Keyed.env (h : w.db.Keyed) (henv : ProfileEnv w w') :
    w'.db.Keyed ∧ w.db.Journals w'.db := by
  cases henv with
  | emitted x s hs => exact ⟨h, .of_eq rfl rfl⟩
  | signedIn id subject email emailVerified hfresh => exact h.provision hfresh
  | revised f hf =>
    exact ⟨h.map (fun u _ => ⟨(hf u).1, (hf u).2.1⟩) rfl,
      .unchanged (fun id => BridgeDb.owns_map rfl fun u _ =>
        ⟨(hf u).1, fun _ => congrArg Mirror.role (hf u).2.2.1⟩) rfl⟩

/-- One step of the consumers and the others, whichever it is. -/
theorem BridgeDb.Keyed.poolStep {c c' : Config BridgeOp BridgeOp.Ans String Unit BridgeWorld}
    (h : c.1.db.Keyed)
    (hstep : PoolStep (BridgeWorld.keyedStep contract) ProfileEnv (BridgeWorker contract) c c') :
    c'.1.db.Keyed ∧ c.1.db.Journals c'.1.db := by
  cases hstep with
  | env henv => exact h.env henv
  | start => exact ⟨h, .of_eq rfl rfl⟩
  | call before after hcall => exact h.step hcall
  | crash before after => exact ⟨h, .of_eq rfl rfl⟩

/-- **The owners' journal is complete**: in every run of any number of consumers, of sign-ins and of
profile changes, the journal replayed is the set of owners; and whatever the next transaction is, it
writes one row, in the right direction, if it seats or unseats a user, and none otherwise. -/
theorem owner_roster_complete {c c' : Config BridgeOp BridgeOp.Ans String Unit BridgeWorld}
    (hinit : c.1.db.Unseated) (hrun : RosterRuns contract c c') :
    (∀ id, c'.1.db.owns id = ownersOf c'.1.db.journal id) ∧
      ∀ c'', PoolStep (BridgeWorld.keyedStep contract) ProfileEnv (BridgeWorker contract) c' c'' →
        c'.1.db.Journals c''.1.db := by
  have haccounted : c'.1.db.Accounted := by
    induction hrun with
    | refl => exact hinit.accounted
    | tail _ hstep ih =>
      obtain ⟨hkeyed, hjournals⟩ := ih.keyed.poolStep hstep.1
      exact ⟨hkeyed, hjournals.replays ih.replays⟩
  exact ⟨haccounted.replays, fun c'' hstep => (haccounted.keyed.poolStep hstep).2⟩

end Steps

/-- The operation carried out, where its row's id is free. -/
def BridgeOp.keyedOut (contract : BridgeContract) :
    (op : BridgeOp) → BridgeWorld → op.Ans × BridgeWorld
  | .mirror kind freshness e, w =>
    if ∀ u ∈ w.db.users, u.id ≠ .raw 1 then
      BridgeOp.carriedOut contract (.mirror kind freshness e) w
    else (.error "duplicate key value", w)
  | op, w => op.carriedOut contract w

theorem BridgeOp.keyedOut_step {contract : BridgeContract} (op : BridgeOp) (w : BridgeWorld) :
    BridgeWorld.keyedStep contract op w (op.keyedOut contract w).1 (op.keyedOut contract w).2 := by
  cases op with
  | mirror kind freshness e =>
    simp only [keyedOut]
    split_ifs with hfresh
    · cases hm : w.db.mirror contract kind freshness (.raw 1) e with
      | some db =>
        simp only [carriedOut, hm]
        exact .inr ⟨true, db, ⟨.raw 1, hfresh, by rw [hm]; exact ⟨rfl, rfl⟩⟩, rfl, .inl rfl⟩
      | none =>
        simp only [carriedOut, hm]
        exact .inr ⟨false, w.db, ⟨.raw 1, hfresh, by rw [hm]; exact ⟨rfl, rfl⟩⟩, rfl, .inl rfl⟩
    · exact .inl ⟨⟨_, rfl⟩, rfl⟩
  | cursor => exact @BridgeOp.carriedOut_step contract .cursor w
  | pull after limit => exact @BridgeOp.carriedOut_step contract (.pull after limit) w
  | blocked subject sequence =>
    exact @BridgeOp.carriedOut_step contract (.blocked subject sequence) w
  | defer e => exact @BridgeOp.carriedOut_step contract (.defer e) w
  | parked => exact @BridgeOp.carriedOut_step contract .parked w
  | delete eventId => exact @BridgeOp.carriedOut_step contract (.delete eventId) w
  | advance start next => exact @BridgeOp.carriedOut_step contract (.advance start next) w

/-- The sample's cycle: an owner is created. -/
def sampleSeated : BridgeProg Unit × BridgeWorld :=
  (drainBridge ⟨fun _ => true⟩ sampleContract 1).advance (BridgeOp.keyedOut sampleContract) 5
    sampleUnpulled

theorem owner_roster_complete_sample :
    sampleSeated.2.db.owns (.raw 1) = true ∧ sampleSeated.2.db.journal.length = 1 ∧
      sampleSeated.2.db.owns (.raw 1) = ownersOf sampleSeated.2.db.journal (.raw 1) := by
  refine ⟨by decide +kernel, by decide +kernel, ?_⟩
  have hinit : sampleUnpulled.db.Unseated := ⟨⟨.nil, .nil⟩, rfl, fun u hu => by cases hu⟩
  have hrun : RosterRuns sampleContract (sampleUnpulled, []) (sampleSeated.2, [sampleSeated.1]) :=
    .head ⟨.start ⟨⟨fun _ => true⟩, 1, rfl⟩, trivial⟩
      (Runs.advance BridgeOp.keyedOut_step 5 _ _ fun _ _ => trivial)
  exact (owner_roster_complete hinit hrun).1 _

end Banking
