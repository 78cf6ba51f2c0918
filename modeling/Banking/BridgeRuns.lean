import Banking.Bridge
import Banking.Lib.Sequenced

/-! # The mirror is the fold of the events

What the tables and concierge's stream satisfy together (`BridgeWorld.Sound`): a row mirrors the
events of its subject up to its sequence, whatever the cursor passed is mirrored or parked, and
whatever is taken of a subject has everything before it taken. Every step of any number of
consumers keeps it, whatever fails and whoever signs in meanwhile. -/

namespace Banking

open Interactive

/-! ## What a mirror is -/

/-- What is mirrored of a user. -/
structure Mirror where
  frozen : Bool
  kycLevel : Int
  role : String
  permissions : Option (List String)
  tokenFloor : Int
deriving DecidableEq, Repr

/-- What a user concierge said nothing of holds. -/
def Mirror.unset : Mirror := ⟨false, 0, "investor", none, 0⟩

/-- What one event makes of a mirror. -/
def Mirror.advance (contract : BridgeContract) (m : Mirror) (e : UserLifecycleEvent) : Mirror :=
  let stated := { m with permissions := e.seatPermissions.or m.permissions }
  match contract.kind e.kind with
  | none => m
  | some .created =>
    { stated with kycLevel := e.kycLevel.toInt, role := (UserRole.parseOrDefault e.role).asStr }
  | some .suspended => { stated with frozen := true }
  | some .reinstated => { stated with frozen := false }
  | some .kycChanged => { stated with kycLevel := e.kycLevel.toInt }
  | some .roleChanged => { stated with role := (UserRole.parseOrDefault e.role).asStr }
  | some .permissionsChanged => stated
  | some .sessionsRevoked => { stated with tokenFloor := max m.tokenFloor e.tokenVersion.toInt }

/-- What a run of events makes of it. -/
def Mirror.fold (contract : BridgeContract) (es : List UserLifecycleEvent) : Mirror :=
  es.foldl (Mirror.advance contract) .unset

/-- What a row mirrors. -/
def UserRow.mirror (u : UserRow) : Mirror :=
  ⟨u.frozen, u.kycLevel, u.role, u.permissions, u.conciergeTokenVersion⟩

/-- What is mirrored of a subject. -/
def BridgeDb.mirrorOf (db : BridgeDb) (subject : String) : Mirror :=
  ((db.user? subject).map (·.mirror)).getD .unset

/-- How far a subject's events are mirrored. -/
def BridgeDb.lastOf (db : BridgeDb) (subject : String) : Int :=
  ((db.user? subject).map (·.lastLifecycleSequence)).getD 0

/-- The events that changed a subject's row, oldest first. -/
def BridgeDb.appliedTo (db : BridgeDb) (subject : String) : List UserLifecycleEvent :=
  (db.applied.filter (·.authSubject = subject)).reverse

/-! ## Copies of an event -/

/-- One event, as it was sent or as it was parked: all that a mirror reads. -/
structure UserLifecycleEvent.Alike (e x : UserLifecycleEvent) : Prop where
  eventId : e.eventId = x.eventId
  authSubject : e.authSubject = x.authSubject
  kind : e.kind = x.kind
  sequence : e.sequence = x.sequence
  kycLevel : e.kycLevel = x.kycLevel
  role : e.role = x.role
  tokenVersion : e.tokenVersion = x.tokenVersion
  seatPermissions : e.seatPermissions = x.seatPermissions

section Copies

variable {contract : BridgeContract} {e x : UserLifecycleEvent}

theorem UserLifecycleEvent.Alike.refl (e : UserLifecycleEvent) : e.Alike e :=
  ⟨rfl, rfl, rfl, rfl, rfl, rfl, rfl, rfl⟩

theorem UserLifecycleEvent.Alike.same_order (h : e.Alike x) : e.order = x.order :=
  congrArg BitVec.toInt h.sequence

/-- **A parked event loses nothing a mirror reads.** -/
theorem UserLifecycleEvent.Alike.replayed (h : e.Alike x) :
    (e.parked contract).intoEvent.Alike x := by
  obtain ⟨hid, hsubject, hkind, hsequence, hlevel, hrole, hversion, hseat⟩ := h
  exact ⟨hid, hsubject, hkind, by
      simpa [parked, DeferredEvent.intoEvent, UserLifecycleEvent.order] using hsequence,
    by simpa [parked, DeferredEvent.intoEvent] using hlevel, hrole,
    by simpa [parked, DeferredEvent.intoEvent] using hversion, hseat⟩

theorem UserLifecycleEvent.Alike.advance (h : e.Alike x) (m : Mirror) :
    m.advance contract e = m.advance contract x := by
  obtain ⟨-, -, hkind, -, hlevel, hrole, hversion, hseat⟩ := h
  simp only [Mirror.advance, hkind, hlevel, hrole, hversion, hseat]

end Copies

/-! ## One event's transaction -/

section Db

variable {contract : BridgeContract} {db db' : BridgeDb} {e : UserLifecycleEvent}
  {kind : LifecycleKind} {freshness : Freshness} {id : Uuid} {subject : String} {u : UserRow}

/-- A rewriting of rows that leaves their subjects alone. -/
theorem BridgeDb.user?_map {f : UserRow → UserRow} (hf : ∀ u, (f u).authSubject = u.authSubject)
    (users : List UserRow) :
    (users.map f).find? (·.authSubject = subject) =
      (users.find? (·.authSubject = subject)).map f := by
  rw [List.find?_map]
  simp only [Function.comp_def, hf]

theorem BridgeDb.user?_some (h : db.user? subject = some u) :
    u ∈ db.users ∧ u.authSubject = subject :=
  ⟨List.mem_of_find?_eq_some h, by simpa using List.find?_some h⟩

@[simp] theorem BridgeDb.user?_done : (db.done e).user? subject = db.user? subject := rfl

@[simp] theorem BridgeDb.user?_recordRosterChange {fromRole toRole : String} :
    (db.recordRosterChange id fromRole toRole).user? subject = db.user? subject := by
  unfold recordRosterChange
  split_ifs <;> rfl

/-- The row an event leaves. -/
theorem UserRow.mutated_spec (freshness : Freshness) (u : UserRow)
    (hkind : contract.kind e.kind = some kind) :
    (u.mutated contract kind freshness e).mirror = u.mirror.advance contract e ∧
      (u.mutated contract kind freshness e).authSubject = u.authSubject ∧
      (u.mutated contract kind freshness e).lastLifecycleSequence = e.order := by
  have hrefresh : ∀ u : UserRow, (u.refreshProfileSnapshot contract e).mirror = u.mirror ∧
      (u.refreshProfileSnapshot contract e).authSubject = u.authSubject := by
    intro u
    unfold refreshProfileSnapshot
    split <;> exact ⟨rfl, rfl⟩
  have happly : ∀ u : UserRow,
      ((u.seatPermissions e).applyKind contract kind e).mirror = u.mirror.advance contract e ∧
        ((u.seatPermissions e).applyKind contract kind e).authSubject = u.authSubject ∧
        ((u.seatPermissions e).applyKind contract kind e).lastLifecycleSequence = e.order := by
    intro u
    unfold seatPermissions Mirror.advance
    rw [hkind]
    cases e.seatPermissions <;> cases kind <;> exact ⟨rfl, rfl, rfl⟩
  unfold mutated
  split_ifs
  · obtain ⟨hmirror, hsubject⟩ := hrefresh u
    obtain ⟨hmirror', hsubject', hlast⟩ := happly (u.refreshProfileSnapshot contract e)
    exact ⟨by rw [hmirror', hmirror], hsubject'.trans hsubject, hlast⟩
  · exact happly u

/-- The row a CREATED makes. -/
theorem UserRow.seated_mirror (hkind : contract.kind e.kind = some .created) :
    (UserRow.seated contract id e).mirror = Mirror.unset.advance contract e := by
  unfold Mirror.advance
  rw [hkind]
  cases hseat : e.seatPermissions <;> simp [seated, mirror, Mirror.unset, hseat]

/-- An event taken by the tables: dropped, because its subject's row is past it already, or its
subject's row is now what it makes of it. -/
inductive BridgeDb.Takes (contract : BridgeContract) (db : BridgeDb) (e : UserLifecycleEvent) :
    BridgeDb → Prop
  | redelivered (h : e.order ≤ db.lastOf e.authSubject) : Takes contract db e (db.done e)
  | advanced {db' : BridgeDb} (hlt : db.lastOf e.authSubject < e.order ∨
        (db.user? e.authSubject).isNone)
      (hmine : ∃ u, db'.user? e.authSubject = some u ∧
        u.mirror = (db.mirrorOf e.authSubject).advance contract e ∧
        u.lastLifecycleSequence = e.order)
      (hothers : ∀ s, s ≠ e.authSubject → db'.user? s = db.user? s)
      (hdeferred : db'.deferred = db.deferred) (hposition : db'.position = db.position)
      (happlied : db'.applied = e :: db.applied) (htaken : db'.taken = e.eventId :: db.taken) :
      Takes contract db e db'

theorem BridgeDb.recordRosterChange_rest (db : BridgeDb) (id : Uuid)
    (fromRole toRole : String) :
    (db.recordRosterChange id fromRole toRole).deferred = db.deferred ∧
      (db.recordRosterChange id fromRole toRole).position = db.position ∧
      (db.recordRosterChange id fromRole toRole).applied = db.applied ∧
      (db.recordRosterChange id fromRole toRole).taken = db.taken := by
  unfold recordRosterChange
  split_ifs <;> exact ⟨rfl, rfl, rfl, rfl⟩

/-- An event that advances a row. -/
theorem BridgeDb.Takes.mutate (hkind : contract.kind e.kind = some kind)
    (hu : db.user? e.authSubject = some u) (hlt : u.lastLifecycleSequence < e.order) :
    db.Takes contract e ((db.mutate contract kind freshness e u).done e) := by
  obtain ⟨hmirror, hsubject, hlast⟩ := UserRow.mutated_spec freshness u hkind
  obtain ⟨hmem, hmine⟩ := user?_some hu
  let g : UserRow → UserRow := fun r =>
    if r.authSubject = e.authSubject then u.mutated contract kind freshness e else r
  have hg : ∀ r, (g r).authSubject = r.authSubject := by
    intro r
    by_cases hr : r.authSubject = e.authSubject
    · simp only [g, if_pos hr, hsubject, hmine, hr]
    · simp only [g, if_neg hr]
  have huser : ∀ s, (db.mutate contract kind freshness e u).user? s = (db.user? s).map g := by
    intro s
    have hmap : ({ db with users := db.users.map g, applied := e :: db.applied } :
        BridgeDb).user? s = (db.user? s).map g := user?_map hg db.users
    unfold BridgeDb.mutate
    cases kind <;> first | exact hmap | exact user?_recordRosterChange.trans hmap
  have hrest : (db.mutate contract kind freshness e u).deferred = db.deferred ∧
      (db.mutate contract kind freshness e u).position = db.position ∧
      (db.mutate contract kind freshness e u).applied = e :: db.applied ∧
      (db.mutate contract kind freshness e u).taken = db.taken := by
    unfold BridgeDb.mutate
    cases kind <;> first | exact ⟨rfl, rfl, rfl, rfl⟩ | exact recordRosterChange_rest _ _ _ _
  obtain ⟨hdeferred, hposition, happlied, htaken⟩ := hrest
  refine .advanced (.inl (by simp [lastOf, hu, hlt])) ⟨g u, ?_, ?_, ?_⟩ (fun s hs => ?_) hdeferred
    hposition happlied (congrArg _ htaken)
  · rw [user?_done, huser, hu, Option.map_some]
  · simp only [g, if_pos hmine, hmirror, mirrorOf, hu, Option.map_some, Option.getD_some]
  · simp only [g, if_pos hmine, hlast]
  · rw [user?_done, huser]
    cases hr : db.user? s with
    | none => rfl
    | some r => simp [g, (user?_some hr).2, hs]

/-- **What mirroring an event does**: it takes the event, unless its subject has no row. -/
theorem BridgeDb.mirror_takes (hkind : contract.kind e.kind = some kind)
    (h : db.mirror contract kind freshness id e = some db') : db.Takes contract e db' := by
  unfold BridgeDb.mirror BridgeDb.seat at h
  by_cases hseat : kind = .created ∧ (db.user? e.authSubject).isNone
  · obtain ⟨rfl, hnone⟩ := hseat
    rw [if_pos ⟨rfl, hnone⟩] at h
    -- the new row is at the event's own sequence, so the guard drops the rest
    have hfind : ({ db with
        users := UserRow.seated contract id e :: db.users, applied := e :: db.applied } :
        BridgeDb).user? e.authSubject = some (UserRow.seated contract id e) := by
      simp [user?, UserRow.seated]
    dsimp only at h
    rw [user?_recordRosterChange, hfind] at h
    dsimp only at h
    rw [if_pos (by simp [UserRow.seated])] at h
    cases h
    have hunset : db.mirrorOf e.authSubject = .unset := by
      rw [mirrorOf, Option.isNone_iff_eq_none.mp hnone]
      rfl
    obtain ⟨hdeferred, hposition, happlied, htaken⟩ := recordRosterChange_rest
      { db with users := UserRow.seated contract id e :: db.users, applied := e :: db.applied } id
      UserRole.investor.asStr (UserRole.parseOrDefault e.role).asStr
    refine .advanced (.inr hnone) ⟨UserRow.seated contract id e, ?_, ?_, rfl⟩ (fun s hs => ?_)
      hdeferred hposition happlied (congrArg _ htaken)
    · rw [user?_done, user?_recordRosterChange, hfind]
    · rw [hunset, UserRow.seated_mirror hkind]
    · rw [user?_done, user?_recordRosterChange]
      simp [user?, UserRow.seated, Ne.symm hs]
  · rw [if_neg hseat] at h
    dsimp only at h
    cases hu : db.user? e.authSubject with
    | none => simp [hu] at h
    | some u =>
      rw [hu] at h
      dsimp only at h
      split_ifs at h with hle
      · cases h
        exact .redelivered (by simpa [lastOf, hu] using hle)
      · cases h
        exact .mutate hkind hu (by omega)

end Db

/-! ## Concierge's stream -/

/-- An event of the stream at its position. -/
structure StreamEntry where
  position : Int
  event : UserLifecycleEvent

/-- Whom it is about. -/
def StreamEntry.subject (x : StreamEntry) : String := x.event.authSubject

/-- Its place among the events of its subject. -/
def StreamEntry.order (x : StreamEntry) : Int := x.event.order

/-- **Concierge's stream**: positions only grow, every event has an id of its own, and the events of
one subject are numbered from one on in increasing order. -/
structure LifecycleStream where
  entries : List StreamEntry
  positions : entries.Pairwise fun a b => a.position < b.position
  positive : ∀ x ∈ entries, 0 < x.position
  ids : (entries.map (·.event.eventId)).Nodup
  ordered : Sequenced.Increasing StreamEntry.subject StreamEntry.order entries
  numbered : ∀ x ∈ entries, 0 < x.order

/-- The events after a position. -/
def LifecycleStream.after (s : LifecycleStream) (position : Int) : List StreamEntry :=
  s.entries.filter fun x => position < x.position

/-- How concierge answers a pull: the next events, a limited number of them, and a position no
further than the last of them. -/
def LifecycleStream.Serves (s : LifecycleStream) (after : Int) (limit : Nat)
    (r : PullUserLifecycleResponse) : Prop :=
  ∃ n ≤ limit, r.events = ((s.after after).take n).map (·.event) ∧
    (r.nextPosition ≤ after ∨ ∃ x ∈ (s.after after).take n, r.nextPosition ≤ x.position)

/-- The events of a subject, in order. -/
def LifecycleStream.about (s : LifecycleStream) (subject : String) : List StreamEntry :=
  Sequenced.about StreamEntry.subject s.entries subject

/-- Those of them up to a sequence. -/
def LifecycleStream.upTo (s : LifecycleStream) (subject : String) (n : Int) : List StreamEntry :=
  Sequenced.upTo StreamEntry.subject StreamEntry.order s.entries subject n

section Stream

variable {s s' : LifecycleStream} {x y : StreamEntry}

/-- An id names one event. -/
theorem LifecycleStream.eq_of_id (hx : x ∈ s.entries) (hy : y ∈ s.entries)
    (hid : x.event.eventId = y.event.eventId) : x = y :=
  List.inj_on_of_nodup_map s.ids hx hy hid

/-- What a stream grows by comes after what was there: further on, and later of its subject. -/
theorem LifecycleStream.grown (hgrown : s.entries <+: s'.entries) (hx : x ∈ s.entries)
    (hy : y ∈ s'.entries) (hnew : y ∉ s.entries) :
    x.position < y.position ∧ (x.subject = y.subject → x.order < y.order) := by
  obtain ⟨more, hmore⟩ := hgrown
  have hy' : y ∈ more := by
    rw [← hmore] at hy
    exact (List.mem_append.mp hy).resolve_left hnew
  have hpositions := s'.positions
  have hordered := s'.ordered
  rw [← hmore] at hpositions
  rw [Sequenced.Increasing, ← hmore] at hordered
  exact ⟨(List.pairwise_append.mp hpositions).2.2 x hx y hy',
    (List.pairwise_append.mp hordered).2.2 x hx y hy'⟩

/-- A stream is what is up to a position and what is after it. -/
theorem LifecycleStream.split (s : LifecycleStream) (p : Int) :
    s.entries.filter (fun x => x.position ≤ p) ++ s.after p = s.entries := by
  have hsplit := Sequenced.filter_append_filter_not (p := fun x : StreamEntry => x.position ≤ p)
    (s.positions.imp fun {a b} hlt hb => by
      simp only [decide_eq_true_eq] at hb ⊢
      omega)
  have hafter : s.after p = s.entries.filter fun x => !decide (x.position ≤ p) :=
    List.filter_congr fun x _ => by
      rw [← decide_not, decide_eq_decide]
      omega
  rw [hafter]
  exact hsplit

/-- Where a stream begins with what is up to `x`, what is earlier of its subject is before it. -/
theorem LifecycleStream.mem_of_order {front : List StreamEntry} (h : front ++ [x] <+: s.entries)
    (hy : y ∈ s.entries) (hsubject : y.subject = x.subject) (hlt : y.order < x.order) :
    y ∈ front := by
  obtain ⟨rest, hrest⟩ := h
  have hordered := s.ordered
  rw [Sequenced.Increasing, ← hrest] at hordered
  rw [← hrest] at hy
  rcases List.mem_append.mp hy with hy | hy
  · rcases List.mem_append.mp hy with hy | hy
    · exact hy
    · obtain rfl := List.mem_singleton.mp hy
      omega
  · have := (List.pairwise_append.mp hordered).2.2 x (by simp) y hy hsubject.symm
    omega

/-- Where a stream begins with `front`, so it does with whatever is not further on. -/
theorem LifecycleStream.mem_of_position {front : List StreamEntry} (h : front <+: s.entries)
    (hx : x ∈ front) (hy : y ∈ s.entries) (hle : y.position ≤ x.position) : y ∈ front := by
  obtain ⟨rest, hrest⟩ := h
  have hpositions := s.positions
  rw [← hrest] at hpositions hy
  rcases List.mem_append.mp hy with hy | hy
  · exact hy
  · have := (List.pairwise_append.mp hpositions).2.2 x hx y hy
    omega

end Stream

/-! ## The tables and the stream together -/

/-- The tables beside the stream. -/
structure BridgeWorld where
  db : BridgeDb
  stream : LifecycleStream

/-- A subject's row is past an event. -/
def BridgeWorld.Mirrored (w : BridgeWorld) (x : StreamEntry) : Prop :=
  x.order ≤ w.db.lastOf x.subject

/-- An event is mirrored or parked. -/
def BridgeWorld.Taken (w : BridgeWorld) (x : StreamEntry) : Prop :=
  w.Mirrored x ∨ ∃ d ∈ w.db.deferred, d.eventId = x.event.eventId

/-- Every earlier event of an event's subject is mirrored or parked. -/
def BridgeWorld.Reached (w : BridgeWorld) (x : StreamEntry) : Prop :=
  ∀ y ∈ w.stream.entries, y.subject = x.subject → y.order < x.order → w.Taken y

/-- Every earlier event of an event's subject is mirrored. -/
def BridgeWorld.Cleared (w : BridgeWorld) (x : StreamEntry) : Prop :=
  ∀ y ∈ w.stream.entries, y.subject = x.subject → y.order < x.order → w.Mirrored y

/-- A parked row is a copy of an event of the stream, with nothing of its subject left out before
it. -/
def BridgeWorld.Waiting (contract : BridgeContract) (w : BridgeWorld) (d : DeferredEvent) : Prop :=
  ∃ x ∈ w.stream.entries, ∃ e : UserLifecycleEvent, e.Alike x.event ∧ d = e.parked contract ∧
    w.Reached x

/-- The events of a subject the consumer was done with, in order. -/
def BridgeWorld.pulled (w : BridgeWorld) (subject : String) : List StreamEntry :=
  (w.stream.about subject).filter fun x => x.event.eventId ∈ w.db.taken

/-- **What the tables keep of the stream.** -/
structure BridgeWorld.Sound (contract : BridgeContract) (w : BridgeWorld) : Prop where
  cursor : ∀ x ∈ w.stream.entries, x.position ≤ w.db.position → w.Taken x
  furthest : w.db.position ≤ 0 ∨ ∃ x ∈ w.stream.entries, w.db.position ≤ x.position
  parked : ∀ d ∈ w.db.deferred, w.Waiting contract d
  mirrors : ∀ s, w.db.mirrorOf s =
    Mirror.fold contract ((w.stream.upTo s (w.db.lastOf s)).map (·.event))
  last : ∀ s, w.db.lastOf s = 0 ∨
    ∃ x ∈ w.stream.entries, x.subject = s ∧ w.db.lastOf s = x.order
  applied : ∀ s, (w.db.appliedTo s).map (·.eventId) =
    (w.stream.upTo s (w.db.lastOf s)).map (·.event.eventId)
  taken : ∀ x ∈ w.stream.entries, x.event.eventId ∈ w.db.taken ↔ w.Taken x
  known : ∀ i ∈ w.db.taken, ∃ x ∈ w.stream.entries, x.event.eventId = i

/-- What the consumers rely on each other for. -/
structure BridgeWorld.Later (w w' : BridgeWorld) : Prop where
  stream : w.stream.entries <+: w'.stream.entries
  mirrored : ∀ s, w.db.lastOf s ≤ w'.db.lastOf s
  taken : ∀ x ∈ w.stream.entries, w.Taken x → w'.Taken x

section World

variable {contract : BridgeContract} {w w' w'' : BridgeWorld} {x y : StreamEntry}
  {e : UserLifecycleEvent} {d : DeferredEvent}

theorem BridgeWorld.Later.refl (w : BridgeWorld) : w.Later w :=
  ⟨List.prefix_refl _, fun _ => Int.le_refl _, fun _ _ h => h⟩

theorem BridgeWorld.Later.mem (h : w.Later w') (hx : x ∈ w.stream.entries) :
    x ∈ w'.stream.entries := h.stream.subset hx

theorem BridgeWorld.Later.trans (h : w.Later w') (h' : w'.Later w'') : w.Later w'' :=
  ⟨h.stream.trans h'.stream, fun s => (h.mirrored s).trans (h'.mirrored s),
    fun x hx ht => h'.taken x (h.mem hx) (h.taken x hx ht)⟩

theorem BridgeWorld.Mirrored.later (hx : w.Mirrored x) (h : w.Later w') : w'.Mirrored x :=
  Int.le_trans hx (h.mirrored _)

/-- What comes of a subject later comes after. -/
theorem BridgeWorld.Reached.later (hx : x ∈ w.stream.entries) (hr : w.Reached x)
    (h : w.Later w') : w'.Reached x := by
  intro y hy hsubject hlt
  by_cases hold : y ∈ w.stream.entries
  · exact h.taken y hold (hr y hold hsubject hlt)
  · have hgrown := (LifecycleStream.grown h.stream hx hy hold).2 hsubject.symm
    omega

theorem BridgeWorld.Cleared.later (hx : x ∈ w.stream.entries) (hc : w.Cleared x)
    (h : w.Later w') : w'.Cleared x := by
  intro y hy hsubject hlt
  by_cases hold : y ∈ w.stream.entries
  · exact (hc y hold hsubject hlt).later h
  · have hgrown := (LifecycleStream.grown h.stream hx hy hold).2 hsubject.symm
    omega

theorem BridgeWorld.Waiting.later (hd : w.Waiting contract d) (h : w.Later w') :
    w'.Waiting contract d := by
  obtain ⟨x, hx, e, halike, hparked, hr⟩ := hd
  exact ⟨x, h.mem hx, e, halike, hparked, hr.later hx h⟩

/-! ## What each step keeps -/

/-- The consumer is done with an event that is mirrored or parked. -/
theorem BridgeWorld.Sound.done (h : w.Sound contract) (hx : x ∈ w.stream.entries)
    (halike : e.Alike x.event) (ht : w.Taken x) :
    BridgeWorld.Sound contract { w with db := w.db.done e } ∧
      w.Later { w with db := w.db.done e } := by
  obtain ⟨hcursor, hfurthest, hparked, hmirrors, hlast, happlied, htaken, hknown⟩ := h
  refine ⟨⟨hcursor, hfurthest, hparked, hmirrors, hlast, happlied, fun y hy => ?_, fun i hi => ?_⟩,
    List.prefix_refl _, fun _ => Int.le_refl _, fun _ _ h => h⟩
  · change _ ∈ e.eventId :: w.db.taken ↔ w.Taken y
    rw [List.mem_cons, htaken y hy, halike.eventId]
    constructor
    · rintro (hid | hy')
      · exact LifecycleStream.eq_of_id hx hy hid.symm ▸ ht
      · exact hy'
    · exact .inr
  · rcases List.mem_cons.mp hi with rfl | hi
    · exact ⟨x, hx, halike.eventId.symm⟩
    · exact hknown i hi

/-- **An event mirrored**, with everything of its subject before it mirrored. -/
theorem BridgeWorld.Sound.mirror (h : w.Sound contract) (hx : x ∈ w.stream.entries)
    (halike : e.Alike x.event)
    (hbefore : w.Cleared x) {db : BridgeDb} (htakes : w.db.Takes contract e db) :
    BridgeWorld.Sound contract { w with db } ∧ w.Later { w with db } ∧
      BridgeWorld.Mirrored { w with db } x := by
  have hsubject : e.authSubject = x.subject := halike.authSubject
  have horder : e.order = x.order := halike.same_order
  cases htakes with
  | redelivered hle =>
    have hmirrored : w.Mirrored x := by
      rw [BridgeWorld.Mirrored, ← horder, ← hsubject]
      exact hle
    obtain ⟨hsound, hlater⟩ := h.done hx halike (.inl hmirrored)
    exact ⟨hsound, hlater, hmirrored⟩
  | advanced hlt hmine hothers hdeferred hposition happlied htaken =>
    obtain ⟨u, hu, humirror, hulast⟩ := hmine
    rw [hsubject] at hlt hu humirror hothers
    rw [horder] at hulast hlt
    -- the subject's row moves from its sequence to the event's
    have hlast : w.db.lastOf x.subject < x.order := by
      rcases hlt with hlt | hnone
      · exact hlt
      · rw [BridgeDb.lastOf, Option.isNone_iff_eq_none.mp hnone]
        exact w.stream.numbered x hx
    have hlastMine : db.lastOf x.subject = x.order := by simp [BridgeDb.lastOf, hu, hulast]
    have hmirrorMine : db.mirrorOf x.subject =
        (w.db.mirrorOf x.subject).advance contract x.event := by
      simp [BridgeDb.mirrorOf, hu, humirror, halike.advance]
    have hlastOther : ∀ s, s ≠ x.subject → db.lastOf s = w.db.lastOf s := fun s hs => by
      simp only [BridgeDb.lastOf, hothers s hs]
    have hmirrorOther : ∀ s, s ≠ x.subject → db.mirrorOf s = w.db.mirrorOf s := fun s hs => by
      simp only [BridgeDb.mirrorOf, hothers s hs]
    have hnext : w.stream.upTo x.subject x.order =
        w.stream.upTo x.subject (w.db.lastOf x.subject) ++ [x] :=
      w.stream.ordered.upTo_next hx rfl hlast fun y hy hs hlt => by
        have := hbefore y hy hs hlt
        rwa [BridgeWorld.Mirrored, hs] at this
    have hlater : w.Later { w with db } := by
      have hmono : ∀ s, w.db.lastOf s ≤ db.lastOf s := by
        intro s
        by_cases hs : s = x.subject
        · rw [hs, hlastMine]
          exact Int.le_of_lt hlast
        · rw [hlastOther s hs]
      refine ⟨List.prefix_refl _, hmono, fun y hy ht => ?_⟩
      rcases ht with hm | ⟨d, hd, hid⟩
      · exact .inl (Int.le_trans hm (hmono _))
      · exact .inr ⟨d, hdeferred ▸ hd, hid⟩
    have hmirrored : BridgeWorld.Mirrored { w with db } x := Int.le_of_eq hlastMine.symm
    refine ⟨⟨fun y hy hp => ?_, ?_, fun d hd => ?_, fun s => ?_, fun s => ?_, fun s => ?_,
      fun y hy => ?_, fun i hi => ?_⟩, hlater, hmirrored⟩
    · exact hlater.taken y hy (h.cursor y hy (hposition ▸ hp))
    · exact hposition ▸ h.furthest
    · exact (h.parked d (hdeferred ▸ hd)).later hlater
    · by_cases hs : s = x.subject
      · rw [hs]
        change db.mirrorOf x.subject = Mirror.fold contract
          ((w.stream.upTo x.subject (db.lastOf x.subject)).map (·.event))
        rw [hmirrorMine, hlastMine, hnext, h.mirrors, List.map_append, Mirror.fold, Mirror.fold,
          List.foldl_append]
        rfl
      · change db.mirrorOf s = Mirror.fold contract
          ((w.stream.upTo s (db.lastOf s)).map (·.event))
        rw [hmirrorOther s hs, hlastOther s hs]
        exact h.mirrors s
    · by_cases hs : s = x.subject
      · exact .inr ⟨x, hx, hs.symm, hs ▸ hlastMine⟩
      · change db.lastOf s = 0 ∨ ∃ y ∈ w.stream.entries, y.subject = s ∧ db.lastOf s = y.order
        rw [hlastOther s hs]
        exact h.last s
    · have happlied' := h.applied s
      change (db.appliedTo s).map _ = (w.stream.upTo s (db.lastOf s)).map _
      rw [BridgeDb.appliedTo] at happlied' ⊢
      rw [happlied]
      by_cases hs : s = x.subject
      · rw [List.filter_cons_of_pos (by simp [hsubject, hs]), List.reverse_cons, List.map_append,
          happlied', hs, hlastMine, hnext, List.map_append, List.map_singleton, List.map_singleton,
          halike.eventId]
      · rw [List.filter_cons_of_neg (by simpa [hsubject] using Ne.symm hs), hlastOther s hs]
        exact happlied'
    · change _ ∈ db.taken ↔ _
      rw [htaken, List.mem_cons, h.taken y hy, halike.eventId]
      constructor
      · rintro (hid | ht)
        · exact LifecycleStream.eq_of_id hx hy hid.symm ▸ .inl hmirrored
        · exact hlater.taken y hy ht
      · rintro (hm | ⟨d, hd, hid⟩)
        · by_cases hs : y.subject = x.subject
          · have hle : y.order ≤ x.order := by
              have hm : y.order ≤ db.lastOf y.subject := hm
              rwa [hs, hlastMine] at hm
            rcases Int.lt_or_eq_of_le hle with hlt | heq
            · exact .inr (.inl (hbefore y hy hs hlt))
            · exact .inl (by rw [w.stream.ordered.eq_of_seq hy hx hs heq])
          · have hm : y.order ≤ db.lastOf y.subject := hm
            rw [hlastOther _ hs] at hm
            exact .inr (.inl hm)
        · exact .inr (.inr ⟨d, hdeferred ▸ hd, hid⟩)
    · change i ∈ db.taken at hi
      rw [htaken] at hi
      rcases List.mem_cons.mp hi with rfl | hi
      · exact ⟨x, hx, halike.eventId.symm⟩
      · exact h.known i hi

/-- **An event parked**, with everything of its subject before it taken. -/
theorem BridgeWorld.Sound.defer (h : w.Sound contract) (hx : x ∈ w.stream.entries)
    (halike : e.Alike x.event) (hr : w.Reached x) :
    BridgeWorld.Sound contract { w with db := w.db.defer contract e } ∧
      w.Later { w with db := w.db.defer contract e } ∧
      BridgeWorld.Taken { w with db := w.db.defer contract e } x := by
  unfold BridgeDb.defer
  by_cases hany : w.db.deferred.any (·.eventId = e.eventId) = true
  · rw [if_pos hany]
    obtain ⟨d, hd, hid⟩ := List.any_eq_true.mp hany
    have ht : w.Taken x := .inr ⟨d, hd, (of_decide_eq_true hid).trans halike.eventId⟩
    obtain ⟨hsound, hlater⟩ := h.done hx halike ht
    exact ⟨hsound, hlater, ht⟩
  · rw [if_neg hany]
    let pushed : BridgeDb := { w.db with deferred := w.db.deferred ++ [e.parked contract] }
    have hlater : w.Later { w with db := pushed.done e } := by
      refine ⟨List.prefix_refl _, fun _ => Int.le_refl _, fun y _ ht => ?_⟩
      rcases ht with hm | ⟨d, hd, hid⟩
      · exact .inl hm
      · exact .inr ⟨d, List.mem_append_left _ hd, hid⟩
    have ht : BridgeWorld.Taken { w with db := pushed.done e } x :=
      .inr ⟨e.parked contract, by simp [pushed, BridgeDb.done], halike.eventId⟩
    refine ⟨⟨fun y hy hp => hlater.taken y hy (h.cursor y hy hp), h.furthest, fun d hd => ?_,
      h.mirrors, h.last, h.applied, fun y hy => ?_, fun i hi => ?_⟩, hlater, ht⟩
    · rcases List.mem_append.mp hd with hd | hd
      · exact (h.parked d hd).later hlater
      · obtain rfl := List.mem_singleton.mp hd
        exact ⟨x, hx, e, halike, rfl, hr.later hx hlater⟩
    · change _ ∈ e.eventId :: w.db.taken ↔ _
      rw [List.mem_cons, h.taken y hy, halike.eventId]
      constructor
      · rintro (hid | hy')
        · exact LifecycleStream.eq_of_id hx hy hid.symm ▸ ht
        · exact hlater.taken y hy hy'
      · rintro (hm | ⟨d, hd, hid⟩)
        · exact .inr (.inl hm)
        · rcases List.mem_append.mp hd with hd | hd
          · exact .inr (.inr ⟨d, hd, hid⟩)
          · obtain rfl := List.mem_singleton.mp hd
            exact .inl (hid.symm.trans halike.eventId)
    · rcases List.mem_cons.mp hi with rfl | hi
      · exact ⟨x, hx, halike.eventId.symm⟩
      · exact h.known i hi

/-- **A mirrored event's copy removed.** -/
theorem BridgeWorld.Sound.unpark (h : w.Sound contract) (hx : x ∈ w.stream.entries)
    (hm : w.Mirrored x) :
    BridgeWorld.Sound contract { w with db := w.db.unpark x.event.eventId } ∧
      w.Later { w with db := w.db.unpark x.event.eventId } := by
  have hiff : ∀ y ∈ w.stream.entries,
      BridgeWorld.Taken { w with db := w.db.unpark x.event.eventId } y ↔ w.Taken y := by
    intro y hy
    constructor
    · rintro (hm | ⟨d, hd, hid⟩)
      · exact .inl hm
      · exact .inr ⟨d, List.mem_of_mem_filter hd, hid⟩
    · rintro (hm | ⟨d, hd, hid⟩)
      · exact .inl hm
      · by_cases hmine : d.eventId = x.event.eventId
        · exact .inl (LifecycleStream.eq_of_id hx hy (hmine.symm.trans hid) ▸ hm)
        · exact .inr ⟨d, List.mem_filter.mpr ⟨hd, by simpa using hmine⟩, hid⟩
  have hlater : w.Later { w with db := w.db.unpark x.event.eventId } :=
    ⟨List.prefix_refl _, fun _ => Int.le_refl _, fun y hy ht => (hiff y hy).mpr ht⟩
  exact ⟨⟨fun y hy hp => hlater.taken y hy (h.cursor y hy hp), h.furthest,
    fun d hd => (h.parked d (List.mem_of_mem_filter hd)).later hlater, h.mirrors, h.last,
    h.applied, fun y hy => (h.taken y hy).trans (hiff y hy).symm, h.known⟩, hlater⟩

/-- **The cursor moved**, over events that are taken. -/
theorem BridgeWorld.Sound.advance (h : w.Sound contract) (start next : Int)
    (hbatch : ∀ y ∈ w.stream.entries, start < y.position → y.position ≤ next → w.Taken y)
    (hlast : ∃ x ∈ w.stream.entries, next ≤ x.position) :
    BridgeWorld.Sound contract { w with db := w.db.advanceCursor start next } ∧
      w.Later { w with db := w.db.advanceCursor start next } := by
  unfold BridgeDb.advanceCursor
  split_ifs with hstay hat
  · exact ⟨h, .refl w⟩
  · refine ⟨⟨fun y hy hp => ?_, .inr hlast, h.parked, h.mirrors, h.last, h.applied, h.taken,
      h.known⟩, List.prefix_refl _, fun _ => Int.le_refl _, fun _ _ ht => ht⟩
    by_cases hpast : y.position ≤ start
    · exact h.cursor y hy (hat ▸ hpast)
    · exact hbatch y hy (by omega) hp
  · exact ⟨h, .refl w⟩

/-! ## What the others do -/

/-- Users' rows rewritten with what they mirror left as it was. -/
theorem BridgeWorld.Sound.view (h : w.Sound contract) {db : BridgeDb}
    (hmirror : ∀ s, db.mirrorOf s = w.db.mirrorOf s) (hlast : ∀ s, db.lastOf s = w.db.lastOf s)
    (hrest : db = { w.db with users := db.users }) :
    w.Later { w with db } ∧ BridgeWorld.Sound contract { w with db } := by
  have hdeferred : db.deferred = w.db.deferred := by rw [hrest]
  have hposition : db.position = w.db.position := by rw [hrest]
  have happlied : db.applied = w.db.applied := by rw [hrest]
  have htaken : db.taken = w.db.taken := by rw [hrest]
  have hiff : ∀ y, BridgeWorld.Taken { w with db } y ↔ w.Taken y := by
    intro y
    unfold BridgeWorld.Taken BridgeWorld.Mirrored
    rw [hlast, hdeferred]
  have hlater : w.Later { w with db } :=
    ⟨List.prefix_refl _, fun s => Int.le_of_eq (hlast s).symm, fun y _ => (hiff y).mpr⟩
  refine ⟨hlater, fun y hy hp => ?_, hposition ▸ h.furthest, fun d hd => ?_, fun s => ?_,
    fun s => ?_, fun s => ?_, fun y hy => ?_, fun i hi => h.known i (htaken ▸ hi)⟩
  · exact (hiff y).mpr (h.cursor y hy (hposition ▸ hp))
  · exact (h.parked d (hdeferred ▸ hd)).later hlater
  · simpa only [hmirror, hlast] using h.mirrors s
  · simpa only [hlast] using h.last s
  · simpa only [hlast, BridgeDb.appliedTo, happlied] using h.applied s
  · simpa only [htaken, hiff y] using h.taken y hy

/-- A sign-in mirrors nothing. -/
theorem BridgeDb.provision_view (db : BridgeDb) (id : Uuid) (subject email : String)
    (emailVerified : Bool) (s : String) :
    (db.provision id subject email emailVerified).mirrorOf s = db.mirrorOf s ∧
      (db.provision id subject email emailVerified).lastOf s = db.lastOf s := by
  unfold BridgeDb.provision BridgeDb.mirrorOf BridgeDb.lastOf
  cases hu : db.user? subject with
  | some u =>
    let f : UserRow → UserRow := fun u =>
      if u.authSubject = subject then { u with email, emailVerified } else u
    have hf : ∀ u, (f u).authSubject = u.authSubject := fun u => by
      simp only [f]
      split_ifs <;> rfl
    have hmap : ({ db with users := db.users.map f } : BridgeDb).user? s =
        (db.user? s).map f := BridgeDb.user?_map hf db.users
    change ((BridgeDb.user? { db with users := db.users.map f } s).map _).getD _ = _ ∧
      ((BridgeDb.user? { db with users := db.users.map f } s).map _).getD _ = _
    rw [hmap]
    cases db.user? s with
    | none => exact ⟨rfl, rfl⟩
    | some r =>
      simp only [Option.map_some, Option.getD_some, f]
      split_ifs <;> exact ⟨rfl, rfl⟩
  | none =>
    by_cases hs : subject = s
    · subst hs
      simp only [hu]
      simp [BridgeDb.user?, UserRow.mirror, Mirror.unset]
    · simp [BridgeDb.user?, hs]

/-- The others: concierge appends to its stream, users sign in, and what is not mirrored changes. -/
inductive BridgeEnv : BridgeWorld → BridgeWorld → Prop
  | emitted (w : BridgeWorld) (x : StreamEntry) (s : LifecycleStream)
      (h : s.entries = w.stream.entries ++ [x]) : BridgeEnv w { w with stream := s }
  | signedIn (w : BridgeWorld) (id : Uuid) (subject email : String) (emailVerified : Bool) :
      BridgeEnv w { w with db := w.db.provision id subject email emailVerified }
  | revised (w : BridgeWorld) (f : UserRow → UserRow)
      (h : ∀ u, (f u).authSubject = u.authSubject ∧ (f u).mirror = u.mirror ∧
        (f u).lastLifecycleSequence = u.lastLifecycleSequence) :
      BridgeEnv w { w with db := { w.db with users := w.db.users.map f } }

/-- **A new event** leaves every promise standing. -/
theorem BridgeWorld.Sound.emitted (h : w.Sound contract) {s : LifecycleStream}
    (hs : s.entries = w.stream.entries ++ [x]) :
    w.Later { w with stream := s } ∧ BridgeWorld.Sound contract { w with stream := s } := by
  have hgrown : w.stream.entries <+: s.entries := ⟨[x], hs.symm⟩
  have hmem : x ∈ s.entries := by simp [hs]
  have hnew : x ∉ w.stream.entries := by
    intro hx
    have hids := s.ids
    rw [hs, List.map_append, List.nodup_append] at hids
    exact hids.2.2 _ (List.mem_map_of_mem hx) _ (by simp) rfl
  have holder : ∀ y ∈ w.stream.entries, y.position < x.position ∧
      (y.subject = x.subject → y.order < x.order) := fun y hy =>
    LifecycleStream.grown hgrown hy hmem hnew
  have hpast : w.db.lastOf x.subject < x.order := by
    rcases h.last x.subject with hzero | ⟨y, hy, hsubject, hlast⟩
    · rw [hzero]
      exact s.numbered x hmem
    · rw [hlast]
      exact (holder y hy).2 hsubject
  have hupTo : ∀ t, s.upTo t (w.db.lastOf t) = w.stream.upTo t (w.db.lastOf t) := by
    intro t
    rw [LifecycleStream.upTo, hs]
    exact Sequenced.upTo_append fun hx => hx ▸ hpast
  have hfresh : ∀ y ∈ w.stream.entries, y.event.eventId ≠ x.event.eventId := fun y hy hid =>
    hnew (LifecycleStream.eq_of_id (hgrown.subset hy) hmem hid ▸ hy)
  have hlater : w.Later { w with stream := s } :=
    ⟨hgrown, fun _ => Int.le_refl _, fun _ _ ht => ht⟩
  refine ⟨hlater, fun y hy hp => ?_, ?_, fun d hd => (h.parked d hd).later hlater, fun t => ?_,
    fun t => ?_, fun t => ?_, fun y hy => ?_, fun i hi => ?_⟩
  · change y ∈ s.entries at hy
    rw [hs] at hy
    rcases List.mem_append.mp hy with hy | hy
    · exact h.cursor y hy hp
    · obtain rfl := List.mem_singleton.mp hy
      have hpositive := s.positive y hmem
      have hp : y.position ≤ w.db.position := hp
      rcases h.furthest with hstart | ⟨z, hz, hfar⟩
      · omega
      · have := (holder z hz).1
        omega
  · exact h.furthest.imp id fun ⟨z, hz, hfar⟩ => ⟨z, hgrown.subset hz, hfar⟩
  · change w.db.mirrorOf t = Mirror.fold contract ((s.upTo t (w.db.lastOf t)).map (·.event))
    rw [hupTo]
    exact h.mirrors t
  · exact (h.last t).imp id fun ⟨z, hz, hz'⟩ => ⟨z, hgrown.subset hz, hz'⟩
  · change _ = (s.upTo t (w.db.lastOf t)).map _
    rw [hupTo]
    exact h.applied t
  · change y ∈ s.entries at hy
    rw [hs] at hy
    rcases List.mem_append.mp hy with hy | hy
    · exact h.taken y hy
    · obtain rfl := List.mem_singleton.mp hy
      constructor
      · intro hi
        obtain ⟨z, hz, hid⟩ := h.known _ hi
        exact absurd hid (hfresh z hz)
      · rintro (hm | ⟨d, hd, hid⟩)
        · have hm : y.order ≤ w.db.lastOf y.subject := hm
          omega
        · obtain ⟨z, hz, e, halike, rfl, -⟩ := h.parked d hd
          exact absurd (halike.eventId.symm.trans hid) (hfresh z hz)
  · obtain ⟨z, hz, hid⟩ := h.known i hi
    exact ⟨z, hgrown.subset hz, hid⟩

/-- What the others do. -/
theorem BridgeWorld.Sound.env (h : w.Sound contract) (henv : BridgeEnv w w') :
    w.Later w' ∧ w'.Sound contract := by
  cases henv with
  | emitted x s hs => exact h.emitted hs
  | signedIn id subject email emailVerified =>
    refine h.view (fun s => (w.db.provision_view id subject email emailVerified s).1)
      (fun s => (w.db.provision_view id subject email emailVerified s).2) ?_
    unfold BridgeDb.provision
    split <;> rfl
  | revised f hf =>
    have hmap : ∀ s, ({ w.db with users := w.db.users.map f } : BridgeDb).user? s =
        (w.db.user? s).map f := fun s => BridgeDb.user?_map (fun u => (hf u).1) w.db.users
    refine h.view (fun s => ?_) (fun s => ?_) rfl
    · rw [BridgeDb.mirrorOf, hmap, Option.map_map, BridgeDb.mirrorOf]
      exact congrArg (fun g => ((w.db.user? s).map g).getD _) (funext fun u => (hf u).2.1)
    · rw [BridgeDb.lastOf, hmap, Option.map_map, BridgeDb.lastOf]
      exact congrArg (fun g => ((w.db.user? s).map g).getD _) (funext fun u => (hf u).2.2)

end World

/-! ## The consumers' operations -/

/-- A change of the tables, by an operation that fails having done nothing, is carried out, or is
carried out and its answer lost. -/
def BridgeWorld.Commits {α : Type} (w : BridgeWorld) (a : Except String α) (w' : BridgeWorld)
    (change : α → BridgeDb → Prop) : Prop :=
  (∃ e, a = .error e) ∧ w' = w ∨
    ∃ b db, change b db ∧ w' = { w with db } ∧ (a = .ok b ∨ ∃ e, a = .error e)

/-- A read. -/
def BridgeWorld.Reads {α : Type} (w : BridgeWorld) (a : Except String α) (w' : BridgeWorld)
    (Shows : α → Prop) : Prop :=
  w' = w ∧ ∀ b, a = .ok b → Shows b

/-- How a consumer's operations are answered. -/
def BridgeWorld.step (contract : BridgeContract) :
    (op : BridgeOp) → BridgeWorld → op.Ans → BridgeWorld → Prop
  | .cursor, w, a, w' => w.Reads a w' fun p => p = w.db.position
  | .pull after limit, w, a, w' => w.Reads a w' fun r => w.stream.Serves after limit r
  | .blocked subject sequence, w, a, w' => w.Reads a w' fun b => b = w.db.blocked subject sequence
  | .parked, w, a, w' => w.Reads a w' fun ds => ds = w.db.replayable
  | .defer e, w, a, w' => w.Commits a w' fun _ db => db = w.db.defer contract e
  | .mirror kind freshness e, w, a, w' => w.Commits a w' fun found db => ∃ id,
    match w.db.mirror contract kind freshness id e with
    | some mirrored => found = true ∧ db = mirrored
    | none => found = false ∧ db = w.db
  | .delete eventId, w, a, w' => w.Commits a w' fun _ db => db = w.db.unpark eventId
  | .advance start next, w, a, w' => w.Commits a w' fun _ db => db = w.db.advanceCursor start next

/-- The consumers' shared world. -/
def bridgeWorld (contract : BridgeContract) : World BridgeOp BridgeOp.Ans BridgeWorld where
  step := BridgeWorld.step contract
  rely := BridgeWorld.Later
  inv := BridgeWorld.Sound contract

section Programs

variable {contract : BridgeContract} {build : BridgeBuild} {freshness : Freshness}
  {w w' : BridgeWorld} {x : StreamEntry} {e : UserLifecycleEvent} {α : Type}

/-- A change of the tables that keeps them sound, and what holds where it is answered. -/
theorem BridgeWorld.Sound.commit {β : Type} {a : Except String β} {change : β → BridgeDb → Prop}
    {P : β → BridgeWorld → Prop} (h : w.Sound contract) (hstep : w.Commits a w' change)
    (hchange : ∀ b db, change b db → BridgeWorld.Sound contract { w with db } ∧
      w.Later { w with db } ∧ P b { w with db }) :
    w.Later w' ∧ w'.Sound contract ∧ ∀ b, a = .ok b → P b w' := by
  rcases hstep with ⟨⟨err, rfl⟩, rfl⟩ | ⟨b, db, hdb, rfl, ha⟩
  · exact ⟨.refl _, h, fun b hb => by cases hb⟩
  · obtain ⟨hsound, hlater, hP⟩ := hchange b db hdb
    refine ⟨hlater, hsound, fun b' hb' => ?_⟩
    rcases ha with rfl | ⟨err, rfl⟩
    · cases hb'
      exact hP
    · cases hb'

/-- Parking an event. -/
theorem promises_parkEvent {k : LifecycleOutcome → BridgeProg α} (hx : x ∈ w.stream.entries)
    (halike : e.Alike x.event) (hr : w.Reached x)
    (hk : ∀ w', w.Later w' → w'.Taken x → (bridgeWorld contract).promises (k .parked) w') :
    (bridgeWorld contract).promises ((parkEvent e).bind k) w := by
  intro w₁ hlater hsound a w₂ hstep
  obtain ⟨hlater', hsound', hdone⟩ := hsound.commit (P := fun _ w => w.Taken x) hstep
    fun _ db hdb => hdb ▸ hsound.defer (hlater.mem hx) halike (hr.later hx hlater)
  refine ⟨hlater', hsound', ?_⟩
  cases a with
  | error err => trivial
  | ok _ => exact hk w₂ (hlater.trans hlater') (hdone _ rfl)

/-- Mirroring an event, or parking it. -/
theorem promises_mirrorOrPark {kind : LifecycleKind} {k : LifecycleOutcome → BridgeProg α}
    (hkind : contract.kind e.kind = some kind) (hx : x ∈ w.stream.entries)
    (halike : e.Alike x.event) (hc : w.Cleared x)
    (hmirrored : ∀ w', w.Later w' → w'.Mirrored x →
      (bridgeWorld contract).promises (k .mirrored) w')
    (hparked : ∀ w', w.Later w' → w'.Taken x → (bridgeWorld contract).promises (k .parked) w') :
    (bridgeWorld contract).promises ((mirrorOrPark kind freshness e).bind k) w := by
  intro w₁ hlater hsound a w₂ hstep
  have hc₁ := hc.later hx hlater
  obtain ⟨hlater', hsound', hdone⟩ := hsound.commit
    (P := fun found w => found = true → w.Mirrored x) hstep fun found db hdb => by
      obtain ⟨id, hdb⟩ := hdb
      cases hm : w₁.db.mirror contract kind freshness id e with
      | none =>
        rw [hm] at hdb
        obtain ⟨rfl, rfl⟩ := hdb
        exact ⟨hsound, .refl w₁, fun hf => by cases hf⟩
      | some mirrored =>
        rw [hm] at hdb
        obtain ⟨-, rfl⟩ := hdb
        obtain ⟨hs, hl, hmx⟩ := hsound.mirror (hlater.mem hx) halike hc₁
          (BridgeDb.mirror_takes hkind hm)
        exact ⟨hs, hl, fun _ => hmx⟩
  refine ⟨hlater', hsound', ?_⟩
  cases a with
  | error err => trivial
  | ok found =>
    cases found with
    | true => exact hmirrored w₂ (hlater.trans hlater') (hdone true rfl rfl)
    | false =>
      have hreached : w₂.Reached x := fun y hy hs hlt =>
        .inl ((hc₁.later (hlater.mem hx) hlater') y hy hs hlt)
      exact promises_parkEvent (hlater'.mem (hlater.mem hx)) halike hreached
        fun w' h ht => hparked w' ((hlater.trans hlater').trans h) ht

/-- Where nothing earlier of its subject is parked, what is taken before an event is mirrored. -/
theorem BridgeWorld.Reached.cleared (h : w.Sound contract) (hr : w.Reached x)
    (halike : e.Alike x.event) (hb : w.db.blocked e.authSubject e.order = false) :
    w.Cleared x := by
  intro y hy hsubject hlt
  rcases hr y hy hsubject hlt with hm | ⟨d, hd, hid⟩
  · exact hm
  · obtain ⟨z, hz, e', halike', rfl, -⟩ := h.parked d hd
    obtain rfl : z = y := LifecycleStream.eq_of_id hz hy (halike'.eventId.symm.trans hid)
    have hblocked : w.db.blocked e.authSubject e.order = true := by
      refine List.any_eq_true.mpr ⟨_, hd, decide_eq_true ⟨?_, ?_⟩⟩
      · exact halike'.authSubject.trans (hsubject.trans halike.authSubject.symm)
      · change e'.order < e.order
        rw [halike'.same_order, halike.same_order]
        exact hlt
    rw [hb] at hblocked
    cases hblocked

/-- **Applying one event**, with everything of its subject before it taken. -/
theorem promises_applyEvent {k : LifecycleOutcome → BridgeProg α} (hx : x ∈ w.stream.entries)
    (halike : e.Alike x.event) (hr : w.Reached x)
    (hmirrored : ∀ w', w.Later w' → w'.Mirrored x →
      (bridgeWorld contract).promises (k .mirrored) w')
    (hparked : ∀ w', w.Later w' → w'.Taken x → (bridgeWorld contract).promises (k .parked) w')
    (hunreadable : (bridgeWorld contract).promises (k .unreadable) w) :
    (bridgeWorld contract).promises ((applyEvent build contract freshness e).bind k) w := by
  unfold applyEvent
  cases hbuild : build.kind contract e with
  | none => exact hunreadable
  | some kind =>
    have hkind : contract.kind e.kind = some kind := by
      unfold BridgeBuild.kind at hbuild
      split_ifs at hbuild
      exact hbuild
    intro w₁ hlater hsound a w₂ hstep
    obtain ⟨rfl, hread⟩ := hstep
    refine ⟨.refl _, hsound, ?_⟩
    cases a with
    | error err => trivial
    | ok blocked =>
      obtain rfl := hread blocked rfl
      have hx₁ := hlater.mem hx
      have hr₁ := hr.later hx hlater
      dsimp only [Prog.bind, orEnd]
      cases hb : w₂.db.blocked e.authSubject e.order with
      | true =>
        exact promises_parkEvent hx₁ halike hr₁ fun w' h => hparked w' (hlater.trans h)
      | false =>
        exact promises_mirrorOrPark hkind hx₁ halike (hr₁.cleared hsound halike hb)
          (fun w' h => hmirrored w' (hlater.trans h)) fun w' h => hparked w' (hlater.trans h)

/-- **Applying a batch** that the stream goes on with after what is taken. -/
theorem promises_applyBatch {k : Bool → BridgeProg α} (xs : List StreamEntry)
    (front : List StreamEntry) (hentries : front ++ xs <+: w.stream.entries)
    (hfront : ∀ y ∈ front, w.Taken y)
    (hk : ∀ w' readable, w.Later w' → (readable = true → ∀ y ∈ front ++ xs, w'.Taken y) →
      (bridgeWorld contract).promises (k readable) w') :
    (bridgeWorld contract).promises
      ((applyBatch build contract (xs.map (·.event))).bind k) w := by
  induction xs generalizing front w with
  | nil => exact hk w true (.refl w) fun _ y hy => hfront y (by simpa using hy)
  | cons x xs ih =>
    have hbegin : front ++ [x] <+: w.stream.entries :=
      List.IsPrefix.trans ⟨xs, by simp⟩ hentries
    have hx : x ∈ w.stream.entries := hbegin.subset (by simp)
    have hr : w.Reached x := fun y hy hsubject hlt =>
      hfront y (LifecycleStream.mem_of_order hbegin hy hsubject hlt)
    have hrest : ∀ w', w.Later w' → w'.Taken x → (bridgeWorld contract).promises
        ((applyBatch build contract (xs.map (·.event))).bind k) w' := by
      intro w' hlater htaken
      refine ih (front ++ [x]) ?_ (fun y hy => ?_) fun w'' readable h hall => ?_
      · exact List.IsPrefix.trans (by simpa using hentries) hlater.stream
      · rcases List.mem_append.mp hy with hy | hy
        · exact hlater.taken y (hbegin.subset (List.mem_append_left _ hy)) (hfront y hy)
        · exact List.mem_singleton.mp hy ▸ htaken
      · exact hk w'' readable (hlater.trans h) fun ht y hy => hall ht y (by simpa using hy)
    rw [List.map_cons, applyBatch, Prog.bind_assoc]
    refine promises_applyEvent hx (.refl _) hr (fun w' h hm => ?_) (fun w' h ht => ?_) ?_
    · exact hrest w' h (.inl hm)
    · exact hrest w' h ht
    · exact hk w false (.refl w) fun hf => by cases hf

/-- **A pull** from the cursor. -/
theorem promises_pullAndApply {k : Pull → BridgeProg α}
    (hk : ∀ w' pull, (bridgeWorld contract).promises (k pull) w') :
    (bridgeWorld contract).promises ((pullAndApply build contract).bind k) w := by
  intro w₁ _ hsound₁ a w₁' hstep
  obtain ⟨rfl, hcursor⟩ := hstep
  refine ⟨.refl _, hsound₁, ?_⟩
  cases a with
  | error err => trivial
  | ok after =>
  obtain rfl := hcursor after rfl
  intro w₂ hlater₂ hsound₂ a w₂' hstep
  obtain ⟨rfl, hserves⟩ := hstep
  refine ⟨.refl _, hsound₂, ?_⟩
  cases a with
  | error err => trivial
  | ok response =>
  obtain ⟨n, -, hevents, hnext⟩ := hserves response rfl
  dsimp only [Prog.bind, orEnd]
  by_cases hempty : response.events.isEmpty = true
  · rw [if_pos hempty]
    exact hk w₂' _
  rw [if_neg hempty, Prog.bind_assoc, hevents]
  -- up to the cursor all is taken, and the batch is what follows
  have hbegin : w₂'.stream.entries.filter (fun x => x.position ≤ w₁'.db.position) ++
      (w₂'.stream.after w₁'.db.position).take n <+: w₂'.stream.entries := by
    conv_rhs => rw [← w₂'.stream.split w₁'.db.position]
    exact (List.prefix_append_right_inj _).mpr (List.take_prefix _ _)
  refine promises_applyBatch _ _ hbegin (fun y hy => ?_) fun w₃ readable hlater₃ hall => ?_
  · obtain ⟨hy, hle⟩ := List.mem_filter.mp hy
    have hle := of_decide_eq_true hle
    by_cases hold : y ∈ w₁'.stream.entries
    · exact hlater₂.taken y hold (hsound₁.cursor y hold hle)
    · -- what came since is further on than the cursor
      rcases hsound₁.furthest with hstart | ⟨z, hz, hfar⟩
      · have := w₂'.stream.positive y hy
        omega
      · have := (LifecycleStream.grown hlater₂.stream hz hy hold).1
        omega
  · cases readable with
    | false => exact hk w₃ _
    | true =>
      simp only [Bool.true_eq_false, if_false]
      by_cases hstill : response.nextPosition ≤ w₁'.db.position
      · rw [if_pos hstill]
        exact hk w₃ _
      rw [if_neg hstill]
      obtain ⟨x, hx, hfar⟩ := hnext.resolve_left hstill
      have hbegin₃ := hbegin.trans hlater₃.stream
      have hx' := List.mem_append_right
        (w₂'.stream.entries.filter fun x => x.position ≤ w₁'.db.position) hx
      intro w₄ hlater₄ hsound₄ a w₄' hstep
      have hbegin₄ := hbegin₃.trans hlater₄.stream
      obtain ⟨hlater', hsound', -⟩ := hsound₄.commit (P := fun _ _ => True) hstep
        fun _ db hdb => by
          subst hdb
          obtain ⟨hs, hl⟩ := hsound₄.advance w₁'.db.position
            response.nextPosition (fun y hy _ hle => by
              have hmem := LifecycleStream.mem_of_position hbegin₄ hx' hy (hle.trans hfar)
              exact hlater₄.taken y (hbegin₃.subset hmem) (hall rfl y hmem))
            ⟨x, hbegin₄.subset hx', hfar⟩
          exact ⟨hs, hl, trivial⟩
      refine ⟨hlater', hsound', ?_⟩
      cases a with
      | error err => trivial
      | ok _ => exact hk w₄' _

/-- **Replaying parked events.** -/
theorem promises_replayEach {k : Unit → BridgeProg α} (ds : List DeferredEvent)
    (hds : ∀ d ∈ ds, w.Waiting contract d)
    (hk : ∀ w', (bridgeWorld contract).promises (k ()) w') :
    (bridgeWorld contract).promises ((replayEach build contract ds).bind k) w := by
  induction ds generalizing w with
  | nil => exact hk w
  | cons d ds ih =>
    have hrest : ∀ w', w.Later w' →
        (bridgeWorld contract).promises ((replayEach build contract ds).bind k) w' :=
      fun w' h => ih fun d' hd' => (hds d' (List.mem_cons_of_mem _ hd')).later h
    obtain ⟨x, hx, e, halike, rfl, hr⟩ := hds d List.mem_cons_self
    rw [replayEach, Prog.bind_assoc]
    refine promises_applyEvent hx halike.replayed hr (fun w₁ hlater hm => ?_)
      (fun w₁ hlater _ => hrest w₁ hlater) (hrest w (.refl w))
    intro w₂ hlater₂ hsound₂ a w₃ hstep
    have hm₂ := hm.later hlater₂
    have hx₂ := hlater₂.mem (hlater.mem hx)
    obtain ⟨hlater', hsound', -⟩ := hsound₂.commit (P := fun _ _ => True) hstep
      fun _ db hdb => by
        have hid : (e.parked contract).eventId = x.event.eventId := halike.eventId
        rw [hid] at hdb
        subst hdb
        obtain ⟨hs, hl⟩ := hsound₂.unpark hx₂ hm₂
        exact ⟨hs, hl, trivial⟩
    refine ⟨hlater', hsound', ?_⟩
    cases a with
    | error err => trivial
    | ok _ => exact hrest w₃ ((hlater.trans hlater₂).trans hlater')

/-- **The consumer's cycle.** -/
theorem promises_drainBridge (n : Nat) :
    (bridgeWorld contract).promises (drainBridge build contract n) w := by
  induction n generalizing w with
  | zero => trivial
  | succ n ih =>
    refine promises_pullAndApply fun w' pull => ?_
    intro w₁ _ hsound a w₂ hstep
    obtain ⟨rfl, hread⟩ := hstep
    refine ⟨.refl _, hsound, ?_⟩
    cases a with
    | error err => trivial
    | ok ds =>
      obtain rfl := hread ds rfl
      refine promises_replayEach _ (fun d hd => ?_) fun w' => ?_
      · exact hsound.parked d (List.mem_of_mem_filter (List.mem_mergeSort.mp hd))
      · cases pull.more with
        | true => exact ih
        | false => trivial

/-! ## Every run -/

/-- A consumer's cycle, in whatever build. -/
def BridgeWorker (contract : BridgeContract) (p : BridgeProg Unit) : Prop :=
  ∃ build n, p = drainBridge build contract n

/-- The configurations of consumers reached from one another. -/
abbrev BridgeRuns (contract : BridgeContract) :
    Config BridgeOp BridgeOp.Ans String Unit BridgeWorld →
      Config BridgeOp BridgeOp.Ans String Unit BridgeWorld → Prop :=
  Runs (BridgeWorld.step contract) BridgeEnv (BridgeWorker contract) fun _ _ => True

/-- Before any event: the cursor at the start, nothing parked, and rows that mirror nothing. -/
structure BridgeWorld.Initial (w : BridgeWorld) : Prop where
  position : w.db.position = 0
  deferred : w.db.deferred = []
  taken : w.db.taken = []
  applied : w.db.applied = []
  users : ∀ u ∈ w.db.users, u.mirror = .unset ∧ u.lastLifecycleSequence = 0

theorem BridgeWorld.Initial.sound (h : w.Initial) : w.Sound contract := by
  obtain ⟨hposition, hdeferred, htaken, happlied, husers⟩ := h
  have hviews : ∀ s, w.db.mirrorOf s = .unset ∧ w.db.lastOf s = 0 := by
    intro s
    unfold BridgeDb.mirrorOf BridgeDb.lastOf
    cases hu : w.db.user? s with
    | none => exact ⟨rfl, rfl⟩
    | some u => exact husers u (BridgeDb.user?_some hu).1
  have hnone : ∀ s, w.stream.upTo s 0 = [] := fun s =>
    Sequenced.upTo_eq_nil fun y hy _ => w.stream.numbered y hy
  have huntaken : ∀ y ∈ w.stream.entries, ¬ w.Taken y := by
    rintro y hy (hm | ⟨d, hd, -⟩)
    · have hm : y.order ≤ w.db.lastOf y.subject := hm
      rw [(hviews _).2] at hm
      exact absurd (w.stream.numbered y hy) (by omega)
    · rw [hdeferred] at hd
      cases hd
  refine ⟨fun y hy hp => ?_, .inl (by rw [hposition]), fun d hd => ?_, fun s => ?_,
    fun s => .inl (hviews s).2, fun s => ?_, fun y hy => ?_, fun i hi => ?_⟩
  · have := w.stream.positive y hy
    omega
  · rw [hdeferred] at hd
    cases hd
  · rw [(hviews s).1, (hviews s).2, hnone]
    rfl
  · rw [BridgeDb.appliedTo, happlied, (hviews s).2, hnone]
    rfl
  · rw [htaken]
    exact ⟨fun hi => absurd hi List.not_mem_nil, fun ht => absurd ht (huntaken y hy)⟩
  · rw [htaken] at hi
    cases hi

/-- **What the mirror promises.** -/
structure MirrorsStream (contract : BridgeContract) (w : BridgeWorld) : Prop where
  /-- Once no event of a subject is parked, its mirror is the fold of those pulled of it, in
  sequence order. -/
  folded : ∀ s, (∀ d ∈ w.db.deferred, d.authSubject ≠ s) →
    w.db.mirrorOf s = Mirror.fold contract ((w.pulled s).map (·.event))
  /-- Those pulled are a beginning of the subject's events, which come in increasing order. -/
  unskipped : ∀ s, w.pulled s <+: w.stream.about s
  sorted : ∀ s, (w.stream.about s).Pairwise fun x y => x.order < y.order
  /-- What changed a row is a beginning of them too, in their order, each once: nothing is skipped
  and nothing comes after a later one. -/
  ordered : ∀ s, (w.db.appliedTo s).map (·.eventId) <+:
    (w.stream.about s).map (·.event.eventId)
  /-- Whatever is pulled of a subject was applied or is parked, -/
  kept : ∀ s, ∀ x ∈ w.pulled s, x.event.eventId ∈ (w.db.appliedTo s).map (·.eventId) ∨
    ∃ d ∈ w.db.deferred, d.eventId = x.event.eventId
  /-- and so was whatever the cursor passed. -/
  cursor : ∀ x ∈ w.stream.entries, x.position ≤ w.db.position → x ∈ w.pulled x.subject

theorem BridgeWorld.Sound.mirrorsStream (h : w.Sound contract) : MirrorsStream contract w := by
  have hmem : ∀ x s, x ∈ w.pulled s ↔ x ∈ w.stream.entries ∧ x.subject = s ∧ w.Taken x := by
    intro x s
    unfold BridgeWorld.pulled LifecycleStream.about
    rw [List.mem_filter, Sequenced.mem_about, decide_eq_true_iff]
    constructor
    · rintro ⟨⟨hx, hs⟩, hi⟩
      exact ⟨hx, hs, (h.taken x hx).mp hi⟩
    · rintro ⟨hx, hs, ht⟩
      exact ⟨⟨hx, hs⟩, (h.taken x hx).mpr ht⟩
  have hkept : ∀ s, ∀ x ∈ w.pulled s,
      x.event.eventId ∈ (w.db.appliedTo s).map (·.eventId) ∨
        ∃ d ∈ w.db.deferred, d.eventId = x.event.eventId := by
    intro s x hx
    obtain ⟨hx', rfl, hm | hparked⟩ := (hmem x s).mp hx
    · rw [h.applied]
      exact .inl (List.mem_map_of_mem (Sequenced.mem_upTo.mpr ⟨hx', rfl, hm⟩))
    · exact .inr hparked
  -- what is taken of a subject has everything before it taken
  have hdown : ∀ x ∈ w.stream.entries, w.Taken x → w.Reached x := by
    rintro x hx (hm | ⟨d, hd, hid⟩)
    · intro y _ hs hlt
      have hm : x.order ≤ w.db.lastOf x.subject := hm
      refine .inl ?_
      rw [BridgeWorld.Mirrored, hs]
      omega
    · obtain ⟨z, hz, e, halike, rfl, hr⟩ := h.parked d hd
      exact LifecycleStream.eq_of_id hz hx (halike.eventId.symm.trans hid) ▸ hr
  have hsorted : ∀ s, (w.stream.about s).Pairwise fun x y => x.order < y.order := fun s =>
    w.stream.ordered.about_sorted s
  refine ⟨fun s hnone => ?_, fun s => ?_, hsorted, fun s => ?_, hkept, fun x hx hp => ?_⟩
  · rw [h.mirrors]
    congr 2
    -- where nothing is parked, what is taken is what is mirrored
    unfold BridgeWorld.pulled LifecycleStream.upTo LifecycleStream.about
    rw [Sequenced.upTo_eq_filter_about]
    refine List.filter_congr fun x hmem => ?_
    obtain ⟨hx, rfl⟩ := Sequenced.mem_about.mp hmem
    rw [decide_eq_decide, h.taken x hx]
    constructor
    · exact fun hm => .inl hm
    · rintro (hm | ⟨d, hd, hid⟩)
      · exact hm
      · obtain ⟨z, hz, e, halike, rfl, -⟩ := h.parked d hd
        obtain rfl := LifecycleStream.eq_of_id hz hx (halike.eventId.symm.trans hid)
        exact absurd halike.authSubject (hnone _ hd)
  · refine Sequenced.filter_prefix ((hsorted s).imp_of_mem fun {x y} hmx hmy hlt hi => ?_)
    obtain ⟨hx, rfl⟩ := Sequenced.mem_about.mp hmx
    obtain ⟨hy, hs⟩ := Sequenced.mem_about.mp hmy
    have ht := (h.taken y hy).mp (of_decide_eq_true hi)
    exact decide_eq_true ((h.taken x hx).mpr (hdown y hy ht x hx hs.symm hlt))
  · rw [h.applied]
    exact w.stream.ordered.upTo_prefix.map _
  · exact (hmem x x.subject).mpr ⟨hx, rfl, h.cursor x hx hp⟩

/-- **The lifecycle mirror is the fold of the events**, over every run of any number of consumers:
whatever fails, whoever signs in meanwhile, and however concierge's stream grows. -/
theorem lifecycle_mirror_folds {c c' : Config BridgeOp BridgeOp.Ans String Unit BridgeWorld}
    (hinit : c.1.Initial) (hidle : c.2 = []) (hrun : BridgeRuns contract c c') :
    MirrorsStream contract c'.1 := by
  refine (Runs.promised (S := bridgeWorld contract) .refl (fun h h' => h.trans h')
    (fun w w' ps h _ hsound => BridgeWorld.Sound.env hsound h) (fun _ _ _ _ _ _ h _ => h)
    ?_ hrun hinit.sound ?_).2.mirrorsStream
  · rintro w p ⟨build, n, rfl⟩ _
    exact promises_drainBridge n
  · rw [hidle]
    exact List.forall_mem_nil _

/-- A consumer's operation carried out, with the whole of what concierge has to give. -/
def BridgeOp.carriedOut (contract : BridgeContract) :
    (op : BridgeOp) → BridgeWorld → op.Ans × BridgeWorld
  | .cursor, w => (.ok w.db.position, w)
  | .pull after limit, w =>
    let batch := (w.stream.after after).take limit
    (.ok ⟨batch.map (·.event), (batch.getLast?.map (·.position)).getD after⟩, w)
  | .blocked subject sequence, w => (.ok (w.db.blocked subject sequence), w)
  | .parked, w => (.ok w.db.replayable, w)
  | .defer e, w => (.ok (), { w with db := w.db.defer contract e })
  | .mirror kind freshness e, w =>
    match w.db.mirror contract kind freshness (.raw 1) e with
    | some db => (.ok true, { w with db })
    | none => (.ok false, w)
  | .delete eventId, w => (.ok (), { w with db := w.db.unpark eventId })
  | .advance start next, w => (.ok (), { w with db := w.db.advanceCursor start next })

theorem BridgeOp.carriedOut_step (op : BridgeOp) (w : BridgeWorld) :
    BridgeWorld.step contract op w (op.carriedOut contract w).1 (op.carriedOut contract w).2 := by
  cases op with
  | cursor | blocked | parked => exact ⟨rfl, fun b hb => by cases hb; rfl⟩
  | pull after limit =>
    refine ⟨rfl, fun r hr => ?_⟩
    cases hr
    refine ⟨limit, Nat.le_refl _, rfl, ?_⟩
    cases hlast : ((w.stream.after after).take limit).getLast? with
    | none => exact .inl (by simp)
    | some x => exact .inr ⟨x, List.mem_of_getLast? hlast, by simp⟩
  | defer | delete | advance => exact .inr ⟨(), _, rfl, rfl, .inl rfl⟩
  | mirror kind freshness e =>
    cases hm : w.db.mirror contract kind freshness (.raw 1) e with
    | some db =>
      simp only [carriedOut, hm]
      exact .inr ⟨true, db, ⟨.raw 1, by rw [hm]; exact ⟨rfl, rfl⟩⟩, rfl, .inl rfl⟩
    | none =>
      simp only [carriedOut, hm]
      exact .inr ⟨false, w.db, ⟨.raw 1, by rw [hm]; exact ⟨rfl, rfl⟩⟩, rfl, .inl rfl⟩

/-- One kind of event. -/
def sampleContract : BridgeContract :=
  ⟨fun kind => if kind = 1 then some .created else none, id, fun _ => none⟩

/-- An owner is created. -/
def sampleCreated : StreamEntry :=
  ⟨1, ⟨"event:1", "", "ada", 1, 1, "ada@example.com", true, 2, "owner", 0, 0,
    some ["bank:read"]⟩⟩

/-- Nothing was pulled of it yet. -/
def sampleUnpulled : BridgeWorld :=
  ⟨⟨[], [], 0, [], [], []⟩, ⟨[sampleCreated], by simp, by simp [sampleCreated], by simp,
    List.pairwise_singleton _ _, by simp [sampleCreated, StreamEntry.order,
      UserLifecycleEvent.order]⟩⟩

/-- One batch pulled, mirrored, and the cursor moved. -/
def samplePulled : BridgeProg Unit × BridgeWorld :=
  (drainBridge ⟨fun _ => true⟩ sampleContract 1).advance (BridgeOp.carriedOut sampleContract) 5
    sampleUnpulled

/-- The owner is mirrored, and the cursor is past the event. -/
theorem lifecycle_mirror_folds_sample :
    MirrorsStream sampleContract samplePulled.2 ∧
      samplePulled.2.db.mirrorOf "ada" = ⟨false, 2, "owner", some ["bank:read"], 0⟩ ∧
      samplePulled.2.db.position = 1 ∧
      samplePulled.2.db.roster = [⟨.raw 1, "investor", "owner"⟩] := by
  refine ⟨?_, by decide +kernel, by decide +kernel, by decide +kernel⟩
  have hinit : sampleUnpulled.Initial := ⟨rfl, rfl, rfl, rfl, fun u hu => by cases hu⟩
  have hrun : BridgeRuns sampleContract (sampleUnpulled, []) (samplePulled.2, [samplePulled.1]) :=
    .head ⟨.start ⟨⟨fun _ => true⟩, 1, rfl⟩, trivial⟩
      (Runs.advance BridgeOp.carriedOut_step 5 _ _ fun _ _ => trivial)
  exact lifecycle_mirror_folds hinit rfl hrun

end Programs

end Banking
