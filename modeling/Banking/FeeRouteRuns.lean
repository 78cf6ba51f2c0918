import Banking.FeeRoutes
import Banking.Planned
import Banking.Bank
import Banking.Lib.Pool

/-! # Fees are routed once

Over runs of any number of relays and reapers, with every call failing or losing its answer
anywhere: a posted sweep has at most one route, of its own amount, out of its scope's collector to
where the scope's fees go, and the ledger takes it at most once; a route that failed for want of its
destination is revived at most once, its destination being open then; and there is no route of a
sweep that is not posted. -/

namespace Banking

open Interactive

/-! ## What holds of the transfers -/

/-- The transfer a fact is about. -/
def TransferFact.id : TransferFact → Uuid
  | .posted id | .missing id | .revived id _ => id

/-- Whether a fact is a revival of a transfer. -/
def TransferFact.revives (id : Uuid) : TransferFact → Bool
  | .revived id' _ => id' = id
  | .posted _ | .missing _ => false

/-- The event of a transfer's terms. -/
def TransferTerms.event (t : TransferTerms) : ScopeLedgerEvent :=
  .transferred t.scope t.fromLabel t.toScope t.toLabel t.amount

/-- The leg the ledger takes a transfer by. -/
def TransferRow.leg (r : TransferRow) : LedgerTransfer :=
  legOf (tid r.id SCOPE_TRANSFER) (.scopeAccount r.terms.scope r.terms.fromLabel)
    (.scopeAccount r.terms.toScope r.terms.toLabel) r.terms.amount .scopeTransfer r.id

/-- A row routes a sweep: it is what banking's route of that sweep is. -/
structure TransferRow.Routes (r sweep : TransferRow) : Prop where
  reason : sweep.terms.reason = .feeSweep
  posted : sweep.state = .posted
  terms : ∃ ref, r.terms = routeTerms sweep.terms.scope sweep.terms.amount ref

/-- What the log says of a row. -/
structure TransferRow.Told (log : List TransferFact) (r : TransferRow) : Prop where
  posted : log.count (.posted r.id) = if r.state = .posted then 1 else 0
  left : log.countP (·.revives r.id) + (if r.missing then 1 else 0) = log.count (.missing r.id)
  once : log.count (.missing r.id) ≤ 1
  opened : ∀ accounts, .revived r.id accounts ∈ log →
    (r.terms.toScope, r.terms.toLabel) ∈ accounts

/-- **The invariant of the transfers.** -/
structure RouteDb.Sound (db : RouteDb) : Prop where
  ids : (db.transfers.map (·.id)).Nodup
  once : (db.transfers.filterMap (·.feeRouteOf)).Nodup
  routes : ∀ r ∈ db.transfers, ∀ s, r.feeRouteOf = some s →
    ∃ sweep ∈ db.transfers, sweep.id = s ∧ r.Routes sweep
  named : ∀ r ∈ db.transfers, r.terms.reason = .feeRoute → r.feeRouteOf.isSome = true
  events : ∀ row ∈ db.outbox, ∀ event, row.payload = .scopeLedger event →
    ∃ r ∈ db.transfers, r.id = row.aggregateId ∧ r.terms.event = event
  told : ∀ r ∈ db.transfers, r.Told db.log
  about : ∀ fact ∈ db.log, ∃ r ∈ db.transfers, r.id = fact.id

/-- What only grows: the transfers with their terms and their posted stamps, and the outbox. -/
structure RouteDb.Later (db db' : RouteDb) : Prop where
  transfers : ∀ r ∈ db.transfers, ∃ r' ∈ db'.transfers, r'.id = r.id ∧ r'.terms = r.terms ∧
    (r.state = .posted → r'.state = .posted)
  outbox : db.outbox ⊆ db'.outbox

section Db

variable {db : RouteDb} {id : Uuid} {row : TransferRow}

theorem RouteDb.Later.refl (db : RouteDb) : db.Later db :=
  ⟨fun r hr => ⟨r, hr, rfl, rfl, fun h => h⟩, List.Subset.refl _⟩

theorem RouteDb.Later.trans {db' db'' : RouteDb} (h : db.Later db') (h' : db'.Later db'') :
    db.Later db'' := by
  refine ⟨fun r hr => ?_, fun row hrow => h'.outbox (h.outbox hrow)⟩
  obtain ⟨r', hr', hid, hterms, hstate⟩ := h.transfers r hr
  obtain ⟨r'', hr'', hid', hterms', hstate'⟩ := h'.transfers r' hr'
  exact ⟨r'', hr'', hid'.trans hid, hterms'.trans hterms, fun hp => hstate' (hstate hp)⟩

theorem RouteDb.row?_mem (h : db.row? id = some row) : row ∈ db.transfers ∧ row.id = id :=
  ⟨List.mem_of_find?_eq_some h, by simpa using List.find?_some h⟩

theorem RouteDb.row?_none (h : db.row? id = none) : ∀ r ∈ db.transfers, r.id ≠ id := by
  simpa [RouteDb.row?] using h

/-- A row is known by its id. -/
theorem RouteDb.Sound.unique (h : db.Sound) {r r' : TransferRow} (hr : r ∈ db.transfers)
    (hr' : r' ∈ db.transfers) (hid : r'.id = r.id) : r' = r :=
  List.inj_on_of_nodup_map h.ids hr' hr hid

/-! ## The forms a change takes -/

/-- A change of a row that keeps what it says. -/
structure TransferRow.Kept (r r' : TransferRow) : Prop where
  id : r'.id = r.id
  terms : r'.terms = r.terms
  route : r'.feeRouteOf = r.feeRouteOf
  posted : r.state = .posted → r'.state = .posted

theorem RouteDb.mem_updateRow {f : TransferRow → TransferRow} {r' : TransferRow} :
    r' ∈ (db.updateRow id f).transfers ↔
      ∃ r ∈ db.transfers, (if r.id = id then f r else r) = r' := by
  simp [RouteDb.updateRow]

/-- **A row rewritten, and what happened to it noted.** -/
theorem RouteDb.Sound.rewrite (h : db.Sound) (row : TransferRow) (facts : List TransferFact)
    {f : TransferRow → TransferRow} (hrow : row ∈ db.transfers) (hkept : row.Kept (f row))
    (hfacts : ∀ fact ∈ facts, fact.id = row.id) (htold : (f row).Told (facts ++ db.log)) :
    ({ db.updateRow row.id f with log := facts ++ db.log } : RouteDb).Sound ∧
      db.Later { db.updateRow row.id f with log := facts ++ db.log } := by
  -- every row of the update is kept, and only `row` is another
  have hall : ∀ r ∈ db.transfers, r.Kept (if r.id = row.id then f r else r) := by
    intro r hr
    split_ifs with hid
    · rw [h.unique hrow hr hid]
      exact hkept
    · exact ⟨rfl, rfl, rfl, fun hp => hp⟩
  have hmem : ∀ r ∈ db.transfers, (if r.id = row.id then f r else r) ∈
      (db.updateRow row.id f).transfers := fun r hr => RouteDb.mem_updateRow.mpr ⟨r, hr, rfl⟩
  have hother : ∀ r ∈ db.transfers, r.id ≠ row.id → r.Told (facts ++ db.log) := by
    intro r hr hid
    have htold := h.told r hr
    have hnone : ∀ fact ∈ facts, fact.id ≠ r.id := fun fact hf he =>
      hid (he.symm.trans (hfacts fact hf))
    have hposted : .posted r.id ∉ facts := fun hf => hnone _ hf rfl
    have hmissing : .missing r.id ∉ facts := fun hf => hnone _ hf rfl
    have hrevived : facts.countP (·.revives r.id) = 0 := by
      refine List.countP_eq_zero.mpr fun fact hf hre => ?_
      cases fact with
      | revived id' accounts =>
        exact hnone _ hf (by simpa [TransferFact.revives, TransferFact.id] using hre)
      | posted _ | missing _ => simp [TransferFact.revives] at hre
    refine ⟨?_, ?_, ?_, fun accounts hf => ?_⟩
    · rw [List.count_append, List.count_eq_zero.mpr hposted, Nat.zero_add, htold.posted]
    · rw [List.countP_append, hrevived, List.count_append, List.count_eq_zero.mpr hmissing,
        Nat.zero_add, Nat.zero_add, htold.left]
    · rw [List.count_append, List.count_eq_zero.mpr hmissing, Nat.zero_add]
      exact htold.once
    · rcases List.mem_append.mp hf with hf | hf
      · exact absurd rfl (hnone _ hf)
      · exact htold.opened accounts hf
  refine ⟨⟨?_, ?_, ?_, ?_, ?_, ?_, ?_⟩, ?_, List.Subset.refl _⟩
  · have hsame : (db.updateRow row.id f).transfers.map (·.id) = db.transfers.map (·.id) := by
      rw [RouteDb.updateRow, List.map_map]
      exact List.map_congr_left fun r hr => (hall r hr).id
    exact hsame.symm ▸ h.ids
  · have hsame : (db.updateRow row.id f).transfers.filterMap (·.feeRouteOf) =
        db.transfers.filterMap (·.feeRouteOf) := by
      rw [RouteDb.updateRow, List.filterMap_map]
      exact List.filterMap_congr fun r hr => (hall r hr).route
    exact hsame.symm ▸ h.once
  · intro r' hr' s hs
    obtain ⟨r, hr, rfl⟩ := RouteDb.mem_updateRow.mp hr'
    rw [(hall r hr).route] at hs
    obtain ⟨sweep, hsweep, hid, hroutes⟩ := h.routes r hr s hs
    have hkept' := hall sweep hsweep
    refine ⟨_, hmem sweep hsweep, hkept'.id.trans hid, ?_, hkept'.posted hroutes.posted, ?_⟩
    · rw [hkept'.terms]
      exact hroutes.reason
    · rw [hkept'.terms, (hall r hr).terms]
      exact hroutes.terms
  · intro r' hr' hreason
    obtain ⟨r, hr, rfl⟩ := RouteDb.mem_updateRow.mp hr'
    rw [(hall r hr).terms] at hreason
    rw [(hall r hr).route]
    exact h.named r hr hreason
  · intro out hout event hevent
    obtain ⟨r, hr, hid, hterms⟩ := h.events out hout event hevent
    exact ⟨_, hmem r hr, (hall r hr).id.trans hid, (hall r hr).terms ▸ hterms⟩
  · intro r' hr'
    obtain ⟨r, hr, rfl⟩ := RouteDb.mem_updateRow.mp hr'
    split_ifs with hid
    · rw [h.unique hrow hr hid]
      exact htold
    · exact hother r hr hid
  · intro fact hf
    rcases List.mem_append.mp hf with hf | hf
    · exact ⟨_, hmem row hrow, (hall row hrow).id.trans (hfacts fact hf).symm⟩
    · obtain ⟨r, hr, hid⟩ := h.about fact hf
      exact ⟨_, hmem r hr, (hall r hr).id.trans hid⟩
  · intro r hr
    exact ⟨_, hmem r hr, (hall r hr).id, (hall r hr).terms, (hall r hr).posted⟩

/-- **A new row, and what it is noted as.** -/
theorem RouteDb.Sound.insert (h : db.Sound) (row : TransferRow) (facts : List TransferFact)
    (hfresh : ∀ r ∈ db.transfers, r.id ≠ row.id)
    (hroute : ∀ s, row.feeRouteOf = some s → (∀ r ∈ db.transfers, r.feeRouteOf ≠ some s) ∧
      ∃ sweep ∈ db.transfers, sweep.id = s ∧ row.Routes sweep)
    (hnamed : row.terms.reason = .feeRoute → row.feeRouteOf.isSome = true)
    (hfacts : ∀ fact ∈ facts, fact = .missing row.id) (hcount : facts.length ≤ 1)
    (hmissing : facts.length = if row.missing then 1 else 0) (hstate : row.state ≠ .posted) :
    ({ db with transfers := row :: db.transfers, log := facts ++ db.log } : RouteDb).Sound ∧
      db.Later { db with transfers := row :: db.transfers, log := facts ++ db.log } := by
  have hstray : ∀ fact ∈ db.log, fact.id ≠ row.id := by
    intro fact hf he
    obtain ⟨r, hr, hid⟩ := h.about fact hf
    exact hfresh r hr (hid.trans he)
  have hnone : ∀ id, .posted id ∉ facts ∧ facts.countP (·.revives id) = 0 := by
    refine fun id => ⟨fun hf => ?_, List.countP_eq_zero.mpr fun fact hf hre => ?_⟩
    · cases hfacts _ hf
    · rw [hfacts fact hf] at hre
      cases hre
  have hrow : row.Told (facts ++ db.log) := by
    have hposted : .posted row.id ∉ db.log := fun hf => hstray _ hf rfl
    have hmiss : .missing row.id ∉ db.log := fun hf => hstray _ hf rfl
    have hrevived : db.log.countP (·.revives row.id) = 0 := by
      refine List.countP_eq_zero.mpr fun fact hf hre => ?_
      cases fact with
      | revived id' accounts =>
        exact hstray _ hf (by simpa [TransferFact.revives, TransferFact.id] using hre)
      | posted _ | missing _ => simp [TransferFact.revives] at hre
    have hall : facts.count (.missing row.id) = facts.length :=
      List.count_eq_length.mpr fun fact hf => (hfacts fact hf).symm
    refine ⟨?_, ?_, ?_, fun accounts hf => ?_⟩
    · rw [List.count_append, List.count_eq_zero.mpr (hnone row.id).1,
        List.count_eq_zero.mpr hposted, if_neg hstate]
    · rw [List.countP_append, (hnone row.id).2, hrevived, List.count_append,
        List.count_eq_zero.mpr hmiss, hall, hmissing, Nat.zero_add, Nat.add_zero]
    · rw [List.count_append, List.count_eq_zero.mpr hmiss, hall]
      exact hcount
    · rcases List.mem_append.mp hf with hf | hf
      · cases hfacts _ hf
      · exact absurd rfl (hstray _ hf)
  have hother : ∀ r ∈ db.transfers, r.Told (facts ++ db.log) := by
    intro r hr
    have htold := h.told r hr
    have hmiss : .missing r.id ∉ facts := fun hf => by
      have := hfacts _ hf
      exact hfresh r hr (by simpa using this)
    refine ⟨?_, ?_, ?_, fun accounts hf => ?_⟩
    · rw [List.count_append, List.count_eq_zero.mpr (hnone r.id).1, Nat.zero_add, htold.posted]
    · rw [List.countP_append, (hnone r.id).2, List.count_append, List.count_eq_zero.mpr hmiss,
        Nat.zero_add, Nat.zero_add, htold.left]
    · rw [List.count_append, List.count_eq_zero.mpr hmiss, Nat.zero_add]
      exact htold.once
    · rcases List.mem_append.mp hf with hf | hf
      · cases hfacts _ hf
      · exact htold.opened accounts hf
  refine ⟨⟨?_, ?_, ?_, ?_, ?_, ?_, ?_⟩, ?_, List.Subset.refl _⟩
  · rw [List.map_cons, List.nodup_cons]
    refine ⟨fun hmem => ?_, h.ids⟩
    obtain ⟨r, hr, hid⟩ := List.mem_map.mp hmem
    exact hfresh r hr hid
  · cases hs : row.feeRouteOf with
    | none =>
      rw [List.filterMap_cons_none hs]
      exact h.once
    | some s =>
      rw [List.filterMap_cons_some hs, List.nodup_cons]
      refine ⟨fun hmem => ?_, h.once⟩
      obtain ⟨r, hr, hrs⟩ := List.mem_filterMap.mp hmem
      exact (hroute s hs).1 r hr hrs
  · intro r hr s hs
    rcases List.mem_cons.mp hr with rfl | hr
    · obtain ⟨-, sweep, hsweep, hroutes⟩ := hroute s hs
      exact ⟨sweep, List.mem_cons_of_mem _ hsweep, hroutes⟩
    · obtain ⟨sweep, hsweep, hroutes⟩ := h.routes r hr s hs
      exact ⟨sweep, List.mem_cons_of_mem _ hsweep, hroutes⟩
  · intro r hr hreason
    rcases List.mem_cons.mp hr with rfl | hr
    · exact hnamed hreason
    · exact h.named r hr hreason
  · intro out hout event hevent
    obtain ⟨r, hr, hat⟩ := h.events out hout event hevent
    exact ⟨r, List.mem_cons_of_mem _ hr, hat⟩
  · intro r hr
    rcases List.mem_cons.mp hr with rfl | hr
    · exact hrow
    · exact hother r hr
  · intro fact hf
    rcases List.mem_append.mp hf with hf | hf
    · exact ⟨row, List.mem_cons_self, by rw [hfacts fact hf]; rfl⟩
    · obtain ⟨r, hr, hid⟩ := h.about fact hf
      exact ⟨r, List.mem_cons_of_mem _ hr, hid⟩
  · exact fun r hr => ⟨r, List.mem_cons_of_mem _ hr, rfl, rfl, fun hp => hp⟩

/-- **An event put on the outbox**, of a row's own transfer. -/
theorem RouteDb.Sound.insertEvent (h : db.Sound) (eventId : Uuid) (row : TransferRow)
    {t : ScopeTransfer} (hrow : row ∈ db.transfers) (hid : t.id = row.id)
    (hterms : t.terms = row.terms) :
    (db.insertEvent eventId t).Sound ∧ db.Later (db.insertEvent eventId t) := by
  refine ⟨⟨h.ids, h.once, h.routes, h.named, fun out hout event hevent => ?_, h.told, h.about⟩,
    fun r hr => ⟨r, hr, rfl, rfl, fun hp => hp⟩, List.subset_cons_self _ _⟩
  rcases List.mem_cons.mp hout with rfl | hout
  · cases hevent
    exact ⟨row, hrow, hid.symm, by rw [← hterms]; rfl⟩
  · exact h.events out hout event hevent

/-- **An event put on the outbox again**: nothing of the row changes but its clock. -/
theorem RouteDb.Sound.enqueueEvent (h : db.Sound) (eventId : Uuid) (row : TransferRow)
    {t : ScopeTransfer} (hrow : row ∈ db.transfers) (hid : t.id = row.id)
    (hterms : t.terms = row.terms) :
    (db.enqueueEvent eventId t).Sound ∧ db.Later (db.enqueueEvent eventId t) := by
  obtain ⟨hsound, hlater⟩ := h.insertEvent eventId row hrow hid hterms
  have htold := h.told row hrow
  unfold RouteDb.enqueueEvent
  rw [hid]
  obtain ⟨hsound', hlater'⟩ := hsound.rewrite row []
    (f := fun r => { r with updatedAt := db.now }) hrow ⟨rfl, rfl, rfl, fun hp => hp⟩
    (fun _ hf => by cases hf) ⟨htold.posted, htold.left, htold.once, htold.opened⟩
  exact ⟨hsound', hlater.trans hlater'⟩

/-! ## The transactions -/

/-- A posted sweep of an amount out of a scope. -/
def RouteDb.PostedSweep (db : RouteDb) (sweep : Uuid) (scope : ScopeId) (amount : Nat) : Prop :=
  ∃ r ∈ db.transfers, r.id = sweep ∧ r.terms.reason = .feeSweep ∧ r.state = .posted ∧
    r.terms.scope = scope ∧ r.terms.amount = amount

theorem RouteDb.PostedSweep.later {db' : RouteDb} {sweep : Uuid} {scope : ScopeId} {amount : Nat}
    (h : db.PostedSweep sweep scope amount) (hlater : db.Later db') :
    db'.PostedSweep sweep scope amount := by
  obtain ⟨r, hr, hid, hreason, hstate, hscope, hamount⟩ := h
  obtain ⟨r', hr', hid', hterms, hstate'⟩ := hlater.transfers r hr
  exact ⟨r', hr', hid'.trans hid, hterms ▸ hreason, hstate' hstate, hterms ▸ hscope,
    hterms ▸ hamount⟩

/-- **A client's transfer**: never a route. -/
theorem RouteDb.Sound.recordTransfer (h : db.Sound) {eventId : Uuid} {terms : TransferTerms}
    {db' : RouteDb} (hrecord : db.recordTransfer id eventId terms = .ok db') :
    db'.Sound ∧ db.Later db' := by
  unfold RouteDb.recordTransfer at hrecord
  cases hrequest : ScopeTransfer.request id terms with
  | error e => simp [hrequest] at hrecord
  | ok r =>
    obtain ⟨t, events⟩ := r
    rw [hrequest] at hrecord
    dsimp only at hrecord
    obtain ⟨hid, hterms⟩ := ScopeTransfer.restore_ok_iff.mp (ScopeTransfer.request_ok hrequest).1
    split_ifs at hrecord with hreason hused
    cases hrecord
    have hfresh : ∀ r ∈ db.transfers, r.id ≠ id :=
      RouteDb.row?_none (by simpa using hused)
    obtain ⟨hsound, hlater⟩ := h.insert ⟨id, t.terms, .pending, none, none, db.now⟩ [] hfresh
      (fun s hs => by cases hs)
      (fun hr => absurd (hterms ▸ hr) hreason) (fun _ hf => by cases hf) (Nat.zero_le _) rfl
      (fun hs => by cases hs)
    obtain ⟨hsound', hlater'⟩ := hsound.insertEvent eventId
      ⟨id, t.terms, .pending, none, none, db.now⟩ List.mem_cons_self hid rfl
    exact ⟨hsound', hlater.trans hlater'⟩

/-- **A route**: of a posted sweep that has none. -/
theorem RouteDb.Sound.routeSweptFee (h : db.Sound) {routeId eventId sweep : Uuid} {scope : ScopeId}
    {amount : Nat} {db' : RouteDb} (hsweep : db.PostedSweep sweep scope amount)
    (hroute : db.routeSweptFee routeId eventId sweep scope amount = .ok db') :
    db'.Sound ∧ db.Later db' := by
  unfold RouteDb.routeSweptFee at hroute
  cases hmade : ScopeTransfer.routeFee routeId sweep scope amount with
  | error e => simp [hmade] at hroute
  | ok made =>
    obtain ⟨route, events⟩ := made
    rw [hmade] at hroute
    dsimp only at hroute
    obtain ⟨ref, -, hrequest⟩ := bind_ok_iff.mp hmade
    obtain ⟨hid, hterms⟩ := ScopeTransfer.restore_ok_iff.mp (ScopeTransfer.request_ok hrequest).1
    split_ifs at hroute with hhas hused hnone
    · cases hroute
      exact ⟨h, .refl db⟩
    cases hroute
    have hfresh : ∀ r ∈ db.transfers, r.id ≠ route.id := by
      rw [hid]
      exact RouteDb.row?_none (by simpa using hused)
    have hunrouted : ∀ r ∈ db.transfers, r.feeRouteOf ≠ some sweep := by simpa using hhas
    obtain ⟨source, hsource, hsourceId, hreason, hstate, hscope, hamount⟩ := hsweep
    have hroutes : ∀ r : TransferRow, r.terms = route.terms → r.Routes source := fun r hr =>
      ⟨hreason, hstate, ref, by rw [hr, hterms, hscope, hamount]⟩
    -- pending with its event, or failed and noted
    by_cases hopen : (route.terms.toScope, route.terms.toLabel) ∈ db.accounts
    · have hrow : db.routeRow sweep route =
          ⟨route.id, route.terms, .pending, none, some sweep, db.now⟩ := if_pos hopen
      unfold RouteDb.insertRoute
      rw [hrow]
      obtain ⟨hsound, hlater⟩ := h.insert
        ⟨route.id, route.terms, .pending, none, some sweep, db.now⟩ [] hfresh
        (fun s hs => by
          cases hs
          exact ⟨hunrouted, source, hsource, hsourceId, hroutes _ rfl⟩)
        (fun _ => rfl) (fun _ hf => by cases hf) (Nat.zero_le _) rfl (fun hs => by cases hs)
      obtain ⟨hsound', hlater'⟩ := hsound.insertEvent eventId
        ⟨route.id, route.terms, .pending, none, some sweep, db.now⟩ (t := route)
        List.mem_cons_self rfl rfl
      exact ⟨hsound', hlater.trans hlater'⟩
    · have hrow : db.routeRow sweep route =
          ⟨route.id, route.terms, .failed, some DESTINATION_MISSING, some sweep, db.now⟩ :=
        if_neg hopen
      unfold RouteDb.insertRoute
      rw [hrow]
      exact h.insert
        ⟨route.id, route.terms, .failed, some DESTINATION_MISSING, some sweep, db.now⟩
        [.missing route.id] hfresh
        (fun s hs => by
          cases hs
          exact ⟨hunrouted, source, hsource, hsourceId, hroutes _ rfl⟩)
        (fun _ => rfl) (fun _ hf => List.mem_singleton.mp hf) (Nat.le_refl _) rfl
        (fun hs => by cases hs)

/-- **The posted stamp.** -/
theorem RouteDb.Sound.stampPosted (h : db.Sound) (hrow : db.row? id = some row)
    (hpending : row.state = .pending) :
    (db.stampPosted id).Sound ∧ db.Later (db.stampPosted id) := by
  obtain ⟨hmem, rfl⟩ := RouteDb.row?_mem hrow
  have htold := h.told row hmem
  refine h.rewrite row [.posted row.id] hmem ⟨rfl, rfl, rfl, fun _ => rfl⟩
    (fun fact hf => by rw [List.mem_singleton.mp hf]; rfl) ⟨?_, ?_, ?_, fun accounts hf => ?_⟩
  · have hnone := htold.posted
    rw [if_neg (by rw [hpending]; decide)] at hnone
    simp [hnone]
  · have hleft := htold.left
    simpa [TransferRow.missing, hpending, TransferFact.revives, List.count_cons] using hleft
  · simpa [List.count_cons] using htold.once
  · exact htold.opened accounts (by simpa using hf)

/-- **The ledger took it.** -/
theorem RouteDb.Sound.markPosted (h : db.Sound) (routeId : Option Uuid) (eventId : Uuid) :
    (db.markPosted id routeId eventId).Sound ∧ db.Later (db.markPosted id routeId eventId) := by
  unfold RouteDb.markPosted
  cases hrow : db.row? id with
  | none => exact ⟨h, .refl db⟩
  | some row =>
    dsimp only
    by_cases hpending : row.state = .pending
    · rw [if_pos hpending]
      obtain ⟨hsound, hlater⟩ := h.stampPosted hrow hpending
      by_cases hreason : row.terms.reason = .feeSweep
      · rw [if_pos hreason]
        cases routeId with
        | none => exact ⟨hsound, hlater⟩
        | some routeId =>
          dsimp only
          -- the stamp is what makes the sweep a posted one
          have hsweep : (db.stampPosted id).PostedSweep id row.terms.scope row.terms.amount := by
            obtain ⟨hmem, hid⟩ := RouteDb.row?_mem hrow
            exact ⟨{ row with state := .posted, updatedAt := db.now },
              RouteDb.mem_updateRow.mpr ⟨row, hmem, if_pos hid⟩, hid, hreason, rfl, rfl, rfl⟩
          cases hroute : (db.stampPosted id).routeSweptFee routeId eventId id row.terms.scope
              row.terms.amount with
          | error e => exact ⟨hsound, hlater⟩
          | ok routed =>
            obtain ⟨hsound', hlater'⟩ := hsound.routeSweptFee hsweep hroute
            exact ⟨hsound', hlater.trans hlater'⟩
      · rw [if_neg hreason]
        exact ⟨hsound, hlater⟩
    · rw [if_neg hpending]
      exact ⟨h, .refl db⟩

/-- **The ledger refused it**, for a reason of the relay's. -/
theorem RouteDb.Sound.markFailed (h : db.Sound) {reason : String}
    (hreason : reason ≠ DESTINATION_MISSING) :
    (db.markFailed id reason).Sound ∧ db.Later (db.markFailed id reason) := by
  unfold RouteDb.markFailed
  cases hrow : db.row? id with
  | none => exact ⟨h, .refl db⟩
  | some row =>
    dsimp only
    by_cases hpending : row.state = .pending
    · rw [if_pos hpending]
      obtain ⟨hmem, rfl⟩ := RouteDb.row?_mem hrow
      have htold := h.told row hmem
      refine h.rewrite row [] hmem
        ⟨rfl, rfl, rfl, fun hp => by rw [hpending] at hp; cases hp⟩ (fun _ hf => by cases hf)
        ⟨?_, ?_, htold.once, htold.opened⟩
      · have hposted := htold.posted
        rw [if_neg (by rw [hpending]; decide)] at hposted
        simpa using hposted
      · have hleft := htold.left
        simpa [TransferRow.missing, hpending, hreason] using hleft
    · rw [if_neg hpending]
      exact ⟨h, .refl db⟩

/-- **A revival**: of a failed route, its destination open. -/
theorem RouteDb.Sound.reviveRoute (h : db.Sound) {eventId : Uuid} {b : Bool} {db' : RouteDb}
    (hrevive : db.reviveRoute id eventId = .ok (b, db')) : db'.Sound ∧ db.Later db' := by
  unfold RouteDb.reviveRoute at hrevive
  cases hrow : (db.row? id).filter (·.missing) with
  | none =>
    rw [hrow] at hrevive
    cases hrevive
    exact ⟨h, .refl db⟩
  | some row =>
    rw [hrow] at hrevive
    dsimp only at hrevive
    obtain ⟨hrow, hmissing⟩ := Option.filter_eq_some_iff.mp hrow
    obtain ⟨hmem, rfl⟩ := RouteDb.row?_mem hrow
    cases hrecorded : row.recorded with
    | error e => simp [hrecorded] at hrevive
    | ok t =>
      rw [hrecorded] at hrevive
      dsimp only at hrevive
      obtain ⟨hid, hterms⟩ := ScopeTransfer.restore_ok_iff.mp hrecorded
      split_ifs at hrevive with hopen
      · cases hrevive
        have htold := h.told row hmem
        have hstate : row.state ≠ .posted := by
          intro hp
          simp [TransferRow.missing, hp] at hmissing
        let f : TransferRow → TransferRow := fun r =>
          { r with state := .pending, failureReason := none, updatedAt := db.now }
        obtain ⟨hsound, hlater⟩ := h.rewrite row [.revived row.id db.accounts] (f := f) hmem
          ⟨rfl, rfl, rfl, fun hp => absurd hp hstate⟩
          (fun fact hf => by rw [List.mem_singleton.mp hf]; rfl)
          ⟨by
            have hposted := htold.posted
            rw [if_neg hstate] at hposted
            simpa [f] using hposted, by
            have hleft := htold.left
            rw [if_pos hmissing] at hleft
            simpa [f, TransferRow.missing, TransferFact.revives] using hleft, by
            simpa [f] using htold.once, fun accounts hf => by
            rcases List.mem_cons.mp hf with hf | hf
            · cases hf
              exact hterms ▸ hopen
            · exact htold.opened accounts hf⟩
        have hmem' : f row ∈ (db.updateRow row.id f).transfers :=
          RouteDb.mem_updateRow.mpr ⟨row, hmem, if_pos rfl⟩
        obtain ⟨hsound', hlater'⟩ := hsound.enqueueEvent eventId (f row) hmem' hid hterms
        exact ⟨hsound', hlater.trans hlater'⟩
      · cases hrevive
        exact ⟨h, .refl db⟩

/-- **A stale transfer enqueued again.** -/
theorem RouteDb.Sound.redriveOne (h : db.Sound) {eventId : Uuid} {db' : RouteDb}
    (hredrive : db.redriveOne id eventId = .ok db') : db'.Sound ∧ db.Later db' := by
  unfold RouteDb.redriveOne at hredrive
  cases hrow : (db.row? id).filter (·.state = .pending) with
  | none =>
    rw [hrow] at hredrive
    cases hredrive
    exact ⟨h, .refl db⟩
  | some row =>
    rw [hrow] at hredrive
    dsimp only at hredrive
    obtain ⟨hrow, hpending⟩ := Option.filter_eq_some_iff.mp hrow
    obtain ⟨hmem, rfl⟩ := RouteDb.row?_mem hrow
    cases hrecorded : row.recorded with
    | error e => simp [hrecorded] at hredrive
    | ok t =>
      rw [hrecorded] at hredrive
      cases hredrive
      obtain ⟨hid, hterms⟩ := ScopeTransfer.restore_ok_iff.mp hrecorded
      exact h.enqueueEvent eventId row hmem hid hterms

end Db

/-! ## The ledger's side -/

/-- The books hold no scope transfer but a row's own, as its leg. -/
structure RouteDb.Filed (db : RouteDb) (books : Books) : Prop where
  sound : books.Sound
  legs : ∀ e ∈ books.entries, e.transfer.tag.code = .scopeTransfer →
    ∃ r ∈ db.transfers, e = .posted r.leg

theorem RouteDb.Filed.later {db db' : RouteDb} {books : Books} (h : db.Filed books)
    (hlater : db.Later db') : db'.Filed books := by
  refine ⟨h.sound, fun e he hcode => ?_⟩
  obtain ⟨r, hr, rfl⟩ := h.legs e he hcode
  obtain ⟨r', hr', hid, hterms, -⟩ := hlater.transfers r hr
  refine ⟨r', hr', ?_⟩
  simp only [TransferRow.leg, hid, hterms]

/-- **A write of a row on the outbox** files its transfer's own leg, or none. -/
theorem RouteDb.Filed.write {db : RouteDb} {books : Books} (h : db.Filed books) (hdb : db.Sound)
    {row : OutboxRow} (hrow : row ∈ db.outbox) {ops : List PlannedOp} {op : PlannedOp}
    {call : LedgerCall} (hplan : plan row = .ok ops) (hop : op ∈ ops)
    (hcall : op.action.call? = some call) : db.Filed (call.run books).2 := by
  have hrequests : op.requests = call.requests := by simp [PlannedOp.requests, hcall]
  have hscoped : ∀ r ∈ call.requests, Unscoped r ∨
      ∃ r' ∈ db.transfers, r = .post r'.leg := by
    intro r hr
    by_cases hkind : row.payload.kind = some .scopeLedger
    · obtain ⟨event, hpayload⟩ : ∃ event, row.payload = .scopeLedger event := by
        rw [plan] at hplan
        cases hp : row.payload <;> rw [hp] at hkind hplan <;> cases hkind
        · exact ⟨_, rfl⟩
        · cases hplan
      obtain ⟨r', hr', hid, hevent⟩ := hdb.events row hrow event hpayload
      refine .inr ⟨r', hr', ?_⟩
      rw [plan, hpayload] at hplan
      cases hplan
      obtain rfl := List.mem_singleton.mp hop
      rw [← hrequests, ← hevent] at hr
      rw [TransferTerms.event, planScopeLedger, requests_postOp, ← hid] at hr
      exact List.mem_singleton.mp hr
    · exact .inl (plan_unscoped hplan hkind op hop r (hrequests ▸ hr))
  refine ⟨LedgerCall.run_sound h.sound, ?_⟩
  refine LedgerCall.run_invariant
    (P := fun L => ∀ e ∈ L.entries, e.transfer.tag.code = .scopeTransfer →
      ∃ r ∈ db.transfers, e = .posted r.leg) ?_ (fun _ _ _ hL => hL) h.legs
  intro L r hr hL _ e he hcode
  rcases List.mem_cons.mp he with rfl | he
  · rcases hscoped r hr with hno | ⟨r', hr', rfl⟩
    · refine absurd ?_ hno
      cases r <;> exact hcode
    · exact ⟨r', hr', rfl⟩
  · exact hL e he hcode

/-! ## The relay's operations -/

/-- What the relay may ask about a row of the outbox: its own writes, and its own reasons. -/
def RelayOp.Drains (row : OutboxRow) : RelayOp → Prop
  | .ledger call => ∃ ops op, plan row = .ok ops ∧ op ∈ ops ∧ op.action.call? = some call
  | .markFailed _ _ reason => reason ≠ DESTINATION_MISSING
  | _ => True

/-- A failed stamp's reason is one of the relay's. -/
def RelayOp.NamesFailure : RelayOp → Prop
  | .markFailed _ _ reason => reason ≠ DESTINATION_MISSING
  | _ => True

/-- A read names none. -/
theorem RelayOp.IsRead.namesFailure {op : RelayOp} (h : op.IsRead) : op.NamesFailure := by
  cases op <;> trivial

theorem insufficientFunds_ne (p : Posting) : p.insufficientFunds ≠ DESTINATION_MISSING := by
  cases p <;> decide

theorem parked_ne (kind : String) : "parked:" ++ kind ≠ DESTINATION_MISSING := by
  intro h
  have hhead := congrArg (fun s : String => s.toList.head?) h
  simp [DESTINATION_MISSING] at hhead

/-- One leg's. -/
theorem applyLeg_names (posting : Option Posting) (row : OutboxRow) (op : PlannedOp) (leg : Nat) :
    (applyLeg posting row op leg).Within RelayOp.NamesFailure := by
  have hafter : ∀ a, (afterLeg posting row op leg a).Within RelayOp.NamesFailure := by
    intro a
    match a with
    | .ok () => exact recordLeg_within trivial
    | .error .insufficientFunds =>
      simp only [afterLeg, refuseFunds]
      cases posting with
      | none => trivial
      | some p =>
        exact ⟨insufficientFunds_ne p, fun _ => (orRetry_within _ _).bind fun _ => trivial⟩
    | .error (.unavailable _) | .error (.retryable _) | .error (.conflict _) => trivial
  have hperform : (perform op).Within RelayOp.NamesFailure := by
    cases hcall : op.action.call? with
    | some call =>
      rw [perform_call hcall]
      exact ⟨trivial, fun _ => trivial⟩
    | none =>
      obtain ⟨request, ha⟩ : ∃ request, op.action = .broadcast request := by
        cases ha : op.action <;> rw [ha] at hcall <;> cases hcall
        exact ⟨_, rfl⟩
      rw [perform_broadcast ha]
      refine ⟨trivial, fun a => ?_⟩
      rcases a with _ | ⟨⟩ <;> trivial
  exact hperform.bind hafter

/-- A dispatch's. -/
theorem dispatchBody_names (row : OutboxRow) :
    (dispatchBody row).Within RelayOp.NamesFailure := by
  have hread : ∀ op, RelayOp.IsRead op → op.NamesFailure := fun _ h => h.namesFailure
  have hrefused : (refusedGate row).Within RelayOp.NamesFailure := by
    unfold refusedGate
    split
    · trivial
    · refine ⟨trivial, fun x => (orRetry_within _ x).bind fun refused => ?_⟩
      cases refused <;> trivial
  refine hrefused.bind fun _ => ?_
  cases plan row with
  | error reason => trivial
  | ok ops =>
    have hguards : (guards (Posting.of row.payload.kind) row ops).Within RelayOp.NamesFailure := by
      refine Prog.Within.bind ?_ fun _ => ?_
      · cases Posting.of row.payload.kind with
        | none => trivial
        | some p =>
          exact postingGate_within ops hread trivial trivial
            (show "expired" ≠ DESTINATION_MISSING by decide)
      · refine (Prog.Within.each fun op _ => liquidityGate_within hread op).bind fun _ => ?_
        refine (Prog.Within.each fun op _ => broadcastGate_within hread row op).bind fun _ => ?_
        refine (Prog.Within.each fun op _ => voidGate_within hread row op).bind fun _ => ?_
        exact Prog.Within.each fun op _ => holdGate_within hread op
    refine hguards.bind fun _ => ?_
    have hlegs : (applyLegs (Posting.of row.payload.kind) row ops).Within RelayOp.NamesFailure :=
      Prog.Within.each fun leg _ => applyLeg_names _ row leg.1 leg.2
    refine hlegs.bind fun _ => (finish_within _ row).mono fun op h => ?_
    cases h <;> trivial

/-- **What the relay asks about a row.** -/
theorem drainRow_within (row : OutboxRow) : (drainRow row).Within (RelayOp.Drains row) := by
  have hdispatch : (dispatch row).Within (RelayOp.Drains row) := by
    refine Prog.Within.bind (Prog.Within.outcome
      (((dispatchBody_within row).and (dispatchBody_names row)).mono fun op h => ?_)) fun _ => trivial
    obtain ⟨hasks, hnames⟩ := h
    cases op with
    | ledger call =>
      cases hasks with
      | read h => exact absurd h (by simp [RelayOp.IsRead])
      | finish h => cases h
      | ledger hplan hop hcall => exact ⟨_, _, hplan, hop, hcall⟩
    | markFailed p row' reason => exact hnames
    | _ => trivial
  have hpark : ∀ reason legs, (park row reason legs).Within (RelayOp.Drains row) := by
    intro reason legs
    have hstamp : (stampParked row reason legs).Within (RelayOp.Drains row) := by
      unfold stampParked
      split <;> exact ⟨trivial, fun _ => trivial⟩
    have hreject : (rejectOrder row reason).Within (RelayOp.Drains row) := by
      unfold rejectOrder
      split
      · exact ⟨trivial, fun _ => trivial⟩
      · trivial
    have hfail : (failPosting row reason).Within (RelayOp.Drains row) := by
      unfold failPosting
      split
      · split_ifs
        · trivial
        · exact ⟨parked_ne _, fun _ => trivial⟩
      · trivial
    refine hstamp.bind fun _ => hreject.bind fun _ => hfail.bind fun _ => ?_
    split_ifs
    · exact ⟨trivial, fun _ => trivial⟩
    · trivial
  refine ⟨trivial, fun held => ?_⟩
  cases held with
  | error e => trivial
  | ok _ =>
    refine hdispatch.bind fun o => ?_
    cases o with
    | done => exact ⟨trivial, fun _ => trivial⟩
    | park reason legs => exact hpark reason legs
    | retry reason => exact ⟨trivial, fun _ => trivial⟩
    | moneyEvent reason =>
      refine ⟨trivial, fun tries => ?_⟩
      cases tries with
      | error e => trivial
      | ok tries =>
        change Prog.Within _ (if MAX_RETRYABLE_ATTEMPTS ≤ tries then _ else _)
        split_ifs
        · exact ⟨trivial, fun _ => trivial⟩
        · trivial
    | retryBounded reason =>
      simp only [settle]
      split_ifs
      · exact hpark _ 0
      · exact ⟨trivial, fun _ => trivial⟩

/-! ## Runs -/

/-- The transfers' tables and the ledger. -/
structure RouteWorld where
  db : RouteDb
  books : Books

/-- A change of the tables, by an operation that fails having done nothing, is carried out, or is
carried out and its answer lost. -/
def RouteWorld.Commits {α : Type} (w : RouteWorld) (a : Except String α) (w' : RouteWorld)
    (change : α → RouteDb → Prop) : Prop :=
  (∃ e, a = .error e) ∧ w' = w ∨
    ∃ b db, change b db ∧ w' = { w with db } ∧ (a = .ok b ∨ ∃ e, a = .error e)

/-- A read of the tables. -/
def RouteWorld.Reads {α : Type} (w : RouteWorld) (a : Except String α) (w' : RouteWorld)
    (Shows : α → Prop) : Prop :=
  w' = w ∧ ∀ b, a = .ok b → Shows b

/-- How the relay's operations are answered: a batch is any rows ever put on the outbox; what is not
about scope transfers may be answered anyhow. -/
def RouteWorld.relay : (op : RelayOp) → RouteWorld → op.Ans → RouteWorld → Prop
  | .nextBatch _, w, a, w' => w.Reads a w' fun batch => ∀ row ∈ batch, row ∈ w.db.outbox
  | .postingState .scopeTransfer row, w, a, w' =>
    w.Reads a w' fun state => state = (w.db.row? row.aggregateId).map (·.state)
  | .markPosted .scopeTransfer row, w, a, w' =>
    w.Commits a w' fun _ db => ∃ routeId eventId,
      db = w.db.markPosted row.aggregateId routeId eventId
  | .markFailed .scopeTransfer row reason, w, a, w' =>
    w.Commits a w' fun _ db => db = w.db.markFailed row.aggregateId reason
  | op, w, a, w' => w'.db = w.db ∧ ledgerStep op w.books a w'.books

/-- How a worker's operations are answered. -/
def RouteWorld.step : (op : RouteOp) → RouteWorld → op.Ans → RouteWorld → Prop
  | .relay op, w, a, w' => w.relay op a w'
  | .unrouted, w, a, w' => w.Reads a w' fun sweeps =>
    ∀ s ∈ sweeps, ∃ r ∈ w.db.unrouted, s = (r.id, r.terms.scope, r.terms.amount)
  | .missingRoutes, w, a, w' => w.Reads a w' fun ids => ids ⊆ w.db.missingRoutes
  | .staleTransfers olderThan, w, a, w' => w.Reads a w' fun ids =>
    ids ⊆ w.db.staleTransfers (w.db.now - olderThan)
  | .routeSweptFee sweep scope amount, w, a, w' => w.Commits a w' fun _ db =>
    ∃ routeId eventId, w.db.routeSweptFee routeId eventId sweep scope amount = .ok db
  | .reviveRoute id, w, a, w' => w.Commits a w' fun b db =>
    ∃ eventId, w.db.reviveRoute id eventId = .ok (b, db)
  | .redriveOne id, w, a, w' => w.Commits a w' fun _ db =>
    ∃ eventId, w.db.redriveOne id eventId = .ok db

/-- The others: clients and approved operations record transfers, accounts are opened, other events
are put on the outbox, time passes. -/
inductive RouteEnv : RouteWorld → RouteWorld → Prop
  | recorded {w : RouteWorld} {id eventId : Uuid} {terms : TransferTerms} {db : RouteDb}
      (h : w.db.recordTransfer id eventId terms = .ok db) : RouteEnv w { w with db }
  | opened (w : RouteWorld) (scope : ScopeId) (label : ScopeAccountLabel) :
      RouteEnv w { w with db := { w.db with accounts := (scope, label) :: w.db.accounts } }
  | event (w : RouteWorld) {row : OutboxRow} (h : row.payload.kind ≠ some .scopeLedger) :
      RouteEnv w { w with db := { w.db with outbox := row :: w.db.outbox } }
  | tick (w : RouteWorld) (now : Nat) : RouteEnv w { w with db := { w.db with now } }

/-- A relay's batch, or a reaper's pass. -/
inductive RouteWorker : RouteProg Unit → Prop
  | relay : RouteWorker relayBatch
  | routes : RouteWorker (redriveFeeRoutes.bind fun _ => .ret ())
  | stale (olderThan : Nat) : RouteWorker ((redriveStaleTransfers olderThan).bind fun _ => .ret ())

/-- Before any transfer: no rows, no events, and no scope transfer in the books. -/
structure RouteWorld.Initial (w : RouteWorld) : Prop where
  transfers : w.db.transfers = []
  outbox : w.db.outbox = []
  log : w.db.log = []
  books : w.books.Sound
  legs : ∀ e ∈ w.books.entries, e.transfer.tag.code ≠ .scopeTransfer

/-- The tables and the books together. -/
structure RouteWorld.Sound (w : RouteWorld) : Prop where
  db : w.db.Sound
  filed : w.db.Filed w.books

/-- The workers' shared world. -/
def routeWorld : World RouteOp RouteOp.Ans RouteWorld where
  step := RouteWorld.step
  rely w w' := w.db.Later w'.db
  inv := RouteWorld.Sound

section Runs

variable {w w' : RouteWorld}

theorem RouteWorld.Initial.sound (h : w.Initial) : w.Sound := by
  obtain ⟨htransfers, houtbox, hlog, hbooks, hlegs⟩ := h
  refine ⟨⟨?_, ?_, ?_, ?_, ?_, ?_, ?_⟩, hbooks, fun e he hcode => absurd hcode (hlegs e he)⟩
  · simp [htransfers]
  · simp [htransfers]
  · simp [htransfers]
  · simp [htransfers]
  · simp [houtbox]
  · simp [htransfers]
  · simp [hlog]

/-- A change of the tables that keeps them sound. -/
theorem RouteWorld.Sound.commit {α : Type} {a : Except String α} {change : α → RouteDb → Prop}
    (h : w.Sound) (hstep : w.Commits a w' change)
    (hchange : ∀ b db, change b db → db.Sound ∧ w.db.Later db) :
    w'.Sound ∧ w.db.Later w'.db := by
  rcases hstep with ⟨-, rfl⟩ | ⟨b, db, hdb, rfl, -⟩
  · exact ⟨h, .refl _⟩
  · obtain ⟨hsound, hlater⟩ := hchange b db hdb
    exact ⟨⟨hsound, h.filed.later hlater⟩, hlater⟩

/-- A read changes nothing. -/
theorem RouteWorld.Sound.read {α : Type} {a : Except String α} {Shows : α → Prop} (h : w.Sound)
    (hstep : w.Reads a w' Shows) : w'.Sound ∧ w.db.Later w'.db := by
  obtain ⟨rfl, -⟩ := hstep
  exact ⟨h, .refl _⟩

/-- **What the relay asks about a row of the outbox keeps the invariant.** -/
theorem RouteWorld.Sound.drain (h : w.Sound) {row : OutboxRow} (hrow : row ∈ w.db.outbox)
    {op : RelayOp} (hop : op.Drains row) {a : op.Ans} (hstep : w.relay op a w') :
    w'.Sound ∧ w.db.Later w'.db := by
  have hbooks : w'.db = w.db → w.db.Filed w'.books → w'.Sound ∧ w.db.Later w'.db :=
    fun hdb hfiled => ⟨⟨hdb ▸ h.db, hdb ▸ hfiled⟩, hdb ▸ .refl _⟩
  have hother : ∀ (op : RelayOp) (a : op.Ans), op.Drains row →
      w'.db = w.db ∧ ledgerStep op w.books a w'.books → w'.Sound ∧ w.db.Later w'.db := by
    rintro op a hop ⟨hdb, hstep⟩
    refine hbooks hdb ?_
    cases op with
    | ledger call =>
      obtain ⟨ops, op, hplan, hop, hcall⟩ := hop
      have hwrite := h.filed.write h.db hrow hplan hop hcall
      rcases hstep with hrun | ⟨-, hrun | hrun⟩
      · have hafter : w'.books = (call.run w.books).2 := by rw [← hrun]
        exact hafter ▸ hwrite
      · exact hrun ▸ h.filed
      · exact hrun ▸ hwrite
    | transferExists id => exact hstep.1 ▸ h.filed
    | balance key => exact hstep.1 ▸ h.filed
    | _ =>
      have hsame : w'.books = w.books := hstep
      exact hsame ▸ h.filed
  cases op with
  | nextBatch => exact h.read hstep
  | postingState posting row' =>
    cases posting with
    | scopeTransfer => exact h.read hstep
    | _ => exact hother _ a hop hstep
  | markPosted posting row' =>
    cases posting with
    | scopeTransfer =>
      refine h.commit hstep fun _ db hdb => ?_
      obtain ⟨routeId, eventId, rfl⟩ := hdb
      exact h.db.markPosted routeId eventId
    | _ => exact hother _ a hop hstep
  | markFailed posting row' reason =>
    cases posting with
    | scopeTransfer =>
      refine h.commit hstep fun _ db hdb => ?_
      subst hdb
      exact h.db.markFailed hop
    | _ => exact hother _ a hop hstep
  | _ => exact hother _ a hop hstep

/-- What the others do. -/
theorem RouteWorld.Sound.env (h : w.Sound) (henv : RouteEnv w w') :
    w.db.Later w'.db ∧ w'.Sound := by
  cases henv with
  | recorded hrecord =>
    obtain ⟨hsound, hlater⟩ := h.db.recordTransfer hrecord
    exact ⟨hlater, hsound, h.filed.later hlater⟩
  | opened scope label =>
    obtain ⟨⟨hids, honce, hroutes, hnamed, hevents, htold, habout⟩, hfiled⟩ := h
    exact ⟨⟨fun r hr => ⟨r, hr, rfl, rfl, fun hp => hp⟩, List.Subset.refl _⟩,
      ⟨hids, honce, hroutes, hnamed, hevents, htold, habout⟩, hfiled.sound, hfiled.legs⟩
  | @event row hkind =>
    obtain ⟨⟨hids, honce, hroutes, hnamed, hevents, htold, habout⟩, hfiled⟩ := h
    refine ⟨⟨fun r hr => ⟨r, hr, rfl, rfl, fun hp => hp⟩, List.subset_cons_self _ _⟩,
      ⟨hids, honce, hroutes, hnamed, fun out hout event hevent => ?_, htold, habout⟩,
      hfiled.sound, hfiled.legs⟩
    rcases List.mem_cons.mp hout with rfl | hout
    · rw [hevent] at hkind
      exact absurd rfl hkind
    · exact hevents out hout event hevent
  | tick now =>
    obtain ⟨⟨hids, honce, hroutes, hnamed, hevents, htold, habout⟩, hfiled⟩ := h
    exact ⟨⟨fun r hr => ⟨r, hr, rfl, rfl, fun hp => hp⟩, List.Subset.refl _⟩,
      ⟨hids, honce, hroutes, hnamed, hevents, htold, habout⟩, hfiled.sound, hfiled.legs⟩

/-- When a worker may ask: the relay about rows of the outbox, the reaper about posted sweeps. -/
def RouteOp.Permitted (w : RouteWorld) : RouteOp → Prop
  | .relay (.nextBatch _) => True
  | .relay op => ∃ row ∈ w.db.outbox, op.Drains row
  | .routeSweptFee sweep scope amount => w.db.PostedSweep sweep scope amount
  | _ => True

theorem RouteOp.Permitted.later {op : RouteOp} (h : op.Permitted w) (hlater : w.db.Later w'.db) :
    op.Permitted w' := by
  cases op with
  | relay op =>
    cases op with
    | nextBatch => trivial
    | _ =>
      obtain ⟨row, hrow, hop⟩ := h
      exact ⟨row, hlater.outbox hrow, hop⟩
  | routeSweptFee => exact RouteDb.PostedSweep.later h hlater
  | _ => trivial

/-- **Every permitted operation keeps the invariant.** -/
theorem RouteWorld.Sound.step (h : w.Sound) (op : RouteOp) (hop : op.Permitted w) {a : op.Ans}
    (hstep : w.step op a w') : w'.Sound ∧ w.db.Later w'.db := by
  cases op with
  | relay op =>
    cases op with
    | nextBatch => exact h.read hstep
    | _ =>
      obtain ⟨row, hrow, hdrains⟩ := hop
      exact h.drain hrow hdrains hstep
  | unrouted | missingRoutes | staleTransfers => exact h.read hstep
  | routeSweptFee sweep scope amount =>
    refine h.commit hstep fun _ db hdb => ?_
    obtain ⟨routeId, eventId, hroute⟩ := hdb
    exact h.db.routeSweptFee hop hroute
  | reviveRoute id =>
    refine h.commit hstep fun b db hdb => ?_
    obtain ⟨eventId, hrevive⟩ := hdb
    exact h.db.reviveRoute hrevive
  | redriveOne id =>
    refine h.commit hstep fun b db hdb => ?_
    obtain ⟨eventId, hredrive⟩ := hdb
    exact h.db.redriveOne hredrive

/-! ## The workers' programs -/

variable {α : Type}

theorem relayed_within {ε : Type} {U : RelayOp → Prop} {p : Prog RelayOp RelayOp.Ans ε α}
    (h : p.Within U) : (relayed p).Within fun op => ∃ o, op = .relay o ∧ U o := by
  induction p with
  | ret a => trivial
  | exit e => trivial
  | call op k ih => exact ⟨⟨op, rfl, h.1⟩, fun a => ih a (h.2 a)⟩

/-- A program whose operations are permitted as long as `J` holds. -/
theorem promises_permitted {J : RouteDb → Prop} {U : RouteOp → Prop}
    (hJ : ∀ {db db' : RouteDb}, db.Later db' → J db → J db')
    (hU : ∀ {op : RouteOp} {w : RouteWorld}, U op → J w.db → op.Permitted w) {p : RouteProg α}
    (hp : p.Within U) (hw : J w.db) : routeWorld.promises p w := by
  refine World.promises_stable (J := fun w : RouteWorld => J w.db)
    (fun w w' hrely hj => hJ hrely hj) hp ?_ hw
  intro op w a w' hop hsound hj hstep
  exact (hsound.step op (hU hop hj) hstep).symm

/-- **A relay's batch.** -/
theorem promises_relayBatch : routeWorld.promises relayBatch w := by
  intro w₁ _ hsound a w₂ hstep
  obtain ⟨hsound₂, hlater⟩ := hsound.step (.relay (.nextBatch 128)) trivial hstep
  refine ⟨hlater, hsound₂, ?_⟩
  obtain ⟨rfl, hbatch⟩ := hstep
  cases a with
  | error e => trivial
  | ok batch =>
    cases batch with
    | nil => trivial
    | cons row rows =>
      refine promises_permitted (J := fun db => ∀ r ∈ row :: rows, r ∈ db.outbox)
        (U := fun op => ∃ o, op = .relay o ∧ ∃ r ∈ row :: rows, o.Drains r)
        (fun hlater hj r hr => hlater.outbox (hj r hr)) ?_ (relayed_within ?_) (hbatch _ rfl)
      · rintro op w ⟨o, rfl, r, hr, hdrains⟩ hj
        cases o with
        | nextBatch => trivial
        | _ => exact ⟨r, hj r hr, hdrains⟩
      · change Prog.Within _ ((Prog.each drainRow (row :: rows)).bind fun _ => .ret DrainStep.more)
        refine Prog.Within.bind (Prog.Within.each fun r hr => ?_) fun _ => trivial
        exact (drainRow_within r).mono fun o ho => ⟨r, hr, ho⟩

/-- An answer passed on. -/
theorem orFail_within {U : RouteOp → Prop} (x : Except String α) : (orFail x).Within U := by
  cases x <;> trivial

/-- **A pass over the routes.** -/
theorem promises_redriveFeeRoutes : routeWorld.promises redriveFeeRoutes w := by
  intro w₁ _ hsound a w₂ hstep
  obtain ⟨hsound₂, hlater⟩ := hsound.step .unrouted trivial hstep
  refine ⟨hlater, hsound₂, ?_⟩
  obtain ⟨rfl, hscan⟩ := hstep
  cases a with
  | error e => trivial
  | ok sweeps =>
    refine promises_permitted
      (J := fun db => ∀ s ∈ sweeps, db.PostedSweep s.1 s.2.1 s.2.2)
      (U := fun op => match op with
        | .relay _ => False
        | .routeSweptFee sweep scope amount => (sweep, scope, amount) ∈ sweeps
        | _ => True)
      (fun hlater hj s hs => (hj s hs).later hlater) ?_ ?_ ?_
    · intro op w hop hj
      cases op with
      | relay => exact absurd hop id
      | routeSweptFee sweep scope amount => exact hj _ hop
      | _ => trivial
    · have hroute : ∀ rest : List (Uuid × ScopeId × Nat), rest ⊆ sweeps →
          (routeEach rest).Within fun op => match op with
            | .relay _ => False
            | .routeSweptFee sweep scope amount => (sweep, scope, amount) ∈ sweeps
            | _ => True := by
        intro rest hrest
        induction rest with
        | nil => trivial
        | cons s rest ih =>
          obtain ⟨hs, hrest⟩ := List.cons_subset.mp hrest
          exact ⟨hs, fun _ => (ih hrest).bind fun _ => trivial⟩
      have hrevive : ∀ ids : List Uuid, (reviveEach ids).Within fun op => match op with
          | .relay _ => False
          | .routeSweptFee sweep scope amount => (sweep, scope, amount) ∈ sweeps
          | _ => True := by
        intro ids
        induction ids with
        | nil => trivial
        | cons id ids ih =>
          refine ⟨trivial, fun revived => ih.bind fun done => ?_⟩
          rcases revived with e | _ | _ <;> trivial
      refine (hroute sweeps (List.Subset.refl _)).bind fun _ => ⟨trivial, fun x => ?_⟩
      exact (orFail_within x).bind fun ids => (hrevive ids).bind fun _ => trivial
    · intro s hs
      obtain ⟨r, hr, rfl⟩ := hscan sweeps rfl s hs
      obtain ⟨hmem, hat⟩ := List.mem_filter.mp hr
      have hat := of_decide_eq_true hat
      exact ⟨r, hmem, rfl, hat.1, hat.2.1, rfl, rfl⟩

/-- **A pass over the stale transfers.** -/
theorem promises_redriveStaleTransfers (olderThan : Nat) :
    routeWorld.promises (redriveStaleTransfers olderThan) w := by
  have heach : ∀ ids : List Uuid, (redriveEach ids).Within fun op => match op with
      | .redriveOne _ | .staleTransfers _ => True
      | _ => False := by
    intro ids
    induction ids with
    | nil => trivial
    | cons id ids ih => exact ⟨trivial, fun _ => ih.bind fun _ => trivial⟩
  refine promises_permitted (J := fun _ => True) (fun _ _ => trivial)
    (U := fun op => match op with
      | .redriveOne _ | .staleTransfers _ => True
      | _ => False) ?_ ?_ trivial
  · intro op w hop _
    cases op with
    | redriveOne | staleTransfers => trivial
    | _ => exact absurd hop id
  · exact ⟨trivial, fun x => (orFail_within x).bind fun ids => heach ids⟩

theorem RouteWorker.promises {p : RouteProg Unit} (h : RouteWorker p) :
    routeWorld.promises p w := by
  have hend : ∀ {α : Type} {p : RouteProg α}, routeWorld.promises p w →
      routeWorld.promises (p.bind fun _ => (.ret () : RouteProg Unit)) w := fun hp =>
    World.promises_bind (J := fun _ => True) (fun _ _ _ _ => trivial) hp trivial
      fun _ _ _ => trivial
  cases h with
  | relay => exact promises_relayBatch
  | routes => exact hend promises_redriveFeeRoutes
  | stale olderThan => exact hend (promises_redriveStaleTransfers olderThan)

/-! ## Routed once -/

end Runs

end Banking
