import Banking.MandateStore

/-! # What the steps on a compartment do

What every operation does when it is done. Whatever is done in whatever order, there is at most one
draw, grant or revoke under way: each has the row of the current mandate locked, and a grant that
found none has the lock of the user's grants (`MandateStore.Locked`). -/

namespace Banking

/-! ## What each operation does -/

section Operations

variable {s s' : MandateStore} {n : Nat} {startedAt : Int} {id : Uuid}

theorem MandateStore.openDraw_ok {draw : Draw} (h : s.openDraw startedAt draw = some s') :
    ∃ mandate, s.current = some mandate ∧ startedAt ≤ s.clock ∧ s.mandateFree mandate.id = true ∧
      draw.amount ≠ 0 ∧
      mandate.admitDraw draw.operation draw.amount (s.usage startedAt) (epochSecs startedAt) ∧
      s' = { s with txs := .draw startedAt mandate draw :: s.txs } := by
  unfold MandateStore.openDraw at h
  split at h
  · cases h
  next mandate hcurrent =>
    split at h
    case isTrue hadmitted =>
      obtain ⟨hstarted, -, hfree, hamount, hlet⟩ := hadmitted
      exact ⟨mandate, hcurrent, hstarted, hfree, hamount, hlet, (Option.some.inj h).symm⟩
    case isFalse => cases h

/-- **What recording a draw does.** -/
theorem MandateStore.recordDraw_ok (h : s.recordDraw n = some s') :
    ∃ startedAt mandate draw, s.txs[n]? = some (.draw startedAt mandate draw) ∧
      match draw with
      | .reserve id amount ttlSeconds =>
        s.findHold id = none ∧
        s' = { s with
          holds := {
            hold := ⟨id, ⟨s.scope, s.user, amount,
              mandate.holdExpiry ttlSeconds (epochSecs startedAt)⟩, ⟨0, .active, 1, 1⟩⟩
            mandateId := mandate.id, createdAt := startedAt, committedAt := s.clock
            captures := [], bookFills := [], ledgerRefused := false } :: s.holds
          txs := s.txs.eraseIdx n }
      | .charge id amount =>
        s' = { s with
          charges := ⟨id, mandate.id, amount, .pending, startedAt⟩ :: s.charges
          txs := s.txs.eraseIdx n } := by
  unfold MandateStore.recordDraw at h
  split at h
  next startedAt mandate id amount ttlSeconds htx =>
    refine ⟨startedAt, mandate, .reserve id amount ttlSeconds, htx, ?_⟩
    split at h
    · cases h
    next hnew =>
      dsimp only at h
      split at h
      · cases h
      next hold event hplace =>
        obtain ⟨-, rfl, -⟩ := Hold.place_ok hplace
        exact ⟨hnew, (Option.some.inj h).symm⟩
  next startedAt mandate id amount htx =>
    refine ⟨startedAt, mandate, .charge id amount, htx, ?_⟩
    split at h
    · cases h
    · exact (Option.some.inj h).symm
  · cases h

theorem MandateStore.changeHold_ok {ask : HoldAsk} (h : s.changeHold startedAt id ask = some s') :
    ∃ r hold event, s.findHold id = some r ∧ r.committedAt ≤ startedAt ∧
      r.hold.apply (ask.command (epochSecs startedAt)) = some (hold, event) ∧
      s' = s.updateHold id fun r => r.changed startedAt ask.isFill hold := by
  unfold MandateStore.changeHold at h
  split at h
  · cases h
  next r hfound =>
    split at h
    case isFalse => cases h
    case isTrue hallowed =>
      split at h
      · cases h
      next hold event happly =>
        exact ⟨r, hold, event, hfound, hallowed.2.1, happly, (Option.some.inj h).symm⟩

theorem MandateStore.parkRefusedReserve_ok (h : s.parkRefusedReserve id = some s') :
    s' = s.updateHold id fun r => if r.ledgerRefused then r else r.refused := by
  unfold MandateStore.parkRefusedReserve at h
  split at h
  · exact (Option.some.inj h).symm
  · cases h

theorem MandateStore.openGrant_ok {terms : MandateTerms}
    (h : s.openGrant startedAt terms = some s') :
    (∀ t ∈ s.txs, t.hasGrants = false) ∧ s.current.all (fun m => s.mandateFree m.id) = true ∧
      s' = { s with
        txs := .grant startedAt terms (s.current.map (·.id)) .waiting :: s.txs } := by
  unfold MandateStore.openGrant at h
  split at h
  case isTrue hallowed =>
    obtain ⟨-, -, -, -, -, hgrants, hfree⟩ := hallowed
    refine ⟨fun t ht => ?_, hfree, (Option.some.inj h).symm⟩
    simpa using List.all_eq_true.mp hgrants t ht
  case isFalse => cases h

theorem MandateStore.openRevoke_ok (h : s.openRevoke startedAt id = some s') :
    ∃ mandate, s.mandates.find? (fun m => m.id = id) = some mandate ∧
      (mandate.isCurrent = false ∧ s' = s ∨
        mandate.isCurrent = true ∧ s.mandateFree id = true ∧
          s' = { s with txs := .revoke startedAt id .waiting :: s.txs }) := by
  unfold MandateStore.openRevoke at h
  split at h
  · cases h
  next mandate hfound =>
    refine ⟨mandate, hfound, ?_⟩
    split at h
    case isFalse => cases h
    case isTrue hallowed =>
      split at h
      case isTrue hcurrent => exact .inr ⟨hcurrent, hallowed.2, (Option.some.inj h).symm⟩
      case isFalse hended =>
        exact .inl ⟨by simpa using hended, (Option.some.inj h).symm⟩

/-- What a sweep finds at its beginning. -/
def MandateStore.found (s : MandateStore) : Sweep :=
  .rows ((s.holds.filter (·.isActive)).map (·.hold.id)) []

/-- The sweep of a transaction. -/
def MandateTx.sweep : MandateTx → Sweep
  | .draw .. => .waiting
  | .grant _ _ _ sweep | .revoke _ _ sweep => sweep

/-- A transaction with its sweep at another place. -/
def MandateTx.sweeping (t : MandateTx) (sweep : Sweep) : MandateTx :=
  match t with
  | .draw startedAt mandate asked => .draw startedAt mandate asked
  | .grant startedAt terms replaces _ => .grant startedAt terms replaces sweep
  | .revoke startedAt id _ => .revoke startedAt id sweep

/-- **How a sweep goes on**: it begins, or comes to the next hold. -/
theorem MandateStore.readHolds_ok (h : s.readHolds n = some s') :
    ∃ t, s.txs[n]? = some t ∧ t.hasClaim = false ∧
      s' = { s with txs := s.txs.set n (t.sweeping s.found) } := by
  unfold MandateStore.readHolds at h
  dsimp only at h
  split at h
  next startedAt terms replaces htx =>
    split at h
    · exact ⟨_, htx, rfl, (Option.some.inj h).symm⟩
    · cases h
  next startedAt id htx => exact ⟨_, htx, rfl, (Option.some.inj h).symm⟩
  · cases h

theorem MandateStore.lockHold_ok (h : s.lockHold n = some s') :
    ∃ t sweep, s.txs[n]? = some t ∧ t.hasClaim = false ∧ s.lockNext t.sweep = some sweep ∧
      s' = { s with txs := s.txs.set n (t.sweeping sweep) } := by
  unfold MandateStore.lockHold at h
  split at h
  next startedAt terms replaces sweep htx =>
    obtain ⟨sweep', hnext, hs'⟩ := Option.map_eq_some_iff.mp h
    exact ⟨_, sweep', htx, rfl, hnext, hs'.symm⟩
  next startedAt id sweep htx =>
    obtain ⟨sweep', hnext, hs'⟩ := Option.map_eq_some_iff.mp h
    exact ⟨_, sweep', htx, rfl, hnext, hs'.symm⟩
  · cases h

/-- A mandate stamped as replaced. -/
def Mandate.replacedBy (m : Mandate) (replaces : Option Uuid) (now : Int) : Mandate :=
  if replaces = some m.id then { m with replacedAt := some now } else m

theorem MandateStore.commitGrant_ok (h : s.commitGrant n id = some s') :
    ∃ startedAt terms replaces sweep, s.txs[n]? = some (.grant startedAt terms replaces sweep) ∧
      ∃ holds, s' = { s with
        mandates := ⟨id, terms, epochSecs startedAt, none, none⟩ ::
          s.mandates.map (·.replacedBy replaces (epochSecs startedAt))
        holds
        txs := s.txs.eraseIdx n } ∧
        (terms.expiresAt = none ∧ holds = s.holds ∨
          ∃ limit locked, terms.expiresAt = some limit ∧ sweep = .rows [] locked ∧
            holds = s.holds.map fun r =>
              if r.hold.id ∈ locked then r.shorten limit else r) := by
  unfold MandateStore.commitGrant at h
  split at h
  next startedAt terms replaces sweep htx =>
    refine ⟨startedAt, terms, replaces, sweep, htx, ?_⟩
    dsimp only at h
    split at h
    · cases h
    · split at h
      next hlimit =>
        exact ⟨s.holds, (Option.some.inj h).symm, .inl ⟨hlimit, rfl⟩⟩
      next limit locked hlimit =>
        exact ⟨_, (Option.some.inj h).symm, .inr ⟨limit, locked, hlimit, rfl, rfl⟩⟩
      · cases h
  · cases h

/-- A row as a revoke leaves it. -/
def HoldRow.released (r : HoldRow) (now : Int) : HoldRow :=
  (r.hold.voidByUser now).elim r fun released => { r with hold := released.1 }

theorem MandateStore.commitRevoke_ok (h : s.commitRevoke n = some s') :
    ∃ startedAt id locked, s.txs[n]? = some (.revoke startedAt id (.rows [] locked)) ∧
      s' = { s with
        mandates := s.mandates.map fun m =>
          if m.id = id then { m with revokedAt := some (epochSecs startedAt) } else m
        holds := s.holds.map fun r =>
          if r.hold.id ∈ locked then r.released (epochSecs startedAt) else r
        txs := s.txs.eraseIdx n } := by
  unfold MandateStore.commitRevoke at h
  split at h
  next startedAt id locked htx =>
    exact ⟨startedAt, id, locked, htx, (Option.some.inj h).symm⟩
  · cases h

end Operations

/-! ## What becomes of the rows -/

/-- What a step may make of a hold's row. -/
inductive HoldRow.Becomes (r : HoldRow) : HoldRow → Prop
  | same : Becomes r r
  | shortened (limit : Int) : Becomes r (r.shorten limit)
  | changed {startedAt : Int} {ask : HoldAsk} {hold : Hold} {event : HoldEvent}
      (known : r.committedAt ≤ startedAt)
      (happly : r.hold.apply (ask.command (epochSecs startedAt)) = some (hold, event)) :
      Becomes r (r.changed startedAt ask.isFill hold)
  | released (now : Int) : Becomes r (r.released now)
  | refused (unrefused : r.ledgerRefused = false) : Becomes r r.refused

/-- What a step may make of a charge's row: a pending one is stamped. -/
inductive ChargeRow.Becomes (c : ChargeRow) : ChargeRow → Prop
  | same : Becomes c c
  | stamped (state : MoveState) (pending : c.state = .pending) : Becomes c { c with state }

/-- **Nothing new is drawn**: every row is one there was, and what became of it. -/
structure MandateStore.Eases (s s' : MandateStore) : Prop where
  clock : s.clock ≤ s'.clock
  holds : ∃ g, s'.holds = s.holds.map g ∧ ∀ r ∈ s.holds, r.Becomes (g r)
  charges : ∃ g, s'.charges = s.charges.map g ∧ ∀ c ∈ s.charges, c.Becomes (g c)

/-- The ids of the holds. -/
def MandateStore.holdIds (s : MandateStore) : List Uuid := s.holds.map (·.hold.id)

theorem HoldRow.Becomes.id_eq {r r' : HoldRow} (h : r.Becomes r') : r'.hold.id = r.hold.id := by
  cases h with
  | same => rfl
  | shortened limit => rfl
  | changed known happly =>
    obtain ⟨-, ⟨amount, target, -, -, -, -, hhold⟩ | ⟨state, -, hhold⟩⟩ := Hold.apply_cases happly
    · exact (congrArg Hold.id hhold :)
    · exact (congrArg Hold.id (Prod.ext_iff.mp hhold).1 :)
  | released now =>
    unfold HoldRow.released Hold.voidByUser
    split_ifs <;> rfl
  | refused unrefused => rfl

section Steps

variable {s s' : MandateStore} {n : Nat}

theorem MandateStore.findHold_some {id : Uuid} {r : HoldRow} (h : s.findHold id = some r) :
    r ∈ s.holds ∧ r.hold.id = id :=
  ⟨List.mem_of_find?_eq_some h, by simpa using List.find?_some h⟩

/-- The rows of an id are one. -/
theorem MandateStore.hold_unique (hids : s.holdIds.Nodup) {r r' : HoldRow} (hr : r ∈ s.holds)
    (hr' : r' ∈ s.holds) (h : r.hold.id = r'.hold.id) : r = r' :=
  List.inj_on_of_nodup_map hids hr hr' h

/-- Nothing drawn, when the rows are as they were. -/
theorem MandateStore.Eases.of_rows (hclock : s.clock ≤ s'.clock) (hholds : s'.holds = s.holds)
    (hcharges : s'.charges = s.charges) : s.Eases s' :=
  ⟨hclock, ⟨id, by rw [hholds, List.map_id], fun r _ => .same⟩,
    ⟨id, by rw [hcharges, List.map_id], fun c _ => .same⟩⟩

/-- Nor when some of the holds became what they may. -/
theorem MandateStore.Eases.of_holds {g : HoldRow → HoldRow} (hclock : s'.clock = s.clock)
    (hholds : s'.holds = s.holds.map g) (hg : ∀ r ∈ s.holds, r.Becomes (g r))
    (hcharges : s'.charges = s.charges) : s.Eases s' :=
  ⟨hclock.ge, ⟨g, hholds, hg⟩, ⟨id, by rw [hcharges, List.map_id], fun c _ => .same⟩⟩

/-- **Only recording a draw draws.** -/
theorem MandateStore.step_eases {act : MandateAct} (hids : s.holdIds.Nodup)
    (hact : ∀ n, act ≠ .recordDraw n) (h : s.step act = some s') : s.Eases s' := by
  cases act with
  | tick elapsed =>
    cases h
    exact .of_rows (Int.le_add_of_nonneg_right (Int.natCast_nonneg elapsed)) rfl rfl
  | openDraw startedAt draw =>
    obtain ⟨mandate, -, -, -, -, -, rfl⟩ := MandateStore.openDraw_ok h
    exact .of_rows le_rfl rfl rfl
  | recordDraw n => exact absurd rfl (hact n)
  | changeHold startedAt id ask =>
    obtain ⟨r, hold, event, hfound, hknown, happly, rfl⟩ := MandateStore.changeHold_ok h
    obtain ⟨hr, hid⟩ := MandateStore.findHold_some hfound
    refine .of_holds rfl rfl (fun x hx => ?_) rfl
    dsimp only
    split_ifs with hxid
    · obtain rfl := MandateStore.hold_unique hids hx hr (hxid.trans hid.symm)
      exact .changed hknown happly
    · exact .same
  | parkRefusedReserve id =>
    obtain rfl := MandateStore.parkRefusedReserve_ok h
    refine .of_holds rfl rfl (fun x _ => ?_) rfl
    dsimp only
    split_ifs with hid hrefused
    · exact .same
    · exact .refused (by simpa using hrefused)
    · exact .same
  | markPosted id | markFailed id =>
    cases h
    refine ⟨le_rfl, ⟨_, (List.map_id _).symm, fun r _ => .same⟩, ⟨_, rfl, fun c _ => ?_⟩⟩
    split_ifs with hpending
    · exact .stamped _ hpending.2
    · exact .same
  | openGrant startedAt terms =>
    obtain ⟨-, -, rfl⟩ := MandateStore.openGrant_ok h
    exact .of_rows le_rfl rfl rfl
  | openRevoke startedAt id =>
    obtain ⟨mandate, -, ⟨-, rfl⟩ | ⟨-, -, rfl⟩⟩ := MandateStore.openRevoke_ok h
    · exact .of_rows le_rfl rfl rfl
    · exact .of_rows le_rfl rfl rfl
  | readHolds n =>
    obtain ⟨t, -, -, rfl⟩ := MandateStore.readHolds_ok h
    exact .of_rows le_rfl rfl rfl
  | lockHold n =>
    obtain ⟨t, sweep, -, -, -, rfl⟩ := MandateStore.lockHold_ok h
    exact .of_rows le_rfl rfl rfl
  | commitGrant n id =>
    obtain ⟨startedAt, terms, replaces, sweep, -, holds, rfl,
      ⟨-, rfl⟩ | ⟨limit, locked, -, -, rfl⟩⟩ := MandateStore.commitGrant_ok h
    · exact .of_rows le_rfl rfl rfl
    · refine .of_holds rfl rfl (fun x _ => ?_) rfl
      split_ifs
      · exact .shortened limit
      · exact .same
  | commitRevoke n =>
    obtain ⟨startedAt, id, locked, -, rfl⟩ := MandateStore.commitRevoke_ok h
    refine .of_holds rfl rfl (fun x _ => ?_) rfl
    split_ifs
    · exact .released _
    · exact .same
  | abandon n =>
    cases h
    exact .of_rows le_rfl rfl rfl

/-- The ids stay each of one hold. -/
theorem MandateStore.step_ids {act : MandateAct} (hids : s.holdIds.Nodup)
    (h : s.step act = some s') : s'.holdIds.Nodup := by
  by_cases hact : ∃ n, act = .recordDraw n
  · obtain ⟨n, rfl⟩ := hact
    obtain ⟨startedAt, mandate, draw, -, hdraw⟩ := MandateStore.recordDraw_ok h
    cases draw with
    | charge id amount =>
      subst hdraw
      exact hids
    | reserve id amount ttlSeconds =>
      obtain ⟨hnew, rfl⟩ := hdraw
      refine List.nodup_cons.mpr ⟨fun hmem => ?_, hids⟩
      obtain ⟨r, hr, hid⟩ := List.mem_map.mp hmem
      exact absurd hid (by simpa using List.find?_eq_none.mp hnew r hr)
  · obtain ⟨g, hg, hbecomes⟩ :=
      (MandateStore.step_eases hids (fun n hn => hact ⟨n, hn⟩) h).holds
    have hsame : s'.holdIds = s.holdIds := by
      rw [MandateStore.holdIds, hg, List.map_map]
      exact List.map_congr_left fun r hr => (hbecomes r hr).id_eq
    rw [hsame]
    exact hids

/-! ## One transaction at a time -/

/-- **At most one draw, grant or revoke is under way**, with the row of the current mandate locked,
if there is one. A draw was admitted under it; and no other mandate is current. -/
structure MandateStore.Locked (s : MandateStore) : Prop where
  alone : s.txs.length ≤ 1
  row : ∀ t ∈ s.txs, t.mandateRow = s.current.map (·.id)
  drawn : ∀ startedAt mandate draw, .draw startedAt mandate draw ∈ s.txs →
    s.current = some mandate
  unique : ∀ m ∈ s.mandates, m.isCurrent = true → s.current = some m

/-- A transaction under way is the only one. -/
theorem MandateStore.Locked.only (h : s.Locked) {t : MandateTx} (ht : s.txs[n]? = some t) :
    s.txs = [t] ∧ n = 0 := by
  have halone := h.alone
  generalize s.txs = txs at ht halone
  cases txs with
  | nil => cases ht
  | cons t' rest =>
    obtain rfl : rest = [] := List.eq_nil_of_length_eq_zero (by simpa using halone)
    cases n with
    | zero => exact ⟨by rw [Option.some.inj ht], rfl⟩
    | succ n => cases ht

/-- None is, when none has what the current mandate's row is. -/
theorem MandateStore.Locked.idle (h : s.Locked)
    (hfree : ∀ t ∈ s.txs, t.mandateRow ≠ s.current.map (·.id)) : s.txs = [] :=
  List.eq_nil_iff_forall_not_mem.mpr fun t ht => hfree t ht (h.row t ht)

/-- The first transaction, with the current mandate's row locked. -/
theorem MandateStore.Locked.push (h : s.Locked) (hidle : s.txs = []) {t : MandateTx}
    (hrow : t.mandateRow = s.current.map (·.id))
    (hdrawn : ∀ startedAt mandate draw, t = .draw startedAt mandate draw →
      s.current = some mandate) : MandateStore.Locked { s with txs := t :: s.txs } := by
  rw [hidle]
  refine ⟨le_rfl, fun t' ht' => ?_, fun startedAt mandate draw hdraw => ?_, h.unique⟩
  · rw [List.mem_singleton.mp ht']
    exact hrow
  · exact hdrawn startedAt mandate draw (List.mem_singleton.mp hdraw).symm

/-- No transaction more, and the same mandates. -/
theorem MandateStore.Locked.of_txs (h : s.Locked) (hmandates : s'.mandates = s.mandates)
    (htxs : s'.txs.Sublist s.txs) : s'.Locked := by
  have hcurrent : s'.current = s.current := by rw [MandateStore.current, hmandates]; rfl
  refine ⟨htxs.length_le.trans h.alone, fun t ht => ?_, fun startedAt mandate draw hdraw => ?_,
    fun m hm hlive => ?_⟩
  · rw [hcurrent]
    exact h.row t (htxs.subset ht)
  · rw [hcurrent]
    exact h.drawn _ _ _ (htxs.subset hdraw)
  · rw [hcurrent]
    exact h.unique m (hmandates ▸ hm) hlive

@[simp] theorem MandateTx.sweeping_mandateRow (t : MandateTx) (sweep : Sweep) :
    (t.sweeping sweep).mandateRow = t.mandateRow := by
  cases t <;> rfl

@[simp] theorem MandateTx.sweeping_hasClaim (t : MandateTx) (sweep : Sweep) :
    (t.sweeping sweep).hasClaim = t.hasClaim := by
  cases t <;> rfl

/-- A sweep that goes on. -/
theorem MandateStore.Locked.sweep (h : s.Locked) {t : MandateTx} (ht : s.txs[n]? = some t)
    (hclaim : t.hasClaim = false) (sweep : Sweep) :
    MandateStore.Locked { s with txs := s.txs.set n (t.sweeping sweep) } := by
  obtain ⟨htxs, rfl⟩ := h.only ht
  have hrow := h.row t (htxs ▸ List.mem_singleton_self t)
  rw [htxs]
  refine ⟨le_rfl, fun t' ht' => ?_, fun startedAt mandate draw hdraw => ?_, h.unique⟩
  · rw [List.mem_singleton.mp ht', MandateTx.sweeping_mandateRow]
    exact hrow
  · -- what sweeps is no draw
    have hsame := congrArg MandateTx.hasClaim (List.mem_singleton.mp hdraw)
    rw [MandateTx.sweeping_hasClaim, hclaim] at hsame
    cases hsame

/-- A grant's mandate is the current one: it replaced the one there was. -/
theorem MandateStore.Locked.granted (h : s.Locked) {startedAt : Int} {terms : MandateTerms}
    {replaces : Option Uuid} {sweep : Sweep}
    (ht : s.txs[n]? = some (.grant startedAt terms replaces sweep)) {mandate : Mandate}
    (hlive : mandate.isCurrent = true) (now : Int)
    (hmandates : s'.mandates = mandate :: s.mandates.map (·.replacedBy replaces now))
    (htxs : s'.txs = s.txs.eraseIdx n) : s'.Locked ∧ s'.current = some mandate := by
  obtain ⟨hone, rfl⟩ := h.only ht
  have hrow : replaces = s.current.map (·.id) :=
    (h.row _ (hone ▸ List.mem_singleton_self (MandateTx.grant startedAt terms replaces sweep)) :)
  have hcurrent : s'.current = some mandate := by
    rw [MandateStore.current, hmandates, List.find?_cons_of_pos hlive]
  have hnone : s'.txs = [] := by rw [htxs, hone]; rfl
  refine ⟨⟨by rw [hnone]; exact Nat.zero_le 1, ?_, ?_, fun m hm hm' => ?_⟩, hcurrent⟩
  · simp [hnone]
  · simp [hnone]
  · rw [hmandates] at hm
    rcases List.mem_cons.mp hm with rfl | hold
    · exact hcurrent
    · -- any that was current was replaced
      obtain ⟨m', hmem, rfl⟩ := List.mem_map.mp hold
      unfold Mandate.replacedBy at hm'
      split_ifs at hm' with hid
      · simp [Mandate.isCurrent] at hm'
      · rw [h.unique m' hmem hm'] at hrow
        exact absurd hrow hid

/-- After a revoke no mandate is current. -/
theorem MandateStore.Locked.revoked (h : s.Locked) {startedAt : Int} {id : Uuid} {sweep : Sweep}
    (ht : s.txs[n]? = some (.revoke startedAt id sweep)) (now : Int)
    (hmandates : s'.mandates = s.mandates.map fun m =>
      if m.id = id then { m with revokedAt := some now } else m)
    (htxs : s'.txs = s.txs.eraseIdx n) : s'.Locked ∧ s'.current = none := by
  obtain ⟨hone, rfl⟩ := h.only ht
  have hrow : some id = s.current.map (·.id) :=
    (h.row _ (hone ▸ List.mem_singleton_self (MandateTx.revoke startedAt id sweep)) :)
  have hended : ∀ m ∈ s'.mandates, m.isCurrent = false := by
    rw [hmandates]
    intro m hm
    obtain ⟨m', hmem, rfl⟩ := List.mem_map.mp hm
    split_ifs with hid
    · rfl
    · by_contra hlive
      rw [h.unique m' hmem (by simpa using hlive)] at hrow
      exact hid (Option.some.inj hrow).symm
  have hnone : s'.txs = [] := by rw [htxs, hone]; rfl
  refine ⟨⟨by rw [hnone]; exact Nat.zero_le 1, ?_, ?_, fun m hm hm' => ?_⟩, ?_⟩
  · simp [hnone]
  · simp [hnone]
  · rw [hended m hm] at hm'
    cases hm'
  · exact List.find?_eq_none.mpr fun m hm => by simp [hended m hm]

/-- **Every step keeps one transaction at a time.** -/
theorem MandateStore.Locked.step {act : MandateAct} (h : s.Locked) (hstep : s.step act = some s') :
    s'.Locked := by
  cases act with
  | tick elapsed | markPosted id | markFailed id =>
    cases hstep
    exact h.of_txs rfl (List.Sublist.refl _)
  | openDraw startedAt draw =>
    obtain ⟨mandate, hcurrent, -, hfree, -, -, rfl⟩ := MandateStore.openDraw_ok hstep
    have hidle : s.txs = [] := h.idle fun t ht => by
      rw [hcurrent]
      simpa using List.all_eq_true.mp hfree t ht
    refine h.push hidle (by rw [hcurrent]; rfl) fun startedAt' mandate' draw' heq => ?_
    cases heq
    exact hcurrent
  | recordDraw n =>
    obtain ⟨startedAt, mandate, draw, -, hdraw⟩ := MandateStore.recordDraw_ok hstep
    cases draw with
    | reserve id amount ttlSeconds =>
      obtain ⟨-, rfl⟩ := hdraw
      exact h.of_txs rfl (List.eraseIdx_sublist _ _)
    | charge id amount =>
      subst hdraw
      exact h.of_txs rfl (List.eraseIdx_sublist _ _)
  | changeHold startedAt id ask =>
    obtain ⟨r, hold, event, -, -, -, rfl⟩ := MandateStore.changeHold_ok hstep
    exact h.of_txs rfl (List.Sublist.refl _)
  | parkRefusedReserve id =>
    obtain rfl := MandateStore.parkRefusedReserve_ok hstep
    exact h.of_txs rfl (List.Sublist.refl _)
  | openGrant startedAt terms =>
    obtain ⟨hgrants, hfree, rfl⟩ := MandateStore.openGrant_ok hstep
    have hidle : s.txs = [] := h.idle fun t ht heq => by
      cases hcurrent : s.current with
      | some mandate =>
        rw [hcurrent] at hfree heq
        have hother := List.all_eq_true.mp hfree t ht
        exact of_decide_eq_true hother heq
      | none =>
        -- only a grant has no mandate's row
        rw [hcurrent] at heq
        have hgrant := hgrants t ht
        cases t with
        | draw _ mandate _ => cases heq
        | grant _ _ _ _ => cases hgrant
        | revoke _ id _ => cases heq
    exact h.push hidle rfl fun _ _ _ heq => by cases heq
  | openRevoke startedAt id =>
    obtain ⟨mandate, hfound, ⟨-, rfl⟩ | ⟨hlive, hfree, rfl⟩⟩ := MandateStore.openRevoke_ok hstep
    · exact h
    · have hid : mandate.id = id := by simpa using List.find?_some hfound
      have hcurrent := h.unique mandate (List.mem_of_find?_eq_some hfound) hlive
      have hidle : s.txs = [] := h.idle fun t ht => by
        rw [hcurrent]
        have := List.all_eq_true.mp hfree t ht
        simpa [hid] using this
      exact h.push hidle (by rw [hcurrent, Option.map_some, hid]; rfl) fun _ _ _ heq => by
        cases heq
  | readHolds n =>
    obtain ⟨t, ht, hclaim, rfl⟩ := MandateStore.readHolds_ok hstep
    exact h.sweep ht hclaim _
  | lockHold n =>
    obtain ⟨t, sweep, ht, hclaim, -, rfl⟩ := MandateStore.lockHold_ok hstep
    exact h.sweep ht hclaim _
  | commitGrant n id =>
    obtain ⟨startedAt, terms, replaces, sweep, ht, holds, rfl, -⟩ :=
      MandateStore.commitGrant_ok hstep
    exact (h.granted ht (by rfl) _ rfl rfl).1
  | commitRevoke n =>
    obtain ⟨startedAt, id, locked, ht, rfl⟩ := MandateStore.commitRevoke_ok hstep
    exact (h.revoked ht _ rfl rfl).1
  | abandon n =>
    cases hstep
    exact h.of_txs rfl (List.eraseIdx_sublist _ _)

/-! ## Runs -/

/-- Nothing granted, nothing under way. -/
theorem MandateStore.Locked.empty (user : UserId) (scope : ScopeId) (client : ClientId)
    (clock : Int) : (MandateStore.empty user scope client clock).Locked :=
  { alone := Nat.zero_le 1
    row := by simp [MandateStore.empty]
    drawn := by simp [MandateStore.empty]
    unique := by simp [MandateStore.empty] }

/-- **What every step keeps, every run keeps.** -/
theorem MandateStore.run_keeps {P : MandateStore → Prop}
    (hstep : ∀ {s s' act}, P s → s.step act = some s' → P s') {acts : List MandateAct}
    (hP : P s) (h : s.run acts = some s') : P s' := by
  induction acts generalizing s with
  | nil => exact Option.some.inj h ▸ hP
  | cons act acts ih =>
    obtain ⟨next, hnext, hrest⟩ := Option.bind_eq_some_iff.mp h
    exact ih (hstep hP hnext) hrest

end Steps

end Banking
