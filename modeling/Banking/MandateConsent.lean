import Banking.MandateSteps

/-! # Consent bounds holds

No active hold expires after the user's current mandate for the client, whatever is granted, drawn,
captured and refused in whatever order: a draw is admitted under the current mandate with its row
locked, and a grant goes through every hold that is active before its own mandate is current
(`MandateStore.Consented`). A revoke of the current mandate leaves no hold active; one of a mandate
already replaced leaves the holds as they are. -/

namespace Banking

/-! ## Expiries -/

/-- An expiry no later than the limit, if there is one. -/
def ExpiresBy (limit expiresAt : Option Int) : Prop :=
  ∀ last, limit = some last → ∃ time, expiresAt = some time ∧ time ≤ last

theorem ExpiresBy.none (expiresAt : Option Int) : ExpiresBy none expiresAt := fun _ h => by cases h

/-- A hold placed under a mandate expires no later than it. -/
theorem Mandate.holdExpiry_by (m : Mandate) (ttlSeconds : Nat) (now : Int) :
    ExpiresBy m.terms.expiresAt (m.holdExpiry ttlSeconds now) := by
  intro last hlast
  unfold Mandate.holdExpiry
  rw [hlast]
  dsimp only
  split_ifs
  · exact ⟨_, rfl, min_le_right _ _⟩
  · exact ⟨last, rfl, le_rfl⟩

/-- A hold shortened expires no later than it did, -/
theorem HoldRow.shorten_by {r : HoldRow} {limit : Option Int}
    (h : ExpiresBy limit r.hold.terms.expiresAt) (last : Int) :
    ExpiresBy limit (r.shorten last).hold.terms.expiresAt := by
  intro bound hbound
  obtain ⟨time, htime, hle⟩ := h bound hbound
  refine ⟨_, rfl, (min_le_left _ _).trans ?_⟩
  rw [htime]
  exact hle

/-- and no later than what it is shortened to. -/
theorem HoldRow.shorten_limit (r : HoldRow) (last : Int) :
    ExpiresBy (some last) (r.shorten last).hold.terms.expiresAt := by
  intro bound hbound
  cases hbound
  exact ⟨_, rfl, min_le_right _ _⟩

/-! ## What becomes of a hold -/

/-- What the ledger refused: voided, with nothing captured or counted. -/
structure HoldRow.Refused (r : HoldRow) : Prop where
  voided : r.hold.progress.state = .voided
  uncaptured : r.hold.progress.captured = 0
  captures : r.captures = []
  bookFills : r.bookFills = []

section Rows

variable {r r' : HoldRow}

theorem HoldRow.isActive_iff : r.isActive = true ↔ r.hold.progress.state = .active :=
  decide_eq_true_iff

/-- A hold is released by the user when it is active, and left as it is when not. -/
theorem HoldRow.released_cases (r : HoldRow) (now : Int) :
    r.isActive = false ∧ r.released now = r ∨
    r.isActive = true ∧ ∃ state, (state = .voided ∨ state = .expired) ∧
      r.released now = { r with hold := (r.hold.release state).1 } := by
  cases hvoid : r.hold.voidByUser now with
  | none =>
    refine .inl ⟨?_, by rw [HoldRow.released, hvoid]; rfl⟩
    unfold Hold.voidByUser at hvoid
    split_ifs at hvoid with hdue hactive
    exact decide_eq_false hactive
  | some released =>
    have happly : r.hold.apply (.revoke now) = some (released.1, released.2) := hvoid
    obtain ⟨hactive, ⟨amount, target, -, -, -, hevent, -⟩ | ⟨state, hstate, hrelease⟩⟩ :=
      Hold.apply_cases happly
    · -- a release raises no capture
      unfold Hold.voidByUser at hvoid
      split_ifs at hvoid <;> cases hvoid <;> cases hevent
    · refine .inr ⟨HoldRow.isActive_iff.mpr hactive, state, hstate, ?_⟩
      rw [HoldRow.released, hvoid, Option.elim_some, (Prod.ext_iff.mp hrelease).1]

/-- After it the hold is not active. -/
theorem HoldRow.released_inactive (r : HoldRow) (now : Int) :
    (r.released now).isActive = false := by
  obtain ⟨hended, heq⟩ | ⟨-, state, hstate, heq⟩ := r.released_cases now
  · rw [heq]
    exact hended
  · rw [heq]
    rcases hstate with rfl | rfl <;> rfl

/-- No step makes a hold active. -/
theorem HoldRow.Becomes.active (h : r.Becomes r') (hactive : r'.isActive = true) :
    r.isActive = true := by
  cases h with
  | same => exact hactive
  | shortened limit => exact hactive
  | changed known happly => exact HoldRow.isActive_iff.mpr (Hold.apply_cases happly).1
  | released now =>
    rw [HoldRow.released_inactive] at hactive
    cases hactive
  | refused unrefused => cases hactive

/-- **No step lets a hold expire later.** -/
theorem HoldRow.Becomes.expiresBy {limit : Option Int} (h : r.Becomes r')
    (hby : ExpiresBy limit r.hold.terms.expiresAt) : ExpiresBy limit r'.hold.terms.expiresAt := by
  cases h with
  | same => exact hby
  | shortened last => exact HoldRow.shorten_by hby last
  | changed known happly =>
    obtain ⟨-, ⟨amount, target, -, -, -, -, hhold⟩ | ⟨state, -, hhold⟩⟩ := Hold.apply_cases happly
    · exact (congrArg (·.terms.expiresAt) hhold :).symm ▸ hby
    · exact (congrArg (·.terms.expiresAt) (Prod.ext_iff.mp hhold).1 :).symm ▸ hby
  | released now =>
    obtain ⟨-, heq⟩ | ⟨-, state, -, heq⟩ := r.released_cases now
    · exact heq.symm ▸ hby
    · exact heq.symm ▸ hby
  | refused unrefused => exact hby

/-- No step takes a hold's version back. -/
theorem HoldRow.Becomes.version_le (h : r.Becomes r') :
    r.hold.progress.version ≤ r'.hold.progress.version := by
  cases h with
  | same => exact le_rfl
  | shortened limit => exact le_rfl
  | changed known happly =>
    obtain ⟨-, ⟨amount, target, -, -, -, -, hhold⟩ | ⟨state, -, hhold⟩⟩ := Hold.apply_cases happly
    · exact (Nat.le_succ _).trans_eq (congrArg (·.progress.version) hhold :).symm
    · exact (Nat.le_succ _).trans_eq
        (congrArg (·.progress.version) (Prod.ext_iff.mp hhold).1 :).symm
  | released now =>
    obtain ⟨-, heq⟩ | ⟨-, state, -, heq⟩ := r.released_cases now
    · rw [heq]
    · rw [heq]
      exact Nat.le_succ _
  | refused unrefused => exact Nat.le_succ _

/-- **What the ledger refused stays so**: it is not active, so nothing more is done with it. -/
theorem HoldRow.Becomes.stays_refused (h : r.Becomes r') (hrefused : r.ledgerRefused = true)
    (hrow : r.Refused) : r'.ledgerRefused = true ∧ r'.Refused := by
  have hended : r.isActive = false := decide_eq_false (by rw [hrow.voided]; decide)
  cases h with
  | same => exact ⟨hrefused, hrow⟩
  | shortened limit => exact ⟨hrefused, hrow.voided, hrow.uncaptured, hrow.captures, hrow.bookFills⟩
  | changed known happly =>
    have hactive := HoldRow.isActive_iff.mpr (Hold.apply_cases happly).1
    rw [hended] at hactive
    cases hactive
  | released now =>
    obtain ⟨-, heq⟩ | ⟨hactive, -⟩ := r.released_cases now
    · rw [heq]
      exact ⟨hrefused, hrow⟩
    · rw [hended] at hactive
      cases hactive
  | refused unrefused =>
    rw [hrefused] at unrefused
    cases unrefused

/-- No step takes back that the ledger refused a hold. -/
theorem HoldRow.Becomes.ledgerRefused (h : r.Becomes r') (hrefused : r.ledgerRefused = true) :
    r'.ledgerRefused = true := by
  cases h with
  | same | shortened limit | changed known happly => exact hrefused
  | released now =>
    obtain ⟨-, heq⟩ | ⟨-, state, -, heq⟩ := r.released_cases now
    · rw [heq]
      exact hrefused
    · rw [heq]
      exact hrefused
  | refused unrefused => rfl

/-- A hold is refused by the ledger before a step, or by it. -/
theorem HoldRow.Becomes.refused_of (h : r.Becomes r')
    (hrow : r.ledgerRefused = true → r.Refused) (hrefused : r'.ledgerRefused = true) :
    r'.Refused := by
  by_cases hbefore : r.ledgerRefused = true
  · exact (h.stays_refused hbefore (hrow hbefore)).2
  · cases h with
    | refused unrefused => exact ⟨rfl, rfl, rfl, rfl⟩
    | same | shortened limit | changed known happly => exact absurd hrefused hbefore
    | released now =>
      obtain ⟨-, heq⟩ | ⟨-, state, -, heq⟩ := r.released_cases now
      · exact absurd (heq ▸ hrefused) hbefore
      · rw [heq] at hrefused
        exact absurd hrefused hbefore

end Rows

/-! ## Consent -/

/-- A sweep has yet to go to each of the active holds, or has locked it. -/
def Sweep.Covers (sweep : Sweep) (holds : List HoldRow) : Prop :=
  ∀ todo locked, sweep = .rows todo locked →
    ∀ r ∈ holds, r.isActive = true → r.hold.id ∈ todo ∨ r.hold.id ∈ locked

/-- **Consent bounds holds.** -/
structure MandateStore.Consented (s : MandateStore) : Prop where
  locked : s.Locked
  ids : s.holdIds.Nodup
  bounded : ∀ m, s.current = some m → ∀ r ∈ s.holds, r.isActive = true →
    ExpiresBy m.terms.expiresAt r.hold.terms.expiresAt
  swept : ∀ t ∈ s.txs, t.sweep.Covers s.holds
  refused : ∀ r ∈ s.holds, r.ledgerRefused = true → r.Refused

section Steps

variable {s s' : MandateStore} {n : Nat}

theorem Sweep.Covers.waiting (holds : List HoldRow) : Sweep.waiting.Covers holds :=
  fun _ _ heq => by cases heq

/-- A sweep covers what becomes of the holds. -/
theorem Sweep.Covers.becomes {sweep : Sweep} {holds : List HoldRow} (h : sweep.Covers holds)
    {g : HoldRow → HoldRow} (hg : ∀ r ∈ holds, r.Becomes (g r)) : sweep.Covers (holds.map g) := by
  intro todo locked heq r hr hactive
  obtain ⟨r, hmem, rfl⟩ := List.mem_map.mp hr
  rw [(hg r hmem).id_eq]
  exact h todo locked heq r hmem ((hg r hmem).active hactive)

/-- A sweep covers what it finds, -/
theorem MandateStore.found_covers (s : MandateStore) : s.found.Covers s.holds := by
  intro todo locked heq r hr hactive
  cases heq
  exact .inl (List.mem_map.mpr ⟨r, List.mem_filter.mpr ⟨hr, hactive⟩, rfl⟩)

/-- and goes on covering it: it passes over no hold that is active. -/
theorem MandateStore.lockNext_covers (hids : s.holdIds.Nodup) {sweep sweep' : Sweep}
    (h : sweep.Covers s.holds) (hnext : s.lockNext sweep = some sweep') :
    sweep'.Covers s.holds := by
  unfold MandateStore.lockNext at hnext
  split at hnext
  next id todo locked =>
    split_ifs at hnext with hfree hactive <;> cases hnext <;> intro todo' locked' heq r hr hlive <;>
      cases heq <;> have hcovered := h _ _ rfl r hr hlive
    · -- the hold is locked
      rw [List.mem_cons] at hcovered ⊢
      tauto
    · -- it is no longer active
      refine hcovered.imp_left fun hmem => (List.mem_cons.mp hmem).resolve_left fun hid => ?_
      cases hfound : s.findHold id with
      | none =>
        have := List.find?_eq_none.mp hfound r hr
        exact this (by simpa using hid)
      | some r' =>
        obtain ⟨hr', hid'⟩ := MandateStore.findHold_some hfound
        obtain rfl := MandateStore.hold_unique hids hr hr' (hid.trans hid'.symm)
        rw [hfound] at hactive
        exact hactive hlive
  · cases hnext

/-- A sweep that covers the holds, put where it was. -/
theorem MandateStore.Consented.swept_set (h : s.Consented) {t : MandateTx} {sweep : Sweep}
    (ht : s.txs[n]? = some t) (hclaim : t.hasClaim = false) (hcovers : sweep.Covers s.holds) :
    ∀ t' ∈ s.txs.set n (t.sweeping sweep), t'.sweep.Covers s.holds := by
  intro t' ht'
  rcases List.mem_or_eq_of_mem_set ht' with hold | rfl
  · exact h.swept t' hold
  · cases t with
    | draw startedAt mandate draw => cases hclaim
    | grant startedAt terms replaces _ => exact hcovers
    | revoke startedAt id _ => exact hcovers

/-- Consent is kept when nothing is drawn and no other mandate becomes current. -/
theorem MandateStore.Consented.ease (h : s.Consented) (hlocked : s'.Locked) (he : s.Eases s')
    (hcurrent : s'.current = s.current)
    (hswept : ∀ t ∈ s'.txs, t.sweep.Covers s.holds) : s'.Consented := by
  obtain ⟨g, hholds, hg⟩ := he.holds
  have hids : s'.holdIds = s.holdIds := by
    rw [MandateStore.holdIds, hholds, List.map_map]
    exact List.map_congr_left fun r hr => (hg r hr).id_eq
  refine ⟨hlocked, hids ▸ h.ids, fun m hm r' hr' hactive => ?_, fun t ht => ?_,
    fun r' hr' hrefused => ?_⟩
  · rw [hholds] at hr'
    obtain ⟨r, hr, rfl⟩ := List.mem_map.mp hr'
    exact (hg r hr).expiresBy (h.bounded m (hcurrent ▸ hm) r hr ((hg r hr).active hactive))
  · rw [hholds]
    exact (hswept t ht).becomes hg
  · rw [hholds] at hr'
    obtain ⟨r, hr, rfl⟩ := List.mem_map.mp hr'
    exact (hg r hr).refused_of (h.refused r hr) hrefused

/-- A hold recorded under the current mandate, with no transaction left under way. -/
theorem MandateStore.Consented.record (h : s.Consented) (hlocked : s'.Locked)
    {act : MandateAct} (hstep : s.step act = some s') {row : HoldRow}
    (hholds : s'.holds = row :: s.holds) (hcurrent : s'.current = s.current)
    (hby : ∀ m, s.current = some m → ExpiresBy m.terms.expiresAt row.hold.terms.expiresAt)
    (hrefused : row.ledgerRefused = false) (hidle : s'.txs = []) : s'.Consented := by
  refine ⟨hlocked, MandateStore.step_ids h.ids hstep, fun m hm r hr hactive => ?_, ?_,
    fun r hr hr' => ?_⟩
  · rw [hcurrent] at hm
    rw [hholds] at hr
    rcases List.mem_cons.mp hr with rfl | hr
    · exact hby m hm
    · exact h.bounded m hm r hr hactive
  · simp [hidle]
  · rw [hholds] at hr
    rcases List.mem_cons.mp hr with rfl | hr
    · rw [hrefused] at hr'
      cases hr'
    · exact h.refused r hr hr'

/-- **A grant leaves no hold active past its own mandate**: it locked each that was. -/
theorem MandateStore.Consented.granted (h : s.Consented) {id : Uuid}
    (hstep : s.step (.commitGrant n id) = some s') : s'.Consented := by
  have hlocked := h.locked.step hstep
  have he := MandateStore.step_eases h.ids (fun _ hact => by cases hact) hstep
  obtain ⟨g, hholds, hg⟩ := he.holds
  have hids := MandateStore.step_ids h.ids hstep
  obtain ⟨startedAt, terms, replaces, sweep, ht, holds, hs', hshortened⟩ :=
    MandateStore.commitGrant_ok hstep
  obtain ⟨-, hcurrent⟩ := h.locked.granted ht rfl _ (congrArg MandateStore.mandates hs' :)
    (congrArg MandateStore.txs hs' :)
  obtain ⟨hone, rfl⟩ := h.locked.only ht
  subst hs'
  refine ⟨hlocked, hids, fun m hm r' hr' hactive => ?_, ?_, fun r' hr' hrefused => ?_⟩
  · rw [hcurrent] at hm
    cases hm
    dsimp only at hr' ⊢
    rcases hshortened with ⟨hlimit, -⟩ | ⟨limit, locked, hlimit, rfl, rfl⟩
    · rw [hlimit]
      exact .none _
    · rw [hlimit]
      obtain ⟨r, hr, rfl⟩ := List.mem_map.mp hr'
      have hcovers := h.swept _ (hone ▸ List.mem_singleton_self _) [] locked rfl r hr
      split_ifs at hactive ⊢ with hmem
      · exact r.shorten_limit limit
      · exact absurd ((hcovers hactive).resolve_left List.not_mem_nil) hmem
  · simp [hone]
  · rw [hholds] at hr'
    obtain ⟨r, hr, rfl⟩ := List.mem_map.mp hr'
    exact (hg r hr).refused_of (h.refused r hr) hrefused

/-- **A revoke of the current mandate leaves no hold active.** -/
theorem MandateStore.Consented.revoked_inactive (h : s.Consented)
    (hstep : s.step (.commitRevoke n) = some s') : ∀ r ∈ s'.holds, r.isActive = false := by
  obtain ⟨startedAt, id, locked, ht, rfl⟩ := MandateStore.commitRevoke_ok hstep
  obtain ⟨hone, rfl⟩ := h.locked.only ht
  intro r' hr'
  obtain ⟨r, hr, rfl⟩ := List.mem_map.mp hr'
  split_ifs with hmem
  · exact r.released_inactive _
  · -- any that was active was locked
    by_contra hactive
    have hcovers := h.swept _ (hone ▸ List.mem_singleton_self _) [] locked rfl r hr
    exact hmem ((hcovers (by simpa using hactive)).resolve_left List.not_mem_nil)

/-- **Every step keeps the consent.** -/
theorem MandateStore.Consented.step {act : MandateAct} (h : s.Consented)
    (hstep : s.step act = some s') : s'.Consented := by
  have hlocked := h.locked.step hstep
  have hease : (∀ n, act ≠ .recordDraw n) → s.Eases s' := fun hact =>
    MandateStore.step_eases h.ids hact hstep
  cases act with
  | tick elapsed | markPosted id | markFailed id =>
    have he := hease fun _ hact => by cases hact
    cases hstep
    exact h.ease hlocked he rfl h.swept
  | openDraw startedAt draw =>
    have he := hease fun _ hact => by cases hact
    obtain ⟨mandate, -, -, -, -, -, rfl⟩ := MandateStore.openDraw_ok hstep
    refine h.ease hlocked he rfl fun t ht => ?_
    rcases List.mem_cons.mp ht with rfl | ht
    · exact .waiting _
    · exact h.swept t ht
  | recordDraw n =>
    obtain ⟨startedAt, mandate, draw, ht, hdraw⟩ := MandateStore.recordDraw_ok hstep
    obtain ⟨hone, rfl⟩ := h.locked.only ht
    have hcurrent := h.locked.drawn startedAt mandate draw (hone ▸ List.mem_singleton_self _)
    cases draw with
    | reserve id amount ttlSeconds =>
      obtain ⟨-, rfl⟩ := hdraw
      refine h.record hlocked hstep rfl rfl (fun m hm => ?_) rfl (by simp [hone])
      rw [hcurrent] at hm
      cases hm
      exact mandate.holdExpiry_by _ _
    | charge id amount =>
      subst hdraw
      exact ⟨hlocked, h.ids, h.bounded, by simp [hone], h.refused⟩
  | changeHold startedAt id ask =>
    have he := hease fun _ hact => by cases hact
    obtain ⟨r, hold, event, -, -, -, rfl⟩ := MandateStore.changeHold_ok hstep
    exact h.ease hlocked he rfl h.swept
  | parkRefusedReserve id =>
    have he := hease fun _ hact => by cases hact
    obtain rfl := MandateStore.parkRefusedReserve_ok hstep
    exact h.ease hlocked he rfl h.swept
  | openGrant startedAt terms =>
    have he := hease fun _ hact => by cases hact
    obtain ⟨-, -, rfl⟩ := MandateStore.openGrant_ok hstep
    refine h.ease hlocked he rfl fun t ht => ?_
    rcases List.mem_cons.mp ht with rfl | ht
    · exact .waiting _
    · exact h.swept t ht
  | openRevoke startedAt id =>
    have he := hease fun _ hact => by cases hact
    obtain ⟨mandate, -, ⟨-, rfl⟩ | ⟨-, -, rfl⟩⟩ := MandateStore.openRevoke_ok hstep
    · exact h
    · refine h.ease hlocked he rfl fun t ht => ?_
      rcases List.mem_cons.mp ht with rfl | ht
      · exact .waiting _
      · exact h.swept t ht
  | readHolds n =>
    have he := hease fun _ hact => by cases hact
    obtain ⟨t, ht, hclaim, rfl⟩ := MandateStore.readHolds_ok hstep
    refine h.ease hlocked he rfl (h.swept_set ht hclaim s.found_covers)
  | lockHold n =>
    have he := hease fun _ hact => by cases hact
    obtain ⟨t, sweep, ht, hclaim, hnext, rfl⟩ := MandateStore.lockHold_ok hstep
    have hcovers := h.swept t (List.mem_of_getElem? ht)
    exact h.ease hlocked he rfl
      (h.swept_set ht hclaim (MandateStore.lockNext_covers h.ids hcovers hnext))
  | commitGrant n id => exact h.granted hstep
  | commitRevoke n =>
    have he := hease fun _ hact => by cases hact
    obtain ⟨g, hholds, hg⟩ := he.holds
    have hids := MandateStore.step_ids h.ids hstep
    obtain ⟨startedAt, id, locked, ht, hs'⟩ := MandateStore.commitRevoke_ok hstep
    obtain ⟨-, hnone⟩ := h.locked.revoked ht _ (congrArg MandateStore.mandates hs' :)
      (congrArg MandateStore.txs hs' :)
    obtain ⟨hone, rfl⟩ := h.locked.only ht
    subst hs'
    refine ⟨hlocked, hids, fun m hm => ?_, by simp [hone], fun r' hr' hrefused => ?_⟩
    · rw [hnone] at hm
      cases hm
    · rw [hholds] at hr'
      obtain ⟨r, hr, rfl⟩ := List.mem_map.mp hr'
      exact (hg r hr).refused_of (h.refused r hr) hrefused
  | abandon n =>
    have he := hease fun _ hact => by cases hact
    cases hstep
    exact h.ease hlocked he rfl fun t ht => h.swept t (List.mem_of_mem_eraseIdx ht)

/-- **Every run keeps the consent.** -/
theorem MandateStore.Reached.consented (h : s.Reached) : s.Consented := by
  obtain ⟨user, scope, client, clock, acts, hrun⟩ := h
  refine MandateStore.run_keeps (fun hP hstep => MandateStore.Consented.step hP hstep) ?_ hrun
  exact
    { locked := .empty user scope client clock
      ids := List.nodup_nil
      bounded := by simp [MandateStore.empty]
      swept := by simp [MandateStore.empty]
      refused := by simp [MandateStore.empty] }

/-- A hold further on: of the same id, its version no lower, and refused if it was. -/
def HoldRow.Onward (r r' : HoldRow) : Prop :=
  r'.hold.id = r.hold.id ∧ r.hold.progress.version ≤ r'.hold.progress.version ∧
    (r.ledgerRefused = true → r'.ledgerRefused = true)

/-- No step loses a hold or takes it back. -/
theorem MandateStore.step_onward {act : MandateAct} (hids : s.holdIds.Nodup)
    (hstep : s.step act = some s') {r : HoldRow} (hr : r ∈ s.holds) :
    ∃ r' ∈ s'.holds, r.Onward r' := by
  by_cases hact : ∃ n, act = .recordDraw n
  · obtain ⟨n, rfl⟩ := hact
    have hmem : r ∈ s'.holds := by
      obtain ⟨startedAt, mandate, draw, -, hdraw⟩ := MandateStore.recordDraw_ok hstep
      cases draw with
      | reserve id amount ttlSeconds =>
        obtain ⟨-, rfl⟩ := hdraw
        exact List.mem_cons_of_mem _ hr
      | charge id amount =>
        subst hdraw
        exact hr
    exact ⟨r, hmem, rfl, le_rfl, id⟩
  · obtain ⟨g, hholds, hg⟩ :=
      (MandateStore.step_eases hids (fun n hn => hact ⟨n, hn⟩) hstep).holds
    have hbecomes := hg r hr
    exact ⟨g r, hholds ▸ List.mem_map_of_mem hr, hbecomes.id_eq, hbecomes.version_le,
      hbecomes.ledgerRefused⟩

/-- **No run does.** -/
theorem MandateStore.run_onward {acts : List MandateAct} (hids : s.holdIds.Nodup)
    (hrun : s.run acts = some s') {r : HoldRow} (hr : r ∈ s.holds) :
    ∃ r' ∈ s'.holds, r.Onward r' := by
  induction acts generalizing s r with
  | nil => exact ⟨r, Option.some.inj hrun ▸ hr, rfl, le_rfl, id⟩
  | cons act acts ih =>
    obtain ⟨next, hnext, hrest⟩ := Option.bind_eq_some_iff.mp hrun
    obtain ⟨r₁, hr₁, hid₁, hle₁, hrefused₁⟩ := MandateStore.step_onward hids hnext hr
    obtain ⟨r₂, hr₂, hid₂, hle₂, hrefused₂⟩ :=
      ih (MandateStore.step_ids hids hnext) hrest hr₁
    exact ⟨r₂, hr₂, hid₂.trans hid₁, hle₁.trans hle₂, hrefused₂ ∘ hrefused₁⟩

end Steps

/-! ## A mandate replaced, then revoked -/

theorem sampleMandateTerms_scope : ScopeId.Shaped ⟨"invest"⟩ := by decide

theorem sampleMandateTerms_client : ClientId.Shaped ⟨"bot"⟩ := by decide

theorem sampleMandateTerms_checked : ∃ asked, checkTerms ⟨"invest"⟩ ⟨5, 10, 8, none⟩ asked =
    .ok [.reserve, .charge] :=
  ⟨[.reserve, .charge], by decide⟩

/-- Terms of a reserve of up to five at once, of ten a day and of eight held, until `expiresAt`. -/
def sampleMandateTerms (expiresAt : Option Int) : MandateTerms where
  user := .raw 1
  scope := ⟨"invest"⟩
  client := ⟨"bot"⟩
  caps := ⟨5, 10, 8, none⟩
  operations := [.reserve, .charge]
  expiresAt
  scope_shaped := sampleMandateTerms_scope
  client_shaped := sampleMandateTerms_client
  checked := sampleMandateTerms_checked

/-- A mandate granted, five held under it, and the mandate granted anew until `expiresAt`. -/
def sampleRegrant (expiresAt : Option Int) : List MandateAct :=
  [.openGrant 0 (sampleMandateTerms none), .commitGrant 0 (.raw 10),
    .openDraw 0 (.reserve (.raw 20) 5 0), .recordDraw 0,
    .openGrant 0 (sampleMandateTerms expiresAt)] ++
  (if expiresAt.isSome then [.readHolds 0, .lockHold 0] else []) ++ [.commitGrant 0 (.raw 11)]

/-- The store of the samples, after what is done. -/
def sampleStore (acts : List MandateAct) : MandateStore :=
  ((MandateStore.empty (.raw 1) ⟨"invest"⟩ ⟨"bot"⟩ 0).run acts).getD
    (.empty (.raw 1) ⟨"invest"⟩ ⟨"bot"⟩ 0)

/-- It is reached, when each step can be taken. -/
theorem sampleStore_reached {acts : List MandateAct}
    (h : ((MandateStore.empty (.raw 1) ⟨"invest"⟩ ⟨"bot"⟩ 0).run acts).isSome = true) :
    (sampleStore acts).Reached := by
  obtain ⟨s, hs⟩ := Option.isSome_iff_exists.mp h
  refine ⟨.raw 1, ⟨"invest"⟩, ⟨"bot"⟩, 0, acts, ?_⟩
  rw [sampleStore, hs, Option.getD_some]

/-- A revoke that commits: of the current mandate, or of one that has ended, left as it is. -/
def MandateStore.Revokes (s : MandateStore) (act : MandateAct) : Prop :=
  (∃ n, act = .commitRevoke n) ∨
  ∃ startedAt id m, act = .openRevoke startedAt id ∧
    s.mandates.find? (fun m => m.id = id) = some m ∧ m.isCurrent = false

/-- **A revoke of a replaced mandate leaves the holds active.** The user grants anew and then
revokes the first grant. -/
theorem replaced_revoke_leaves_holds :
    ¬ ∀ (s s' : MandateStore) (act : MandateAct), s.Reached → s.step act = some s' →
      s.Revokes act → ∀ r ∈ s'.holds, r.isActive = false := by
  intro h
  have hreached : (sampleStore (sampleRegrant none)).Reached :=
    sampleStore_reached (by decide +kernel)
  have hstep : (sampleStore (sampleRegrant none)).step (.openRevoke 0 (.raw 10)) =
      some (sampleStore (sampleRegrant none)) := by decide +kernel
  have hfound : (sampleStore (sampleRegrant none)).mandates.find? (fun m => m.id = .raw 10) =
      some ⟨.raw 10, sampleMandateTerms none, 0, none, some 0⟩ := by decide +kernel
  have hended := h _ _ _ hreached hstep (.inr ⟨0, .raw 10, _, rfl, hfound, rfl⟩)
  exact absurd hended (by decide +kernel)

/-- **Consent bounds holds**, whatever is granted, revoked, drawn, captured, expired and refused in
whatever order: no active hold expires after the user's current mandate; a revoke that ends the
current mandate leaves none, and no hold active, and one of a mandate already ended changes nothing;
a hold the ledger refused is voided with nothing captured and no capture or fill counted; and a hold
never goes, nor does its version go back, nor what the ledger refused. -/
theorem consent_bounds_holds {s : MandateStore} (h : s.Reached) :
    (∀ m, s.current = some m → ∀ r ∈ s.holds, r.isActive = true →
      ExpiresBy m.terms.expiresAt r.hold.terms.expiresAt) ∧
    (∀ n s', s.step (.commitRevoke n) = some s' →
      s'.current = none ∧ ∀ r ∈ s'.holds, r.isActive = false) ∧
    (∀ startedAt id m s', s.mandates.find? (fun m => m.id = id) = some m → m.isCurrent = false →
      s.step (.openRevoke startedAt id) = some s' → s' = s) ∧
    (∀ r ∈ s.holds, r.ledgerRefused = true → r.Refused) ∧
    (∀ id s', s.step (.parkRefusedReserve id) = some s' →
      ∀ r ∈ s'.holds, r.hold.id = id → r.ledgerRefused = true) ∧
    ∀ acts s', s.run acts = some s' → ∀ r ∈ s.holds, ∃ r' ∈ s'.holds,
      r'.hold.id = r.hold.id ∧ r.hold.progress.version ≤ r'.hold.progress.version ∧
        (r.ledgerRefused = true → r'.ledgerRefused = true) := by
  have hconsent := h.consented
  refine ⟨hconsent.bounded, fun n s' hstep => ⟨?_, hconsent.revoked_inactive hstep⟩,
    fun startedAt id m s' hfound hended hstep => ?_, hconsent.refused,
    fun id s' hstep r' hr' hid => ?_, fun acts s' hrun r hr =>
      MandateStore.run_onward hconsent.ids hrun hr⟩
  · obtain ⟨startedAt, id, locked, ht, hs'⟩ := MandateStore.commitRevoke_ok hstep
    exact (hconsent.locked.revoked ht _ (congrArg MandateStore.mandates hs' :)
      (congrArg MandateStore.txs hs' :)).2
  · obtain ⟨m', hfound', ⟨-, hsame⟩ | ⟨hlive, -, -⟩⟩ := MandateStore.openRevoke_ok hstep
    · exact hsame
    · rw [hfound] at hfound'
      cases hfound'
      rw [hended] at hlive
      cases hlive
  · obtain rfl := MandateStore.parkRefusedReserve_ok hstep
    obtain ⟨r, hr, rfl⟩ := List.mem_map.mp hr'
    have hrid : r.hold.id = id := by
      by_contra hne
      rw [if_neg hne] at hid
      exact hne hid
    rw [if_pos hrid]
    dsimp only
    split_ifs with hrefused
    · exact hrefused
    · rfl

/-- The five held under a mandate without an end expire with the one granted anew. -/
theorem consent_bounds_holds_sample :
    ∃ r ∈ (sampleStore (sampleRegrant (some 1000))).holds, r.isActive = true ∧
      ExpiresBy (some 1000) r.hold.terms.expiresAt := by
  have hreached : (sampleStore (sampleRegrant (some 1000))).Reached :=
    sampleStore_reached (by decide +kernel)
  have hcurrent : (sampleStore (sampleRegrant (some 1000))).current =
      some ⟨.raw 11, sampleMandateTerms (some 1000), 0, none, none⟩ := by decide +kernel
  have hheld : ((sampleStore (sampleRegrant (some 1000))).holds.find? (·.isActive)).isSome = true :=
    by decide +kernel
  obtain ⟨r, hr⟩ := Option.isSome_iff_exists.mp hheld
  have hmem := List.mem_of_find?_eq_some hr
  have hactive : r.isActive = true := @List.find?_some _ HoldRow.isActive _ _ hr
  exact ⟨r, hmem, hactive, (consent_bounds_holds hreached).1 _ hcurrent r hmem hactive⟩

end Banking
