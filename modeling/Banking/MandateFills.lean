import Banking.MandateOutflow

/-! # What goes to other users

A hold's money may be captured for another user, as a fill of the book, up to a cap of its own. Each
such capture is checked against the fills of the last 24 hours and stamped with the time its
transaction began, so a fill may be stamped earlier than one recorded before it. Whatever order the
stamps come in, and whatever is granted and revoked in between, no window of 24 hours holds more
than the largest cap any of the user's mandates has. -/

namespace Banking

open Rolling (Entry When total recent Bounded total_append)

/-! ## Records -/

/-- A hold's fills as records. -/
def HoldRow.fills (r : HoldRow) : List (Entry Uuid) := r.bookFills.map (·.entry r.hold.id)

/-- All of them. -/
def MandateStore.fills (s : MandateStore) : List (Entry Uuid) := s.holds.flatMap (·.fills)

/-- What went to other users in the window after `lo` up to `hi`. -/
def MandateStore.filled (s : MandateStore) (lo hi : Int) : Nat :=
  (((s.holds.flatMap (·.bookFills)).filter fun c => lo < c.createdAt && c.createdAt ≤ hi).map
    (·.amount)).sum

section Sums

variable (s : MandateStore)

/-- What is picked of the fills. -/
theorem MandateStore.total_fills (pick : When → Bool) :
    total pick s.fills = (((s.holds.flatMap (·.bookFills)).filter fun c =>
      pick (.stamped c.createdAt)).map (·.amount)).sum := by
  unfold MandateStore.fills
  induction s.holds with
  | nil => rfl
  | cons r rest ih =>
    rw [List.flatMap_cons, List.flatMap_cons, total_append, ih, HoldRow.fills, total_captures,
      List.filter_append, List.map_append, List.sum_append]

theorem MandateStore.filled_eq (lo hi : Int) :
    s.filled lo hi = total (When.within lo hi) s.fills :=
  (s.total_fills (When.within lo hi)).symm

/-- What a capture for another user reads is what is recent. -/
theorem MandateStore.usage_bookFilled (now : Int) :
    (s.usage now).bookFilled24h = recent MANDATE_WINDOW now s.fills :=
  (s.total_fills (When.recent MANDATE_WINDOW now)).symm

end Sums

section Steps

variable {s s' : MandateStore} {n : Nat} {ceiling : Nat}

/-! ## A fill -/

/-- An accepted capture captures what was asked, or all there is. -/
theorem Hold.apply_capture {h h' : Hold} {amount : Option Nat} {target : HoldDestination}
    {now : Int} {e : HoldEvent} (ha : h.apply (.capture amount target now) = some (h', e)) :
    h'.id = h.id ∧ h'.progress.captured = h.progress.captured + amount.getD h.remaining := by
  simp only [Hold.apply, Hold.capture] at ha
  by_cases htarget : target = .user h.terms.user
  · rw [if_pos htarget] at ha
    cases ha
  by_cases hact : h.progress.state ≠ .active ∨ h.isDue now
  · rw [if_neg htarget, if_pos hact] at ha
    cases ha
  by_cases hzero : amount.getD h.remaining = 0
  · rw [if_neg htarget, if_neg hact, if_pos hzero] at ha
    cases ha
  by_cases hmore : h.remaining < amount.getD h.remaining
  · rw [if_neg htarget, if_neg hact, if_neg hzero, if_pos hmore] at ha
    cases ha
  rw [if_neg htarget, if_neg hact, if_neg hzero, if_neg hmore] at ha
  cases ha
  exact ⟨rfl, rfl⟩

/-- A fill let in fits under the cap of the mandate the hold was placed under. -/
theorem Mandate.admitBookFill_fits {m : Mandate} {current : Option Mandate} {amount : Nat}
    {usage : MandateUsage} {now : Int} (h : m.admitBookFill current amount usage now = true) :
    ∃ cap, m.terms.caps.bookFill24h = some cap ∧ usage.bookFilled24h + amount ≤ cap := by
  unfold Mandate.admitBookFill at h
  split at h
  · cases h
  · split at h
    next placed nowCap hplaced hnow =>
      have hmin := of_decide_eq_true h
      exact ⟨placed, (Option.filter_eq_some_iff.mp hplaced).1, hmin.trans (min_le_left _ _)⟩
    · cases h

/-- A capture that changed a hold was let in. -/
theorem MandateStore.changeHold_admits {startedAt : Int} {id : Uuid} {ask : HoldAsk}
    (h : s.changeHold startedAt id ask = some s') {r : HoldRow} (hfound : s.findHold id = some r) :
    s.admitsAsk r startedAt ask = true := by
  unfold MandateStore.changeHold at h
  rw [hfound] at h
  dsimp only at h
  split at h
  case isTrue hallowed => exact hallowed.2.2.2
  case isFalse => cases h

/-- The fills of a hold after a command: as they were, or one more of what was asked. -/
theorem HoldRow.changed_fills {r : HoldRow} {now : Int} {ask : HoldAsk} {hold : Hold}
    {event : HoldEvent} (happly : r.hold.apply (ask.command (epochSecs now)) = some (hold, event)) :
    (r.changed now ask.isFill hold).fills = r.fills ∨
    ∃ amount user, ask = .capture amount (.user user) ∧
      (r.changed now ask.isFill hold).fills =
        ⟨r.hold.id, amount.getD r.hold.remaining, .stamped now⟩ :: r.fills := by
  have hid := (HoldRow.changed_cases happly now ask.isFill).1
  by_cases hfill : ask.isFill = true
  · obtain ⟨amount, user, rfl⟩ : ∃ amount user, ask = .capture amount (.user user) := by
      unfold HoldAsk.isFill at hfill
      split at hfill
      · exact ⟨_, _, rfl⟩
      · cases hfill
    have hcaptured : hold.progress.captured - r.hold.progress.captured =
        amount.getD r.hold.remaining := by
      rw [(Hold.apply_capture happly).2]
      exact Nat.add_sub_cancel_left _ _
    by_cases hzero : amount.getD r.hold.remaining = 0
    · refine .inl ?_
      simp only [HoldRow.fills, HoldRow.changed, hcaptured, hzero, if_true, hid]
      split_ifs
      rfl
    · refine .inr ⟨amount, user, rfl, ?_⟩
      simp only [HoldRow.fills, HoldRow.changed, hcaptured, if_neg hzero, hid]
      rfl
  · refine .inl ?_
    simp only [HoldRow.fills, HoldRow.changed, if_neg hfill, List.nil_append, hid]

/-- **A capture keeps the cap.** -/
theorem MandateStore.bounded_changeHold (hbounded : Bounded MANDATE_WINDOW ceiling s.fills)
    (hids : s.holdIds.Nodup)
    (hcaps : ∀ m ∈ s.mandates, ∀ cap, m.terms.caps.bookFill24h = some cap → cap ≤ ceiling)
    {startedAt : Int} {id : Uuid} {ask : HoldAsk}
    (hstep : s.changeHold startedAt id ask = some s') :
    Bounded MANDATE_WINDOW ceiling s'.fills := by
  obtain ⟨r, hold, event, hfound, -, happly, rfl⟩ := MandateStore.changeHold_ok hstep
  obtain ⟨hr, hrid⟩ := MandateStore.findHold_some hfound
  -- the row of the id stands alone
  obtain ⟨before, after, hholds⟩ := List.append_of_mem hr
  have hothers : ∀ x ∈ before ++ after, x.hold.id ≠ id := by
    intro x hx heq
    have hnodup := hids
    rw [MandateStore.holdIds, hholds, List.map_append, List.map_cons] at hnodup
    have hmid := List.nodup_middle.mp hnodup
    rw [← List.map_append] at hmid
    exact (List.nodup_cons.mp hmid).1 (List.mem_map.mpr ⟨x, hx, heq.trans hrid.symm⟩)
  have hmap : ∀ rows : List HoldRow, (∀ x ∈ rows, x.hold.id ≠ id) →
      (rows.map fun x => if x.hold.id = id then x.changed startedAt ask.isFill hold else x) =
        rows := by
    intro rows hrows
    refine (List.map_congr_left fun x hx => if_neg (hrows x hx)).trans (List.map_id _)
  have hafter : (s.updateHold id fun x => x.changed startedAt ask.isFill hold).fills =
      before.flatMap (·.fills) ++ ((r.changed startedAt ask.isFill hold).fills ++
        after.flatMap (·.fills)) := by
    rw [MandateStore.fills, MandateStore.updateHold, hholds, List.map_append, List.map_cons,
      hmap before fun x hx => hothers x (List.mem_append_left _ hx),
      hmap after fun x hx => hothers x (List.mem_append_right _ hx), if_pos hrid,
      List.flatMap_append, List.flatMap_cons]
  have hbefore : s.fills = before.flatMap (·.fills) ++ (r.fills ++ after.flatMap (·.fills)) := by
    rw [MandateStore.fills, hholds, List.flatMap_append, List.flatMap_cons]
  rw [hafter]
  rcases HoldRow.changed_fills happly with hsame | ⟨amount, user, rfl, hmore⟩
  · rw [hsame, ← hbefore]
    exact hbounded
  · have hadmits := MandateStore.changeHold_admits hstep hfound
    dsimp only [MandateStore.admitsAsk] at hadmits
    split at hadmits
    · cases hadmits
    next placed hplaced =>
      obtain ⟨cap, hcap, hfits⟩ := Mandate.admitBookFill_fits hadmits
      have hceiling := hcaps placed (List.mem_of_find?_eq_some hplaced) cap hcap
      rw [MandateStore.usage_bookFilled, hbefore] at hfits
      rw [hmore, List.cons_append]
      rw [hbefore] at hbounded
      exact hbounded.insert (hfits.trans hceiling)

/-! ## Every run -/

/-- Rows whose fills are those there were, or fewer. -/
theorem MandateStore.fills_sublist {g : HoldRow → HoldRow} (hholds : s'.holds = s.holds.map g)
    (hg : ∀ r ∈ s.holds, (g r).fills.Sublist r.fills) : s'.fills.Sublist s.fills := by
  rw [MandateStore.fills, MandateStore.fills, hholds]
  generalize s.holds = rows at hg
  induction rows with
  | nil => exact List.Sublist.refl _
  | cons r rows ih =>
    rw [List.map_cons, List.flatMap_cons, List.flatMap_cons]
    exact (hg r List.mem_cons_self).append (ih fun x hx => hg x (List.mem_cons_of_mem _ hx))

/-- **Nothing but a capture fills.** -/
theorem MandateStore.step_fills {act : MandateAct} (hlocked : s.Locked)
    (hact : ∀ startedAt id ask, act ≠ .changeHold startedAt id ask)
    (hstep : s.step act = some s') : s'.fills.Sublist s.fills := by
  have hsame : s'.holds = s.holds → s'.fills.Sublist s.fills := fun heq => by
    rw [MandateStore.fills, heq]
    exact List.Sublist.refl _
  cases act with
  | tick elapsed | markPosted id | markFailed id | abandon n =>
    cases hstep
    exact hsame rfl
  | openDraw startedAt draw =>
    obtain ⟨mandate, -, -, -, -, -, rfl⟩ := MandateStore.openDraw_ok hstep
    exact hsame rfl
  | recordDraw n =>
    obtain ⟨startedAt, mandate, draw, -, hdraw⟩ := MandateStore.recordDraw_ok hstep
    cases draw with
    | reserve id amount ttlSeconds =>
      obtain ⟨-, rfl⟩ := hdraw
      exact List.Sublist.refl s.fills
    | charge id amount =>
      subst hdraw
      exact hsame rfl
  | changeHold startedAt id ask => exact absurd rfl (hact startedAt id ask)
  | parkRefusedReserve id =>
    obtain rfl := MandateStore.parkRefusedReserve_ok hstep
    refine MandateStore.fills_sublist rfl fun r _ => ?_
    dsimp only
    split_ifs
    · exact List.Sublist.refl _
    · exact List.nil_sublist _
    · exact List.Sublist.refl _
  | openGrant startedAt terms =>
    obtain ⟨-, -, rfl⟩ := MandateStore.openGrant_ok hstep
    exact hsame rfl
  | openRevoke startedAt id =>
    obtain ⟨mandate, -, ⟨-, rfl⟩ | ⟨-, -, rfl⟩⟩ := MandateStore.openRevoke_ok hstep
    · exact hsame rfl
    · exact hsame rfl
  | readHolds n =>
    obtain ⟨t, -, -, rfl⟩ := MandateStore.readHolds_ok hstep
    exact hsame rfl
  | lockHold n =>
    obtain ⟨t, sweep, -, -, -, rfl⟩ := MandateStore.lockHold_ok hstep
    exact hsame rfl
  | commitGrant n id =>
    obtain ⟨startedAt, terms, replaces, sweep, -, holds, rfl,
      ⟨-, rfl⟩ | ⟨limit, locked, -, -, rfl⟩⟩ := MandateStore.commitGrant_ok hstep
    · exact hsame rfl
    · refine MandateStore.fills_sublist rfl fun r _ => ?_
      split_ifs <;> exact List.Sublist.refl _
  | commitRevoke n =>
    obtain ⟨startedAt, id, locked, -, rfl⟩ := MandateStore.commitRevoke_ok hstep
    refine MandateStore.fills_sublist rfl fun r _ => ?_
    split_ifs
    · obtain ⟨-, heq⟩ | ⟨-, state, -, heq⟩ := r.released_cases (epochSecs startedAt)
      · rw [heq]
      · rw [heq]
        exact List.Sublist.refl _
    · exact List.Sublist.refl _

/-- **Every run keeps the largest cap.** -/
theorem MandateStore.Reached.bounded_fills (h : s.Reached)
    (hcaps : ∀ m ∈ s.mandates, ∀ cap, m.terms.caps.bookFill24h = some cap → cap ≤ ceiling) :
    Bounded MANDATE_WINDOW ceiling s.fills := by
  obtain ⟨user, scope, client, clock, acts, hrun⟩ := h
  have hkept : s.Locked ∧ s.holdIds.Nodup ∧
      ((∀ m ∈ s.mandates, ∀ cap, m.terms.caps.bookFill24h = some cap → cap ≤ ceiling) →
        Bounded MANDATE_WINDOW ceiling s.fills) := by
    refine MandateStore.run_keeps (P := fun s => s.Locked ∧ s.holdIds.Nodup ∧
      ((∀ m ∈ s.mandates, ∀ cap, m.terms.caps.bookFill24h = some cap → cap ≤ ceiling) →
        Bounded MANDATE_WINDOW ceiling s.fills))
      (fun {s s' act} hP hstep => ⟨hP.1.step hstep, MandateStore.step_ids hP.2.1 hstep,
        fun hafter => ?_⟩)
      ⟨.empty user scope client clock, List.nodup_nil, fun _ => .nil _ _⟩ hrun
    have hbefore : ∀ m ∈ s.mandates, ∀ cap, m.terms.caps.bookFill24h = some cap →
        cap ≤ ceiling := by
      intro m hm cap hcap
      obtain ⟨m', hm', hterms⟩ := MandateStore.step_terms hstep hm
      exact hafter m' hm' cap (hterms ▸ hcap)
    by_cases hact : ∃ startedAt id ask, act = .changeHold startedAt id ask
    · obtain ⟨startedAt, id, ask, rfl⟩ := hact
      exact MandateStore.bounded_changeHold (hP.2.2 hbefore) hP.2.1 hbefore hstep
    · exact (hP.2.2 hbefore).sublist (MandateStore.step_fills hP.1
        (fun startedAt id ask heq => hact ⟨startedAt, id, ask, heq⟩) hstep)
  exact hkept.2.2 hcaps

end Steps

/-- **A cap bounds what goes to other users.** Whatever is granted, reserved, captured, voided,
expired, revoked and refused in whatever order, and in whatever order the captures are stamped: in
every window of 24 hours what is captured for other users comes to at most the largest cap on it of
the user's mandates, and to nothing when none has one. -/
theorem mandate_bounds_book_fills {s : MandateStore} (h : s.Reached) {ceiling : Nat}
    (hcaps : ∀ m ∈ s.mandates, ∀ cap, m.terms.caps.bookFill24h = some cap → cap ≤ ceiling) :
    ∀ lo hi, hi ≤ lo + MANDATE_WINDOW → s.filled lo hi ≤ ceiling := by
  intro lo hi hwidth
  rw [MandateStore.filled_eq]
  exact h.bounded_fills hcaps lo hi hwidth

theorem sampleFillTerms_scope : ScopeId.Shaped ⟨"invest"⟩ := by decide

theorem sampleFillTerms_client : ClientId.Shaped ⟨"bot"⟩ := by decide

theorem sampleFillTerms_checked : ∃ asked, checkTerms ⟨"invest"⟩ ⟨5, 10, 8, some 6⟩ asked =
    .ok [.reserve, .bookFill] :=
  ⟨[.reserve, .bookFill], by decide⟩

/-- Terms of a reserve of up to five at once and of fills of six a day. -/
def sampleFillTerms : MandateTerms where
  user := .raw 1
  scope := ⟨"invest"⟩
  client := ⟨"bot"⟩
  caps := ⟨5, 10, 8, some 6⟩
  operations := [.reserve, .bookFill]
  expiresAt := none
  scope_shaped := sampleFillTerms_scope
  client_shaped := sampleFillTerms_client
  checked := sampleFillTerms_checked

/-- Three of five filled, the other two kept. -/
def sampleFilled : MandateStore :=
  sampleStore [.openGrant 0 sampleFillTerms, .commitGrant 0 (.raw 10),
    .openDraw 0 (.reserve (.raw 20) 5 0), .recordDraw 0, .tick 5000000,
    .changeHold 4000000 (.raw 20) (.capture (some 3) (.user (.raw 2)))]

/-- Three filled in a day, of six. -/
theorem mandate_bounds_book_fills_sample :
    sampleFilled.filled 0 MANDATE_WINDOW = 3 ∧ sampleFilled.filled 0 MANDATE_WINDOW ≤ 6 := by
  have hreached : sampleFilled.Reached := sampleStore_reached (by decide +kernel)
  have hcaps : ∀ m ∈ sampleFilled.mandates, ∀ cap,
      m.terms.caps.bookFill24h = some cap → cap ≤ 6 := by
    have hterms : ∀ m ∈ sampleFilled.mandates, m.terms.caps.bookFill24h = some 6 := by
      decide +kernel
    intro m hm cap hcap
    exact (Option.some.inj ((hterms m hm).symm.trans hcap)).ge
  exact ⟨by decide +kernel, mandate_bounds_book_fills hreached hcaps 0 MANDATE_WINDOW (by decide)⟩

end Banking
