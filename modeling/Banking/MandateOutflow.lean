import Banking.Lib.Rolling
import Banking.MandateConsent

/-! # What a client takes under a mandate

A capture and a charge are money stamped with a time, and what a hold still holds is money that may
be stamped at any time from its placing on. Under caps that do not change, all of it is within the
day's cap and the cap on what is held, in every window of 24 hours, whatever is drawn, captured,
released and refused in whatever order (`MandateStore.Capped`). A draw reads its usage and is
recorded later: in between the rest only shrinks. -/

namespace Banking

open Rolling (Entry When total recent Bounded Shrinks total_cons total_append)

/-! ## Records -/

/-- A capture as a record. -/
def CaptureRow.entry (id : Uuid) (c : CaptureRow) : Entry Uuid :=
  ⟨id, c.amount, .stamped c.createdAt⟩

/-- A hold as records: what it holds, open, and its captures. -/
def HoldRow.entries (r : HoldRow) : List (Entry Uuid) :=
  ⟨r.hold.id, r.hold.remaining, .openSince r.createdAt⟩ :: r.captures.map (·.entry r.hold.id)

/-- A charge as a record, unless the ledger refused it. -/
def ChargeRow.entry (c : ChargeRow) : Option (Entry Uuid) :=
  if c.state = .failed then none else some ⟨c.id, c.amount, .stamped c.createdAt⟩

/-- All the records. -/
def MandateStore.log (s : MandateStore) : List (Entry Uuid) :=
  s.charges.filterMap (·.entry) ++ s.holds.flatMap (·.entries)

/-- What the client's holds hold now. -/
def MandateStore.held (s : MandateStore) : Nat := (s.holds.map (·.hold.remaining)).sum

/-- What the client took in the window after `lo` up to `hi`: its captures, and its charges that the
ledger did not refuse. -/
def MandateStore.taken (s : MandateStore) (lo hi : Int) : Nat :=
  (((s.holds.flatMap (·.captures)).filter fun c => lo < c.createdAt && c.createdAt ≤ hi).map
    (·.amount)).sum +
  ((s.charges.filter fun c => c.state ≠ .failed && (lo < c.createdAt && c.createdAt ≤ hi)).map
    (·.amount)).sum

/-- **A hold's row agrees with its captures**: they add up to what was captured, no more than was
held, and none is from before it was placed. -/
structure HoldRow.Sound (r : HoldRow) : Prop where
  captured : (r.captures.map (·.amount)).sum = r.hold.progress.captured
  captured_le : r.hold.progress.captured ≤ r.hold.terms.amount
  placed : r.createdAt ≤ r.committedAt
  later : ∀ c ∈ r.captures, r.createdAt ≤ c.createdAt

section Rows

variable {r r' : HoldRow}

/-- The captures of a hold that are picked. -/
theorem total_captures (pick : When → Bool) (id : Uuid) (rows : List CaptureRow) :
    total pick (rows.map (·.entry id)) =
      ((rows.filter fun c => pick (.stamped c.createdAt)).map (·.amount)).sum := by
  rw [total, List.filter_map, List.map_map]
  rfl

/-- What a hold has left. -/
theorem HoldRow.remaining_eq (r : HoldRow) :
    r.hold.remaining =
      if r.isActive then r.hold.terms.amount - r.hold.progress.captured else 0 := by
  split_ifs with hactive
  · exact Hold.remaining_active (HoldRow.isActive_iff.mp hactive)
  · exact Hold.remaining_inactive fun hs => hactive (HoldRow.isActive_iff.mpr hs)

/-- What a hold placed in the window counts is no less than its captures in it. -/
theorem HoldRow.Sound.since_le (h : r.Sound) (since : Int) :
    CaptureRow.since since r.captures ≤ r.hold.progress.captured :=
  h.captured ▸ List.Sublist.sum_le_sum (List.filter_sublist.map _) fun _ _ => Nat.zero_le _

theorem HoldRow.Sound.counted_ge (h : r.Sound) : r.hold.progress.captured ≤ r.counted := by
  unfold HoldRow.counted
  split
  · exact le_rfl
  · exact le_rfl
  · exact h.captured_le
  · exact h.captured_le

/-- **What a command makes of a hold**: a part of what it holds captured and counted, or all of it
given back. -/
theorem HoldRow.changed_cases {command : HoldCommand} {hold : Hold} {event : HoldEvent}
    (happly : r.hold.apply command = some (hold, event)) (now : Int) (isFill : Bool) :
    hold.id = r.hold.id ∧ hold.terms = r.hold.terms ∧
    ((∃ amount ≤ r.hold.remaining, hold.progress.captured = r.hold.progress.captured + amount ∧
        hold.remaining + amount = r.hold.remaining ∧
        (r.changed now isFill hold).captures =
          ⟨hold.progress.version, amount, now⟩ :: r.captures) ∨
      hold.progress.captured = r.hold.progress.captured ∧ hold.remaining = 0 ∧
        (r.changed now isFill hold).captures = r.captures) := by
  obtain ⟨hactive, ⟨amount, target, -, hpos, hle, -, hhold⟩ | ⟨state, hstate, hrelease⟩⟩ :=
    Hold.apply_cases happly
  · have hremaining := Hold.remaining_active hactive
    refine ⟨by rw [hhold], by rw [hhold], .inl ⟨amount, hle, by rw [hhold], ?_, ?_⟩⟩
    · by_cases hall : amount = r.hold.remaining
      · have hended : hold.remaining = 0 := by
          rw [hhold, Hold.remaining]
          simp [hall]
        rw [hended, Nat.zero_add, hall]
      · have hleft : hold.remaining =
            r.hold.terms.amount - (r.hold.progress.captured + amount) := by
          rw [hhold, Hold.remaining]
          simp [hall]
        omega
    · have hcaptured : hold.progress.captured - r.hold.progress.captured = amount := by
        rw [hhold]
        exact Nat.add_sub_cancel_left _ _
      rw [HoldRow.changed, hcaptured]
      simp [hpos.ne']
  · have hhold : hold = (r.hold.release state).1 := (Prod.ext_iff.mp hrelease).1
    have hcaptured : hold.progress.captured = r.hold.progress.captured := by rw [hhold]; rfl
    refine ⟨by rw [hhold]; rfl, by rw [hhold]; rfl, .inr ⟨hcaptured, ?_, ?_⟩⟩
    · rw [hhold]
      rcases hstate with rfl | rfl <;> rfl
    · rw [HoldRow.changed, hcaptured]
      simp

/-- A hold no longer active, with the captures it had. -/
theorem HoldRow.shrinks_released (r : HoldRow) {hold : Hold} (hid : hold.id = r.hold.id)
    (hended : hold.remaining = 0) : Shrinks r.entries { r with hold }.entries := by
  unfold HoldRow.entries
  rw [hended, hid]
  exact (Shrinks.lower (.openSince r.createdAt) (Nat.zero_le _)).append (.refl _)

/-- **What a step makes of a hold takes no more than it did.** -/
theorem HoldRow.Becomes.shrinks (h : r.Becomes r') (hr : r.Sound) :
    Shrinks r.entries r'.entries := by
  cases h with
  | same => exact .refl _
  | shortened limit => exact .refl _
  | @changed startedAt ask hold event known happly =>
    obtain ⟨hid, -, ⟨amount, -, -, hleft, hcaptures⟩ | ⟨-, hended, hcaptures⟩⟩ :=
      HoldRow.changed_cases happly startedAt ask.isFill
    · have hsplit : Shrinks [(⟨r.hold.id, r.hold.remaining, .openSince r.createdAt⟩ : Entry Uuid)]
          [⟨r.hold.id, hold.remaining, .openSince r.createdAt⟩,
            ⟨r.hold.id, amount, .stamped startedAt⟩] :=
        .split (hr.placed.trans known) (by omega)
      have hentries : (r.changed startedAt ask.isFill hold).entries =
          ⟨r.hold.id, hold.remaining, .openSince r.createdAt⟩ ::
            ⟨r.hold.id, amount, .stamped startedAt⟩ :: r.captures.map (·.entry r.hold.id) := by
        rw [HoldRow.entries, hcaptures, List.map_cons]
        simp only [HoldRow.changed, CaptureRow.entry, hid]
      rw [hentries]
      exact hsplit.append (.refl _)
    · have hentries : (r.changed startedAt ask.isFill hold).entries =
          ({ r with hold } : HoldRow).entries := by
        rw [HoldRow.entries, HoldRow.entries, hcaptures]
        rfl
      rw [hentries]
      exact r.shrinks_released hid hended
  | released now =>
    obtain ⟨-, heq⟩ | ⟨-, state, hstate, heq⟩ := r.released_cases now
    · rw [heq]
      exact .refl _
    · rw [heq]
      exact r.shrinks_released rfl (by rcases hstate with rfl | rfl <;> rfl)
  | refused unrefused =>
    exact (Shrinks.lower (.openSince r.createdAt) (Nat.zero_le r.hold.remaining)).append (.nil _)

/-- **And agrees with its captures.** -/
theorem HoldRow.Becomes.sound (h : r.Becomes r') (hr : r.Sound) : r'.Sound := by
  cases h with
  | same => exact hr
  | shortened limit => exact ⟨hr.captured, hr.captured_le, hr.placed, hr.later⟩
  | @changed startedAt ask hold event known happly =>
    obtain ⟨hid, hterms, ⟨amount, hle, hcaptured, -, hcaptures⟩ | ⟨hcaptured, -, hcaptures⟩⟩ :=
      HoldRow.changed_cases happly startedAt ask.isFill
    · have hactive := (Hold.apply_cases happly).1
      have hremaining := Hold.remaining_active hactive
      have hbefore := hr.captured_le
      refine ⟨?_, ?_, hr.placed, fun c hc => ?_⟩
      · rw [hcaptures, List.map_cons, List.sum_cons, hr.captured]
        exact (Nat.add_comm _ _).trans hcaptured.symm
      · refine hcaptured.trans_le (le_trans ?_ (congrArg HoldTerms.amount hterms).ge)
        omega
      · rw [hcaptures] at hc
        rcases List.mem_cons.mp hc with rfl | hc
        · exact hr.placed.trans known
        · exact hr.later c hc
    · refine ⟨?_, ?_, hr.placed, fun c hc => hr.later c (hcaptures ▸ hc)⟩
      · rw [hcaptures, hr.captured]
        exact hcaptured.symm
      · exact hcaptured.trans_le (hr.captured_le.trans (congrArg HoldTerms.amount hterms).ge)
  | released now =>
    obtain ⟨-, heq⟩ | ⟨-, state, -, heq⟩ := r.released_cases now
    · rw [heq]
      exact hr
    · rw [heq]
      exact ⟨hr.captured, hr.captured_le, hr.placed, hr.later⟩
  | refused unrefused =>
    exact ⟨rfl, Nat.zero_le _, hr.placed, fun _ hc => by cases hc⟩

/-- The amount of a hold never changes. -/
theorem HoldRow.Becomes.amount_eq (h : r.Becomes r') :
    r'.hold.terms.amount = r.hold.terms.amount := by
  cases h with
  | same | shortened limit | refused unrefused => rfl
  | @changed startedAt ask hold event known happly =>
    exact congrArg HoldTerms.amount (HoldRow.changed_cases happly startedAt ask.isFill).2.1
  | released now =>
    obtain ⟨-, heq⟩ | ⟨-, state, -, heq⟩ := r.released_cases now
    · rw [heq]
    · rw [heq]
      rfl

end Rows

/-! ## What the sums count -/

section Sums

variable (s : MandateStore)

/-- What the usage says is outstanding. -/
theorem MandateStore.usage_outstanding (now : Int) : (s.usage now).outstanding = s.held := by
  unfold MandateStore.usage MandateStore.held
  dsimp only
  induction s.holds with
  | nil => rfl
  | cons r rest ih =>
    rw [List.map_cons, List.sum_cons, ← ih, HoldRow.remaining_eq]
    by_cases hactive : r.isActive = true <;> simp [hactive]

/-- Whether a record is open. -/
def isOpen : When → Bool
  | .openSince _ => true
  | .stamped _ => false

theorem total_isOpen_captures (id : Uuid) (rows : List CaptureRow) :
    total isOpen (rows.map (·.entry id)) = 0 := by
  rw [total_captures]
  simp [isOpen]

/-- What is held is what is open. -/
theorem MandateStore.held_eq : s.held = total isOpen s.log := by
  have hcharges : total isOpen (s.charges.filterMap (·.entry)) = 0 := by
    induction s.charges with
    | nil => rfl
    | cons c rest ih =>
      rw [List.filterMap_cons]
      unfold ChargeRow.entry
      split_ifs
      · exact ih
      · exact (total_cons _ _ _).trans ((Nat.zero_add _).trans ih)
  rw [MandateStore.log, total_append, hcharges, Nat.zero_add, MandateStore.held]
  induction s.holds with
  | nil => rfl
  | cons r rest ih =>
    rw [List.map_cons, List.sum_cons, List.flatMap_cons, total_append, ih,
      HoldRow.entries, total_cons, total_isOpen_captures]
    rfl

/-- **What is taken in a window falls in it.** -/
theorem MandateStore.taken_le (lo hi : Int) : s.taken lo hi ≤ total (When.within lo hi) s.log := by
  have hcharges : ((s.charges.filter fun c =>
      c.state ≠ .failed && (lo < c.createdAt && c.createdAt ≤ hi)).map (·.amount)).sum ≤
      total (When.within lo hi) (s.charges.filterMap (·.entry)) := by
    refine Rolling.le_total_filterMap fun c _ hc => ?_
    rw [Bool.and_eq_true, decide_eq_true_eq] at hc
    exact ⟨_, if_neg hc.1, hc.2, rfl⟩
  have hholds : (((s.holds.flatMap (·.captures)).filter fun c =>
      lo < c.createdAt && c.createdAt ≤ hi).map (·.amount)).sum ≤
      total (When.within lo hi) (s.holds.flatMap (·.entries)) := by
    induction s.holds with
    | nil => exact le_rfl
    | cons r rest ih =>
      rw [List.flatMap_cons, List.flatMap_cons, total_append, List.filter_append,
        List.map_append, List.sum_append, HoldRow.entries, total_cons, total_captures]
      exact Nat.add_le_add (Nat.le_add_left _ _) ih
  rw [MandateStore.log, total_append, MandateStore.taken]
  omega

/-- **What a draw reads is no less than what may count with it.** -/
theorem MandateStore.recent_le (hsound : ∀ r ∈ s.holds, r.Sound) (now : Int) :
    recent MANDATE_WINDOW now s.log ≤
      (s.usage now).drawn24h + (s.usage now).outstanding := by
  have hcharges : recent MANDATE_WINDOW now (s.charges.filterMap (·.entry)) ≤
      ((s.charges.filter fun c => c.state ≠ .failed ∧ now - MANDATE_WINDOW < c.createdAt).map
        (·.amount)).sum := by
    refine Rolling.total_filterMap_le fun c _ e he hrecent => ?_
    unfold ChargeRow.entry at he
    split_ifs at he with hfailed
    cases he
    exact ⟨decide_eq_true ⟨hfailed, of_decide_eq_true hrecent⟩, rfl⟩
  have hholds : recent MANDATE_WINDOW now (s.holds.flatMap (·.entries)) ≤
      ((s.holds.filter fun r => now - MANDATE_WINDOW < r.createdAt).map (·.counted)).sum +
      CaptureRow.since (now - MANDATE_WINDOW)
        ((s.holds.filter fun r => r.createdAt ≤ now - MANDATE_WINDOW).flatMap (·.captures)) +
      s.held := by
    unfold MandateStore.held
    revert hsound
    induction s.holds with
    | nil => exact fun _ => le_rfl
    | cons r rest ih =>
      intro hsound
      have hrest := ih fun r' hr' => hsound r' (List.mem_cons_of_mem _ hr')
      have hr := hsound r List.mem_cons_self
      have hentries : recent MANDATE_WINDOW now r.entries =
          r.hold.remaining + CaptureRow.since (now - MANDATE_WINDOW) r.captures := by
        rw [recent, HoldRow.entries, total_cons, total_captures]
        rfl
      have hcounted := (hr.since_le (now - MANDATE_WINDOW)).trans hr.counted_ge
      rw [List.flatMap_cons, recent, total_append, ← recent, ← recent, hentries,
        List.map_cons, List.sum_cons, List.filter_cons, List.filter_cons]
      by_cases hplaced : now - MANDATE_WINDOW < r.createdAt
      · rw [if_pos (decide_eq_true hplaced), if_neg (by simpa using hplaced), List.map_cons,
          List.sum_cons]
        omega
      · have hsince : ∀ older : List HoldRow,
            CaptureRow.since (now - MANDATE_WINDOW) ((r :: older).flatMap (·.captures)) =
            CaptureRow.since (now - MANDATE_WINDOW) r.captures +
              CaptureRow.since (now - MANDATE_WINDOW) (older.flatMap (·.captures)) := by
          intro older
          simp [CaptureRow.since]
        rw [if_neg (by simpa using hplaced), if_pos (by simpa using hplaced), hsince]
        omega
  rw [MandateStore.usage_outstanding, MandateStore.log, recent, total_append]
  unfold recent at hcharges hholds
  simp only [MandateStore.usage]
  omega

end Sums

/-! ## The caps -/

/-- Whether a draw still fits under the caps, beside all there is. -/
structure MandateStore.Fits (s : MandateStore) (caps : MandateCaps) (startedAt : Int)
    (draw : Draw) : Prop where
  started : startedAt ≤ s.clock
  perOp : draw.amount ≤ caps.perOp
  window : recent MANDATE_WINDOW startedAt s.log + draw.amount ≤ caps.per24h + caps.outstanding
  held : draw.operation = .reserve → s.held + draw.amount ≤ caps.outstanding

/-- **What is drawn is within the caps.** -/
structure MandateStore.Capped (s : MandateStore) (caps : MandateCaps) : Prop where
  sound : ∀ r ∈ s.holds, r.Sound
  holds : ∀ r ∈ s.holds, r.hold.terms.amount ≤ caps.perOp
  charges : ∀ c ∈ s.charges, c.amount ≤ caps.perOp
  held : s.held ≤ caps.outstanding
  window : Bounded MANDATE_WINDOW (caps.per24h + caps.outstanding) s.log
  fits : ∀ startedAt mandate draw, .draw startedAt mandate draw ∈ s.txs →
    s.Fits caps startedAt draw

section Steps

variable {s s' : MandateStore} {caps : MandateCaps} {n : Nat}

/-- A draw that was let in fits. -/
theorem MandateStore.Capped.admitted (h : s.Capped caps) {mandate : Mandate} {startedAt : Int}
    {draw : Draw} (hcaps : mandate.terms.caps = caps) (hstarted : startedAt ≤ s.clock)
    (hlet : mandate.admitDraw draw.operation draw.amount (s.usage startedAt)
      (epochSecs startedAt) = true) : s.Fits caps startedAt draw := by
  unfold Mandate.admitDraw at hlet
  rw [hcaps] at hlet
  split_ifs at hlet with hrefused hday hheld
  have hrecent := s.recent_le h.sound startedAt
  have hopen := h.held
  rw [MandateStore.usage_outstanding] at hrecent hheld
  have hop : ¬ caps.perOp < draw.amount := by tauto
  refine ⟨hstarted, not_lt.mp hop, ?_, fun hreserve => ?_⟩
  · omega
  · by_contra hover
    exact hheld ⟨hreserve, by omega⟩

/-- What becomes of the rows takes no more than they did. -/
theorem MandateStore.Eases.shrinks (he : s.Eases s') (hsound : ∀ r ∈ s.holds, r.Sound) :
    Shrinks s.log s'.log := by
  obtain ⟨g, hholds, hg⟩ := he.holds
  obtain ⟨f, hcharges, hf⟩ := he.charges
  rw [MandateStore.log, MandateStore.log, hholds, hcharges]
  refine (Rolling.shrinks_filterMap_map fun c hc => ?_).append
    (Rolling.shrinks_flatMap_map fun r hr => (hg r hr).shrinks (hsound r hr))
  have hbecomes := hf c hc
  generalize f c = c' at hbecomes
  cases hbecomes with
  | same => exact .refl _
  | stamped state pending =>
    have hbefore : c.entry = some ⟨c.id, c.amount, .stamped c.createdAt⟩ :=
      if_neg (by rw [pending]; decide)
    unfold ChargeRow.entry at hbefore ⊢
    rw [hbefore]
    dsimp only
    split_ifs
    · exact .drop _
    · exact .refl _

/-- Nor do the holds hold more. -/
theorem MandateStore.held_le (h : Shrinks s.log s'.log) : s'.held ≤ s.held := by
  rw [MandateStore.held_eq, MandateStore.held_eq]
  refine h isOpen fun ht hopen => ?_
  cases ht with
  | same => exact hopen
  | stamp => cases hopen

/-- **The caps are kept when nothing is drawn.** -/
theorem MandateStore.Capped.ease (h : s.Capped caps) (he : s.Eases s')
    (hdraws : ∀ startedAt mandate draw, .draw startedAt mandate draw ∈ s'.txs →
      s.Fits caps startedAt draw) : s'.Capped caps := by
  have hshrinks := he.shrinks h.sound
  obtain ⟨g, hholds, hg⟩ := he.holds
  obtain ⟨f, hcharges, hf⟩ := he.charges
  refine ⟨fun r' hr' => ?_, fun r' hr' => ?_, fun c' hc' => ?_,
    (MandateStore.held_le hshrinks).trans h.held, hshrinks.bounded h.window,
    fun startedAt mandate draw hdraw => ?_⟩
  · obtain ⟨r, hr, rfl⟩ := List.mem_map.mp (hholds ▸ hr')
    exact (hg r hr).sound (h.sound r hr)
  · obtain ⟨r, hr, rfl⟩ := List.mem_map.mp (hholds ▸ hr')
    exact (hg r hr).amount_eq.trans_le (h.holds r hr)
  · obtain ⟨c, hc, rfl⟩ := List.mem_map.mp (hcharges ▸ hc')
    have hbecomes := hf c hc
    generalize f c = c' at hbecomes
    cases hbecomes <;> exact h.charges c hc
  · have hfits := hdraws startedAt mandate draw hdraw
    have hrecent := hshrinks.recent_le MANDATE_WINDOW startedAt
    have hheld := MandateStore.held_le hshrinks
    refine ⟨hfits.started.trans he.clock, hfits.perOp, ?_, fun hreserve => ?_⟩
    · have := hfits.window
      omega
    · have := hfits.held hreserve
      omega

/-- **The caps are kept when a draw that fits is recorded.** -/
theorem MandateStore.Capped.record (h : s.Capped caps) (hlocked : s.Locked)
    (hstep : s.recordDraw n = some s') : s'.Capped caps := by
  obtain ⟨startedAt, mandate, draw, ht, hdraw⟩ := MandateStore.recordDraw_ok hstep
  obtain ⟨hone, rfl⟩ := hlocked.only ht
  have hfits := h.fits startedAt mandate draw (hone ▸ List.mem_singleton_self _)
  have hidle : s.txs.eraseIdx 0 = [] := by rw [hone]; rfl
  cases draw with
  | reserve id amount ttlSeconds =>
    obtain ⟨-, rfl⟩ := hdraw
    refine ⟨fun r hr => ?_, fun r hr => ?_, h.charges, ?_, ?_, fun _ _ _ hdraw => ?_⟩
    · rcases List.mem_cons.mp hr with rfl | hr
      · exact ⟨rfl, Nat.zero_le _, hfits.started, fun _ hc => by cases hc⟩
      · exact h.sound r hr
    · rcases List.mem_cons.mp hr with rfl | hr
      · exact hfits.perOp
      · exact h.holds r hr
    · exact (Nat.add_comm _ _).trans_le (hfits.held rfl)
    · exact Bounded.insert h.window hfits.window
    · rw [hidle] at hdraw
      cases hdraw
  | charge id amount =>
    subst hdraw
    refine ⟨h.sound, h.holds, fun c hc => ?_, h.held, h.window.push hfits.window,
      fun _ _ _ hdraw => ?_⟩
    · rcases List.mem_cons.mp hc with rfl | hc
      · exact hfits.perOp
      · exact h.charges c hc
    · rw [hidle] at hdraw
      cases hdraw

/-- What is set to go on sweeping is no draw. -/
theorem MandateStore.draw_of_set {t : MandateTx} {sweep : Sweep} (hclaim : t.hasClaim = false)
    {startedAt : Int} {mandate : Mandate} {draw : Draw}
    (hdraw : .draw startedAt mandate draw ∈ s.txs.set n (t.sweeping sweep)) :
    .draw startedAt mandate draw ∈ s.txs := by
  rcases List.mem_or_eq_of_mem_set hdraw with hold | heq
  · exact hold
  · have hsame := congrArg MandateTx.hasClaim heq
    rw [MandateTx.sweeping_hasClaim, hclaim] at hsame
    cases hsame

/-- **Every step keeps the caps**, when the mandates all have them. -/
theorem MandateStore.Capped.step {act : MandateAct} (h : s.Capped caps) (hlocked : s.Locked)
    (hids : s.holdIds.Nodup) (hcaps : ∀ m ∈ s.mandates, m.terms.caps = caps)
    (hstep : s.step act = some s') : s'.Capped caps := by
  have hease : (∀ n, act ≠ .recordDraw n) → s.Eases s' := fun hact =>
    MandateStore.step_eases hids hact hstep
  cases act with
  | tick elapsed | markPosted id | markFailed id =>
    have he := hease fun _ hact => by cases hact
    cases hstep
    exact h.ease he h.fits
  | openDraw startedAt draw =>
    have he := hease fun _ hact => by cases hact
    obtain ⟨mandate, hcurrent, hstarted, -, -, hlet, rfl⟩ := MandateStore.openDraw_ok hstep
    refine h.ease he fun startedAt' mandate' draw' hdraw => ?_
    rcases List.mem_cons.mp hdraw with heq | hdraw
    · cases heq
      exact h.admitted (hcaps mandate (List.mem_of_find?_eq_some hcurrent)) hstarted hlet
    · exact h.fits _ _ _ hdraw
  | recordDraw n => exact h.record hlocked hstep
  | changeHold startedAt id ask =>
    have he := hease fun _ hact => by cases hact
    obtain ⟨r, hold, event, -, -, -, rfl⟩ := MandateStore.changeHold_ok hstep
    exact h.ease he h.fits
  | parkRefusedReserve id =>
    have he := hease fun _ hact => by cases hact
    obtain rfl := MandateStore.parkRefusedReserve_ok hstep
    exact h.ease he h.fits
  | openGrant startedAt terms =>
    have he := hease fun _ hact => by cases hact
    obtain ⟨-, -, rfl⟩ := MandateStore.openGrant_ok hstep
    refine h.ease he fun startedAt' mandate' draw' hdraw => ?_
    rcases List.mem_cons.mp hdraw with heq | hdraw
    · cases heq
    · exact h.fits _ _ _ hdraw
  | openRevoke startedAt id =>
    have he := hease fun _ hact => by cases hact
    obtain ⟨mandate, -, ⟨-, rfl⟩ | ⟨-, -, rfl⟩⟩ := MandateStore.openRevoke_ok hstep
    · exact h
    · refine h.ease he fun startedAt' mandate' draw' hdraw => ?_
      rcases List.mem_cons.mp hdraw with heq | hdraw
      · cases heq
      · exact h.fits _ _ _ hdraw
  | readHolds n =>
    have he := hease fun _ hact => by cases hact
    obtain ⟨t, -, hclaim, rfl⟩ := MandateStore.readHolds_ok hstep
    exact h.ease he fun _ _ _ hdraw => h.fits _ _ _ (MandateStore.draw_of_set hclaim hdraw)
  | lockHold n =>
    have he := hease fun _ hact => by cases hact
    obtain ⟨t, sweep, -, hclaim, -, rfl⟩ := MandateStore.lockHold_ok hstep
    exact h.ease he fun _ _ _ hdraw => h.fits _ _ _ (MandateStore.draw_of_set hclaim hdraw)
  | commitGrant n id =>
    have he := hease fun _ hact => by cases hact
    obtain ⟨startedAt, terms, replaces, sweep, -, holds, rfl, -⟩ :=
      MandateStore.commitGrant_ok hstep
    exact h.ease he fun _ _ _ hdraw => h.fits _ _ _ (List.mem_of_mem_eraseIdx hdraw)
  | commitRevoke n =>
    have he := hease fun _ hact => by cases hact
    obtain ⟨startedAt, id, locked, -, rfl⟩ := MandateStore.commitRevoke_ok hstep
    exact h.ease he fun _ _ _ hdraw => h.fits _ _ _ (List.mem_of_mem_eraseIdx hdraw)
  | abandon n =>
    have he := hease fun _ hact => by cases hact
    cases hstep
    exact h.ease he fun _ _ _ hdraw => h.fits _ _ _ (List.mem_of_mem_eraseIdx hdraw)

/-- A mandate's terms never change. -/
theorem MandateStore.step_terms {act : MandateAct} (hstep : s.step act = some s') {m : Mandate}
    (hm : m ∈ s.mandates) : ∃ m' ∈ s'.mandates, m'.terms = m.terms := by
  have hsame : s'.mandates = s.mandates → ∃ m' ∈ s'.mandates, m'.terms = m.terms :=
    fun heq => ⟨m, heq ▸ hm, rfl⟩
  cases act with
  | tick elapsed | markPosted id | markFailed id | abandon n =>
    cases hstep
    exact hsame rfl
  | openDraw startedAt draw =>
    obtain ⟨mandate, -, -, -, -, -, rfl⟩ := MandateStore.openDraw_ok hstep
    exact hsame rfl
  | recordDraw n =>
    obtain ⟨startedAt, mandate, draw, -, hdraw⟩ := MandateStore.recordDraw_ok hstep
    cases draw with
    | reserve id amount ttlSeconds =>
      obtain ⟨-, rfl⟩ := hdraw
      exact hsame rfl
    | charge id amount =>
      subst hdraw
      exact hsame rfl
  | changeHold startedAt id ask =>
    obtain ⟨r, hold, event, -, -, -, rfl⟩ := MandateStore.changeHold_ok hstep
    exact hsame rfl
  | parkRefusedReserve id =>
    obtain rfl := MandateStore.parkRefusedReserve_ok hstep
    exact hsame rfl
  | openGrant startedAt terms =>
    obtain ⟨-, -, rfl⟩ := MandateStore.openGrant_ok hstep
    exact hsame rfl
  | openRevoke startedAt id =>
    obtain ⟨mandate, -, ⟨-, rfl⟩ | ⟨-, -, rfl⟩⟩ := MandateStore.openRevoke_ok hstep
    · exact hsame rfl
    · exact hsame rfl
  | readHolds n =>
    obtain ⟨t, -, -, rfl⟩ := MandateStore.readHolds_ok hstep
    exact hsame rfl
  | lockHold n =>
    obtain ⟨t, sweep, -, -, -, rfl⟩ := MandateStore.lockHold_ok hstep
    exact hsame rfl
  | commitGrant n id =>
    obtain ⟨startedAt, terms, replaces, sweep, -, holds, rfl, -⟩ :=
      MandateStore.commitGrant_ok hstep
    refine ⟨_, List.mem_cons_of_mem _ (List.mem_map_of_mem hm), ?_⟩
    unfold Mandate.replacedBy
    split_ifs <;> rfl
  | commitRevoke n =>
    obtain ⟨startedAt, id, locked, -, rfl⟩ := MandateStore.commitRevoke_ok hstep
    refine ⟨_, List.mem_map_of_mem hm, ?_⟩
    split_ifs <;> rfl

/-- **Every run keeps the caps**, when no mandate of the user's has others. -/
theorem MandateStore.Reached.capped (h : s.Reached)
    (hcaps : ∀ m ∈ s.mandates, m.terms.caps = caps) : s.Capped caps := by
  obtain ⟨user, scope, client, clock, acts, hrun⟩ := h
  have hkept : s.Locked ∧ s.holdIds.Nodup ∧
      ((∀ m ∈ s.mandates, m.terms.caps = caps) → s.Capped caps) := by
    refine MandateStore.run_keeps (P := fun s => s.Locked ∧ s.holdIds.Nodup ∧
      ((∀ m ∈ s.mandates, m.terms.caps = caps) → s.Capped caps))
      (fun hP hstep => ⟨hP.1.step hstep, MandateStore.step_ids hP.2.1 hstep, fun hafter => ?_⟩)
      ⟨.empty user scope client clock, List.nodup_nil, fun _ => ?_⟩ hrun
    · refine (hP.2.2 ?_).step hP.1 hP.2.1 ?_ hstep <;>
      · intro m hm
        obtain ⟨m', hm', hterms⟩ := MandateStore.step_terms hstep hm
        rw [← hterms]
        exact hafter m' hm'
    · exact
        { sound := by simp [MandateStore.empty]
          holds := by simp [MandateStore.empty]
          charges := by simp [MandateStore.empty]
          held := Nat.zero_le _
          window := .nil _ _
          fits := by simp [MandateStore.empty] }
  exact hkept.2.2 hcaps

end Steps

/-- **A mandate bounds what is taken under it.** Under caps that do not change, whatever is
granted, reserved, captured, charged, voided, expired, revoked and refused in whatever order: in
every window of 24 hours the client's captures and charges come to at most the day's cap and the cap
on what is held; each hold, capture and charge is at most the cap of one operation; and what is held
is never more than its cap. -/
theorem mandate_bounds_outflow {s : MandateStore} {caps : MandateCaps} (h : s.Reached)
    (hcaps : ∀ m ∈ s.mandates, m.terms.caps = caps) :
    (∀ lo hi, hi ≤ lo + MANDATE_WINDOW → s.taken lo hi ≤ caps.per24h + caps.outstanding) ∧
    (∀ r ∈ s.holds, r.hold.terms.amount ≤ caps.perOp ∧ ∀ c ∈ r.captures, c.amount ≤ caps.perOp) ∧
    (∀ c ∈ s.charges, c.amount ≤ caps.perOp) ∧
    s.held ≤ caps.outstanding := by
  have hcapped := h.capped hcaps
  refine ⟨fun lo hi hwidth => (s.taken_le lo hi).trans (hcapped.window lo hi hwidth),
    fun r hr => ⟨hcapped.holds r hr, fun c hc => ?_⟩, hcapped.charges, hcapped.held⟩
  have hsound := hcapped.sound r hr
  have hsum : c.amount ≤ (r.captures.map (·.amount)).sum :=
    List.le_sum_of_mem (List.mem_map_of_mem hc)
  exact hsum.trans (hsound.captured.le.trans (hsound.captured_le.trans (hcapped.holds r hr)))

/-- Two of five captured, and four charged. -/
def sampleTaken : MandateStore :=
  sampleStore <| sampleRegrant none ++
    [.tick 5000000, .changeHold 4000000 (.raw 20) (.capture (some 2) (.account ⟨"fee"⟩)),
      .openDraw 5000000 (.charge (.raw 30) 4), .recordDraw 0]

/-- Six taken in a day, of a cap of ten and another of eight. -/
theorem mandate_bounds_outflow_sample :
    sampleTaken.taken 0 MANDATE_WINDOW = 6 ∧ sampleTaken.taken 0 MANDATE_WINDOW ≤ 10 + 8 := by
  have hreached : sampleTaken.Reached := sampleStore_reached (by decide +kernel)
  have hcaps : ∀ m ∈ sampleTaken.mandates, m.terms.caps = ⟨5, 10, 8, none⟩ := by decide +kernel
  exact ⟨by decide +kernel,
    (mandate_bounds_outflow hreached hcaps).1 0 MANDATE_WINDOW (by decide)⟩

end Banking
