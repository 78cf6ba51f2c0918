import Banking.BookFills
import Banking.FeePlane

/-! # The laws of an assessment

What one assessment comes to, in closed form (`Assessed`), and what follows: the charge balances,
terms that tighten no leg charge no more but for the rounding of the units management takes, and a
redemption's charge leaves the mark of the units that stay, not their clock. -/

namespace Banking

/-! ## What an assessment comes to -/

/-- The figures are 128-bit numbers. -/
structure PositionSnapshot.Fits (s : PositionSnapshot) : Prop where
  units : s.units < 2 ^ 128
  collectable : s.collectable < 2 ^ 128
  costBasis : s.costBasis < 2 ^ 128
  highWaterMark : s.highWaterMark < 2 ^ 128

/-- What a year's management rate is of. -/
def PositionSnapshot.base (s : PositionSnapshot) (nav : Nat) : ManagementBasis → Nat
  | .investedCapital => s.costBasis
  | .marketValue => s.units * nav / SCALE

/-- The mark lifted by the hurdle. -/
def PositionSnapshot.floorNav (s : PositionSnapshot) (policy : FeePolicy) (now : Nat) : Nat :=
  s.highWaterMark +
    s.highWaterMark * (policy.hurdleBps.toNat * (now - s.crystallizedAt)) / RATE_DENOMINATOR

/-- The units that crystallize. -/
def Trigger.scope (units : Nat) : Trigger → Nat
  | .period => units
  | .redemption leaving => min leaving units

/-- Whether they do now. -/
def Trigger.crystallizes (policy : FeePolicy) (s : PositionSnapshot) (now : Nat) : Trigger → Bool
  | .period => policy.crystallization.seconds ≤ now - s.crystallizedAt
  | .redemption _ => true

/-- A share of the gain on some units. -/
def gainShare (gain units bps : Nat) : Nat := units * gain / SCALE * bps / BPS_DENOMINATOR

/-- **What an assessment comes to.** -/
structure Assessed (policy : FeePolicy) (s : PositionSnapshot) (nav : Nat) (trigger : Trigger)
    (now : Nat) (charge : FeeCharge) : Prop where
  nav_pos : 0 < nav
  management : charge.management = s.base nav policy.basis *
    (policy.managementBps.toNat * (now - s.accruedAt)) / RATE_DENOMINATOR
  performanceAccrued : charge.performanceAccrued =
    gainShare (nav - s.floorNav policy now)
      (trigger.scope (s.units - charge.management * SCALE / nav)) policy.performanceBps.toNat
  crystallized : charge.crystallized = trigger.crystallizes policy s now
  performance : charge.performance = if charge.crystallized then charge.performanceAccrued else 0
  debtOpening : charge.debtOpening = s.debt
  due : charge.due = charge.management + charge.performance + s.debt
  chargedUnits : charge.chargedUnits = min (charge.due * SCALE / nav) s.collectable
  chargedCash : charge.chargedCash = charge.chargedUnits * nav / SCALE
  debtCarried : charge.debtCarried = charge.due - charge.chargedCash
  highWaterMark : charge.highWaterMark =
    if trigger = .period ∧ charge.crystallized ∧ s.highWaterMark < nav then nav
    else s.highWaterMark

section Closed

variable {policy : FeePolicy} {s : PositionSnapshot} {nav now : Nat} {trigger : Trigger}

/-- A rate for a time is a 128-bit number. -/
theorem rate_fits (bps : UInt32) {elapsed : Nat} (h : elapsed < 2 ^ 63) :
    bps.toNat * elapsed < 2 ^ 128 :=
  (Nat.mul_lt_mul'' bps.toNat_lt h).trans (by decide)

/-- **The management fee**, on either basis. -/
theorem managementDue_ok (hs : s.Fits) (hnav : nav < 2 ^ 128) (hnow : now < 2 ^ 63) {due : Nat}
    (h : managementDue policy s nav now = .ok due) :
    due = s.base nav policy.basis * (policy.managementBps.toNat * (now - s.accruedAt)) /
      RATE_DENOMINATOR ∧ due < 2 ^ 128 := by
  unfold managementDue at h
  dsimp only at h
  split_ifs at h with hzero helapsed
  · rw [← Except.ok.inj h, hzero]
    simp
  · rw [← Except.ok.inj h, helapsed]
    simp
  · have hrate := rate_fits policy.managementBps ((Nat.sub_le now s.accruedAt).trans_lt hnow)
    cases hbasis : policy.basis with
    | investedCapital =>
      rw [hbasis] at h
      exact (Usdt.scale_ok hs.costBasis hrate (by decide) h).2
    | marketValue =>
      rw [hbasis] at h
      obtain ⟨base, hbase, hscaled⟩ := bind_ok_iff.mp h
      obtain ⟨rfl, hlt⟩ := Nav.value_ok hnav hs.units hbase
      exact (Usdt.scale_ok hlt hrate (by decide) hscaled).2

/-- The floor a gain is measured from. -/
theorem hurdleFloor_ok (hs : s.Fits) (hnow : now < 2 ^ 63) {floorNav : Nat}
    (h : hurdleFloor policy s now = .ok floorNav) : floorNav = s.floorNav policy now := by
  unfold hurdleFloor at h
  unfold PositionSnapshot.floorNav
  split_ifs at h with hzero
  · rw [← Except.ok.inj h, hzero]
    simp
  · obtain ⟨lift, hlift, hsum⟩ := bind_ok_iff.mp h
    have hrate := rate_fits policy.hurdleBps ((Nat.sub_le now s.crystallizedAt).trans_lt hnow)
    unfold Nav.scale at hlift
    split at hlift
    case h_1 q hq =>
      rw [checkedAdd_ok hsum, ← Except.ok.inj hlift,
        (mulDivFloor_some hs.highWaterMark hrate (by decide) hq).2.1]
    case h_2 => cases hlift

/-- The performance fee. -/
theorem performanceDue_ok (hnav : nav < 2 ^ 128) {floorNav units due : Nat}
    (hunits : units < 2 ^ 128) (h : performanceDue policy floorNav nav units = .ok due) :
    due = gainShare (nav - floorNav) units policy.performanceBps.toNat := by
  unfold performanceDue at h
  unfold gainShare
  split_ifs at h with hzero hunder
  · rw [← Except.ok.inj h]
    rcases hzero with hzero | hzero <;> simp [hzero]
  · rw [← Except.ok.inj h, Nat.sub_eq_zero_of_le hunder.le]
    simp
  · obtain ⟨profit, hprofit, hscaled⟩ := bind_ok_iff.mp h
    obtain ⟨rfl, hlt⟩ := Nav.value_ok ((Nat.sub_le _ _).trans_lt hnav) hunits hprofit
    have hbps : policy.performanceBps.toNat < 2 ^ 128 :=
      policy.performanceBps.toNat_lt.trans (by decide)
    exact (Usdt.scale_ok hlt hbps (by decide) hscaled).2.1

/-- **An assessment, in closed form.** -/
theorem assess_ok (hs : s.Fits) (hnav : nav < 2 ^ 128) (hnow : now < 2 ^ 63) {charge : FeeCharge}
    (h : assess policy s nav trigger now = .ok charge) :
    Assessed policy s nav trigger now charge := by
  unfold assess at h
  split_ifs at h with hzero
  simp only [bind_ok_iff] at h
  obtain ⟨management, hmanagement, managementUnits, hmunits, floorNav, hfloor, performance,
    hperformance, owed, howed, due, hdue, dueUnits, hdueUnits, cash, hcash, h⟩ := h
  obtain ⟨hmeq, hmlt⟩ := managementDue_ok hs hnav hnow hmanagement
  obtain ⟨hpos, rfl, -⟩ := Shares.fromCash_ok hmlt hnav hmunits
  obtain rfl := hurdleFloor_ok hs hnow hfloor
  have hnet : s.units - management * SCALE / nav < 2 ^ 128 := (Nat.sub_le _ _).trans_lt hs.units
  have hscope : trigger.scope (s.units - management * SCALE / nav) < 2 ^ 128 := by
    cases trigger with
    | period => exact hnet
    | redemption leaving => exact (min_le_right _ _).trans_lt hnet
  have hscoped : performanceDue policy (s.floorNav policy now) nav
      (trigger.scope (s.units - management * SCALE / nav)) = .ok performance := by
    cases trigger with
    | period => exact hperformance
    | redemption leaving => exact hperformance
  have hperf := performanceDue_ok hnav hscope hscoped
  have hduelt : due < 2 ^ 128 := by
    unfold checkedAdd at hdue
    split_ifs at hdue with hlt
    exact Except.ok.inj hdue ▸ hlt
  obtain ⟨-, rfl, -⟩ := Shares.fromCash_ok hduelt hnav hdueUnits
  obtain ⟨rfl, -⟩ := Nav.value_ok hnav ((min_le_right _ _).trans_lt hs.collectable) hcash
  obtain rfl := checkedAdd_ok howed
  obtain rfl := checkedAdd_ok hdue
  obtain rfl := Except.ok.inj h
  exact
    { nav_pos := hpos
      management := hmeq
      performanceAccrued := hperf
      crystallized := by cases trigger <;> rfl
      performance := rfl
      debtOpening := rfl
      due := rfl
      chargedUnits := rfl
      chargedCash := rfl
      debtCarried := rfl
      highWaterMark := by cases trigger <;> simp }

/-! ## The balance -/

/-- **A cash amount taken in units**: what their value leaves of it is less than one base unit of
units and one of cash together. -/
theorem residue_lt (hpos : 0 < nav) (due : Nat) :
    due * SCALE / nav * nav / SCALE ≤ due ∧
      (due - due * SCALE / nav * nav / SCALE) * SCALE < nav + SCALE := by
  have hunits := Nat.div_mul_le_self (due * SCALE) nav
  have hunits' := Nat.lt_div_mul_add (a := due * SCALE) hpos
  have hcash := Nat.div_mul_le_self (due * SCALE / nav * nav) SCALE
  have hcash' := Nat.lt_div_mul_add (a := due * SCALE / nav * nav) SCALE_pos
  have hle : due * SCALE / nav * nav / SCALE ≤ due :=
    Nat.le_of_mul_le_mul_right (hcash.trans hunits) SCALE_pos
  refine ⟨hle, ?_⟩
  rw [Nat.sub_mul]
  omega

theorem Assessed.chargedCash_le {charge : FeeCharge}
    (h : Assessed policy s nav trigger now charge) : charge.chargedCash ≤ charge.due := by
  rw [h.chargedCash, h.chargedUnits]
  calc min (charge.due * SCALE / nav) s.collectable * nav / SCALE
      ≤ charge.due * SCALE / nav * nav / SCALE :=
        Nat.div_le_div_right (Nat.mul_le_mul_right _ (min_le_left _ _))
    _ ≤ charge.due := (residue_lt h.nav_pos charge.due).1

/-- **A fee assessment balances.** -/
theorem fee_assessment_balances {charge : FeeCharge} (hs : s.Fits) (hnav : nav < 2 ^ 128)
    (hnow : now < 2 ^ 63) (h : assess policy s nav trigger now = .ok charge) :
    charge.chargedCash + charge.debtCarried = charge.management + charge.performance + s.debt ∧
    charge.chargedUnits ≤ s.collectable ∧
    charge.chargedCash ≤ charge.due ∧
    s.highWaterMark ≤ charge.highWaterMark ∧
    (s.highWaterMark < charge.highWaterMark →
      charge.highWaterMark = nav ∧ charge.crystallized = true) ∧
    (∀ floorNav, hurdleFloor policy s now = .ok floorNav → nav ≤ floorNav →
      charge.performance = 0) ∧
    (charge.due * SCALE / nav ≤ s.collectable → charge.debtCarried * SCALE < nav + SCALE) := by
  have hassessed := assess_ok hs hnav hnow h
  refine ⟨?_, ?_, hassessed.chargedCash_le, ?_, ?_, fun floorNav hfloor hunder => ?_,
    fun hfree => ?_⟩
  · have hle := hassessed.chargedCash_le
    rw [hassessed.debtCarried, Nat.add_sub_cancel' hle, hassessed.due]
  · rw [hassessed.chargedUnits]
    exact min_le_right _ _
  · rw [hassessed.highWaterMark]
    split_ifs with hrises
    · exact hrises.2.2.le
    · exact le_rfl
  · rw [hassessed.highWaterMark]
    split_ifs with hrises
    · exact fun _ => ⟨rfl, hrises.2.1⟩
    · exact fun hlt => absurd hlt (lt_irrefl _)
  · obtain rfl := hurdleFloor_ok hs hnow hfloor
    have hgain : charge.performanceAccrued = 0 := by
      rw [hassessed.performanceAccrued, Nat.sub_eq_zero_of_le hunder]
      simp [gainShare]
    rw [hassessed.performance, hgain, ite_self]
  · rw [hassessed.debtCarried, hassessed.chargedCash, hassessed.chargedUnits, min_eq_left hfree]
    exact (residue_lt hassessed.nav_pos charge.due).2

end Closed

/-- A thousand units bought at a price of one. -/
def sampleHolding : PositionSnapshot where
  units := 1000 * SCALE
  collectable := 1000 * SCALE
  costBasis := 1000 * SCALE
  highWaterMark := SCALE
  debt := 9
  accruedAt := 0
  crystallizedAt := 0

theorem sampleHolding_fits : sampleHolding.Fits := ⟨by decide, by decide, by decide, by decide⟩

/-- At one and a half a year later: 20 of management, a fifth of the gain on what that leaves. -/
def sampleCharge : FeeCharge where
  management := 20 * SCALE
  performance := 98666666666666666666
  performanceAccrued := 98666666666666666666
  debtOpening := 9
  due := 118666666666666666675
  chargedUnits := 79111111111111111116
  chargedCash := 118666666666666666674
  debtCarried := 1
  highWaterMark := 3 * SCALE / 2
  crystallized := true

theorem sampleCharge_assessed :
    assess .HOUSE sampleHolding (3 * SCALE / 2) .period SECONDS_PER_YEAR = .ok sampleCharge := by
  decide +kernel

theorem fee_assessment_balances_sample :
    sampleCharge.chargedCash + sampleCharge.debtCarried =
      sampleCharge.management + sampleCharge.performance + sampleHolding.debt :=
  (fee_assessment_balances sampleHolding_fits (by decide) (by decide) sampleCharge_assessed).1

/-- At 1.3 and at once: nothing but the nine carried in. -/
def sampleResidue : FeeCharge where
  management := 0
  performance := 0
  performanceAccrued := 60 * SCALE
  debtOpening := 9
  due := 9
  chargedUnits := 6
  chargedCash := 7
  debtCarried := 2
  highWaterMark := SCALE
  crystallized := false

/-- **The debt carried may be worth a unit**: at a price of 1.3, nine base units of cash are six of
units, worth seven; the two that are carried buy one more. -/
theorem carried_debt_worth_a_unit :
    assess .HOUSE sampleHolding (13 * SCALE / 10) .period 0 = .ok sampleResidue ∧
      sampleResidue.due * SCALE / (13 * SCALE / 10) ≤ sampleHolding.collectable ∧
      ¬ sampleResidue.debtCarried * SCALE < 13 * SCALE / 10 := by
  refine ⟨?_, ?_, ?_⟩ <;> decide +kernel

/-! ## Two policies -/

/-- Terms that tighten nothing keep the hurdle. -/
theorem FeePolicy.hurdle_le {p current : FeePolicy} (h : p.tightensFrom current = false) :
    current.hurdleBps.toNat ≤ p.hurdleBps.toNat := by
  simp only [FeePolicy.tightensFrom, Bool.or_eq_false_iff, decide_eq_false_iff_not,
    UInt32.lt_iff_toNat_lt, not_lt] at h
  exact h.1.1.2

/-- A share is monotone. -/
theorem gainShare_mono {gain gain' units units' bps bps' : Nat} (hgain : gain ≤ gain')
    (hunits : units ≤ units') (hbps : bps ≤ bps') :
    gainShare gain units bps ≤ gainShare gain' units' bps' := by
  unfold gainShare
  gcongr

/-- A quotient of a sum, rounded down, is within one round-up of the first part's. -/
theorem div_add_le_ceil (a b : Nat) {c : Nat} (hc : 0 < c) :
    (a + b) / c ≤ a / c + (b + c - 1) / c := by
  have ha := Nat.lt_div_mul_add (a := a) hc
  have hb := Nat.lt_div_mul_add (a := b + c - 1) hc
  rw [← Nat.lt_succ_iff, Nat.div_lt_iff_lt_mul hc, Nat.succ_mul, Nat.add_mul]
  omega

/-- **What more units add to a share** of a gain that is at most the price: at a rate of at most the
whole, no more than their value rounded up. -/
theorem gainShare_add_le {gain units more bps : Nat} (hbps : bps ≤ BPS_DENOMINATOR) :
    gainShare gain (units + more) bps ≤
      gainShare gain units bps + (more * gain + SCALE - 1) / SCALE := by
  have hdenominator : 0 < BPS_DENOMINATOR := by decide
  have hprofit := div_add_le_ceil (units * gain) (more * gain) SCALE_pos
  rw [← Nat.add_mul] at hprofit
  unfold gainShare
  calc (units + more) * gain / SCALE * bps / BPS_DENOMINATOR
      ≤ (units * gain / SCALE + (more * gain + SCALE - 1) / SCALE) * bps / BPS_DENOMINATOR :=
        Nat.div_le_div_right (Nat.mul_le_mul_right _ hprofit)
    _ ≤ (units * gain / SCALE * bps + (more * gain + SCALE - 1) / SCALE * BPS_DENOMINATOR) /
          BPS_DENOMINATOR := by
        rw [Nat.add_mul]
        exact Nat.div_le_div_right (Nat.add_le_add_left (Nat.mul_le_mul_left _ hbps) _)
    _ = _ := Nat.add_mul_div_right _ _ hdenominator

/-- Cash and the units it buys: what less cash buys fewer is worth no more than the difference and
one unit. -/
theorem fewer_units_le {lower higher nav : Nat} (hpos : 0 < nav) (h : lower ≤ higher) :
    (higher * SCALE / nav - lower * SCALE / nav) * nav ≤ (higher - lower) * SCALE + (nav - 1) := by
  have hhigher := Nat.div_mul_le_self (higher * SCALE) nav
  have hlower := Nat.lt_div_mul_add (a := lower * SCALE) hpos
  have hmul : lower * SCALE ≤ higher * SCALE := Nat.mul_le_mul_right _ h
  rw [Nat.sub_mul, Nat.sub_mul]
  omega

section TwoPolicies

variable {p q : FeePolicy} {s : PositionSnapshot} {nav now : Nat} {trigger : Trigger}
  {charge charge' : FeeCharge}

/-- More units to crystallize, by as many at most as there are more. -/
theorem Trigger.scope_le (trigger : Trigger) {units more units' : Nat} (h : units' ≤ units + more) :
    trigger.scope units' ≤ trigger.scope units + more := by
  cases trigger with
  | period => exact h
  | redemption leaving =>
    simp only [Trigger.scope]
    omega

/-- A longer period has not ended before a shorter one. -/
theorem Trigger.crystallizes_of_le (hperiod : p.crystallization.seconds ≤ q.crystallization.seconds)
    (h : trigger.crystallizes q s now = true) : trigger.crystallizes p s now = true := by
  cases trigger with
  | period =>
    simp only [Trigger.crystallizes, decide_eq_true_eq] at h ⊢
    exact hperiod.trans h
  | redemption leaving => rfl

/-- The management leg of terms no dearer. -/
theorem Assessed.management_le (hp : Assessed p s nav trigger now charge)
    (hq : Assessed q s nav trigger now charge') (hsofter : q.tightensFrom p = false)
    (hbase : s.base nav q.basis ≤ s.base nav p.basis) : charge'.management ≤ charge.management := by
  rw [hp.management, hq.management]
  have hrate := (FeePolicy.tightensFrom_eq_false hsofter).1
  gcongr

/-- **The performance leg of terms no dearer**, where management takes `more` units less. -/
theorem Assessed.performance_le (hp : Assessed p s nav trigger now charge)
    (hq : Assessed q s nav trigger now charge') (hsofter : q.tightensFrom p = false)
    (hbps : p.performanceBps.toNat ≤ BPS_DENOMINATOR) (more : Nat)
    (hmore : charge.management * SCALE / nav ≤ charge'.management * SCALE / nav + more) :
    charge'.performance ≤ charge.performance + (more * nav + SCALE - 1) / SCALE := by
  obtain ⟨-, hrate, -, hperiod⟩ := FeePolicy.tightensFrom_eq_false hsofter
  have hfloor : s.floorNav p now ≤ s.floorNav q now := by
    have hhurdle := FeePolicy.hurdle_le hsofter
    unfold PositionSnapshot.floorNav
    gcongr
  have hscope : trigger.scope (s.units - charge'.management * SCALE / nav) ≤
      trigger.scope (s.units - charge.management * SCALE / nav) + more :=
    trigger.scope_le (by omega)
  rw [hq.performance, hp.performance]
  split_ifs with hcrystallized hcrystallized'
  · rw [hq.performanceAccrued, hp.performanceAccrued]
    calc gainShare (nav - s.floorNav q now)
          (trigger.scope (s.units - charge'.management * SCALE / nav)) q.performanceBps.toNat
        ≤ gainShare (nav - s.floorNav p now)
            (trigger.scope (s.units - charge.management * SCALE / nav) + more)
            p.performanceBps.toNat := gainShare_mono (Nat.sub_le_sub_left hfloor _) hscope hrate
      _ ≤ gainShare (nav - s.floorNav p now)
            (trigger.scope (s.units - charge.management * SCALE / nav)) p.performanceBps.toNat +
          (more * (nav - s.floorNav p now) + SCALE - 1) / SCALE := gainShare_add_le hbps
      _ ≤ _ := by
        have hgain : nav - s.floorNav p now ≤ nav := Nat.sub_le _ _
        gcongr
  · rw [hq.crystallized] at hcrystallized
    rw [hp.crystallized] at hcrystallized'
    exact absurd (Trigger.crystallizes_of_le hperiod hcrystallized) hcrystallized'
  · exact Nat.zero_le _
  · exact Nat.zero_le _

/-- **Cheaper terms charge no more**, but for one unit's worth: where `q` tightens no leg of `p`
and its management is on no larger a base, its total is at most `p`'s and the value of one base unit
rounded up, and at most `p`'s where management takes the same units under both. -/
theorem cheaper_terms_charge_no_more (hs : s.Fits) (hnav : nav < 2 ^ 128) (hnow : now < 2 ^ 63)
    (hbps : p.performanceBps.toNat ≤ BPS_DENOMINATOR) (hsofter : q.tightensFrom p = false)
    (hbase : s.base nav q.basis ≤ s.base nav p.basis)
    (hp : assess p s nav trigger now = .ok charge)
    (hq : assess q s nav trigger now = .ok charge') :
    charge'.due ≤ charge.due + (nav + SCALE - 1) / SCALE ∧
      (charge'.management * SCALE / nav = charge.management * SCALE / nav →
        charge'.due ≤ charge.due) := by
  have hp := assess_ok hs hnav hnow hp
  have hq := assess_ok hs hnav hnow hq
  have hmanagement := hp.management_le hq hsofter hbase
  rw [hp.due, hq.due]
  constructor
  · -- what `q`'s management leaves to the performance leg is worth the difference and a unit
    have hworth := fewer_units_le hp.nav_pos hmanagement
    have hperformance := hp.performance_le hq hsofter hbps
      (charge.management * SCALE / nav - charge'.management * SCALE / nav) (by omega)
    have hceil : ((charge.management * SCALE / nav - charge'.management * SCALE / nav) * nav +
        SCALE - 1) / SCALE ≤
        (nav + SCALE - 1) / SCALE + (charge.management - charge'.management) := by
      rw [← Nat.add_mul_div_right _ _ SCALE_pos]
      exact Nat.div_le_div_right (by omega)
    omega
  · intro hsame
    have hperformance := hp.performance_le hq hsofter hbps 0 (by omega)
    rw [Nat.zero_mul, Nat.div_eq_of_lt (by decide)] at hperformance
    omega

end TwoPolicies

/-- The house terms at half their management rate. -/
def halvedTerms : FeePolicy := { FeePolicy.HOUSE with managementBps := 100 }

/-- What `sampleHolding` owes on them: less management, and more of the gain. -/
def halvedCharge : FeeCharge where
  management := 10 * SCALE
  performance := 99333333333333333333
  performanceAccrued := 99333333333333333333
  debtOpening := 9
  due := 109333333333333333342
  chargedUnits := 72888888888888888894
  chargedCash := 109333333333333333341
  debtCarried := 1
  highWaterMark := 3 * SCALE / 2
  crystallized := true

theorem cheaper_terms_charge_no_more_sample :
    halvedCharge.due ≤ sampleCharge.due + (3 * SCALE / 2 + SCALE - 1) / SCALE :=
  have hhalved : assess halvedTerms sampleHolding (3 * SCALE / 2) .period SECONDS_PER_YEAR =
      .ok halvedCharge := by decide +kernel
  have hbase : sampleHolding.base (3 * SCALE / 2) halvedTerms.basis ≤
      sampleHolding.base (3 * SCALE / 2) FeePolicy.HOUSE.basis := Nat.le_refl _
  (cheaper_terms_charge_no_more sampleHolding_fits (by decide) (by decide) (by decide) (by decide)
    hbase sampleCharge_assessed hhalved).1

/-- Management alone, on the market value. -/
def markedTerms : FeePolicy where
  managementBps := 200
  performanceBps := 0
  hurdleBps := 0
  basis := .marketValue
  crystallization := .annual

/-- A holding worth half its cost. -/
def halvedHolding : PositionSnapshot where
  units := 50
  collectable := 50
  costBasis := 100
  highWaterMark := SCALE
  debt := 0
  accruedAt := 0
  crystallizedAt := 0

/-- A holding whose price is a thousand times its mark. -/
def risenHolding : PositionSnapshot where
  units := 10
  collectable := 10
  costBasis := 50000
  highWaterMark := SCALE
  debt := 0
  accruedAt := 0
  crystallizedAt := 0

/-- **Terms that tighten nothing may charge more.** The basis moved back to the capital invested
charges a holding that has lost value on its larger cost; and a management rate one step lower takes
one unit less, whose gain the performance fee then shares. -/
theorem untightened_terms_charge_more :
    ({ markedTerms with basis := .investedCapital }.tightensFrom markedTerms = false ∧
      (assess markedTerms halvedHolding SCALE .period SECONDS_PER_YEAR).map FeeCharge.due = .ok 1 ∧
      (assess { markedTerms with basis := .investedCapital } halvedHolding SCALE .period
        SECONDS_PER_YEAR).map FeeCharge.due = .ok 2) ∧
    ({ FeePolicy.HOUSE with managementBps := 199 }.tightensFrom .HOUSE = false ∧
      (assess .HOUSE risenHolding (1000 * SCALE) .period SECONDS_PER_YEAR).map FeeCharge.due =
        .ok 2798 ∧
      (assess { FeePolicy.HOUSE with managementBps := 199 } risenHolding (1000 * SCALE) .period
        SECONDS_PER_YEAR).map FeeCharge.due = .ok 2993) := by
  refine ⟨⟨by decide, ?_, ?_⟩, by decide, ?_, ?_⟩ <;> decide +kernel

/-! ## The units that stay -/

/-- What an assessment knows of a row, beside what the ledger has of the holder's units. -/
def PositionRow.assessed (row : PositionRow) (units collectable : Nat) : PositionSnapshot where
  units
  collectable
  costBasis := row.costBasis
  highWaterMark := row.highWaterMark
  debt := row.debt
  accruedAt := row.accruedAt
  crystallizedAt := row.crystallizedAt

/-- **A charge left the units that stay alone**: their mark and the clock of their period, so that a
later assessment of the sweep crystallizes at the moment, and over the floor, it would have. -/
structure LeftAlone (row row' : PositionRow) : Prop where
  mark : row'.highWaterMark = row.highWaterMark
  clock : row'.crystallizedAt = row.crystallizedAt
  moment : ∀ {policy units units' collectable collectable' nav now charge charge'},
    assess policy (row.assessed units collectable) nav .period now = .ok charge →
    assess policy (row'.assessed units' collectable') nav .period now = .ok charge' →
    charge'.crystallized = charge.crystallized
  hurdle : ∀ policy units units' collectable collectable' now,
    hurdleFloor policy (row'.assessed units' collectable') now =
      hurdleFloor policy (row.assessed units collectable) now

/-- What an assessment says of the period and of the mark. -/
theorem assess_period {policy : FeePolicy} {s : PositionSnapshot} {nav now : Nat}
    {trigger : Trigger} {charge : FeeCharge} (h : assess policy s nav trigger now = .ok charge) :
    charge.crystallized = trigger.crystallizes policy s now ∧
      charge.highWaterMark =
        if trigger = .period ∧ charge.crystallized ∧ s.highWaterMark < nav then nav
        else s.highWaterMark := by
  unfold assess at h
  split_ifs at h with hzero
  simp only [bind_ok_iff] at h
  obtain ⟨_, -, _, -, _, -, _, -, _, -, _, -, _, -, _, -, h⟩ := h
  obtain rfl := Except.ok.inj h
  refine ⟨?_, ?_⟩
  · cases trigger <;> rfl
  · cases trigger <;> simp

/-- The same mark and clock are enough. -/
theorem LeftAlone.of_clock {row row' : PositionRow} (mark : row'.highWaterMark = row.highWaterMark)
    (clock : row'.crystallizedAt = row.crystallizedAt) : LeftAlone row row' where
  mark
  clock
  moment := by
    intro policy units units' collectable collectable' nav now charge charge' hcharge hcharge'
    rw [(assess_period hcharge).1, (assess_period hcharge').1]
    show decide (_ ≤ now - row'.crystallizedAt) = decide (_ ≤ now - row.crystallizedAt)
    rw [clock]
  hurdle := by
    intro policy units units' collectable collectable' now
    simp only [hurdleFloor, PositionRow.assessed, mark, clock]

/-- A period is some time. -/
theorem CrystallizationPeriod.seconds_pos (c : CrystallizationPeriod) : 0 < c.seconds := by
  cases c <;> decide

/-- **Clocks that differ end the period at different moments**: when the earlier one does, the later
one has not. -/
theorem crystallizes_ne (policy : FeePolicy) {s s' : PositionSnapshot}
    (h : s'.crystallizedAt ≠ s.crystallizedAt) :
    ∃ now,
      Trigger.period.crystallizes policy s' now ≠ Trigger.period.crystallizes policy s now := by
  have hpos := policy.crystallization.seconds_pos
  rcases Nat.lt_or_gt_of_ne h with hlt | hlt
  · refine ⟨s'.crystallizedAt + policy.crystallization.seconds, ?_⟩
    simp only [Trigger.crystallizes, ne_eq, decide_eq_decide]
    omega
  · refine ⟨s.crystallizedAt + policy.crystallization.seconds, ?_⟩
    simp only [Trigger.crystallizes, ne_eq, decide_eq_decide]
    omega

/-- **A redemption's charge leaves the mark of the units that stay, and restarts their period**:
they are left alone if and only if the charge is made in the second their clock already stands at.
On any other, whatever the terms are, there is a moment at which one period has ended and the other
has not. -/
theorem redemption_restarts_period {w w' : FeePlane} {a : FeeAssessment} {row : PositionRow}
    {policy : FeePolicy} {generation expected units collectable leaving now : Nat}
    (hrow : w.positions a.user = some row) (htrigger : a.trigger = .redemption leaving)
    (hassess : assess policy (row.assessed units collectable) a.nav a.trigger now = .ok a.charge)
    (happlied : w.charge a generation expected now = (.ok true, w')) :
    ∃ row', w'.positions a.user = some row' ∧ row'.highWaterMark = row.highWaterMark ∧
      (LeftAlone row row' ↔ now = row.crystallizedAt) ∧
      (now ≠ row.crystallizedAt → ∀ (later : FeePolicy) (units' collectable' : Nat), ∃ moment,
        Trigger.period.crystallizes later (row'.assessed units' collectable') moment ≠
          Trigger.period.crystallizes later (row.assessed units' collectable') moment) := by
  obtain ⟨hcrystallized, hmark⟩ := assess_period hassess
  rw [htrigger] at hcrystallized hmark
  have hmark : a.charge.highWaterMark = row.highWaterMark := by
    simpa [PositionRow.assessed] using hmark
  have hclock : (row.advance a.charge now).crystallizedAt = now := by
    simp [PositionRow.advance, hcrystallized, Trigger.crystallizes]
  unfold FeePlane.charge at happlied
  simp only [hrow] at happlied
  split_ifs at happlied
  · obtain rfl := (Prod.mk.inj happlied).2
    refine ⟨row.advance a.charge now, ?_, hmark, ?_, ?_⟩
    · simp [FeePlane.bill, FeePlane.store]
    · constructor
      · intro hleft
        rw [← hleft.clock, hclock]
      · intro hnow
        exact .of_clock hmark (hclock.trans hnow)
    · intro hne later units' collectable'
      exact crystallizes_ne later (show (row.advance a.charge now).crystallizedAt ≠ _ from
        hclock.symm ▸ hne)
  · cases happlied

/-- A holder who has not yet paid a fee. -/
def sampleStayer : PositionRow where
  costBasis := 1000 * SCALE
  units := 1000 * SCALE
  highWaterMark := SCALE
  debt := 0
  accruedAt := 0
  crystallizedAt := 0

/-- Half a period after its clocks began. -/
def MID_PERIOD : Nat := SECONDS_PER_YEAR / 2

/-- The charge of a tenth leaving then, at a price of one and a half. -/
def sampleExitCharge : FeeCharge where
  management := 10 * SCALE
  performance := 10 * SCALE
  performanceAccrued := 10 * SCALE
  debtOpening := 0
  due := 20 * SCALE
  chargedUnits := 13333333333333333333
  chargedCash := 19999999999999999999
  debtCarried := 1
  highWaterMark := SCALE
  crystallized := true

def sampleExit : FeeAssessment where
  user := .raw 7
  nav := 3 * SCALE / 2
  trigger := .redemption (100 * SCALE)
  charge := sampleExitCharge
  owed := rfl

theorem sampleExit_assessed :
    assess .HOUSE (sampleStayer.assessed (1000 * SCALE) (1000 * SCALE)) sampleExit.nav
      sampleExit.trigger MID_PERIOD = .ok sampleExit.charge := by
  decide +kernel

/-- The product of that one holder. -/
def sampleStayerPlane : FeePlane where
  service := ⟨"alpha"⟩
  now := MID_PERIOD
  scheduled := none
  promoting := none
  original := some .HOUSE
  promotions := []
  positions := fun user => if user = sampleExit.user then some sampleStayer else none
  bills := fun _ => []
  now_fits := by decide

/-- The charge as the store makes it. -/
def sampleExitDone : Except DomainError Bool × FeePlane :=
  sampleStayerPlane.charge sampleExit 0 0 MID_PERIOD

theorem redemption_restarts_period_sample :
    ∃ row', sampleExitDone.2.positions sampleExit.user = some row' ∧
      row'.highWaterMark = sampleStayer.highWaterMark :=
  have happlied : sampleStayerPlane.charge sampleExit 0 0 MID_PERIOD =
      (.ok true, sampleExitDone.2) := rfl
  have hrow : sampleStayerPlane.positions sampleExit.user = some sampleStayer := rfl
  (redemption_restarts_period hrow rfl sampleExit_assessed happlied).imp
    fun _ hleft => ⟨hleft.1, hleft.2.1⟩

/-- **A redemption half a period in restarts the period**: the charge is applied, and at the year's
end, where the holding's period would have ended, it has half a year to go. -/
theorem mid_period_redemption :
    sampleExitDone.1 = .ok true ∧
      sampleExitDone.2.positions sampleExit.user =
        some (sampleStayer.advance sampleExitCharge MID_PERIOD) ∧
      Trigger.period.crystallizes .HOUSE (sampleStayer.assessed 0 0) SECONDS_PER_YEAR = true ∧
      Trigger.period.crystallizes .HOUSE
        ((sampleStayer.advance sampleExitCharge MID_PERIOD).assessed 0 0) SECONDS_PER_YEAR = false ∧
      ¬ LeftAlone sampleStayer (sampleStayer.advance sampleExitCharge MID_PERIOD) := by
  refine ⟨rfl, rfl, by decide, by decide, fun hleft => ?_⟩
  have hclock := hleft.clock
  revert hclock
  decide

end Banking
