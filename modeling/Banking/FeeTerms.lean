import Banking.Subjects

/-! # Who approves a change of fee terms

The fee rule: a change is the owners' where it makes some leg dearer and leaves the house envelope,
or lowers the hurdle; every other change is an administrator's. However many changes administrators
make, no leg ends dearer than it began, or than the envelope has it. -/

namespace Banking

/-! ## Terms -/

/-- The accrual year: a flat 365 days. -/
def SECONDS_PER_YEAR : Nat := 365 * 24 * 60 * 60

/-- The house rates. -/
def HOUSE_MANAGEMENT_BPS : UInt32 := 200
def HOUSE_PERFORMANCE_BPS : UInt32 := 2000

/-- A period's length. -/
def CrystallizationPeriod.seconds : CrystallizationPeriod → Nat
  | .monthly => SECONDS_PER_YEAR / 12
  | .quarterly => SECONDS_PER_YEAR / 4
  | .semiAnnual => SECONDS_PER_YEAR / 2
  | .annual => SECONDS_PER_YEAR

/-- 2 and 20 on invested capital, once a year, over no hurdle. -/
def FeePolicy.HOUSE : FeePolicy where
  managementBps := HOUSE_MANAGEMENT_BPS
  performanceBps := HOUSE_PERFORMANCE_BPS
  hurdleBps := 0
  basis := .investedCapital
  crystallization := .annual

/-- The terms of a product without any: nothing is charged. -/
def FeePolicy.NONE : FeePolicy where
  managementBps := 0
  performanceBps := 0
  hurdleBps := 0
  basis := .investedCapital
  crystallization := .annual

/-- Whether terms are within the house rule. The hurdle is free: it only lowers the fee. -/
def FeePolicy.withinHouseEnvelope (p : FeePolicy) : Bool :=
  p.managementBps ≤ HOUSE_MANAGEMENT_BPS && p.performanceBps ≤ HOUSE_PERFORMANCE_BPS &&
    p.basis = .investedCapital && p.crystallization = .annual

/-- Whether some leg gets dearer for the investor. -/
def FeePolicy.tightensFrom (p current : FeePolicy) : Bool :=
  current.managementBps < p.managementBps || current.performanceBps < p.performanceBps ||
    p.hurdleBps < current.hurdleBps ||
    (current.basis = .investedCapital && p.basis = .marketValue) ||
    p.crystallization.seconds < current.crystallization.seconds

/-- Who has to agree to a change of terms. -/
inductive ChangeRequirement
  | admin
  | ownerConsilium
deriving DecidableEq, Repr

/-- **Who approves a change of terms.** -/
def requirementFor (current : Option FeePolicy) (next : FeePolicy) : ChangeRequirement :=
  let current := current.getD .NONE
  let hurdleLowered := next.hurdleBps < current.hurdleBps
  if hurdleLowered ∨ (next.tightensFrom current ∧ ¬ next.withinHouseEnvelope) then .ownerConsilium
  else .admin

/-! ## The ratchet -/

/-- How dear a basis is: one that moves with the mark is the dearer. -/
def ManagementBasis.dearness : ManagementBasis → Nat
  | .investedCapital => 0
  | .marketValue => 1

/-- **No leg of the terms is dearer than the larger of the starting leg and the envelope's**, and
the hurdle is no lower than it was. -/
structure FeePolicy.NoDearer (start p : FeePolicy) : Prop where
  management : p.managementBps.toNat ≤
    max start.managementBps.toNat FeePolicy.HOUSE.managementBps.toNat
  performance : p.performanceBps.toNat ≤
    max start.performanceBps.toNat FeePolicy.HOUSE.performanceBps.toNat
  basis : p.basis.dearness ≤ max start.basis.dearness FeePolicy.HOUSE.basis.dearness
  crystallization : min start.crystallization.seconds FeePolicy.HOUSE.crystallization.seconds ≤
    p.crystallization.seconds
  hurdle : start.hurdleBps.toNat ≤ p.hurdleBps.toNat

/-- The terms in force after a sequence of changes. -/
def termsAfter : Option FeePolicy → List FeePolicy → Option FeePolicy
  | current, [] => current
  | _, next :: rest => termsAfter (some next) rest

theorem FeePolicy.NoDearer.refl (p : FeePolicy) : p.NoDearer p :=
  ⟨le_max_left _ _, le_max_left _ _, le_max_left _ _, min_le_left _ _, le_rfl⟩

/-- A period is at most a year. -/
theorem CrystallizationPeriod.seconds_le (c : CrystallizationPeriod) :
    c.seconds ≤ SECONDS_PER_YEAR := by
  cases c <;> decide

/-- Terms that tighten nothing. -/
theorem FeePolicy.tightensFrom_eq_false {p current : FeePolicy}
    (h : p.tightensFrom current = false) :
    p.managementBps.toNat ≤ current.managementBps.toNat ∧
      p.performanceBps.toNat ≤ current.performanceBps.toNat ∧
      p.basis.dearness ≤ current.basis.dearness ∧
      current.crystallization.seconds ≤ p.crystallization.seconds := by
  simp only [FeePolicy.tightensFrom, Bool.or_eq_false_iff, decide_eq_false_iff_not,
    UInt32.lt_iff_toNat_lt, not_lt, Bool.and_eq_false_iff] at h
  obtain ⟨⟨⟨⟨hm, hp⟩, -⟩, hb⟩, hc⟩ := h
  refine ⟨hm, hp, ?_, hc⟩
  cases hcurrent : current.basis <;> cases hnext : p.basis <;> simp_all [ManagementBasis.dearness]

/-- **One change.** An administrator's change keeps every leg where it was bounded. -/
theorem FeePolicy.NoDearer.change {start next : FeePolicy} {current : Option FeePolicy}
    (h : start.NoDearer (current.getD .NONE)) (hadmin : requirementFor current next = .admin) :
    start.NoDearer next := by
  simp only [requirementFor] at hadmin
  split at hadmin
  case isTrue => cases hadmin
  case isFalse hrule =>
    obtain ⟨hhurdle, hrule⟩ := not_or.mp hrule
    have hhurdle : start.hurdleBps.toNat ≤ next.hurdleBps.toNat := by
      rw [UInt32.lt_iff_toNat_lt, not_lt] at hhurdle
      exact h.hurdle.trans hhurdle
    by_cases htighter : next.tightensFrom (current.getD .NONE)
    · -- it tightens, so it is within the envelope
      have hwithin : next.withinHouseEnvelope = true :=
        Bool.not_eq_false _ ▸ fun hout => hrule ⟨htighter, by simp [hout]⟩
      simp only [FeePolicy.withinHouseEnvelope, Bool.and_eq_true, decide_eq_true_eq,
        UInt32.le_iff_toNat_le] at hwithin
      obtain ⟨⟨⟨hm, hp⟩, hb⟩, hc⟩ := hwithin
      refine ⟨le_max_of_le_right hm, le_max_of_le_right hp, ?_, ?_, hhurdle⟩
      · rw [hb]
        exact le_max_right _ _
      · rw [hc]
        exact min_le_right _ _
    · obtain ⟨hm, hp, hb, hc⟩ := tightensFrom_eq_false (Bool.not_eq_true _ ▸ htighter)
      exact ⟨hm.trans h.management, hp.trans h.performance, hb.trans h.basis,
        h.crystallization.trans hc, hhurdle⟩

/-- Every change of a sequence is an administrator's. -/
def AllAdmin (current : Option FeePolicy) (changes : List FeePolicy) : Prop :=
  ∀ before next after, changes = before ++ next :: after →
    requirementFor (termsAfter current before) next = .admin

theorem AllAdmin.tail {current : Option FeePolicy} {next : FeePolicy} {rest : List FeePolicy}
    (h : AllAdmin current (next :: rest)) : AllAdmin (some next) rest :=
  fun before p after hrest => h (next :: before) p after (by rw [hrest, List.cons_append])

/-- What any number of administrators' changes keep. -/
theorem FeePolicy.NoDearer.changes {start : FeePolicy} (changes : List FeePolicy) :
    ∀ {current : Option FeePolicy}, start.NoDearer (current.getD .NONE) →
      AllAdmin current changes → start.NoDearer ((termsAfter current changes).getD .NONE) := by
  induction changes with
  | nil => exact fun h _ => h
  | cons next rest ih =>
    intro current h hadmin
    exact ih (h.change (hadmin [] next rest rfl)) hadmin.tail

/-- **Administrators cannot ratchet the terms.** From any terms, however many changes an
administrator was enough for leave no leg dearer than the larger of the starting leg and the house
envelope's, and the hurdle no lower; a sequence that does is one with a change for the owners. -/
theorem admin_changes_no_dearer (current : Option FeePolicy) (changes : List FeePolicy) :
    (AllAdmin current changes →
      (current.getD .NONE).NoDearer ((termsAfter current changes).getD .NONE)) ∧
    (¬ (current.getD .NONE).NoDearer ((termsAfter current changes).getD .NONE) →
      ∃ before next after, changes = before ++ next :: after ∧
        requirementFor (termsAfter current before) next = .ownerConsilium) := by
  have hadmin := FeePolicy.NoDearer.changes changes (.refl (current.getD .NONE))
  refine ⟨hadmin, fun hdearer => ?_⟩
  by_contra hnone
  push Not at hnone
  refine hdearer (hadmin fun before next after hsplit => ?_)
  cases hreq : requirementFor (termsAfter current before) next with
  | admin => rfl
  | ownerConsilium => exact absurd hreq (hnone before next after hsplit)

/-- Terms down to half a percent and back up to the house's two. -/
def sampleChanges : List FeePolicy := [{ FeePolicy.HOUSE with managementBps := 50 }, .HOUSE]

theorem admin_changes_no_dearer_sample :
    FeePolicy.HOUSE.NoDearer ((termsAfter (some .HOUSE) sampleChanges).getD .NONE) := by
  refine (admin_changes_no_dearer (some .HOUSE) sampleChanges).1 fun before next after h => ?_
  rcases before with _ | ⟨_, _ | ⟨_, before⟩⟩
  · obtain ⟨rfl, -⟩ := List.cons.inj h
    decide
  · obtain ⟨rfl, hrest⟩ := List.cons.inj h
    obtain ⟨rfl, -⟩ := List.cons.inj hrest
    decide
  · cases before <;> simp [sampleChanges] at h

end Banking
