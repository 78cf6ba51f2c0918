import Banking.FeeTerms
import Banking.Orders

/-! # Assessing a holding

The fee of one holding at one price: management for the time since the accrual clock, performance on
the gain above the holder's own mark, and the units that can be taken for what is due now, the rest
being carried as debt. Times are Unix seconds. -/

namespace Banking

/-! ## What an assessment reads -/

/-- What an assessment knows about one holding: the fee is owed on `units` and taken from
`collectable`. -/
structure PositionSnapshot where
  units : Nat
  collectable : Nat
  costBasis : Nat
  highWaterMark : Nat
  debt : Nat
  accruedAt : Nat
  crystallizedAt : Nat
deriving DecidableEq, Repr

/-- Why an assessment is running: the scheduled sweep, or a redemption of some units. -/
inductive Trigger
  | period
  | redemption (units : Nat)
deriving DecidableEq, Repr

/-- The outcome of one assessment. -/
structure FeeCharge where
  management : Nat
  performance : Nat
  performanceAccrued : Nat
  debtOpening : Nat
  due : Nat
  chargedUnits : Nat
  chargedCash : Nat
  debtCarried : Nat
  highWaterMark : Nat
  crystallized : Bool
deriving DecidableEq, Repr

/-- Nothing is owed. -/
def FeeCharge.isEmpty (c : FeeCharge) : Bool := c.due = 0

/-- Whether a policy charges nothing at all. -/
def FeePolicy.isZero (p : FeePolicy) : Bool := p.managementBps = 0 && p.performanceBps = 0

/-! ## The two legs -/

/-- A price grown by a fraction, floored. -/
def Nav.scale (nav numer denom : Nat) : Except DomainError Nat :=
  match mulDivFloor nav numer denom with
  | some scaled => .ok scaled
  | none => .error (.validation "nav scaling overflows or divides by zero")

/-- The divisor of a yearly rate in basis points, by the second. -/
def RATE_DENOMINATOR : Nat := BPS_DENOMINATOR * SECONDS_PER_YEAR

/-- **The management fee due**: base times rate times the time elapsed. A clock ahead of now has
nothing elapse. -/
def managementDue (policy : FeePolicy) (snapshot : PositionSnapshot) (nav now : Nat) :
    Except DomainError Nat :=
  if policy.managementBps = 0 then .ok 0
  else
    let elapsed := now - snapshot.accruedAt
    if elapsed = 0 then .ok 0
    else do
      let base ← match policy.basis with
        | .investedCapital => .ok snapshot.costBasis
        | .marketValue => Nav.value nav snapshot.units
      Usdt.scale base (policy.managementBps.toNat * elapsed) RATE_DENOMINATOR

/-- The price a gain is measured from: the holder's mark, lifted by the hurdle. -/
def hurdleFloor (policy : FeePolicy) (snapshot : PositionSnapshot) (now : Nat) :
    Except DomainError Nat :=
  if policy.hurdleBps = 0 then .ok snapshot.highWaterMark
  else do
    let elapsed := now - snapshot.crystallizedAt
    let lift ←
      Nav.scale snapshot.highWaterMark (policy.hurdleBps.toNat * elapsed) RATE_DENOMINATOR
    checkedAdd snapshot.highWaterMark lift "hurdle lifts the mark past the representable range"

/-- The performance fee due: a share of the gain above the floor. -/
def performanceDue (policy : FeePolicy) (floorNav nav units : Nat) : Except DomainError Nat :=
  if policy.performanceBps = 0 ∨ units = 0 then .ok 0
  else if nav < floorNav then .ok 0
  else do
    let profit ← Nav.value (nav - floorNav) units
    Usdt.scale profit policy.performanceBps.toNat BPS_DENOMINATOR

/-- **Assess one holding**: management first, performance on the units that leaves. -/
def assess (policy : FeePolicy) (snapshot : PositionSnapshot) (nav : Nat) (trigger : Trigger)
    (now : Nat) : Except DomainError FeeCharge :=
  if nav = 0 then .error (.validation "cannot assess fees at a zero nav")
  else do
    let management ← managementDue policy snapshot nav now
    let managementUnits ← Shares.fromCash management nav
    let unitsNet := snapshot.units - managementUnits
    let floorNav ← hurdleFloor policy snapshot now
    let scope := match trigger with
      | .period => unitsNet
      | .redemption units => min units unitsNet
    let performanceAccrued ← performanceDue policy floorNav nav scope
    let crystallized := match trigger with
      | .period => policy.crystallization.seconds ≤ now - snapshot.crystallizedAt
      | .redemption _ => true
    let performance := if crystallized then performanceAccrued else 0
    -- only the sweep moves the mark
    let highWaterMark := match trigger with
      | .period =>
        if crystallized ∧ snapshot.highWaterMark < nav then nav else snapshot.highWaterMark
      | .redemption _ => snapshot.highWaterMark
    let owed ← checkedAdd management performance "fee total overflows"
    let due ← checkedAdd owed snapshot.debt "fee total overflows"
    let dueUnits ← Shares.fromCash due nav
    let chargedUnits := min dueUnits snapshot.collectable
    let chargedCash ← Nav.value nav chargedUnits
    .ok
      { management
        performance
        performanceAccrued
        debtOpening := snapshot.debt
        due
        chargedUnits
        chargedCash
        debtCarried := due - chargedCash
        highWaterMark
        crystallized }

/-- An assessment's management leg is what is due. -/
theorem assess_management {policy : FeePolicy} {snapshot : PositionSnapshot} {nav now : Nat}
    {trigger : Trigger} {charge : FeeCharge}
    (h : assess policy snapshot nav trigger now = .ok charge) :
    managementDue policy snapshot nav now = .ok charge.management := by
  unfold assess at h
  split at h
  case isTrue => cases h
  case isFalse =>
    simp only [bind_ok_iff] at h
    obtain ⟨management, hdue, _, -, _, -, _, -, _, -, _, -, _, -, _, -, h⟩ := h
    cases h
    exact hdue

/-- **The management fee on invested capital.** -/
theorem managementDue_investedCapital {policy : FeePolicy} {snapshot : PositionSnapshot}
    {nav now due : Nat} (hbasis : policy.basis = .investedCapital)
    (hcost : snapshot.costBasis < 2 ^ 128) (hnow : now < 2 ^ 63)
    (h : managementDue policy snapshot nav now = .ok due) :
    due = snapshot.costBasis * (policy.managementBps.toNat * (now - snapshot.accruedAt)) /
      RATE_DENOMINATOR := by
  unfold managementDue at h
  split at h
  case isTrue hzero =>
    rw [← Except.ok.inj h, hzero]
    simp
  case isFalse =>
    dsimp only at h
    split at h
    case isTrue helapsed =>
      rw [← Except.ok.inj h, helapsed]
      simp
    case isFalse =>
      rw [hbasis] at h
      have hrate : policy.managementBps.toNat < 2 ^ 32 := policy.managementBps.toNat_lt
      have helapsed : now - snapshot.accruedAt < 2 ^ 63 := (Nat.sub_le _ _).trans_lt hnow
      have hnumer : policy.managementBps.toNat * (now - snapshot.accruedAt) < 2 ^ 128 :=
        (Nat.mul_lt_mul'' hrate helapsed).trans (by decide)
      exact (Usdt.scale_ok hcost hnumer (by decide) h).2.1

end Banking
