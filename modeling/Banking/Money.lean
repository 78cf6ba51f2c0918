import Mathlib.Algebra.BigOperators.Group.List.Lemmas
import Mathlib.Algebra.BigOperators.Ring.List
import Mathlib.Algebra.Order.BigOperators.Group.List
import Mathlib.Algebra.Ring.Divisibility.Basic
import Mathlib.Data.Nat.Bitwise
import Mathlib.Tactic.Ring
import Banking.TxRef

/-! # Cash, units and prices

Amounts of cash and of units, and prices of a whole unit in cash, all in base units of 18 decimals
and all 128-bit. Every conversion between them is a product over a divisor, rounded down: the
product is taken in 256 bits and divided bit by bit where it does not fit in 128. -/

namespace Banking

/-! ## A product over a divisor -/

/-- One whole unit, or one whole USDT, in base units. -/
def SCALE : Nat := 1000000000000000000

/-- The product of two 128-bit numbers, as its high and its low half. -/
def wideningMul (a b : Nat) : Nat × Nat :=
  let p0 := a % 2 ^ 64 * (b % 2 ^ 64)
  let p1 := a % 2 ^ 64 * (b / 2 ^ 64)
  let p2 := a / 2 ^ 64 * (b % 2 ^ 64)
  let p3 := a / 2 ^ 64 * (b / 2 ^ 64)
  -- each of the two middle products is added shifted, with the carry of the addition
  let s1 := p0 + p1 * 2 ^ 64 % 2 ^ 128
  let hi := p3 + (p1 / 2 ^ 64 + s1 / 2 ^ 128)
  let s2 := s1 % 2 ^ 128 + p2 * 2 ^ 64 % 2 ^ 128
  (hi + (p2 / 2 ^ 64 + s2 / 2 ^ 128), s2 % 2 ^ 128)

/-- Binary long division by `denom`: `rem` is what is left of the bits taken so far, `quo` their
quotient, and the bits of `lo` below `bit` are still to be taken. -/
def divideBits (lo denom : Nat) : Nat → Nat → Nat → Nat
  | 0, _, quo => quo
  | bit + 1, rem, quo =>
    let carryIn := lo / 2 ^ bit % 2
    let shifted := (rem * 2 % 2 ^ 128) ||| carryIn
    if rem / 2 ^ 127 = 1 ∨ denom ≤ shifted then
      divideBits lo denom bit ((shifted + (2 ^ 128 - denom)) % 2 ^ 128) (quo ||| 2 ^ bit)
    else divideBits lo denom bit shifted quo

/-- `floor(a * b / denom)`; none for a divisor of zero and for a quotient past 128 bits. -/
def mulDivFloor (a b denom : Nat) : Option Nat :=
  if denom = 0 then none
  else if a * b < 2 ^ 128 then some (a * b / denom)
  else
    match wideningMul a b with
    | (hi, lo) => if denom ≤ hi then none else some (divideBits lo denom 128 hi 0)

/-- The two halves make up the product. -/
theorem wideningMul_eq {a b : Nat} (ha : a < 2 ^ 128) (hb : b < 2 ^ 128) :
    (wideningMul a b).1 * 2 ^ 128 + (wideningMul a b).2 = a * b ∧
      (wideningMul a b).2 < 2 ^ 128 := by
  have hal : a % 2 ^ 64 ≤ 2 ^ 64 - 1 := by omega
  have hbl : b % 2 ^ 64 ≤ 2 ^ 64 - 1 := by omega
  have hah : a / 2 ^ 64 ≤ 2 ^ 64 - 1 := by omega
  have hbh : b / 2 ^ 64 ≤ 2 ^ 64 - 1 := by omega
  have hp1 := Nat.mul_le_mul hal hbh
  have hp2 := Nat.mul_le_mul hah hbl
  have hprod : a * b = a / 2 ^ 64 * (b / 2 ^ 64) * 2 ^ 128
      + (a % 2 ^ 64 * (b / 2 ^ 64) + a / 2 ^ 64 * (b % 2 ^ 64)) * 2 ^ 64
      + a % 2 ^ 64 * (b % 2 ^ 64) := by
    conv_lhs => rw [← Nat.div_add_mod a (2 ^ 64), ← Nat.div_add_mod b (2 ^ 64)]
    ring
  simp only [wideningMul]
  rw [hprod]
  generalize a % 2 ^ 64 * (b % 2 ^ 64) = p0 at *
  generalize a % 2 ^ 64 * (b / 2 ^ 64) = p1 at *
  generalize a / 2 ^ 64 * (b % 2 ^ 64) = p2 at *
  generalize a / 2 ^ 64 * (b / 2 ^ 64) = p3 at *
  omega

/-- **Long division.** The quotient of what is left of the bits taken and the bits to come. -/
theorem divideBits_eq {lo denom : Nat} (hdenom : denom < 2 ^ 128) (bit : Nat) :
    ∀ rem quo, rem < denom → 2 ^ bit ∣ quo →
      divideBits lo denom bit rem quo = quo + (rem * 2 ^ bit + lo % 2 ^ bit) / denom := by
  induction bit with
  | zero =>
    intro rem quo hrem _
    rw [divideBits, pow_zero, Nat.mod_one, mul_one, add_zero, Nat.div_eq_of_lt hrem, add_zero]
  | succ bit ih =>
    intro rem quo hrem hquo
    have hcarry : lo / 2 ^ bit % 2 < 2 ^ 1 := Nat.mod_lt _ two_pos
    have hlo : lo % 2 ^ (bit + 1) = lo % 2 ^ bit + 2 ^ bit * (lo / 2 ^ bit % 2) := by
      rw [pow_succ, Nat.mod_mul]
    have hshift : (rem * 2 % 2 ^ 128) ||| (lo / 2 ^ bit % 2)
        = rem * 2 % 2 ^ 128 + lo / 2 ^ bit % 2 := by
      have heven : rem * 2 % 2 ^ 128 = 2 ^ 1 * (rem % 2 ^ 127) := by omega
      rw [heven, Nat.two_pow_add_eq_or_of_lt hcarry]
    have hor : quo ||| 2 ^ bit = quo + 2 ^ bit := by
      obtain ⟨q, rfl⟩ := hquo
      exact (Nat.two_pow_add_eq_or_of_lt (Nat.pow_lt_pow_right one_lt_two bit.lt_succ_self) q).symm
    have hdvd : 2 ^ bit ∣ quo := (pow_dvd_pow 2 bit.le_succ).trans hquo
    have hdvd' : 2 ^ bit ∣ quo + 2 ^ bit := dvd_add hdvd dvd_rfl
    rw [divideBits, hshift, hor, hlo]
    generalize lo / 2 ^ bit % 2 = carry at *
    -- the bits taken so far, with the next one
    have hnum : rem * 2 ^ (bit + 1) + (lo % 2 ^ bit + 2 ^ bit * carry)
        = (rem * 2 + carry) * 2 ^ bit + lo % 2 ^ bit := by ring
    rw [hnum]
    by_cases hge : denom ≤ rem * 2 + carry
    · have hcond : rem / 2 ^ 127 = 1 ∨ denom ≤ rem * 2 % 2 ^ 128 + carry := by omega
      have hsub : (rem * 2 % 2 ^ 128 + carry + (2 ^ 128 - denom)) % 2 ^ 128
          = rem * 2 + carry - denom := by omega
      rw [if_pos hcond, hsub, ih _ _ (by omega) hdvd']
      have hsplit : (rem * 2 + carry) * 2 ^ bit + lo % 2 ^ bit
          = (rem * 2 + carry - denom) * 2 ^ bit + lo % 2 ^ bit + denom * 2 ^ bit := by
        rw [Nat.sub_mul]
        have := Nat.mul_le_mul_right (2 ^ bit) hge
        omega
      rw [hsplit, Nat.add_mul_div_left _ _ (by omega)]
      omega
    · have hcond : ¬(rem / 2 ^ 127 = 1 ∨ denom ≤ rem * 2 % 2 ^ 128 + carry) := by omega
      have hmod : rem * 2 % 2 ^ 128 = rem * 2 := by omega
      rw [if_neg hcond, hmod, ih _ _ (by omega) hdvd]

/-- The 256-bit path on its own. -/
def mulDivWide (a b denom : Nat) : Option Nat :=
  match wideningMul a b with
  | (hi, lo) => if denom ≤ hi then none else some (divideBits lo denom 128 hi 0)

/-- **What the 256-bit path computes.** -/
theorem mulDivWide_eq {a b denom : Nat} (ha : a < 2 ^ 128) (hb : b < 2 ^ 128)
    (hdenom : denom < 2 ^ 128) (hpos : 0 < denom) : mulDivWide a b denom =
      if 2 ^ 128 ≤ a * b / denom then none else some (a * b / denom) := by
  unfold mulDivWide
  obtain ⟨hprod, hlo⟩ := wideningMul_eq ha hb
  generalize wideningMul a b = product at *
  obtain ⟨hi, lo⟩ := product
  dsimp only at hprod hlo ⊢
  by_cases hhi : denom ≤ hi
  · have hbig : 2 ^ 128 ≤ a * b / denom := by
      rw [Nat.le_div_iff_mul_le hpos, ← hprod, mul_comm]
      exact Nat.le_add_right_of_le (Nat.mul_le_mul_right _ hhi)
    rw [if_pos hhi, if_pos hbig]
  · have hsmall : a * b / denom < 2 ^ 128 := by
      rw [Nat.div_lt_iff_lt_mul hpos, ← hprod]
      have := Nat.mul_le_mul_right (2 ^ 128) (not_le.mp hhi)
      rw [Nat.succ_mul] at this
      omega
    rw [if_neg hhi, if_neg (by omega), divideBits_eq hdenom 128 hi 0 (by omega) (dvd_zero _),
      zero_add, Nat.mod_eq_of_lt hlo, hprod]

/-- **What `mulDivFloor` computes.** -/
theorem mulDivFloor_eq {a b denom : Nat} (ha : a < 2 ^ 128) (hb : b < 2 ^ 128)
    (hdenom : denom < 2 ^ 128) : mulDivFloor a b denom =
      if denom = 0 ∨ 2 ^ 128 ≤ a * b / denom then none else some (a * b / denom) := by
  unfold mulDivFloor
  by_cases hzero : denom = 0
  · rw [if_pos hzero, if_pos (.inl hzero)]
  rw [if_neg hzero]
  by_cases hfits : a * b < 2 ^ 128
  · have hquo : a * b / denom < 2 ^ 128 := (Nat.div_le_self _ _).trans_lt hfits
    rw [if_pos hfits, if_neg (by omega)]
  · rw [if_neg hfits]
    refine (mulDivWide_eq ha hb hdenom (Nat.pos_of_ne_zero hzero)).trans ?_
    simp only [hzero, false_or]

/-- The floor a successful `mulDivFloor` answers. -/
theorem mulDivFloor_some {a b denom q : Nat} (ha : a < 2 ^ 128) (hb : b < 2 ^ 128)
    (hdenom : denom < 2 ^ 128) (h : mulDivFloor a b denom = some q) :
    0 < denom ∧ q = a * b / denom ∧ q < 2 ^ 128 := by
  rw [mulDivFloor_eq ha hb hdenom] at h
  split_ifs at h with hc
  rw [← Option.some.inj h]
  omega

/-- It succeeds wherever the quotient is at most a 128-bit number. -/
theorem mulDivFloor_fits {a b denom bound : Nat} (ha : a < 2 ^ 128) (hb : b < 2 ^ 128)
    (hdenom : denom < 2 ^ 128) (hpos : 0 < denom) (hbound : bound < 2 ^ 128)
    (hle : a * b / denom ≤ bound) : mulDivFloor a b denom = some (a * b / denom) := by
  rw [mulDivFloor_eq ha hb hdenom, if_neg (by omega)]

/-! ## Nothing is lost on the way -/

/-- What the widening product computes besides its low half: the four products of halves, and the
sums its high half is put together from. -/
def wideningParts (a b : Nat) : List Nat :=
  let p0 := a % 2 ^ 64 * (b % 2 ^ 64)
  let p1 := a % 2 ^ 64 * (b / 2 ^ 64)
  let p2 := a / 2 ^ 64 * (b % 2 ^ 64)
  let p3 := a / 2 ^ 64 * (b / 2 ^ 64)
  let s1 := p0 + p1 * 2 ^ 64 % 2 ^ 128
  let hi := p3 + (p1 / 2 ^ 64 + s1 / 2 ^ 128)
  let s2 := s1 % 2 ^ 128 + p2 * 2 ^ 64 % 2 ^ 128
  [p0, p1, p2, p3, p1 / 2 ^ 64 + s1 / 2 ^ 128, hi, p2 / 2 ^ 64 + s2 / 2 ^ 128,
    hi + (p2 / 2 ^ 64 + s2 / 2 ^ 128)]

/-- None of them is past 128 bits. -/
theorem wideningParts_lt {a b : Nat} (ha : a < 2 ^ 128) (hb : b < 2 ^ 128) :
    ∀ n ∈ wideningParts a b, n < 2 ^ 128 := by
  have hal : a % 2 ^ 64 ≤ 2 ^ 64 - 1 := by omega
  have hbl : b % 2 ^ 64 ≤ 2 ^ 64 - 1 := by omega
  have hah : a / 2 ^ 64 ≤ 2 ^ 64 - 1 := by omega
  have hbh : b / 2 ^ 64 ≤ 2 ^ 64 - 1 := by omega
  have hp0 := Nat.mul_le_mul hal hbl
  have hp1 := Nat.mul_le_mul hal hbh
  have hp2 := Nat.mul_le_mul hah hbl
  have hp3 := Nat.mul_le_mul hah hbh
  obtain ⟨hprod, hlo⟩ := wideningMul_eq ha hb
  have hhi : (wideningMul a b).1 < 2 ^ 128 := by
    have hab : a * b ≤ (2 ^ 128 - 1) * (2 ^ 128 - 1) :=
      Nat.mul_le_mul (Nat.le_sub_one_of_lt ha) (Nat.le_sub_one_of_lt hb)
    omega
  simp only [wideningMul] at hhi
  simp only [wideningParts, List.forall_mem_cons, List.not_mem_nil, false_implies, implies_true,
    and_true]
  generalize a % 2 ^ 64 * (b % 2 ^ 64) = p0 at *
  generalize a % 2 ^ 64 * (b / 2 ^ 64) = p1 at *
  generalize a / 2 ^ 64 * (b % 2 ^ 64) = p2 at *
  generalize a / 2 ^ 64 * (b / 2 ^ 64) = p3 at *
  refine ⟨?_, ?_, ?_, ?_, ?_, ?_, ?_, ?_⟩ <;> omega

/-- One step of the division keeps the true remainder, the bit shifted out included. -/
theorem divideStep_eq {denom rem carry : Nat} (hdenom : denom < 2 ^ 128) (hrem : rem < denom)
    (hcarry : carry < 2) :
    (if rem / 2 ^ 127 = 1 ∨ denom ≤ (rem * 2 % 2 ^ 128) ||| carry then
        (((rem * 2 % 2 ^ 128) ||| carry) + (2 ^ 128 - denom)) % 2 ^ 128
      else (rem * 2 % 2 ^ 128) ||| carry) = (rem * 2 + carry) % denom := by
  have hshift : (rem * 2 % 2 ^ 128) ||| carry = rem * 2 % 2 ^ 128 + carry := by
    have heven : rem * 2 % 2 ^ 128 = 2 ^ 1 * (rem % 2 ^ 127) := by omega
    rw [heven, Nat.two_pow_add_eq_or_of_lt hcarry]
  rw [hshift]
  by_cases hge : denom ≤ rem * 2 + carry
  · have hcond : rem / 2 ^ 127 = 1 ∨ denom ≤ rem * 2 % 2 ^ 128 + carry := by omega
    have hsub : (rem * 2 % 2 ^ 128 + carry + (2 ^ 128 - denom)) % 2 ^ 128
        = rem * 2 + carry - denom := by omega
    rw [if_pos hcond, hsub, Nat.mod_eq_sub_mod hge, Nat.mod_eq_of_lt (by omega)]
  · have hcond : ¬(rem / 2 ^ 127 = 1 ∨ denom ≤ rem * 2 % 2 ^ 128 + carry) := by omega
    rw [if_neg hcond, Nat.mod_eq_of_lt (not_le.mp hge)]
    omega

/-- **Wide division is exact.** It answers nothing exactly for a divisor of zero and for a quotient
past 128 bits, and else the floor; the 256-bit path answers the same wherever it is taken. No sum or
product on the way is past 128 bits, and what a step of the division leaves is the remainder. -/
theorem wide_division_exact {a b denom : Nat} (ha : a < 2 ^ 128) (hb : b < 2 ^ 128)
    (hdenom : denom < 2 ^ 128) :
    (mulDivFloor a b denom = none ↔ denom = 0 ∨ 2 ^ 128 ≤ a * b / denom) ∧
    (∀ q, mulDivFloor a b denom = some q → q = a * b / denom) ∧
    (denom ≠ 0 → mulDivWide a b denom = mulDivFloor a b denom) ∧
    (wideningMul a b).1 * 2 ^ 128 + (wideningMul a b).2 = a * b ∧
    (∀ n ∈ wideningParts a b, n < 2 ^ 128) ∧
    ∀ rem carry, rem < denom → carry < 2 →
      (if rem / 2 ^ 127 = 1 ∨ denom ≤ (rem * 2 % 2 ^ 128) ||| carry then
          (((rem * 2 % 2 ^ 128) ||| carry) + (2 ^ 128 - denom)) % 2 ^ 128
        else (rem * 2 % 2 ^ 128) ||| carry) = (rem * 2 + carry) % denom := by
  refine ⟨?_, fun q hq => (mulDivFloor_some ha hb hdenom hq).2.1, fun hzero => ?_,
    (wideningMul_eq ha hb).1, wideningParts_lt ha hb, fun rem carry => divideStep_eq hdenom⟩
  · rw [mulDivFloor_eq ha hb hdenom]
    by_cases hc : denom = 0 ∨ 2 ^ 128 ≤ a * b / denom
    · rw [if_pos hc]
      exact iff_of_true rfl hc
    · rw [if_neg hc]
      exact iff_of_false (Option.some_ne_none _) hc
  · rw [mulDivWide_eq ha hb hdenom (Nat.pos_of_ne_zero hzero), mulDivFloor_eq ha hb hdenom]
    simp only [hzero, false_or]

/-- A product of 129 bits, past a divisor above `2 ^ 127`. -/
theorem wide_division_exact_sample :
    mulDivFloor (2 ^ 127) 3 (2 ^ 127 + 1) = some 2 ∧
      mulDivWide (2 ^ 127) 3 (2 ^ 127 + 1) = mulDivFloor (2 ^ 127) 3 (2 ^ 127 + 1) :=
  ⟨by decide +kernel, (wide_division_exact (show 2 ^ 127 < 2 ^ 128 by decide)
    (show 3 < 2 ^ 128 by decide) (show 2 ^ 127 + 1 < 2 ^ 128 by decide)).2.2.1 (by decide)⟩

/-! ## Conversions -/

/-- `floor(amount * numer / denom)` of an amount of cash. -/
def Usdt.scale (amount numer denom : Nat) : Except DomainError Nat :=
  match mulDivFloor amount numer denom with
  | some scaled => .ok scaled
  | none => .error (.validation "amount scaling overflows or divides by zero")

/-- The units minted for `cash` at `nav`. -/
def Shares.fromCash (cash nav : Nat) : Except DomainError Nat :=
  match mulDivFloor cash SCALE nav with
  | some units => .ok units
  | none => .error (.validation "cannot price shares (nav is zero or amount overflows)")

/-- The price of the first subscription into a fund. -/
def Nav.SEED : Nat := SCALE

/-- The price a fund worth `aum` has with `units` outstanding. -/
def Nav.fromAum (aum units : Nat) : Except DomainError Nat :=
  if units = 0 then .error (.validation "nav undefined: no units outstanding")
  else
    match mulDivFloor aum SCALE units with
    | some nav => .ok nav
    | none => .error (.validation "nav overflows")

/-- The cash value of `units` at `nav`. -/
def Nav.value (nav units : Nat) : Except DomainError Nat :=
  match mulDivFloor units nav SCALE with
  | some cash => .ok cash
  | none => .error (.validation "share value overflows")

theorem SCALE_lt : SCALE < 2 ^ 128 := by decide

theorem SCALE_pos : 0 < SCALE := by decide

theorem Usdt.scale_ok {amount numer denom scaled : Nat} (ha : amount < 2 ^ 128)
    (hn : numer < 2 ^ 128) (hd : denom < 2 ^ 128) (h : Usdt.scale amount numer denom = .ok scaled) :
    0 < denom ∧ scaled = amount * numer / denom ∧ scaled < 2 ^ 128 := by
  unfold Usdt.scale at h
  split at h
  case h_1 q hq => exact Except.ok.inj h ▸ mulDivFloor_some ha hn hd hq
  case h_2 => cases h

theorem Shares.fromCash_ok {cash nav units : Nat} (hc : cash < 2 ^ 128) (hn : nav < 2 ^ 128)
    (h : Shares.fromCash cash nav = .ok units) :
    0 < nav ∧ units = cash * SCALE / nav ∧ units < 2 ^ 128 := by
  unfold Shares.fromCash at h
  split at h
  case h_1 q hq => exact Except.ok.inj h ▸ mulDivFloor_some hc SCALE_lt hn hq
  case h_2 => cases h

theorem Nav.fromAum_ok {aum units nav : Nat} (ha : aum < 2 ^ 128) (hu : units < 2 ^ 128)
    (h : Nav.fromAum aum units = .ok nav) :
    0 < units ∧ nav = aum * SCALE / units ∧ nav < 2 ^ 128 := by
  unfold Nav.fromAum at h
  split at h
  case isTrue => cases h
  case isFalse hzero =>
    split at h
    case h_1 q hq => exact Except.ok.inj h ▸ mulDivFloor_some ha SCALE_lt hu hq
    case h_2 => cases h

theorem Nav.value_ok {nav units cash : Nat} (hn : nav < 2 ^ 128) (hu : units < 2 ^ 128)
    (h : Nav.value nav units = .ok cash) : cash = units * nav / SCALE ∧ cash < 2 ^ 128 := by
  unfold Nav.value at h
  split at h
  case h_1 q hq => exact Except.ok.inj h ▸ (mulDivFloor_some hu hn SCALE_lt hq).2
  case h_2 => cases h

/-- A value that is at most some amount of cash is one. -/
theorem Nav.value_fits {nav units bound : Nat} (hn : nav < 2 ^ 128) (hu : units < 2 ^ 128)
    (hbound : bound < 2 ^ 128) (hle : units * nav / SCALE ≤ bound) :
    Nav.value nav units = .ok (units * nav / SCALE) := by
  rw [Nav.value, mulDivFloor_fits hu hn SCALE_lt SCALE_pos hbound hle]

/-! ## Rounding stays in the pool -/

/-- A sum of floors is at most the floor of the sum. -/
theorem sum_div_le (xs : List Nat) (d : Nat) : (xs.map (· / d)).sum ≤ xs.sum / d := by
  induction xs with
  | nil => simp
  | cons x xs ih =>
    simp only [List.map_cons, List.sum_cons]
    exact (Nat.add_le_add_left ih _).trans Nat.div_add_div_le_add_div

/-- The floor of a sum is more than the sum of the floors by no more than one for each. -/
theorem div_le_sum_div (xs : List Nat) {d : Nat} (hd : 0 < d) :
    xs.sum / d ≤ (xs.map (· / d)).sum + xs.length := by
  induction xs with
  | nil => simp
  | cons x xs ih =>
    simp only [List.map_cons, List.sum_cons, List.length_cons]
    have hsplit : (x + xs.sum) / d ≤ x / d + xs.sum / d + 1 := by
      have hx := Nat.div_add_mod x d
      have hxs := Nat.div_add_mod xs.sum d
      have hxlt := Nat.mod_lt x hd
      have hxslt := Nat.mod_lt xs.sum hd
      refine Nat.le_of_lt_succ ((Nat.div_lt_iff_lt_mul hd).mpr ?_)
      have hsucc : (x / d + xs.sum / d + 1).succ * d = d * (x / d) + d * (xs.sum / d) + 2 * d := by
        rw [Nat.succ_eq_add_one]
        ring
      omega
    omega

/-- What a whole supply is worth at the price it gives the pool is at most the pool. -/
theorem supply_value_le (aum supply : Nat) : supply * (aum * SCALE / supply) / SCALE ≤ aum := by
  have hpool : supply * (aum * SCALE / supply) ≤ aum * SCALE := Nat.mul_div_le _ _
  exact (Nat.div_le_div_right hpool).trans_eq (Nat.mul_div_cancel _ SCALE_pos)

/-- **Rounding stays in the pool.** However a supply is held, the holdings' values at the price the
pool gives it add up to at most the pool. Units minted for cash are worth at most that cash at the
price they were minted at, and less by no more than the price of one base unit of them and one base
unit of cash. -/
theorem rounding_stays_in_pool :
    (∀ (aum supply nav : Nat) (holdings : List Nat), aum < 2 ^ 128 → supply < 2 ^ 128 →
      holdings.sum = supply → Nav.fromAum aum supply = .ok nav →
      ∃ values, holdings.mapM (Nav.value nav) = .ok values ∧ values.sum ≤ aum) ∧
    ∀ cash nav units : Nat, cash < 2 ^ 128 → nav < 2 ^ 128 → Shares.fromCash cash nav = .ok units →
      ∃ back, Nav.value nav units = .ok back ∧ back ≤ cash ∧
        (cash - back) * SCALE < nav + SCALE := by
  constructor
  · intro aum supply nav holdings haum hsupply hsum hnav
    obtain ⟨-, hnav, hfits⟩ := Nav.fromAum_ok haum hsupply hnav
    have hheld : ∀ units ∈ holdings, units ≤ supply := fun units h => hsum ▸ List.le_sum_of_mem h
    have hvalue : ∀ units ∈ holdings, Nav.value nav units = .ok (units * nav / SCALE) := by
      intro units h
      have hle : units * nav / SCALE ≤ supply * nav / SCALE :=
        Nat.div_le_div_right (Nat.mul_le_mul_right _ (hheld units h))
      have hpool : supply * nav / SCALE ≤ aum := hnav ▸ supply_value_le aum supply
      exact Nav.value_fits hfits ((hheld units h).trans_lt hsupply) haum (hle.trans hpool)
    refine ⟨holdings.map (· * nav / SCALE), ?_, ?_⟩
    · clear hsum hheld
      induction holdings with
      | nil => rfl
      | cons units holdings ih =>
        rw [List.mapM_cons, hvalue units List.mem_cons_self,
          ih fun u h => hvalue u (List.mem_cons_of_mem _ h)]
        rfl
    · have hsums : (holdings.map (· * nav / SCALE)).sum ≤ supply * nav / SCALE := by
        have := sum_div_le (holdings.map (· * nav)) SCALE
        rwa [List.map_map, List.sum_map_mul_right, List.map_id', hsum] at this
      exact hsums.trans (hnav ▸ supply_value_le aum supply)
  · intro cash nav units hcash hn hminted
    obtain ⟨hpos, hunits, hfits⟩ := Shares.fromCash_ok hcash hn hminted
    have hback : units * nav ≤ cash * SCALE := hunits ▸ Nat.div_mul_le_self _ _
    have hle : units * nav / SCALE ≤ cash :=
      (Nat.div_le_div_right hback).trans_eq (Nat.mul_div_cancel _ SCALE_pos)
    refine ⟨_, Nav.value_fits hn hfits hcash hle, hle, ?_⟩
    -- what the mint rounded away, and what the redemption did
    have hmint : cash * SCALE < units * nav + nav := by
      have := Nat.lt_div_mul_add hpos (a := cash * SCALE)
      rwa [← hunits] at this
    have hredeem : units * nav < units * nav / SCALE * SCALE + SCALE :=
      Nat.lt_div_mul_add SCALE_pos
    rw [Nat.sub_mul]
    omega

theorem rounding_stays_in_pool_sample :
    (∃ values, [1, 2, 4].mapM (Nav.value 1428571428571428571) = .ok values ∧ values.sum ≤ 10) ∧
    ∃ back, Nav.value (3 * SCALE) 33 = .ok back ∧ back ≤ 100 ∧
      (100 - back) * SCALE < 3 * SCALE + SCALE :=
  ⟨rounding_stays_in_pool.1 10 7 _ [1, 2, 4] (by decide) (by decide) rfl (by rfl),
    rounding_stays_in_pool.2 100 (3 * SCALE) 33 (by decide) (by decide) (by rfl)⟩

end Banking
