import Mathlib.Algebra.Field.Rat
import Mathlib.Tactic.FieldSimp
import Mathlib.Tactic.Ring
import Banking.Orders
import Banking.Scopes

/-! # Decimal text

Amounts as they cross the wire: `parseDecimal` reads a decimal text into base units, and
`toDecimalString` writes them. What is written is read back, and has no zero it could do without.
What is read is what the text says (`ReadsExactly`), unless its fraction is so long that the length
the parser compares has wrapped (`LongFraction`). -/

namespace Banking

/-! ## The parser -/

/-- The digits before the first point, and those after it. -/
def decimalParts (text : List Char) : List Char × List Char :=
  (Text.splitOnce '.' text).getD (text, [])

/-- A length as a 32-bit number. -/
def asU32 (length : Nat) : Nat := length % 2 ^ 32

/-- A fraction padded with zeros at its end. -/
def rightPadded (frac : List Char) : List Char :=
  frac ++ List.replicate (CANONICAL_DECIMALS - frac.length) '0'

/-- A decimal text in base units: digits, and no more than eighteen of them after a point. -/
def parseDecimal (raw : String) : Except DomainError Nat :=
  let trimmed := Text.trim raw.toList
  if trimmed = [] then .error (.validation "amount must not be empty")
  else
    let (intPart, fracPart) := decimalParts trimmed
    if intPart = [] ∧ fracPart = [] then .error (.validation "amount must have digits")
    else if CANONICAL_DECIMALS < asU32 (byteLen fracPart) then
      .error (.validation "amount has more than 18 decimal places")
    else if ¬ intPart.all Char.isDigit ∨ ¬ fracPart.all Char.isDigit then
      .error (.validation "amount must be a decimal number")
    else
      match Text.parseUnsigned (2 ^ 128) intPart with
      | none => .error (.validation "amount integer part too large")
      | some intUnits =>
        if 2 ^ 128 ≤ intUnits * 10 ^ CANONICAL_DECIMALS then
          .error (.validation "amount too large")
        else
          match if fracPart = [] then some 0
            else Text.parseUnsigned (2 ^ 128) (rightPadded fracPart) with
          | none => .error (.validation "invalid amount fraction")
          | some fracUnits =>
            checkedAdd (intUnits * 10 ^ CANONICAL_DECIMALS) fracUnits "amount too large"

/-! ## What a text says -/

/-- The number some digits and the digits after a point denote. -/
def decimalValue (int frac : List Char) : ℚ :=
  Nat.ofDigitChars 10 int 0 + Nat.ofDigitChars 10 frac 0 / 10 ^ frac.length

/-- **A text that says an amount**: digits, a point and at most eighteen more where it has one, that
denote so many units of `10 ^ -18`, which are a 128-bit number. -/
structure ReadsExactly (raw : String) (units : Nat) : Prop where
  parts : ∃ int frac : List Char, int ≠ [] ∧ int.all Char.isDigit ∧ frac.all Char.isDigit ∧
    (Text.trim raw.toList = int ∧ frac = [] ∨ Text.trim raw.toList = int ++ '.' :: frac) ∧
    frac.length ≤ CANONICAL_DECIMALS ∧ decimalValue int frac = units / 10 ^ CANONICAL_DECIMALS
  lt : units < 2 ^ 128

/-- **A fraction too long that is let through**: of more than eighteen digits, but of a length that
wraps to no more than that, while the digits before it and after it are read as numbers that fit. -/
def LongFraction (raw : String) : Prop :=
  let (int, frac) := decimalParts (Text.trim raw.toList)
  CANONICAL_DECIMALS < frac.length ∧ asU32 frac.length ≤ CANONICAL_DECIMALS ∧ int ≠ [] ∧
    int.all Char.isDigit ∧ frac.all Char.isDigit ∧
    Nat.ofDigitChars 10 int 0 * 10 ^ CANONICAL_DECIMALS + Nat.ofDigitChars 10 frac 0 < 2 ^ 128

/-! ## Digits -/

/-- A digit takes one byte. -/
theorem utf8Size_digit {c : Char} (h : c.isDigit = true) : c.utf8Size = 1 := by
  refine Char.utf8Size_eq_one_iff.mpr ?_
  simp only [Char.isDigit, Bool.and_eq_true, decide_eq_true_eq] at h
  exact UInt32.le_trans h.2 (by decide)

/-- Digits take as many bytes as they are. -/
theorem byteLen_digits {s : List Char} (h : s.all Char.isDigit = true) : byteLen s = s.length := by
  induction s with
  | nil => rfl
  | cons c s ih =>
    rw [List.all_cons, Bool.and_eq_true] at h
    have hs := ih h.2
    unfold byteLen at hs ⊢
    rw [List.map_cons, List.sum_cons, hs, utf8Size_digit h.1, List.length_cons, Nat.add_comm]

/-- Digits are read as their number, where it fits. -/
theorem parseUnsigned_digits {bound : Nat} {s : List Char} (hne : s ≠ [])
    (h : s.all Char.isDigit = true) : Text.parseUnsigned bound s =
      if Nat.ofDigitChars 10 s 0 < bound then some (Nat.ofDigitChars 10 s 0) else none := by
  cases s with
  | nil => exact absurd rfl hne
  | cons c s =>
    have hplus : c ≠ '+' := by
      rintro rfl
      rw [List.all_cons] at h
      exact absurd h (by simp [Char.isDigit])
    have hno : ¬ (c :: s = [] ∨ ¬ (c :: s).all Char.isDigit = true) := by simp [h]
    have hdigits : Text.parseUnsigned bound (c :: s) =
        if c :: s = [] ∨ ¬ (c :: s).all Char.isDigit then none
        else if Nat.ofDigitChars 10 (c :: s) 0 < bound then some (Nat.ofDigitChars 10 (c :: s) 0)
        else none := by
      rw [Text.parseUnsigned]
      rintro rest ⟨⟩
      exact hplus rfl
    rw [hdigits, if_neg hno]

/-- The padding takes a fraction to base units. -/
theorem ofDigitChars_rightPadded (frac : List Char) :
    Nat.ofDigitChars 10 (rightPadded frac) 0 =
      Nat.ofDigitChars 10 frac 0 * 10 ^ (CANONICAL_DECIMALS - frac.length) := by
  rw [rightPadded, Nat.ofDigitChars_append, Nat.ofDigitChars_replicate_zero, Nat.mul_comm]

theorem all_rightPadded {frac : List Char} (h : frac.all Char.isDigit = true) :
    (rightPadded frac).all Char.isDigit = true := by
  rw [rightPadded, List.all_append, h, Bool.true_and]
  refine List.all_eq_true.mpr fun c hc => ?_
  rw [(List.mem_replicate.mp hc).2]
  rfl

/-- **What the parser accepts, and as what**: digits before the point, a fraction whose length wraps
to no more than eighteen, and the sum of the two where it fits. -/
theorem parseDecimal_ok_iff {raw : String} {units : Nat} {int frac : List Char}
    (hparts : decimalParts (Text.trim raw.toList) = (int, frac)) :
    parseDecimal raw = .ok units ↔
      int ≠ [] ∧ int.all Char.isDigit ∧ frac.all Char.isDigit ∧
      asU32 frac.length ≤ CANONICAL_DECIMALS ∧
      units = Nat.ofDigitChars 10 int 0 * 10 ^ CANONICAL_DECIMALS +
        Nat.ofDigitChars 10 (rightPadded frac) 0 ∧ units < 2 ^ 128 := by
  unfold parseDecimal
  by_cases hempty : Text.trim raw.toList = []
  · -- nothing at all: no digits before the point either
    rw [if_pos hempty]
    have hint : int = [] := by
      rw [hempty] at hparts
      exact (congrArg Prod.fst hparts).symm
    simp [hint]
  rw [if_neg hempty, hparts]
  dsimp only
  by_cases hnone : int = [] ∧ frac = []
  · rw [if_pos hnone]
    simp [hnone.1]
  rw [if_neg hnone]
  by_cases hdigits : int.all Char.isDigit = true ∧ frac.all Char.isDigit = true
  swap
  · -- whatever the length, something is no digit
    have hor : ¬ int.all Char.isDigit = true ∨ ¬ frac.all Char.isDigit = true := by
      by_contra h
      exact hdigits (by simpa using h)
    rw [if_pos hor]
    have hnot : ¬ (int.all Char.isDigit = true ∧ frac.all Char.isDigit = true) := hdigits
    split_ifs <;> exact iff_of_false nofun fun h => hnot ⟨h.2.1, h.2.2.1⟩
  obtain ⟨hint, hfrac⟩ := hdigits
  rw [byteLen_digits hfrac]
  by_cases hlong : CANONICAL_DECIMALS < asU32 frac.length
  · rw [if_pos hlong]
    exact iff_of_false nofun fun h => by omega
  rw [if_neg hlong, if_neg (by simp [hint, hfrac])]
  by_cases hne : int = []
  · subst hne
    simp [Text.parseUnsigned]
  rw [parseUnsigned_digits hne hint]
  -- the fraction's reading, with and without a fraction
  have hread : (if frac = [] then some 0 else Text.parseUnsigned (2 ^ 128) (rightPadded frac)) =
      if Nat.ofDigitChars 10 (rightPadded frac) 0 < 2 ^ 128 then
        some (Nat.ofDigitChars 10 (rightPadded frac) 0) else none := by
    by_cases hf : frac = []
    · subst hf
      rfl
    · rw [if_neg hf, parseUnsigned_digits (by simp [rightPadded, hf]) (all_rightPadded hfrac)]
  rw [hread]
  generalize Nat.ofDigitChars 10 (rightPadded frac) 0 = fracUnits
  generalize Nat.ofDigitChars 10 int 0 = intUnits
  have hrest : asU32 frac.length ≤ CANONICAL_DECIMALS := Nat.not_lt.mp hlong
  simp only [ne_eq, hne, not_false_eq_true, hint, hfrac, hrest, true_and]
  have hscale : CANONICAL_DECIMALS = 18 := rfl
  rw [hscale]
  by_cases hintUnits : intUnits < 2 ^ 128
  swap
  · rw [if_neg hintUnits]
    exact iff_of_false nofun fun h => by omega
  rw [if_pos hintUnits]
  dsimp only
  by_cases hscaled : 2 ^ 128 ≤ intUnits * 10 ^ 18
  · rw [if_pos hscaled]
    exact iff_of_false nofun fun h => by omega
  rw [if_neg hscaled]
  by_cases hfracUnits : fracUnits < 2 ^ 128
  swap
  · rw [if_neg hfracUnits]
    exact iff_of_false nofun fun h => by omega
  rw [if_pos hfracUnits]
  dsimp only
  unfold checkedAdd
  by_cases hsum : intUnits * 10 ^ 18 + fracUnits < 2 ^ 128
  · rw [if_pos hsum]
    constructor
    · intro h
      rw [← Except.ok.inj h]
      exact ⟨rfl, hsum⟩
    · rintro ⟨rfl, -⟩
      rfl
  · rw [if_neg hsum]
    exact iff_of_false nofun fun h => by omega

/-! ## Splitting at the point -/

/-- Digits have no point. -/
theorem point_notMem_digits {s : List Char} (h : s.all Char.isDigit = true) : '.' ∉ s := by
  intro hmem
  have := List.all_eq_true.mp h _ hmem
  cases this

/-- A text with a point is split there. -/
theorem decimalParts_point {int : List Char} (hint : int.all Char.isDigit = true)
    (frac : List Char) : decimalParts (int ++ '.' :: frac) = (int, frac) := by
  rw [decimalParts, Text.splitOnce_join (point_notMem_digits hint)]
  rfl

/-- A text without one is all before it. -/
theorem decimalParts_digits {int : List Char} (hint : int.all Char.isDigit = true) :
    decimalParts int = (int, []) := by
  have hnone : int.dropWhile (· ≠ '.') = [] := by
    refine List.dropWhile_eq_nil_iff.mpr fun c hc => decide_eq_true fun hpoint => ?_
    exact point_notMem_digits hint (hpoint ▸ hc)
  rw [decimalParts, Text.splitOnce, hnone]
  rfl

/-- What a text was split into makes it up again. -/
theorem of_decimalParts {text int frac : List Char} (h : decimalParts text = (int, frac)) :
    text = int ∧ frac = [] ∨ text = int ++ '.' :: frac := by
  unfold decimalParts at h
  cases hsplit : Text.splitOnce '.' text with
  | none =>
    rw [hsplit] at h
    obtain ⟨rfl, rfl⟩ := Prod.mk.inj h
    exact .inl ⟨rfl, rfl⟩
  | some parts =>
    rw [hsplit] at h
    obtain rfl : parts = (int, frac) := h
    exact .inr (Text.splitOnce_eq_some hsplit)

/-! ## Writing -/

/-- A number has no leading zero. -/
theorem head_decimal {n : Nat} (hpos : 0 < n) : (Text.decimal n).head? ≠ some '0' := by
  unfold Text.decimal
  induction n using Nat.strongRecOn with
  | _ n ih =>
    by_cases hlt : n < 10
    · rw [Nat.toDigits_of_lt_base hlt]
      have hdigit : ∀ m < 10, 0 < m → [Nat.digitChar m].head? ≠ some '0' := by decide
      exact hdigit n hlt hpos
    · rw [Nat.toDigits_of_base_le (by decide) (by omega)]
      have hhead := ih (n / 10) (by omega) (by omega)
      rw [List.head?_append_of_ne_nil _ Nat.toDigits_ne_nil]
      exact hhead

/-- Zeros taken off the end of a list, and as many put back. -/
theorem dropZeros_append (l : List Char) :
    (l.reverse.dropWhile (· = '0')).reverse ++
      List.replicate (l.length - (l.reverse.dropWhile (· = '0')).length) '0' = l := by
  have hzeros : l.reverse.takeWhile (· = '0') =
      List.replicate (l.reverse.takeWhile (· = '0')).length '0' := by
    refine List.eq_replicate_iff.mpr ⟨rfl, fun c hc => ?_⟩
    simpa using List.mem_takeWhile_imp hc
  have hsplit := List.takeWhile_append_dropWhile (p := (· = '0')) (l := l.reverse)
  have hlen : (l.reverse.takeWhile (· = '0')).length =
      l.length - (l.reverse.dropWhile (· = '0')).length := by
    have := congrArg List.length hsplit
    rw [List.length_append, List.length_reverse] at this
    omega
  rw [← hlen, ← List.reverse_inj, List.reverse_append, List.reverse_reverse, List.reverse_replicate,
    ← hzeros]
  exact hsplit

/-- **A written fraction is read back**: padding it gives all its digits. -/
theorem rightPadded_fractionDigits {frac : Nat} (h : frac < 10 ^ CANONICAL_DECIMALS) :
    rightPadded (fractionDigits frac) = paddedDigits frac := by
  have hlen := length_paddedDigits h
  have hback := dropZeros_append (paddedDigits frac)
  rw [hlen, ← List.length_reverse] at hback
  exact hback

/-- A fraction ends in no zero. -/
theorem getLast_fractionDigits (frac : Nat) : (fractionDigits frac).getLast? ≠ some '0' := by
  rw [fractionDigits, List.getLast?_reverse]
  intro h
  have hne : (paddedDigits frac).reverse.dropWhile (· = '0') ≠ [] := by
    intro hnil
    rw [hnil] at h
    cases h
  have hstop := List.head_dropWhile_not (fun c => decide (c = '0')) hne
  rw [List.head?_eq_some_head hne] at h
  rw [Option.some.inj h] at hstop
  cases hstop

/-- **A text without a zero it could do without**: no leading zero but a single one before the
point, no zero at its end after it, and no point without a fraction. -/
structure Shortest (text : String) : Prop where
  parts : ∃ int frac : List Char,
    text.toList = int ++ (if frac = [] then [] else '.' :: frac) ∧
    int ≠ [] ∧ int.all Char.isDigit ∧ frac.all Char.isDigit ∧
    (int = ['0'] ∨ int.head? ≠ some '0') ∧ frac.getLast? ≠ some '0'

theorem all_decimal (n : Nat) : (Text.decimal n).all Char.isDigit = true :=
  List.all_eq_true.mpr fun _ => Text.decimal_isDigit

theorem all_fractionDigits (frac : Nat) : (fractionDigits frac).all Char.isDigit = true :=
  List.all_eq_true.mpr fun _ => isDigit_of_mem_fractionDigits

/-- A fraction that is not nothing has digits. -/
theorem fractionDigits_ne_nil {frac : Nat} (h : frac < 10 ^ CANONICAL_DECIMALS) (hne : frac ≠ 0) :
    fractionDigits frac ≠ [] := by
  intro hnil
  have hread := rightPadded_fractionDigits h
  rw [hnil] at hread
  have hzero := congrArg (Nat.ofDigitChars 10 · 0) hread
  rw [ofDigitChars_paddedDigits, ofDigitChars_rightPadded] at hzero
  exact hne (by simpa using hzero.symm)

/-- An amount is written the shortest way. -/
theorem shortest_toDecimalString (units : Nat) : Shortest (toDecimalString units) := by
  refine ⟨Text.decimal (units / 10 ^ CANONICAL_DECIMALS),
    if units % 10 ^ CANONICAL_DECIMALS = 0 then []
      else fractionDigits (units % 10 ^ CANONICAL_DECIMALS), ?_, Nat.toDigits_ne_nil,
    all_decimal _, ?_, ?_, ?_⟩
  · rw [toList_toDecimalString]
    have hlt : units % 10 ^ CANONICAL_DECIMALS < 10 ^ CANONICAL_DECIMALS :=
      Nat.mod_lt _ (by decide)
    by_cases hzero : units % 10 ^ CANONICAL_DECIMALS = 0
    · rw [if_pos hzero, if_pos hzero, if_pos rfl]
    · rw [if_neg hzero, if_neg hzero, if_neg (fractionDigits_ne_nil hlt hzero)]
  · split
    · rfl
    · exact all_fractionDigits _
  · by_cases hzero : units / 10 ^ CANONICAL_DECIMALS = 0
    · rw [hzero]
      exact .inl rfl
    · exact .inr (head_decimal (Nat.pos_of_ne_zero hzero))
  · split
    · nofun
    · exact getLast_fractionDigits _

/-- **What is written is read back.** -/
theorem parseDecimal_toDecimalString {units : Nat} (h : units < 2 ^ 128) :
    parseDecimal (toDecimalString units) = .ok units := by
  have hlt : units % 10 ^ CANONICAL_DECIMALS < 10 ^ CANONICAL_DECIMALS := Nat.mod_lt _ (by decide)
  have hint := all_decimal (units / 10 ^ CANONICAL_DECIMALS)
  have hfrac := all_fractionDigits (units % 10 ^ CANONICAL_DECIMALS)
  -- nothing of it is white space
  have htrim : Text.trim (toDecimalString units).toList = (toDecimalString units).toList := by
    refine Text.trim_eq_self fun c hc => ?_
    rw [toList_toDecimalString] at hc
    rcases List.mem_append.mp hc with hc | hc
    · exact Text.isWhitespace_of_isDigit (List.all_eq_true.mp hint c hc)
    · split at hc
      · cases hc
      · rcases List.mem_cons.mp hc with rfl | hc
        · rfl
        · exact Text.isWhitespace_of_isDigit (List.all_eq_true.mp hfrac c hc)
  have hsum := Nat.div_add_mod units (10 ^ CANONICAL_DECIMALS)
  have hwhole : Nat.ofDigitChars 10 (Text.decimal (units / 10 ^ CANONICAL_DECIMALS)) 0 =
      units / 10 ^ CANONICAL_DECIMALS := Nat.ofDigitChars_ten_toDigits
  by_cases hzero : units % 10 ^ CANONICAL_DECIMALS = 0
  · have hparts : decimalParts (Text.trim (toDecimalString units).toList) =
        (Text.decimal (units / 10 ^ CANONICAL_DECIMALS), []) := by
      rw [htrim, toList_toDecimalString, if_pos hzero, List.append_nil]
      exact decimalParts_digits hint
    refine (parseDecimal_ok_iff hparts).mpr
      ⟨Nat.toDigits_ne_nil, hint, rfl, Nat.zero_le _, ?_, h⟩
    rw [hwhole, ofDigitChars_rightPadded, Nat.mul_comm (units / _)]
    simpa [hzero] using hsum.symm
  · have hparts : decimalParts (Text.trim (toDecimalString units).toList) =
        (Text.decimal (units / 10 ^ CANONICAL_DECIMALS),
          fractionDigits (units % 10 ^ CANONICAL_DECIMALS)) := by
      rw [htrim, toList_toDecimalString, if_neg hzero]
      exact decimalParts_point hint _
    have hpadded := rightPadded_fractionDigits hlt
    have hshort : (fractionDigits (units % 10 ^ CANONICAL_DECIMALS)).length ≤
        CANONICAL_DECIMALS := by
      have := congrArg List.length hpadded
      rw [length_paddedDigits hlt, rightPadded, List.length_append] at this
      omega
    refine (parseDecimal_ok_iff hparts).mpr
      ⟨Nat.toDigits_ne_nil, hint, hfrac, (Nat.mod_le _ _).trans hshort, ?_, h⟩
    rw [hwhole, hpadded, ofDigitChars_paddedDigits, Nat.mul_comm (units / _)]
    exact hsum.symm

/-! ## Reading -/

/-- A whole number and a fraction of at most eighteen digits, in base units. -/
theorem decimalValue_eq {int frac : List Char} (hlen : frac.length ≤ CANONICAL_DECIMALS) :
    decimalValue int frac =
      ((Nat.ofDigitChars 10 int 0 * 10 ^ CANONICAL_DECIMALS +
        Nat.ofDigitChars 10 (rightPadded frac) 0 : Nat) : ℚ) / 10 ^ CANONICAL_DECIMALS := by
  rw [decimalValue, ofDigitChars_rightPadded]
  obtain ⟨k, hk⟩ := Nat.exists_eq_add_of_le hlen
  rw [show CANONICAL_DECIMALS - frac.length = k by omega, hk]
  push_cast
  rw [pow_add]
  field_simp

/-- A text of the parts it has says what it says in one way. -/
theorem decimalParts_of_text {text int frac : List Char} (hint : int.all Char.isDigit = true)
    (h : text = int ∧ frac = [] ∨ text = int ++ '.' :: frac) : decimalParts text = (int, frac) := by
  rcases h with ⟨rfl, rfl⟩ | rfl
  · exact decimalParts_digits hint
  · exact decimalParts_point hint frac

/-- A fraction too long that is let through is read, digit for digit, as base units. -/
theorem parseDecimal_long {raw : String} {int frac : List Char}
    (hparts : decimalParts (Text.trim raw.toList) = (int, frac)) (h : LongFraction raw) :
    parseDecimal raw = .ok (Nat.ofDigitChars 10 int 0 * 10 ^ CANONICAL_DECIMALS +
      Nat.ofDigitChars 10 frac 0) ∧ CANONICAL_DECIMALS < frac.length := by
  unfold LongFraction at h
  rw [hparts] at h
  obtain ⟨hlong, hwraps, hne, hint, hfrac, hlt⟩ := h
  have hpadded : rightPadded frac = frac := by
    rw [rightPadded, Nat.sub_eq_zero_of_le hlong.le, List.replicate_zero, List.append_nil]
  refine ⟨(parseDecimal_ok_iff hparts).mpr ⟨hne, hint, hfrac, hwraps, ?_, hlt⟩, hlong⟩
  rw [hpadded]

/-- **Decimal text is exact.** Every 128-bit amount is written the shortest way and read back as it
is; and whatever a text is read as, it says, if and only if its fraction is not so long that its
length wraps and lets it through. -/
theorem decimal_text_exact (raw : String) :
    (∀ units < 2 ^ 128, parseDecimal (toDecimalString units) = .ok units ∧
      Shortest (toDecimalString units)) ∧
    ((∀ units, parseDecimal raw = .ok units → ReadsExactly raw units) ↔ ¬ LongFraction raw) := by
  refine ⟨fun units h => ⟨parseDecimal_toDecimalString h, shortest_toDecimalString units⟩, ?_⟩
  obtain ⟨int, frac, hparts⟩ : ∃ int frac, decimalParts (Text.trim raw.toList) = (int, frac) :=
    ⟨_, _, rfl⟩
  constructor
  · intro hexact hlong
    obtain ⟨hread, hlen⟩ := parseDecimal_long hparts hlong
    obtain ⟨int', frac', -, hint', -, htext, hshort, -⟩ := (hexact _ hread).parts
    rw [decimalParts_of_text hint' htext] at hparts
    rw [(Prod.mk.inj hparts).2] at hshort
    omega
  · intro hlong units h
    obtain ⟨hne, hint, hfrac, hwraps, hunits, hlt⟩ := (parseDecimal_ok_iff hparts).mp h
    have hlen : frac.length ≤ CANONICAL_DECIMALS := by
      by_contra hmore
      refine hlong ?_
      unfold LongFraction
      rw [hparts]
      refine ⟨by omega, hwraps, hne, hint, hfrac, ?_⟩
      rw [ofDigitChars_rightPadded, Nat.sub_eq_zero_of_le (by omega), Nat.pow_zero,
        Nat.mul_one] at hunits
      exact hunits ▸ hlt
    refine ⟨⟨int, frac, hne, hint, hfrac, of_decimalParts hparts, hlen, ?_⟩, hlt⟩
    rw [decimalValue_eq hlen, hunits]

/-- A zero, a point, `n` zeros and a one. -/
def longText (n : Nat) : String := String.ofList ('0' :: '.' :: (List.replicate n '0' ++ ['1']))

/-- How such a text is split. -/
theorem longText_parts (n : Nat) : decimalParts (Text.trim (longText n).toList) =
    (['0'], List.replicate n '0' ++ ['1']) := by
  have htrim : Text.trim (longText n).toList = '0' :: '.' :: (List.replicate n '0' ++ ['1']) := by
    rw [longText, String.toList_ofList]
    refine Text.trim_eq_self fun c hc => ?_
    simp only [List.mem_cons, List.mem_append, List.mem_replicate, List.not_mem_nil, or_false] at hc
    rcases hc with rfl | rfl | ⟨-, rfl⟩ | rfl <;> rfl
  rw [htrim]
  exact decimalParts_point (show ['0'].all Char.isDigit = true from rfl) _

/-- **A length that wraps is let through**: a one after `2 ^ 32 - 1` zeros is read as one base unit,
while the text has more than eighteen decimals and says far less than that. -/
theorem decimal_text_wraps :
    parseDecimal (longText (2 ^ 32 - 1)) = .ok 1 ∧ ¬ ReadsExactly (longText (2 ^ 32 - 1)) 1 := by
  have hparts := longText_parts (2 ^ 32 - 1)
  have hread : Nat.ofDigitChars 10 (List.replicate (2 ^ 32 - 1) '0' ++ ['1']) 0 = 1 := by
    rw [Nat.ofDigitChars_append, Nat.ofDigitChars_replicate_zero, Nat.mul_zero]
    rfl
  have hlength : (List.replicate (2 ^ 32 - 1) '0' ++ ['1']).length = 2 ^ 32 := by
    rw [List.length_append, List.length_replicate, List.length_singleton]
    exact Nat.sub_add_cancel Nat.one_le_two_pow
  have hdigits : (List.replicate (2 ^ 32 - 1) '0' ++ ['1']).all Char.isDigit = true := by
    refine List.all_eq_true.mpr fun c hc => ?_
    rcases List.mem_append.mp hc with hc | hc
    · rw [(List.mem_replicate.mp hc).2]
      rfl
    · rw [List.mem_singleton.mp hc]
      rfl
  generalize List.replicate (2 ^ 32 - 1) '0' ++ ['1'] = frac at *
  constructor
  · refine (parseDecimal_ok_iff hparts).mpr ⟨by decide, rfl, hdigits, ?_, ?_, by decide⟩
    · rw [hlength]
      decide
    · rw [ofDigitChars_rightPadded, hread, hlength]
      rfl
  · rintro ⟨⟨int', frac', -, hint', -, htext, hshort, -⟩, -⟩
    rw [decimalParts_of_text hint' htext] at hparts
    rw [(Prod.mk.inj hparts).2, hlength] at hshort
    exact absurd hshort (by decide)

end Banking
