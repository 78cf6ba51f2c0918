import Mathlib.Data.List.Basic
import Mathlib.Tactic.Common

/-! # Splitting, trimming and reading text

Texts as lists of characters, with the few operations of a standard library a lenient reader of
references uses: trimming white space, splitting at the last separator, reading an unsigned number
of a fixed width. What is joined without surplus is read back as it was. -/

namespace Text

/-! ## Trimming -/

/-- Unicode white space. -/
def isWhitespace (c : Char) : Bool :=
  let n := c.toNat
  (9 ≤ n && n ≤ 13) || n = 0x20 || n = 0x85 || n = 0xA0 || n = 0x1680 ||
    (0x2000 ≤ n && n ≤ 0x200A) || n = 0x2028 || n = 0x2029 || n = 0x202F || n = 0x205F || n = 0x3000

/-- A text without the white space at its two ends. -/
def trim (s : List Char) : List Char :=
  ((s.dropWhile isWhitespace).reverse.dropWhile isWhitespace).reverse

theorem dropWhile_eq_self {p : Char → Bool} {s : List Char} (h : ∀ c ∈ s, p c = false) :
    s.dropWhile p = s := by
  cases s with
  | nil => rfl
  | cons c s => rw [List.dropWhile_cons_of_neg]; simp [h c List.mem_cons_self]

/-- A text with no white space is its own trimmed text. -/
theorem trim_eq_self {s : List Char} (h : ∀ c ∈ s, isWhitespace c = false) : trim s = s := by
  unfold trim
  rw [dropWhile_eq_self h, dropWhile_eq_self fun c hc => h c (List.mem_reverse.mp hc),
    List.reverse_reverse]

/-! ## Splitting at the last separator -/

/-- The parts before and after the last `sep`; none when there is none. -/
def rsplitOnce (sep : Char) (s : List Char) : Option (List Char × List Char) :=
  match s.reverse.dropWhile (· ≠ sep) with
  | [] => none
  | _ :: front => some (front.reverse, (s.reverse.takeWhile (· ≠ sep)).reverse)

/-- A text joined with a separator-free tail splits into what was joined. -/
theorem rsplitOnce_join {sep : Char} (a : List Char) {b : List Char} (hb : sep ∉ b) :
    rsplitOnce sep (a ++ sep :: b) = some (a, b) := by
  have hne : ∀ c ∈ b.reverse, (decide (c ≠ sep)) = true := by
    intro c hc
    have hmem := List.mem_reverse.mp hc
    exact decide_eq_true fun he => hb (he ▸ hmem)
  have hrev : (a ++ sep :: b).reverse = b.reverse ++ sep :: a.reverse := by simp
  unfold rsplitOnce
  rw [hrev, List.dropWhile_append_of_pos hne, List.takeWhile_append_of_pos hne,
    List.dropWhile_cons_of_neg (by simp), List.takeWhile_cons_of_neg (by simp)]
  simp

/-! ## Splitting at the first separator -/

/-- The parts before and after the first `sep`; none when there is none. -/
def splitOnce (sep : Char) (s : List Char) : Option (List Char × List Char) :=
  match s.dropWhile (· ≠ sep) with
  | [] => none
  | _ :: back => some (s.takeWhile (· ≠ sep), back)

/-- A text joined to a separator-free head splits into what was joined. -/
theorem splitOnce_join {sep : Char} {a : List Char} (ha : sep ∉ a) (b : List Char) :
    splitOnce sep (a ++ sep :: b) = some (a, b) := by
  have hne : ∀ c ∈ a, (decide (c ≠ sep)) = true := fun c hc =>
    decide_eq_true fun he => ha (he ▸ hc)
  unfold splitOnce
  rw [List.dropWhile_append_of_pos hne, List.takeWhile_append_of_pos hne,
    List.dropWhile_cons_of_neg (by simp), List.takeWhile_cons_of_neg (by simp)]
  simp

/-- What a text was split into makes it up again. -/
theorem splitOnce_eq_some {sep : Char} {s a b : List Char} (h : splitOnce sep s = some (a, b)) :
    s = a ++ sep :: b := by
  unfold splitOnce at h
  have hcut := List.takeWhile_append_dropWhile (p := fun c => decide (c ≠ sep)) (l := s)
  split at h
  case h_1 => cases h
  case h_2 c back hback =>
    obtain ⟨rfl, rfl⟩ := Prod.mk.inj (Option.some.inj h)
    have hsep : c = sep := by
      have hne : s.dropWhile (fun c => decide (c ≠ sep)) ≠ [] := by rw [hback]; simp
      have hstop := List.head_dropWhile_not (fun c => decide (c ≠ sep)) hne
      have hhead : (s.dropWhile fun c => decide (c ≠ sep)).head hne = c := by simp only [hback]; rfl
      rw [hhead] at hstop
      simpa using hstop
    rw [hback, hsep] at hcut
    exact hcut.symm

/-! ## Reading numbers -/

/-- An unsigned number below `bound`: decimal digits, at least one, after an optional plus sign. -/
def parseUnsigned (bound : Nat) (s : List Char) : Option Nat :=
  let digits := match s with
    | '+' :: rest => rest
    | _ => s
  if digits = [] ∨ ¬ digits.all Char.isDigit then none
  else
    let n := Nat.ofDigitChars 10 digits 0
    if n < bound then some n else none

/-- The decimal digits of a number. -/
def decimal (n : Nat) : List Char := Nat.toDigits 10 n

theorem decimal_isDigit {n : Nat} {c : Char} (h : c ∈ decimal n) : c.isDigit = true :=
  Nat.isDigit_of_mem_toDigits (by decide) (by decide) h

/-- A number is read back from its digits. -/
theorem parseUnsigned_decimal {bound n : Nat} (h : n < bound) :
    parseUnsigned bound (decimal n) = some n := by
  have hne : decimal n ≠ [] := Nat.toDigits_ne_nil
  have hall : (decimal n).all Char.isDigit = true :=
    List.all_eq_true.mpr fun c hc => decimal_isDigit hc
  have hplus : (match decimal n with
      | '+' :: rest => rest
      | _ => decimal n) = decimal n := by
    split
    · next rest heq =>
      have hdigit := decimal_isDigit (n := n) (c := '+') (by rw [heq]; exact List.mem_cons_self)
      cases hdigit
    · rfl
  unfold parseUnsigned
  simp only [hplus, hne, hall, not_true, or_self, if_false]
  unfold decimal
  rw [Nat.ofDigitChars_ten_toDigits, if_pos h]

/-- A digit is no white space. -/
theorem isWhitespace_of_isDigit {c : Char} (h : c.isDigit = true) : isWhitespace c = false := by
  simp only [Char.isDigit, Bool.and_eq_true, decide_eq_true_eq, ge_iff_le] at h
  have hlo : 48 ≤ c.toNat := h.1
  have hhi : c.toNat ≤ 57 := h.2
  simp only [isWhitespace, Bool.or_eq_false_iff, Bool.and_eq_false_iff, decide_eq_false_iff_not]
  omega

end Text
