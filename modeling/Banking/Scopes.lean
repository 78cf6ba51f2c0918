import Mathlib.Data.List.TakeWhile
import Banking.Arrivals
import Banking.Invoice
import Banking.Payments
import Banking.Lib.Framing

/-! # Identifiers and texts of the scope plane

The shapes of a client's id, a scope's, an account's label and a caller's reference, and the plain
texts people are shown. None of them holds a control character, which is what lets them stand
between separators; numbers are written in decimal, each in one way. -/

namespace Banking

open Framing (Delimited)

/-! ## Shapes -/

/-- An ASCII lower-case letter. -/
def isAsciiLowercase (c : Char) : Bool := 'a' ≤ c && c ≤ 'z'

/-- A service client, by its id. -/
structure ClientId where
  id : String
deriving DecidableEq, Repr

/-- `[a-z][a-z0-9_-]{0,63}`. -/
def ClientId.Shaped (c : ClientId) : Prop :=
  c.id.utf8ByteSize ≤ 64 ∧ c.id.toList.head?.any isAsciiLowercase = true ∧
    c.id.toList.all (fun b => isAsciiLowercase b || b.isDigit || b = '_' || b = '-') = true

/-- `[a-z][a-z0-9_]{0,31}`. -/
def ScopeId.Shaped (s : ScopeId) : Prop :=
  s.id.utf8ByteSize ≤ 32 ∧ s.id.toList.head?.any isAsciiLowercase = true ∧
    s.id.toList.all (fun b => isAsciiLowercase b || b.isDigit || b = '_') = true

/-- `[a-z0-9_:.-]{1,64}`. -/
def ScopeAccountLabel.Shaped (l : ScopeAccountLabel) : Prop :=
  l.label ≠ "" ∧ l.label.utf8ByteSize ≤ 64 ∧
    l.label.toList.all (fun b => isAsciiLowercase b || b.isDigit || b = '_' || b = ':' || b = '.' ||
      b = '-') = true

instance (c : ClientId) : Decidable c.Shaped := inferInstanceAs (Decidable (_ ∧ _ ∧ _))

instance (s : ScopeId) : Decidable s.Shaped := inferInstanceAs (Decidable (_ ∧ _ ∧ _))

instance (l : ScopeAccountLabel) : Decidable l.Shaped := inferInstanceAs (Decidable (_ ∧ _ ∧ _))

/-! ## Plain texts -/

/-- A text without a control character. -/
def Plain (s : String) : Prop := s.toList.any isControl = false

instance (s : String) : Decidable (Plain s) := inferInstanceAs (Decidable (_ = _))

/-- The longest a text field of an approval may be, in bytes. -/
def APPROVAL_TEXT_MAX_BYTES : Nat := 200

/-- Whether a text is one an approval would carry: short, no control character, no link. -/
def isPlainText (value : String) : Bool :=
  value.utf8ByteSize ≤ APPROVAL_TEXT_MAX_BYTES && !value.toList.any isControl &&
    !containsUrl value.toList

/-- Invisible characters that change how the rest of a line renders. -/
def isFormat (c : Char) : Bool :=
  let n := c.toNat
  n = 0xAD || (0x600 ≤ n && n ≤ 0x605) || n = 0x61C || n = 0x6DD || n = 0x70F ||
    (0x890 ≤ n && n ≤ 0x891) || n = 0x8E2 || n = 0x180E || (0x200B ≤ n && n ≤ 0x200F) ||
    (0x202A ≤ n && n ≤ 0x202E) || (0x2060 ≤ n && n ≤ 0x2064) || (0x2066 ≤ n && n ≤ 0x206F) ||
    n = 0xFEFF || (0xFFF9 ≤ n && n ≤ 0xFFFB) || n = 0x110BD || n = 0x110CD ||
    (0x13430 ≤ n && n ≤ 0x1343F) || (0x1BCA0 ≤ n && n ≤ 0x1BCA3) || (0x1D173 ≤ n && n ≤ 0x1D17A) ||
    n = 0xE0001 || (0xE0020 ≤ n && n ≤ 0xE007F)

/-- The longest memo, in characters. -/
def MAX_MEMO_CHARS : Nat := 140

/-- A memo is short plain text without a link. -/
def validateMemo (memo : String) : Except DomainError Unit :=
  if MAX_MEMO_CHARS < memo.toList.length then
    .error (.validation "memo is longer than 140 characters")
  else if memo.toList.any fun c => isControl c || isFormat c then
    .error (.validation "memo must be plain text without control or format characters")
  else if containsUrl memo.toList then .error (.validation "memo must not carry a link")
  else .ok ()

theorem isPlainText_plain {s : String} (h : isPlainText s = true) : Plain s := by
  simp only [isPlainText, Bool.and_eq_true, Bool.not_eq_true'] at h
  exact h.1.2

theorem plain_append {s t : String} : Plain (s ++ t) ↔ Plain s ∧ Plain t := by
  simp [Plain, List.any_append]

/-- A plain text holds no line feed. -/
theorem Plain.newline_notMem {s : String} (h : Plain s) : '\n' ∉ s.toList := by
  intro hmem
  have := List.any_eq_false.mp h _ hmem
  exact this (by decide)

/-- Printable ASCII is no control character. -/
theorem isControl_of_range {c : Char} (hlo : 0x20 ≤ c.toNat) (hhi : c.toNat < 0x7F) :
    isControl c = false := by
  simp only [isControl, Bool.or_eq_false_iff, Bool.and_eq_false_iff, decide_eq_false_iff_not]
  omega

/-- A letter, a digit or one of the marks the identifiers use is no control character. -/
theorem isControl_of_shaped {c : Char}
    (h : (isAsciiLowercase c || c.isDigit || c = '_' || c = ':' || c = '.' || c = '-') = true) :
    isControl c = false := by
  simp only [Bool.or_eq_true, decide_eq_true_eq] at h
  rcases h with ((((h | h) | rfl) | rfl) | rfl) | rfl
  · simp only [isAsciiLowercase, Bool.and_eq_true, decide_eq_true_eq] at h
    have hlo : 97 ≤ c.toNat := h.1
    have hhi : c.toNat ≤ 122 := h.2
    exact isControl_of_range (by omega) (by omega)
  · simp only [Char.isDigit, Bool.and_eq_true, decide_eq_true_eq, ge_iff_le] at h
    have hlo : 48 ≤ c.toNat := h.1
    have hhi : c.toNat ≤ 57 := h.2
    exact isControl_of_range (by omega) (by omega)
  all_goals decide

/-- A text of such characters is plain. -/
theorem plain_of_all {s : String} {p : Char → Bool}
    (hp : ∀ c, p c = true →
      (isAsciiLowercase c || c.isDigit || c = '_' || c = ':' || c = '.' || c = '-') = true)
    (h : s.toList.all p = true) : Plain s := by
  refine List.any_eq_false.mpr fun c hc => ?_
  rw [isControl_of_shaped (hp c (List.all_eq_true.mp h c hc))]
  exact Bool.false_ne_true

theorem ClientId.Shaped.plain {c : ClientId} (h : c.Shaped) : Plain c.id :=
  plain_of_all (fun b hb => by simp only [Bool.or_eq_true] at hb ⊢; tauto) h.2.2

theorem ScopeId.Shaped.plain {s : ScopeId} (h : s.Shaped) : Plain s.id :=
  plain_of_all (fun b hb => by simp only [Bool.or_eq_true] at hb ⊢; tauto) h.2.2

theorem ScopeAccountLabel.Shaped.plain {l : ScopeAccountLabel} (h : l.Shaped) : Plain l.label :=
  plain_of_all (fun _ hb => hb) h.2.2

/-! ## Numbers -/

/-- The characters of a number. -/
theorem toList_toString_nat (n : Nat) : (toString n).toList = Text.decimal n := by
  rw [Nat.toString_eq_repr, Nat.repr_eq_ofList_toDigits, String.toList_ofList]
  rfl

theorem decimal_injective {n m : Nat} (h : Text.decimal n = Text.decimal m) : n = m := by
  have hread := congrArg (Nat.ofDigitChars 10 · 0) h
  simpa only [Text.decimal, Nat.ofDigitChars_ten_toDigits] using hread

/-- A number is written in one way. -/
theorem toString_nat_injective : Function.Injective (fun n : Nat => toString n) := by
  intro n m h
  have hlist := congrArg String.toList (show toString n = toString m from h)
  rw [toList_toString_nat, toList_toString_nat] at hlist
  exact decimal_injective hlist

theorem notMem_decimal {n : Nat} {c : Char} (hc : c.isDigit = false) : c ∉ Text.decimal n := by
  intro hmem
  rw [Text.decimal_isDigit hmem] at hc
  cases hc

/-- The decimals of an amount. -/
def CANONICAL_DECIMALS : Nat := 18

/-- The digits of a fraction, padded with zeros at their front. -/
def paddedDigits (frac : Nat) : List Char :=
  List.replicate (CANONICAL_DECIMALS - (Text.decimal frac).length) '0' ++ Text.decimal frac

/-- The digits after the point, without the zeros at their end. -/
def fractionDigits (frac : Nat) : List Char :=
  ((paddedDigits frac).reverse.dropWhile (· = '0')).reverse

theorem length_paddedDigits {frac : Nat} (h : frac < 10 ^ CANONICAL_DECIMALS) :
    (paddedDigits frac).length = CANONICAL_DECIMALS := by
  have hlen : (Text.decimal frac).length ≤ CANONICAL_DECIMALS :=
    (Nat.length_toDigits_le_iff (by decide) (by decide)).mpr h
  rw [paddedDigits, List.length_append, List.length_replicate]
  omega

/-- The padding adds nothing to the number read. -/
theorem ofDigitChars_paddedDigits (frac : Nat) :
    Nat.ofDigitChars 10 (paddedDigits frac) 0 = frac := by
  rw [paddedDigits, Nat.ofDigitChars_append, Nat.ofDigitChars_replicate_zero, Nat.mul_zero,
    Text.decimal, Nat.ofDigitChars_ten_toDigits]

/-- A padded fraction is of digits. -/
theorem isDigit_of_mem_fractionDigits {frac : Nat} {c : Char} (h : c ∈ fractionDigits frac) :
    c.isDigit = true := by
  have hmem := (List.dropWhile_sublist _).mem (List.mem_reverse.mp h)
  rcases List.mem_append.mp (List.mem_reverse.mp hmem) with hpad | hdigit
  · rw [(List.mem_replicate.mp hpad).2]
    rfl
  · exact Text.decimal_isDigit hdigit

/-- A list is what stays of it and the zeros taken off its end. -/
theorem eq_dropWhile_append {p : Char} {l m : List Char} (hlen : l.length = m.length)
    (h : (l.reverse.dropWhile (· = p)).reverse = (m.reverse.dropWhile (· = p)).reverse) :
    l = m := by
  have hzeros : ∀ l : List Char, l.reverse.takeWhile (· = p) =
      List.replicate (l.reverse.takeWhile (· = p)).length p := by
    intro l
    refine List.eq_replicate_iff.mpr ⟨rfl, fun c hc => ?_⟩
    simpa using List.mem_takeWhile_imp hc
  have hsplit : ∀ l : List Char, l.length =
      (l.reverse.takeWhile (· = p)).length + (l.reverse.dropWhile (· = p)).length := by
    intro l
    rw [← List.length_append, List.takeWhile_append_dropWhile, List.length_reverse]
  have hdrop := List.reverse_inj.mp h
  have htake : l.reverse.takeWhile (· = p) = m.reverse.takeWhile (· = p) := by
    have hl := hsplit l
    have hm := hsplit m
    rw [hdrop] at hl
    rw [hzeros l, hzeros m]
    congr 1
    omega
  have hrev : l.reverse = m.reverse := by
    rw [← List.takeWhile_append_dropWhile (l := l.reverse), htake, hdrop,
      List.takeWhile_append_dropWhile]
  exact List.reverse_inj.mp hrev

/-- The digits after the point tell the fraction. -/
theorem fractionDigits_injective {a b : Nat} (ha : a < 10 ^ CANONICAL_DECIMALS)
    (hb : b < 10 ^ CANONICAL_DECIMALS) (h : fractionDigits a = fractionDigits b) : a = b := by
  have hpadded : paddedDigits a = paddedDigits b :=
    eq_dropWhile_append (by rw [length_paddedDigits ha, length_paddedDigits hb]) h
  rw [← ofDigitChars_paddedDigits a, hpadded, ofDigitChars_paddedDigits]

theorem toDecimalString_eq (units : Nat) : toDecimalString units =
    if units % 10 ^ CANONICAL_DECIMALS = 0 then toString (units / 10 ^ CANONICAL_DECIMALS)
    else toString (units / 10 ^ CANONICAL_DECIMALS) ++ "." ++
      String.ofList (fractionDigits (units % 10 ^ CANONICAL_DECIMALS)) := rfl

/-- The characters of an amount: its whole units, and a point and digits where it has a fraction. -/
theorem toList_toDecimalString (units : Nat) :
    (toDecimalString units).toList = Text.decimal (units / 10 ^ CANONICAL_DECIMALS) ++
      if units % 10 ^ CANONICAL_DECIMALS = 0 then []
      else '.' :: fractionDigits (units % 10 ^ CANONICAL_DECIMALS) := by
  rw [toDecimalString_eq]
  split_ifs
  · rw [toList_toString_nat, List.append_nil]
  · rw [String.toList_append, String.toList_append, toList_toString_nat, List.append_assoc,
      String.toList_ofList (l := fractionDigits _)]
    rfl

/-- An amount is written in one way. -/
theorem toDecimalString_injective : Function.Injective toDecimalString := by
  intro u v h
  have hlist := congrArg String.toList h
  rw [toList_toDecimalString, toList_toDecimalString] at hlist
  have hpoint : ∀ n : Nat, '.' ∉ Text.decimal n := fun n => notMem_decimal rfl
  have hpos : 0 < 10 ^ CANONICAL_DECIMALS := by decide
  rw [← Nat.div_add_mod u (10 ^ CANONICAL_DECIMALS), ← Nat.div_add_mod v (10 ^ CANONICAL_DECIMALS)]
  by_cases hu : u % 10 ^ CANONICAL_DECIMALS = 0 <;> by_cases hv : v % 10 ^ CANONICAL_DECIMALS = 0
  · rw [if_pos hu, if_pos hv, List.append_nil, List.append_nil] at hlist
    rw [decimal_injective hlist, hu, hv]
  · -- only one of the two has a point
    rw [if_pos hu, if_neg hv, List.append_nil] at hlist
    exact absurd (hlist ▸ List.mem_append_right _ List.mem_cons_self) (hpoint _)
  · rw [if_neg hu, if_pos hv, List.append_nil] at hlist
    exact absurd (hlist ▸ List.mem_append_right _ List.mem_cons_self) (hpoint _)
  · rw [if_neg hu, if_neg hv] at hlist
    obtain ⟨hint, hfrac⟩ := Framing.delimited_terminated '.' _ _ (fractionDigits _)
      (fractionDigits _) (hpoint _) (hpoint _) (by simpa using hlist)
    rw [decimal_injective hint, fractionDigits_injective (Nat.mod_lt _ hpos) (Nat.mod_lt _ hpos)
      hfrac]

end Banking
