import Mathlib.Data.List.TakeWhile
import Mathlib.Data.Nat.Digits.Lemmas

/-! # Numerals with leading zeros, from one base to another

A big-endian numeral is turned to another base as programs do by hand: a buffer of digits, least
significant first, is multiplied by the old base and takes in each further digit in one pass that
carries (`pass`), and the leading zeros are kept one for one. What the passes leave in the buffer is
`Nat.digits` of the number read (`foldl_pass`), and turning a numeral back gives the numeral again,
whatever its length and its leading zeros (`recode_recode`). -/

namespace Radix

/-- One pass over a buffer: every digit is multiplied and takes in the carry, and what is carried
out is split into digits of its own. -/
def pass (base mul : ℕ) : List ℕ → ℕ → List ℕ
  | [], carry => Nat.digits base carry
  | d :: ds, carry => (carry + d * mul) % base :: pass base mul ds ((carry + d * mul) / base)

/-- The number a big-endian numeral stands for. -/
def value (base : ℕ) (numeral : List ℕ) : ℕ := numeral.foldl (fun n d => n * base + d) 0

/-- How many zeros a numeral begins with. -/
def zeros (numeral : List ℕ) : ℕ := (numeral.takeWhile (· = 0)).length

/-- A numeral of base `a` in base `b`: a zero for each leading zero, and the digits of its value. -/
def recode (a b : ℕ) (numeral : List ℕ) : List ℕ :=
  List.replicate (zeros numeral) 0 ++ (Nat.digits b (value a numeral)).reverse

variable {a b : ℕ}

/-! ## The passes -/

/-- **A pass** over the digits of a number leaves those of the number multiplied, with the carry
added. -/
theorem pass_digits (hb : 1 < b) {mul : ℕ} (hmul : 0 < mul) (n carry : ℕ) :
    pass b mul (Nat.digits b n) carry = Nat.digits b (n * mul + carry) := by
  induction n using Nat.strongRecOn generalizing carry with
  | _ n ih =>
    rcases Nat.eq_zero_or_pos n with rfl | hn
    · rw [Nat.digits_zero, Nat.zero_mul, Nat.zero_add]
      rfl
    have hsplit : n * mul + carry = carry + n % b * mul + b * (n / b * mul) := by
      calc n * mul + carry = (n % b + b * (n / b)) * mul + carry := by rw [Nat.mod_add_div]
        _ = carry + n % b * mul + b * (n / b * mul) := by ring
    have hpos : 0 < n * mul + carry := Nat.add_pos_left (Nat.mul_pos hn hmul) carry
    rw [Nat.digits_def' hb hn, Nat.digits_def' hb hpos, hsplit, Nat.add_mul_mod_self_left,
      Nat.add_mul_div_left _ _ (Nat.zero_lt_of_lt hb), Nat.add_comm (_ / b)]
    exact congrArg _ (ih _ (Nat.div_lt_self hn hb) _)

/-- Passes over the digits of a number, one for each digit of a numeral. -/
theorem foldl_pass_from (hb : 1 < b) (ha : 0 < a) (numeral : List ℕ) (n : ℕ) :
    numeral.foldl (pass b a) (Nat.digits b n) =
      Nat.digits b (numeral.foldl (fun n d => n * a + d) n) := by
  induction numeral generalizing n with
  | nil => rfl
  | cons d ds ih => rw [List.foldl_cons, List.foldl_cons, pass_digits hb ha, ih]

/-- **The passes** leave the digits of the number read. -/
theorem foldl_pass (hb : 1 < b) (ha : 0 < a) (numeral : List ℕ) :
    numeral.foldl (pass b a) [] = Nat.digits b (value a numeral) := by
  rw [← Nat.digits_zero b, foldl_pass_from hb ha]
  rfl

/-! ## Values -/

/-- The number of a numeral is that of its digits, least significant first. -/
theorem value_eq_ofDigits (base : ℕ) (numeral : List ℕ) :
    value base numeral = Nat.ofDigits base numeral.reverse := by
  unfold value
  induction numeral using List.reverseRecOn with
  | nil => rfl
  | append_singleton ds d ih =>
    rw [List.foldl_append, ih, List.reverse_append, List.reverse_singleton, List.singleton_append,
      Nat.ofDigits_cons]
    simp only [List.foldl_cons, List.foldl_nil]
    ring

/-- Leading zeros add nothing. -/
theorem value_replicate_append (base k : ℕ) (numeral : List ℕ) :
    value base (List.replicate k 0 ++ numeral) = value base numeral := by
  induction k with
  | zero => rfl
  | succ k ih =>
    rw [List.replicate_succ, List.cons_append, ← ih]
    simp only [value, List.foldl_cons, Nat.zero_mul, Nat.add_zero]

/-- A numeral of no leading zero is made of the digits of its value. -/
theorem digits_value (ha : 1 < a) {numeral : List ℕ} (hlt : ∀ d ∈ numeral, d < a)
    (hhead : ∀ d, numeral.head? = some d → d ≠ 0) :
    (Nat.digits a (value a numeral)).reverse = numeral := by
  rw [value_eq_ofDigits, Nat.digits_ofDigits a ha, List.reverse_reverse]
  · exact fun d hd => hlt d (List.mem_reverse.mp hd)
  · intro hne
    refine hhead _ ?_
    rw [List.getLast_reverse]
    exact List.head?_eq_some_head (fun hnil => hne (by rw [hnil]; rfl))

/-! ## Leading zeros -/

/-- A numeral after its leading zeros begins with none. -/
theorem head?_dropWhile_zero (numeral : List ℕ) {d : ℕ}
    (h : (numeral.dropWhile (· = 0)).head? = some d) : d ≠ 0 := by
  have hnot := List.head?_dropWhile_not (fun d => decide (d = 0)) numeral
  rw [h] at hnot
  simpa using hnot

/-- A numeral is its leading zeros, and the digits of its value. -/
theorem zeros_append_digits (ha : 1 < a) {numeral : List ℕ} (hlt : ∀ d ∈ numeral, d < a) :
    List.replicate (zeros numeral) 0 ++ (Nat.digits a (value a numeral)).reverse = numeral := by
  have hzeros : numeral.takeWhile (· = 0) = List.replicate (zeros numeral) 0 :=
    List.eq_replicate_iff.mpr ⟨rfl, fun d hd => by simpa using List.mem_takeWhile_imp hd⟩
  have hcut : List.replicate (zeros numeral) 0 ++ numeral.dropWhile (· = 0) = numeral := by
    rw [← hzeros, List.takeWhile_append_dropWhile]
  have hvalue : value a numeral = value a (numeral.dropWhile (· = 0)) := by
    rw [← value_replicate_append a (zeros numeral) (numeral.dropWhile _), hcut]
  rw [hvalue, digits_value ha (fun d hd => hlt d (List.dropWhile_subset _ hd))
    fun d hd => head?_dropWhile_zero numeral hd, hcut]

/-- The digits of a number begin, read from the most significant on, with no zero. -/
theorem zeros_digits_reverse (b n : ℕ) : zeros (Nat.digits b n).reverse = 0 := by
  unfold zeros
  rcases Nat.eq_zero_or_pos n with rfl | hn
  · rw [Nat.digits_zero]
    rfl
  have hne : Nat.digits b n ≠ [] := Nat.digits_ne_nil_iff_ne_zero.mpr hn.ne'
  have hlast := Nat.getLast_digit_ne_zero b hn.ne'
  have hcons := List.dropLast_append_getLast hne
  rw [← hcons, List.reverse_append, List.reverse_singleton, List.singleton_append,
    List.takeWhile_cons_of_neg (by simpa using hlast)]
  rfl

/-- Zeros put before a numeral are more leading zeros. -/
theorem zeros_replicate_append (k : ℕ) (numeral : List ℕ) :
    zeros (List.replicate k 0 ++ numeral) = k + zeros numeral := by
  unfold zeros
  rw [List.takeWhile_append_of_pos fun d hd => by simpa using List.eq_of_mem_replicate hd,
    List.length_append, List.length_replicate]

/-! ## Turning a numeral back -/

/-- A numeral keeps its leading zeros. -/
theorem zeros_recode (a b : ℕ) (numeral : List ℕ) : zeros (recode a b numeral) = zeros numeral := by
  rw [recode, zeros_replicate_append, zeros_digits_reverse, Nat.add_zero]

/-- And its value. -/
theorem value_recode (numeral : List ℕ) : value b (recode a b numeral) = value a numeral := by
  rw [recode, value_replicate_append, value_eq_ofDigits, List.reverse_reverse, Nat.ofDigits_digits]

/-- Its digits are those of the new base. -/
theorem lt_of_mem_recode (hb : 1 < b) {numeral : List ℕ} {d : ℕ} (h : d ∈ recode a b numeral) :
    d < b := by
  rcases List.mem_append.mp h with hzero | hdigit
  · rw [List.eq_of_mem_replicate hzero]
    exact Nat.zero_lt_of_lt hb
  · exact Nat.digits_lt_base hb (List.mem_reverse.mp hdigit)

/-- **Turning a numeral to another base and back** gives the numeral again. -/
theorem recode_recode (ha : 1 < a) {numeral : List ℕ} (hlt : ∀ d ∈ numeral, d < a) :
    recode b a (recode a b numeral) = numeral := by
  have hback := zeros_append_digits ha hlt
  rw [recode, zeros_recode, value_recode]
  exact hback

end Radix
