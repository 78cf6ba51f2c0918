import Mathlib.Algebra.Order.Ring.Nat
import Mathlib.Data.List.Basic
import Mathlib.Tactic.Common

/-! # Self-delimiting encodings

An encoding is **delimited** when it can be split off the front of any longer sequence: fixed-width
numbers, texts behind their length, texts before a separator they do not contain. Delimited parts
written one after another are read back part by part, so a record of them is told apart from any
other record (`Delimited.injective`), and so is a list of them, written on end
(`Delimited.flatMap`) or joined (`Delimited.joined`). -/

namespace Framing

variable {α β γ : Type}

/-! ## Delimited encodings -/

/-- On the values satisfying `P`, `enc` can be split off the front of any longer sequence. -/
def Delimited (P : α → Prop) (enc : α → List β) : Prop :=
  ∀ a a' s s', P a → P a' → enc a ++ s = enc a' ++ s' → a = a' ∧ s = s'

section Delimited

variable {P : α → Prop} {enc : α → List β}

/-- A delimited encoding tells its values apart. -/
theorem Delimited.injective (h : Delimited P enc) {a a' : α} (ha : P a) (ha' : P a')
    (he : enc a = enc a') : a = a' :=
  (h a a' [] [] ha ha' (by rw [he])).1

/-- An encoding of one width is delimited when it tells its values apart. -/
theorem Delimited.of_width {w : Nat} (hw : ∀ a, P a → (enc a).length = w)
    (hinj : ∀ a a', P a → P a' → enc a = enc a' → a = a') : Delimited P enc := by
  intro a a' s s' ha ha' he
  obtain ⟨henc, hs⟩ := List.append_inj he (by rw [hw a ha, hw a' ha'])
  exact ⟨hinj a a' ha ha' henc, hs⟩

/-- Values rendered first by something that tells them apart. -/
theorem Delimited.comp (h : Delimited P enc) {Q : γ → Prop} {f : γ → α} (hf : ∀ c, Q c → P (f c))
    (hinj : ∀ c c', Q c → Q c' → f c = f c' → c = c') : Delimited Q fun c => enc (f c) := by
  intro c c' s s' hc hc' he
  obtain ⟨hfc, hs⟩ := h _ _ s s' (hf c hc) (hf c' hc') he
  exact ⟨hinj c c' hc hc' hfc, hs⟩

/-- Two delimited encodings, one after the other. -/
theorem Delimited.append (h : Delimited P enc) {Q : γ → Prop} {enc' : γ → List β}
    (h' : Delimited Q enc') :
    Delimited (fun p : α × γ => P p.1 ∧ Q p.2) fun p => enc p.1 ++ enc' p.2 := by
  rintro ⟨a, c⟩ ⟨a', c'⟩ s s' ⟨ha, hc⟩ ⟨ha', hc'⟩ he
  simp only [List.append_assoc] at he
  obtain ⟨rfl, hrest⟩ := h a a' _ _ ha ha' he
  obtain ⟨rfl, hs⟩ := h' c c' _ _ hc hc' hrest
  exact ⟨rfl, hs⟩

/-- A list of delimited items, each of them something, is told apart from any other. -/
theorem Delimited.flatMap (h : Delimited P enc) (hne : ∀ a, P a → enc a ≠ []) {xs ys : List α}
    (hxs : ∀ x ∈ xs, P x) (hys : ∀ y ∈ ys, P y) (he : xs.flatMap enc = ys.flatMap enc) :
    xs = ys := by
  induction xs generalizing ys with
  | nil =>
    cases ys with
    | nil => rfl
    | cons y ys =>
      simp only [List.flatMap_nil, List.flatMap_cons] at he
      exact absurd (List.append_eq_nil_iff.mp he.symm).1 (hne y (hys y List.mem_cons_self))
  | cons x xs ih =>
    cases ys with
    | nil =>
      simp only [List.flatMap_nil, List.flatMap_cons] at he
      exact absurd (List.append_eq_nil_iff.mp he).1 (hne x (hxs x List.mem_cons_self))
    | cons y ys =>
      simp only [List.flatMap_cons] at he
      obtain ⟨rfl, hrest⟩ := h x y _ _ (hxs x List.mem_cons_self) (hys y List.mem_cons_self) he
      rw [ih (fun z hz => hxs z (List.mem_cons_of_mem _ hz))
        (fun z hz => hys z (List.mem_cons_of_mem _ hz)) hrest]

/-- A list of delimited items joined by a separator, each of them something, is told apart from any
other, whatever the items hold. -/
theorem Delimited.joined {sep : β} (h : Delimited P enc) (hne : ∀ a, P a → enc a ≠ [])
    {xs ys : List α} (hxs : ∀ x ∈ xs, P x) (hys : ∀ y ∈ ys, P y)
    (he : List.intercalate [sep] (xs.map enc) = List.intercalate [sep] (ys.map enc)) : xs = ys := by
  -- a list that is not empty joins to its first item and what follows it
  have hcons : ∀ (x : α) (xs : List α), List.intercalate [sep] ((x :: xs).map enc) =
      enc x ++ xs.flatMap fun y => sep :: enc y := by
    intro x xs
    induction xs generalizing x with
    | nil => simp
    | cons y xs ih =>
      rw [List.map_cons, List.map_cons, List.intercalate_cons_cons, ← List.map_cons, ih]
      simp
  cases xs with
  | nil =>
    cases ys with
    | nil => rfl
    | cons y ys =>
      rw [hcons] at he
      exact absurd (List.append_eq_nil_iff.mp he.symm).1 (hne y (hys y List.mem_cons_self))
  | cons x xs =>
    cases ys with
    | nil =>
      rw [hcons] at he
      exact absurd (List.append_eq_nil_iff.mp he).1 (hne x (hxs x List.mem_cons_self))
    | cons y ys =>
      rw [hcons, hcons] at he
      obtain ⟨rfl, hrest⟩ := h x y _ _ (hxs x List.mem_cons_self) (hys y List.mem_cons_self) he
      have hsep : Delimited P fun a => sep :: enc a := by
        intro a a' s s' ha ha' hs
        simp only [List.cons_append, List.cons.injEq, true_and] at hs
        exact h a a' s s' ha ha' hs
      rw [hsep.flatMap (fun a _ => List.cons_ne_nil _ _)
        (fun z hz => hxs z (List.mem_cons_of_mem _ hz))
        (fun z hz => hys z (List.mem_cons_of_mem _ hz)) hrest]

end Delimited

/-! ## Numbers of a fixed width -/

/-- A number below `b ^ w` is its `w` digits in base `b`. -/
theorem eq_of_digits {b w : Nat} {n n' : Nat} (hn : n < b ^ w) (hn' : n' < b ^ w)
    (h : ∀ i < w, n / b ^ i % b = n' / b ^ i % b) : n = n' := by
  induction w generalizing n n' with
  | zero => simp only [Nat.pow_zero, Nat.lt_one_iff] at hn hn'; rw [hn, hn']
  | succ w ih =>
    have hlow : n % b = n' % b := by simpa using h 0 (Nat.succ_pos w)
    have hhigh : n / b = n' / b := by
      refine ih ?_ ?_ fun i hi => ?_
      · exact Nat.div_lt_of_lt_mul (by rwa [Nat.pow_succ, Nat.mul_comm] at hn)
      · exact Nat.div_lt_of_lt_mul (by rwa [Nat.pow_succ, Nat.mul_comm] at hn')
      · have := h (i + 1) (Nat.succ_lt_succ hi)
        rwa [Nat.pow_succ, Nat.mul_comm, ← Nat.div_div_eq_div_mul, ← Nat.div_div_eq_div_mul] at this
    rw [← Nat.div_add_mod n b, ← Nat.div_add_mod n' b, hlow, hhigh]

/-- The digits of a number in base `b`, most significant first, each written by `digit`. -/
def digits (digit : Nat → β) (b w n : Nat) : List β :=
  (List.range w).reverse.map fun i => digit (n / b ^ i % b)

@[simp] theorem length_digits (digit : Nat → β) (b w n : Nat) :
    (digits digit b w n).length = w := by
  simp [digits]

/-- Numbers of one width are delimited. -/
theorem delimited_digits {digit : Nat → β} {b : Nat} (hb : 0 < b)
    (hdigit : ∀ i < b, ∀ j < b, digit i = digit j → i = j) (w : Nat) :
    Delimited (fun n => n < b ^ w) (digits digit b w) := by
  refine .of_width (w := w) (fun n _ => length_digits digit b w n) fun n n' hn hn' he => ?_
  refine eq_of_digits hn hn' fun i hi => ?_
  have hmem : i ∈ (List.range w).reverse := List.mem_reverse.mpr (List.mem_range.mpr hi)
  exact hdigit _ (Nat.mod_lt _ hb) _ (Nat.mod_lt _ hb) (List.map_inj_left.mp he i hmem)

/-- The `w` bytes of a number, big-endian. -/
def beBytes (w n : Nat) : List UInt8 := digits UInt8.ofNat 256 w n

@[simp] theorem length_beBytes (w n : Nat) : (beBytes w n).length = w := length_digits _ _ _ _

/-- Big-endian numbers of one width are delimited. -/
theorem delimited_beBytes (w : Nat) : Delimited (fun n => n < 256 ^ w) (beBytes w) := by
  refine delimited_digits (by decide) (fun i hi j hj h => ?_) w
  have := congrArg UInt8.toNat h
  rwa [UInt8.toNat_ofNat', UInt8.toNat_ofNat', Nat.mod_eq_of_lt hi, Nat.mod_eq_of_lt hj] at this

/-! ## Texts behind their length -/

/-- Bytes behind their number, in `w` bytes. -/
def prefixed (w : Nat) (bytes : List UInt8) : List UInt8 := beBytes w bytes.length ++ bytes

/-- Bytes behind their length are delimited. -/
theorem delimited_prefixed (w : Nat) :
    Delimited (fun bytes : List UInt8 => bytes.length < 256 ^ w) (prefixed w) := by
  intro a a' s s' ha ha' he
  unfold prefixed at he
  simp only [List.append_assoc] at he
  obtain ⟨hlen, he⟩ := delimited_beBytes w _ _ _ _ ha ha' he
  exact List.append_inj he hlen

/-! ## Texts before a separator -/

/-- A text that does not contain `sep`, and a `sep` after it. -/
theorem delimited_terminated (sep : β) :
    Delimited (fun s : List β => sep ∉ s) fun s => s ++ [sep] := by
  intro a a' s s' ha ha' he
  induction a generalizing a' with
  | nil =>
    cases a' with
    | nil => exact ⟨rfl, by simpa using he⟩
    | cons x a' =>
      simp only [List.nil_append, List.cons_append, List.cons.injEq] at he
      exact absurd (he.1 ▸ List.mem_cons_self) ha'
  | cons x a ih =>
    cases a' with
    | nil =>
      simp only [List.nil_append, List.cons_append, List.cons.injEq] at he
      exact absurd (he.1 ▸ List.mem_cons_self) ha
    | cons x' a' =>
      simp only [List.cons_append, List.cons.injEq] at he
      obtain ⟨rfl, hrest⟩ := he
      obtain ⟨rfl, hs⟩ := ih a' (fun h => ha (List.mem_cons_of_mem _ h))
        (fun h => ha' (List.mem_cons_of_mem _ h)) hrest
      exact ⟨rfl, hs⟩

/-- Groups joined by a separator, and the separator once more: each group ended by it. -/
theorem intercalate_append_sep {sep : β} {groups : List (List β)} (h : groups ≠ []) :
    List.intercalate [sep] groups ++ [sep] = groups.flatMap (· ++ [sep]) := by
  induction groups with
  | nil => exact absurd rfl h
  | cons g groups ih =>
    cases groups with
    | nil => simp
    | cons g' groups =>
      rw [List.intercalate_cons_cons, List.append_assoc, ih (List.cons_ne_nil _ _)]
      simp

/-- Groups joined by a separator none of them contains are told apart, where there are any. -/
theorem intercalate_injective {sep : β} {xs ys : List (List β)} (hxs : xs ≠ []) (hys : ys ≠ [])
    (hx : ∀ g ∈ xs, sep ∉ g) (hy : ∀ g ∈ ys, sep ∉ g)
    (h : List.intercalate [sep] xs = List.intercalate [sep] ys) : xs = ys := by
  have hended := congrArg (· ++ [sep]) h
  simp only [intercalate_append_sep hxs, intercalate_append_sep hys] at hended
  exact (delimited_terminated sep).flatMap (fun g _ => by simp) hx hy hended

/-- What is in none of the groups nor the separator is not in the groups joined. -/
theorem notMem_intercalate {sep c : β} {groups : List (List β)} (hsep : c ≠ sep)
    (h : ∀ g ∈ groups, c ∉ g) : c ∉ List.intercalate [sep] groups := by
  by_cases hgroups : groups = []
  · subst hgroups
    simp
  · intro hc
    have hmem := List.mem_append_left [sep] hc
    rw [intercalate_append_sep hgroups, List.mem_flatMap] at hmem
    obtain ⟨g, hg, hcg⟩ := hmem
    rcases List.mem_append.mp hcg with hcg | hcg
    · exact h g hg hcg
    · exact hsep (List.mem_singleton.mp hcg)

/-- Groups joined by a separator none of them contains, the separators left out. -/
theorem filter_intercalate [DecidableEq β] {sep : β} {groups : List (List β)}
    (h : ∀ g ∈ groups, sep ∉ g) :
    (List.intercalate [sep] groups).filter (· ≠ sep) = groups.flatten := by
  induction groups with
  | nil => rfl
  | cons g groups ih =>
    have hg : g.filter (· ≠ sep) = g :=
      List.filter_eq_self.mpr fun c hc => by
        simpa using ne_of_mem_of_not_mem hc (h g List.mem_cons_self)
    have hrest := ih fun g' hg' => h g' (List.mem_cons_of_mem _ hg')
    cases groups with
    | nil => simpa using hg
    | cons g' groups =>
      rw [List.intercalate_cons_cons, List.filter_append, List.filter_append, hg, hrest]
      simp

end Framing
