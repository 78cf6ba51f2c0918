import Mathlib.Data.List.Basic
import Mathlib.Order.Basic

/-! # Sequenced streams

A stream of entries, each about a key and numbered within it: the entries of one key come in
increasing order (`Increasing`). What a reader of one key has taken up to a number (`upTo`) is a
prefix of the key's entries, grows by exactly the next one, and is left as it was by what the stream
grows by (`upTo_next`, `upTo_append`). -/

namespace Sequenced

variable {E K : Type}

/-! ## Filters that keep a prefix -/

/-- A property that holds of whatever stands before a member it holds of splits a list in two. -/
theorem filter_append_filter_not {p : E → Bool} {l : List E}
    (h : l.Pairwise fun a b => p b = true → p a = true) :
    l.filter p ++ l.filter (fun a => !p a) = l := by
  induction l with
  | nil => rfl
  | cons a l ih =>
    obtain ⟨hfirst, hrest⟩ := List.pairwise_cons.mp h
    by_cases ha : p a = true
    · rw [List.filter_cons_of_pos ha, List.filter_cons_of_neg (by simp [ha]), List.cons_append,
        ih hrest]
    · have hnone : ∀ b ∈ l, p b = false := fun b hb =>
        Bool.eq_false_iff.mpr fun hp => ha (hfirst b hb hp)
      have hleft : l.filter p = [] := List.filter_eq_nil_iff.mpr fun b hb => by simp [hnone b hb]
      have hright : l.filter (fun a => !p a) = l :=
        List.filter_eq_self.mpr fun b hb => by simp [hnone b hb]
      rw [List.filter_cons_of_neg ha, List.filter_cons_of_pos (by simpa using ha), hleft, hright,
        List.nil_append]

/-- What it holds of is a prefix. -/
theorem filter_prefix {p : E → Bool} {l : List E}
    (h : l.Pairwise fun a b => p b = true → p a = true) : l.filter p <+: l :=
  ⟨_, filter_append_filter_not h⟩

/-! ## Streams -/

section Streams

variable {key : E → K} {seq : E → Int}

/-- The entries of one key come in increasing order. -/
def Increasing (key : E → K) (seq : E → Int) (es : List E) : Prop :=
  es.Pairwise fun a b => key a = key b → seq a < seq b

/-- No two entries of one key are numbered alike. -/
theorem Increasing.eq_of_seq {es : List E} (h : Increasing key seq es) {a b : E}
    (ha : a ∈ es) (hb : b ∈ es)
    (hkey : key a = key b) (hseq : seq a = seq b) : a = b := by
  induction es with
  | nil => cases ha
  | cons c es ih =>
    obtain ⟨hfirst, hrest⟩ := List.pairwise_cons.mp h
    rcases List.mem_cons.mp ha with rfl | ha' <;> rcases List.mem_cons.mp hb with rfl | hb'
    · rfl
    · exact absurd (hfirst b hb' hkey) (by omega)
    · exact absurd (hfirst a ha' hkey.symm) (by omega)
    · exact ih hrest ha' hb'

variable [DecidableEq K]

/-- The entries of a key. -/
def about (key : E → K) (es : List E) (k : K) : List E := es.filter fun e => key e = k

/-- The entries of a key numbered up to `n`. -/
def upTo (key : E → K) (seq : E → Int) (es : List E) (k : K) (n : Int) : List E :=
  es.filter fun e => key e = k ∧ seq e ≤ n

variable {es : List E} {e : E} {k : K} {n : Int}

theorem mem_about : e ∈ about key es k ↔ e ∈ es ∧ key e = k := by simp [about]

theorem mem_upTo : e ∈ upTo key seq es k n ↔ e ∈ es ∧ key e = k ∧ seq e ≤ n := by simp [upTo]

/-- One key's entries are in order. -/
theorem Increasing.about_sorted (h : Increasing key seq es) (k : K) :
    (about key es k).Pairwise fun a b => seq a < seq b := by
  refine (List.Pairwise.filter _ h).imp_of_mem fun ha hb hlt => ?_
  exact hlt ((mem_about.mp ha).2.trans (mem_about.mp hb).2.symm)

/-- A key's entries up to a number are a filter of the key's entries, -/
theorem upTo_eq_filter_about :
    upTo key seq es k n = (about key es k).filter fun e => seq e ≤ n := by
  simp only [upTo, about, List.filter_filter]
  refine List.filter_congr fun e _ => ?_
  simp [Bool.and_comm]

/-- and a prefix of them. -/
theorem Increasing.upTo_prefix (h : Increasing key seq es) :
    upTo key seq es k n <+: about key es k := by
  rw [upTo_eq_filter_about]
  refine filter_prefix ((h.about_sorted k).imp fun hlt hb => ?_)
  simp only [decide_eq_true_eq] at hb ⊢
  omega

theorem upTo_eq_nil (h : ∀ e ∈ es, key e = k → n < seq e) : upTo key seq es k n = [] := by
  refine List.filter_eq_nil_iff.mpr fun e he hp => ?_
  obtain ⟨hk, hle⟩ := of_decide_eq_true hp
  have := h e he hk
  omega

/-- **The next entry.** Where every entry of the key before it is within `n`, taking it adds it and
nothing else. -/
theorem Increasing.upTo_next (h : Increasing key seq es) (he : e ∈ es) (hk : key e = k)
    (hlt : n < seq e) (hbefore : ∀ e' ∈ es, key e' = k → seq e' < seq e → seq e' ≤ n) :
    upTo key seq es k (seq e) = upTo key seq es k n ++ [e] := by
  induction es with
  | nil => cases he
  | cons c es ih =>
    obtain ⟨hfirst, hrest⟩ := List.pairwise_cons.mp h
    rcases List.mem_cons.mp he with rfl | he'
    · -- what follows it is larger
      have hlater : ∀ m, m ≤ seq e → upTo key seq es k m = [] := fun m hm =>
        upTo_eq_nil fun e' he' hk' => by
          have := hfirst e' he' (hk.trans hk'.symm)
          omega
      have hmine : upTo key seq (e :: es) k (seq e) = e :: upTo key seq es k (seq e) :=
        List.filter_cons_of_pos (by simp [hk])
      have hnone : upTo key seq (e :: es) k n = upTo key seq es k n :=
        List.filter_cons_of_neg (by simp only [decide_eq_true_eq]; omega)
      rw [hmine, hnone, hlater _ (Int.le_refl _), hlater n (by omega), List.nil_append]
    · have hih := ih hrest he' fun e' h' => hbefore e' (List.mem_cons_of_mem _ h')
      by_cases hc : key c = k
      · have hclt : seq c < seq e := hfirst e he' (hc.trans hk.symm)
        have hcle : seq c ≤ n := hbefore c List.mem_cons_self hc hclt
        have hleft : upTo key seq (c :: es) k (seq e) = c :: upTo key seq es k (seq e) :=
          List.filter_cons_of_pos (by simp only [decide_eq_true_eq]; exact ⟨hc, by omega⟩)
        have hright : upTo key seq (c :: es) k n = c :: upTo key seq es k n :=
          List.filter_cons_of_pos (by simp only [decide_eq_true_eq]; exact ⟨hc, hcle⟩)
        rw [hleft, hright, hih, List.cons_append]
      · have hskip : ∀ m, upTo key seq (c :: es) k m = upTo key seq es k m := fun m =>
          List.filter_cons_of_neg (by simp [hc])
        rw [hskip, hskip, hih]

/-- What a stream grows by past `n` changes nothing up to it. -/
theorem upTo_append (h : key e = k → n < seq e) :
    upTo key seq (es ++ [e]) k n = upTo key seq es k n := by
  have hnone : ([e].filter fun e => key e = k ∧ seq e ≤ n) = [] := by
    refine List.filter_eq_nil_iff.mpr fun x hx hp => ?_
    obtain rfl := List.mem_singleton.mp hx
    obtain ⟨hk, hle⟩ := of_decide_eq_true hp
    have := h hk
    omega
  simp only [upTo, List.filter_append, hnone, List.append_nil]

end Streams

end Sequenced
