import Mathlib.Data.List.Nodup
import Mathlib.Data.List.Basic

/-! # Rows under a key

A table as the list of its rows in the order they came, with a key no two of them share, and the one
statement that changes rows: every row of a condition is changed in place. A partial index is a
condition no two rows satisfy that agree on what it is over. -/

namespace KeyedRows

variable {α κ : Type*}

/-- Every row of a condition changed. -/
def updateWhere (q : α → Prop) [DecidablePred q] (f : α → α) (rows : List α) : List α :=
  rows.map fun r => if q r then f r else r

section

variable {q : α → Prop} [DecidablePred q] {f : α → α} {rows : List α}

/-- A row after an update is one from before, changed if it met the condition. -/
theorem mem_updateWhere {x : α} :
    x ∈ updateWhere q f rows ↔ ∃ r ∈ rows, (if q r then f r else r) = x :=
  List.mem_map

/-- A row that meets the condition is there, changed. -/
theorem mem_updateWhere_of_pos {r : α} (hr : r ∈ rows) (hq : q r) : f r ∈ updateWhere q f rows :=
  mem_updateWhere.mpr ⟨r, hr, if_pos hq⟩

/-- A row that does not stays as it is. -/
theorem mem_updateWhere_of_neg {r : α} (hr : r ∈ rows) (hq : ¬ q r) : r ∈ updateWhere q f rows :=
  mem_updateWhere.mpr ⟨r, hr, if_neg hq⟩

/-- What an update leaves of every row, the rows themselves have. -/
theorem forall_updateWhere {p : α → Prop} (h : ∀ r ∈ rows, p r)
    (hf : ∀ r ∈ rows, q r → p r → p (f r)) : ∀ x ∈ updateWhere q f rows, p x := by
  intro x hx
  obtain ⟨r, hr, rfl⟩ := mem_updateWhere.mp hx
  split_ifs with hq
  · exact hf r hr hq (h r hr)
  · exact h r hr

/-- An update that keeps what a row is known by keeps the list of it. -/
theorem map_updateWhere {β : Type*} {g : α → β} (hf : ∀ r, g (f r) = g r) :
    (updateWhere q f rows).map g = rows.map g := by
  rw [updateWhere, List.map_map]
  refine List.map_congr_left fun r _ => ?_
  simp only [Function.comp_apply]
  split_ifs
  · exact hf r
  · rfl

/-- Two updates that change the same rows alike. -/
theorem updateWhere_congr {q' : α → Prop} [DecidablePred q'] (h : ∀ r ∈ rows, q r ↔ q' r) :
    updateWhere q f rows = updateWhere q' f rows := by
  refine List.map_congr_left fun r hr => ?_
  simp only [h r hr]

/-- An update no row meets. -/
theorem updateWhere_eq_self (h : ∀ r ∈ rows, ¬ q r) : updateWhere q f rows = rows := by
  refine (List.map_congr_left fun r hr => ?_).trans (List.map_id rows)
  rw [if_neg (h r hr), id]

end

/-! ## Keys -/

/-- No two rows share a key. -/
def Keyed (key : α → κ) (rows : List α) : Prop := (rows.map key).Nodup

section

variable {key : α → κ} {rows : List α}

/-- A key has one row. -/
theorem Keyed.eq (h : Keyed key rows) {a b : α} (ha : a ∈ rows) (hb : b ∈ rows)
    (hkey : key a = key b) : a = b :=
  List.inj_on_of_nodup_map h ha hb hkey

/-- An update that keeps the keys. -/
theorem Keyed.updateWhere {q : α → Prop} [DecidablePred q] {f : α → α} (h : Keyed key rows)
    (hf : ∀ r, key (f r) = key r) : Keyed key (updateWhere q f rows) := by
  unfold Keyed
  rw [map_updateWhere hf]
  exact h

/-- A row under a new key, inserted last. -/
theorem Keyed.append {x : α} (h : Keyed key rows) (hx : ∀ r ∈ rows, key r ≠ key x) :
    Keyed key (rows ++ [x]) := by
  unfold Keyed
  rw [List.map_append, List.map_singleton]
  refine List.Nodup.append h (List.nodup_singleton _) ?_
  rw [List.disjoint_singleton]
  intro hmem
  obtain ⟨r, hr, hkey⟩ := List.mem_map.mp hmem
  exact hx r hr hkey

variable [DecidableEq κ]

/-- The row of a key. -/
theorem Keyed.find_eq_some (h : Keyed key rows) {k : κ} {r : α} :
    rows.find? (fun r => key r = k) = some r ↔ r ∈ rows ∧ key r = k := by
  constructor
  · intro hfind
    exact ⟨List.mem_of_find?_eq_some hfind, of_decide_eq_true
      (List.find?_some (p := fun r => decide (key r = k)) hfind)⟩
  · rintro ⟨hr, hk⟩
    cases hfind : rows.find? fun r => key r = k with
    | none => exact absurd (decide_eq_true hk) (List.find?_eq_none.mp hfind r hr)
    | some found =>
      have hfound : key found = k := of_decide_eq_true
        (List.find?_some (p := fun r => decide (key r = k)) hfind)
      exact congrArg some (h.eq (List.mem_of_find?_eq_some hfind) hr (hfound.trans hk.symm))

end

/-! ## Partial indexes -/

/-- **A unique index over the rows of a condition**: two of them that agree on `index` are one. -/
def Sole (p : α → Prop) (index : α → κ) (rows : List α) : Prop :=
  ∀ a ∈ rows, ∀ b ∈ rows, p a → p b → index a = index b → a = b

section

variable {p : α → Prop} {index : α → κ} {rows : List α}

/-- A row inserted where the index has none, or outside the condition. -/
theorem Sole.append {x : α} (h : Sole p index rows)
    (hx : p x → ∀ r ∈ rows, p r → index r ≠ index x) : Sole p index (rows ++ [x]) := by
  intro a ha b hb hpa hpb hindex
  rw [List.mem_append, List.mem_singleton] at ha hb
  rcases ha with ha | rfl <;> rcases hb with hb | rfl
  · exact h a ha b hb hpa hpb hindex
  · exact absurd hindex (hx hpb a ha hpa)
  · exact absurd hindex.symm (hx hpa b hb hpb)
  · rfl

/-- An update that brings no row into the condition. -/
theorem Sole.updateWhere {q : α → Prop} [DecidablePred q] {f : α → α} (h : Sole p index rows)
    (hp : ∀ r, q r → p (f r) → p r) (hindex : ∀ r, index (f r) = index r) :
    Sole p index (updateWhere q f rows) := by
  have hback : ∀ r, p (if q r then f r else r) →
      p r ∧ index (if q r then f r else r) = index r := by
    intro r
    split_ifs with hq
    · exact fun hpr => ⟨hp r hq hpr, hindex r⟩
    · exact fun hpr => ⟨hpr, rfl⟩
  intro a ha b hb hpa hpb hab
  obtain ⟨r, hr, rfl⟩ := mem_updateWhere.mp ha
  obtain ⟨s, hs, rfl⟩ := mem_updateWhere.mp hb
  obtain ⟨hpr, hir⟩ := hback r hpa
  obtain ⟨hps, his⟩ := hback s hpb
  obtain rfl := h r hr s hs hpr hps (hir.symm.trans (hab.trans his))
  rfl

end

end KeyedRows
