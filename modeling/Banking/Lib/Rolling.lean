import Mathlib.Algebra.Order.BigOperators.Group.List
import Mathlib.Algebra.Order.Ring.Nat

/-! # Ceilings over rolling windows

Amounts recorded over time under a ceiling on every window of one length. An amount is stamped with
the time it counts from, or stands open: it will be stamped at some time from its opening on, and
counts always until then. A record whose amount still fits beside what is recent keeps every window
under the ceiling (`Bounded.push`), whatever order the stamps come in; dropping records keeps it
(`Bounded.sublist`), and so does stamping open ones (`total_filterMap_tighten`). -/

namespace Rolling

/-- The time a record counts at: stamped, or still open since. -/
inductive When
  | stamped (time : Int)
  | openSince (time : Int)
deriving DecidableEq, Repr

/-- Whether a record falls, or may yet fall, in the window after `lo` up to `hi`. -/
def When.within (lo hi : Int) : When → Bool
  | .stamped time => lo < time && time ≤ hi
  | .openSince time => time ≤ hi

/-- Whether a record counts at `now`: it is open, or less than a window old. -/
def When.recent (window now : Int) : When → Bool
  | .stamped time => now - window < time
  | .openSince _ => true

/-- The time a record is made at. -/
def When.start : When → Int
  | .stamped time => time
  | .openSince time => time

/-- A record: whom it counts for, how much, from when. -/
structure Entry (κ : Type) where
  key : κ
  amount : Nat
  time : When
deriving DecidableEq, Repr

variable {κ : Type}

/-- The sum of the records picked. -/
def total (pick : When → Bool) (log : List (Entry κ)) : Nat :=
  ((log.filter fun e => pick e.time).map Entry.amount).sum

/-- The sum of what counts at `now`. -/
def recent (window now : Int) (log : List (Entry κ)) : Nat := total (When.recent window now) log

/-- Every window holds at most the ceiling. -/
def Bounded (window : Int) (ceiling : Nat) (log : List (Entry κ)) : Prop :=
  ∀ lo hi, hi ≤ lo + window → total (When.within lo hi) log ≤ ceiling

@[simp] theorem total_nil (pick : When → Bool) : total pick ([] : List (Entry κ)) = 0 := rfl

theorem total_cons (pick : When → Bool) (e : Entry κ) (log : List (Entry κ)) :
    total pick (e :: log) = (if pick e.time then e.amount else 0) + total pick log := by
  unfold total
  by_cases h : pick e.time <;> simp [h]

theorem total_append (pick : When → Bool) (log log' : List (Entry κ)) :
    total pick (log ++ log') = total pick log + total pick log' := by
  simp [total]

/-- A wider pick sums to no less. -/
theorem total_mono {pick pick' : When → Bool} {log : List (Entry κ)}
    (h : ∀ e ∈ log, pick e.time = true → pick' e.time = true) :
    total pick log ≤ total pick' log := by
  induction log with
  | nil => exact le_rfl
  | cons e log ih =>
    rw [total_cons, total_cons]
    have hrest := ih fun e' he' => h e' (List.mem_cons_of_mem _ he')
    by_cases hp : pick e.time
    · simp [hp, h e List.mem_cons_self hp, hrest]
    · simp only [hp, Bool.false_eq_true, if_false]
      omega

/-- Fewer records sum to no more. -/
theorem total_sublist {pick : When → Bool} {log log' : List (Entry κ)} (h : log.Sublist log') :
    total pick log ≤ total pick log' :=
  List.Sublist.sum_le_sum ((h.filter _).map _) fun _ _ => Nat.zero_le _

/-! ## The ceiling -/

/-- Nothing recorded is under any ceiling. -/
theorem Bounded.nil (window : Int) (ceiling : Nat) : Bounded window ceiling ([] : List (Entry κ)) :=
  fun _ _ _ => Nat.zero_le _

/-- What may fall in a window a record falls in is recent when the record is made. -/
theorem When.recent_of_within {window lo hi : Int} (hwidth : hi ≤ lo + window) {t t' : When}
    (ht : t.within lo hi = true) (ht' : t'.within lo hi = true) :
    t'.recent window t.start = true := by
  cases t' with
  | openSince _ => rfl
  | stamped _ =>
    refine decide_eq_true ?_
    cases t <;>
      simp only [When.within, When.start, Bool.and_eq_true, decide_eq_true_eq] at ht ht' ⊢ <;>
      omega

/-- **A record that fits beside what is recent keeps the ceiling.** -/
theorem Bounded.push {window : Int} {ceiling : Nat} {log : List (Entry κ)}
    (h : Bounded window ceiling log) {e : Entry κ}
    (hfits : recent window e.time.start log + e.amount ≤ ceiling) :
    Bounded window ceiling (e :: log) := by
  intro lo hi hwidth
  rw [total_cons]
  by_cases hin : e.time.within lo hi
  · have hrecent : total (When.within lo hi) log ≤ recent window e.time.start log :=
      total_mono fun _ _ he' => When.recent_of_within hwidth hin he'
    rw [if_pos hin]
    omega
  · rw [if_neg hin, Nat.zero_add]
    exact h lo hi hwidth

/-- So does one put anywhere among them. -/
theorem Bounded.insert {window : Int} {ceiling : Nat} {log log' : List (Entry κ)}
    (h : Bounded window ceiling (log ++ log')) {e : Entry κ}
    (hfits : recent window e.time.start (log ++ log') + e.amount ≤ ceiling) :
    Bounded window ceiling (log ++ e :: log') := by
  intro lo hi hwidth
  have hpush := h.push hfits lo hi hwidth
  rw [total_cons, total_append] at hpush
  rw [total_append, total_cons]
  omega

/-- Dropping records keeps the ceiling. -/
theorem Bounded.sublist {window : Int} {ceiling : Nat} {log log' : List (Entry κ)}
    (h : Bounded window ceiling log) (hsub : log'.Sublist log) : Bounded window ceiling log' :=
  fun lo hi hwidth => (total_sublist hsub).trans (h lo hi hwidth)

/-! ## Records tightened -/

/-- A time made tighter: an open record stamped, no earlier than it was opened. -/
inductive When.Tightens : When → When → Prop
  | same (t : When) : Tightens t t
  | stamp {s u : Int} (h : s ≤ u) : Tightens (.openSince s) (.stamped u)

/-- What a tightened record falls in, it fell in before. -/
theorem When.Tightens.within {t t' : When} (h : t.Tightens t') {lo hi : Int}
    (ht : t'.within lo hi = true) : t.within lo hi = true := by
  cases h with
  | same => exact ht
  | stamp h =>
    simp only [When.within, Bool.and_eq_true, decide_eq_true_eq] at ht ⊢
    omega

theorem When.Tightens.recent {t t' : When} (h : t.Tightens t') {window now : Int}
    (ht : t'.recent window now = true) : t.recent window now = true := by
  cases h with
  | same => exact ht
  | stamp => rfl

/-- A record, if there is one, made tighter: dropped, or its time is. -/
inductive Tightens : Option (Entry κ) → Option (Entry κ) → Prop
  | drop (o : Option (Entry κ)) : Tightens o none
  | keep (e : Entry κ) {time : When} (h : e.time.Tightens time) :
      Tightens (some e) (some { e with time })

theorem Tightens.refl (o : Option (Entry κ)) : Tightens o o := by
  cases o with
  | none => exact .drop none
  | some e => exact .keep e (.same e.time)

section Rows

variable {α : Type} {pick : When → Bool}

/-- The records of rows, each tightened, sum to no more. -/
theorem total_filterMap_tighten {f g : α → Option (Entry κ)} {rows : List α}
    (hpick : ∀ {t t' : When}, t.Tightens t' → pick t' = true → pick t = true)
    (h : ∀ x ∈ rows, Tightens (f x) (g x)) :
    total pick (rows.filterMap g) ≤ total pick (rows.filterMap f) := by
  induction rows with
  | nil => exact le_rfl
  | cons x rows ih =>
    have hrest := ih fun y hy => h y (List.mem_cons_of_mem _ hy)
    have hx := h x List.mem_cons_self
    rw [List.filterMap_cons, List.filterMap_cons]
    generalize f x = o at hx
    generalize g x = o' at hx
    cases hx with
    | drop =>
      cases o with
      | none => exact hrest
      | some e =>
        dsimp only
        rw [total_cons]
        exact hrest.trans (Nat.le_add_left _ _)
    | keep e ht =>
      dsimp only
      rw [total_cons, total_cons]
      refine Nat.add_le_add ?_ hrest
      dsimp only
      split_ifs with hnew hold
      · exact le_rfl
      · exact absurd (hpick ht hnew) hold
      · exact Nat.zero_le _
      · exact le_rfl

/-- Rows summed by a test of their own: no less than their records, when a record picked is of a
row that passes. -/
theorem total_filterMap_le {f : α → Option (Entry κ)} {amount : α → Nat} {test : α → Bool}
    {rows : List α}
    (h : ∀ x ∈ rows, ∀ e, f x = some e → pick e.time = true →
      test x = true ∧ e.amount = amount x) :
    total pick (rows.filterMap f) ≤ ((rows.filter test).map amount).sum := by
  induction rows with
  | nil => exact le_rfl
  | cons x rows ih =>
    have hrest := ih fun y hy => h y (List.mem_cons_of_mem _ hy)
    have hweight : ((rows.filter test).map amount).sum ≤
        (((x :: rows).filter test).map amount).sum := by
      rw [List.filter_cons]
      split_ifs
      · rw [List.map_cons, List.sum_cons]
        exact Nat.le_add_left _ _
      · exact le_rfl
    cases hx : f x with
    | none =>
      rw [List.filterMap_cons_none hx]
      exact hrest.trans hweight
    | some e =>
      rw [List.filterMap_cons_some hx, total_cons]
      by_cases hp : pick e.time = true
      · obtain ⟨ht, hamount⟩ := h x List.mem_cons_self e hx hp
        rw [if_pos hp, List.filter_cons, if_pos ht, List.map_cons, List.sum_cons, hamount]
        exact Nat.add_le_add_left hrest _
      · rw [if_neg hp, Nat.zero_add]
        exact hrest.trans hweight

/-- And no more, when a row that passes has a record that is picked. -/
theorem le_total_filterMap {f : α → Option (Entry κ)} {amount : α → Nat} {test : α → Bool}
    {rows : List α}
    (h : ∀ x ∈ rows, test x = true →
      ∃ e, f x = some e ∧ pick e.time = true ∧ e.amount = amount x) :
    ((rows.filter test).map amount).sum ≤ total pick (rows.filterMap f) := by
  induction rows with
  | nil => exact le_rfl
  | cons x rows ih =>
    have hrest := ih fun y hy => h y (List.mem_cons_of_mem _ hy)
    rw [List.filter_cons]
    split_ifs with ht
    · obtain ⟨e, he, hp, hamount⟩ := h x List.mem_cons_self ht
      rw [List.filterMap_cons_some he, total_cons, if_pos hp, List.map_cons, List.sum_cons, hamount]
      exact Nat.add_le_add_left hrest _
    · refine hrest.trans ?_
      cases hx : f x with
      | none => rw [List.filterMap_cons_none hx]
      | some e =>
        rw [List.filterMap_cons_some hx, total_cons]
        exact Nat.le_add_left _ _

end Rows

/-- **What sums to no more in every window keeps the ceiling.** -/
theorem Bounded.mono {window : Int} {ceiling : Nat} {log log' : List (Entry κ)}
    (h : Bounded window ceiling log)
    (hle : ∀ lo hi, total (When.within lo hi) log' ≤ total (When.within lo hi) log) :
    Bounded window ceiling log' :=
  fun lo hi hwidth => (hle lo hi).trans (h lo hi hwidth)

/-! ## Logs tightened -/

/-- A log made tighter: whatever is picked, of a record no less readily than of the same one
tightened, sums to no more. -/
def Shrinks (log log' : List (Entry κ)) : Prop :=
  ∀ pick : When → Bool, (∀ {t t' : When}, t.Tightens t' → pick t' = true → pick t = true) →
    total pick log' ≤ total pick log

theorem Shrinks.refl (log : List (Entry κ)) : Shrinks log log := fun _ _ => le_rfl

theorem Shrinks.append {a a' b b' : List (Entry κ)} (ha : Shrinks a a') (hb : Shrinks b b') :
    Shrinks (a ++ b) (a' ++ b') := fun pick hpick => by
  rw [total_append, total_append]
  exact Nat.add_le_add (ha pick hpick) (hb pick hpick)

/-- Rows rewritten, the record of each tightened. -/
theorem shrinks_filterMap_map {α : Type} {f : α → Option (Entry κ)} {g : α → α} {rows : List α}
    (h : ∀ x ∈ rows, Tightens (f x) (f (g x))) :
    Shrinks (rows.filterMap f) ((rows.map g).filterMap f) := fun pick hpick => by
  rw [List.filterMap_map]
  exact total_filterMap_tighten hpick h

theorem Shrinks.nil (log : List (Entry κ)) : Shrinks log [] := fun _ _ => Nat.zero_le _

/-- A record of less. -/
theorem Shrinks.lower {key : κ} {amount amount' : Nat} (time : When) (h : amount' ≤ amount) :
    Shrinks [⟨key, amount, time⟩] [⟨key, amount', time⟩] := fun pick _ => by
  rw [total_cons, total_cons, total_nil]
  split_ifs
  · omega
  · exact le_rfl

/-- **An open record stamped in part**, no earlier than it was opened. -/
theorem Shrinks.split {key : κ} {amount stamped left : Nat} {time stamp : Int} (h : time ≤ stamp)
    (hle : stamped + left ≤ amount) :
    Shrinks [⟨key, amount, .openSince time⟩]
      [⟨key, left, .openSince time⟩, ⟨key, stamped, .stamped stamp⟩] := fun pick hpick => by
  have hopen : pick (.stamped stamp) = true → pick (.openSince time) = true := hpick (.stamp h)
  rw [total_cons, total_cons, total_cons, total_nil]
  dsimp only
  split_ifs with hleft hstamped hstamped
  · omega
  · omega
  · exact absurd (hopen hstamped) hleft
  · exact le_rfl

/-- Rows rewritten, the records of each made tighter. -/
theorem shrinks_flatMap_map {α : Type} {f : α → List (Entry κ)} {g : α → α} {rows : List α}
    (h : ∀ x ∈ rows, Shrinks (f x) (f (g x))) :
    Shrinks (rows.flatMap f) ((rows.map g).flatMap f) := by
  induction rows with
  | nil => exact .refl _
  | cons x rows ih =>
    rw [List.map_cons, List.flatMap_cons, List.flatMap_cons]
    exact (h x List.mem_cons_self).append (ih fun y hy => h y (List.mem_cons_of_mem _ hy))

theorem Shrinks.recent_le {log log' : List (Entry κ)} (h : Shrinks log log') (window now : Int) :
    recent window now log' ≤ recent window now log := h _ fun ht => ht.recent

/-- **A log made tighter keeps the ceiling.** -/
theorem Shrinks.bounded {window : Int} {ceiling : Nat} {log log' : List (Entry κ)}
    (h : Shrinks log log') (hbound : Bounded window ceiling log) : Bounded window ceiling log' :=
  hbound.mono fun _ _ => h _ fun ht => ht.within

/-! ## Ceilings of their own -/

/-- Records, newest first, each let in under a ceiling of its own: it fit beside what was recent. -/
def Admitted (window : Int) : List (Entry κ × Nat) → Prop
  | [] => True
  | (e, ceiling) :: log =>
    recent window e.time.start (log.map Prod.fst) + e.amount ≤ ceiling ∧ Admitted window log

/-- What is left of records dropped was let in. -/
theorem Admitted.sublist {window : Int} {log log' : List (Entry κ × Nat)}
    (h : Admitted window log) (hsub : log'.Sublist log) : Admitted window log' := by
  induction hsub with
  | slnil => exact h
  | cons e _ ih => exact ih h.2
  | cons_cons e hsub ih =>
    refine ⟨?_, ih h.2⟩
    exact (Nat.add_le_add_right (total_sublist (hsub.map Prod.fst)) _).trans h.1

end Rolling
