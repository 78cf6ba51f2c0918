import Mathlib.Data.List.Basic
import Mathlib.Data.List.Pairwise
import Mathlib.Tactic.Common

/-! # Logs read by a cursor

The rows of a log have positions drawn from a counter that only grows: what is drawn comes after
what was drawn before it (`Drawn.draw`), and a number drawn for nothing leaves a gap (`Drawn.skip`).
A reader takes the rows past its cursor, as many as a page holds, and goes on from the last of them.
What it has taken and the page make up what is up to the new cursor (`upTo_page`); rows that come to
be seen later are past the cursor, and change nothing up to it (`upTo_append`). -/

namespace CursorLog

variable {R : Type} {pos : R → Int} {rows more : List R} {r : R} {next cursor : Int} {limit : Nat}

/-! ## Drawing positions -/

/-- Rows in strict order of their positions, all of them drawn before `next`. -/
structure Drawn (pos : R → Int) (rows : List R) (next : Int) : Prop where
  ordered : rows.Pairwise (pos · < pos ·)
  below : ∀ r ∈ rows, pos r < next

theorem Drawn.nil : Drawn pos [] next := ⟨List.Pairwise.nil, by simp⟩

/-- A position drawn for a row puts it last. -/
theorem Drawn.draw (h : Drawn pos rows next) (hr : pos r = next) :
    Drawn pos (rows ++ [r]) (next + 1) where
  ordered := by
    rw [List.pairwise_append]
    refine ⟨h.ordered, List.pairwise_singleton _ _, ?_⟩
    intro a ha b hb
    rw [List.mem_singleton.mp hb, hr]
    exact h.below a ha
  below a ha := by
    rcases List.mem_append.mp ha with ha | ha
    · have hlt := h.below a ha
      omega
    · rw [List.mem_singleton.mp ha]
      omega

/-- A position drawn for nothing is passed over. -/
theorem Drawn.skip (h : Drawn pos rows next) : Drawn pos rows (next + 1) where
  ordered := h.ordered
  below a ha := by
    have hlt := h.below a ha
    omega

/-- What is left when the last ones are dropped. -/
theorem Drawn.front (h : Drawn pos (rows ++ more) next) : Drawn pos rows next where
  ordered := (List.pairwise_append.mp h.ordered).1
  below a ha := h.below a (List.mem_append_left _ ha)

/-- The rows at a row's position are that row. -/
theorem Drawn.filter_pos (h : Drawn pos rows next) {a : R} (ha : a ∈ rows) :
    rows.filter (fun r => pos r = pos a) = [a] := by
  obtain ⟨front, back, rfl⟩ := List.append_of_mem ha
  obtain ⟨-, hback, hfront⟩ := List.pairwise_append.mp h.ordered
  have hbefore : front.filter (fun r => pos r = pos a) = [] := by
    rw [List.filter_eq_nil_iff]
    intro r hr
    have hlt := hfront r hr a List.mem_cons_self
    simp only [decide_eq_true_eq]
    omega
  have hafter : back.filter (fun r => pos r = pos a) = [] := by
    rw [List.filter_eq_nil_iff]
    intro r hr
    have hlt := (List.pairwise_cons.mp hback).1 r hr
    simp only [decide_eq_true_eq]
    omega
  rw [List.filter_append, List.filter_cons_of_pos (by simp), hbefore, hafter, List.nil_append]

/-! ## Reading past a cursor -/

/-- The rows up to a position. -/
def upTo (pos : R → Int) (rows : List R) (cursor : Int) : List R :=
  rows.filter (pos · ≤ cursor)

/-- The rows past a position. -/
def past (pos : R → Int) (rows : List R) (cursor : Int) : List R :=
  rows.filter (cursor < pos ·)

/-- Where a reader goes on from after a page. -/
def resume (pos : R → Int) (cursor : Int) (page : List R) : Int :=
  (page.getLast?.map pos).getD cursor

@[simp] theorem resume_nil : resume pos cursor [] = cursor := rfl

@[simp] theorem resume_concat {page : List R} : resume pos cursor (page ++ [r]) = pos r := by
  simp [resume]

/-- A reader goes on from its cursor, or from a row of the page. -/
theorem resume_eq (cursor : Int) (page : List R) :
    resume pos cursor page = cursor ∨ ∃ r ∈ page, resume pos cursor page = pos r := by
  rcases List.eq_nil_or_concat' page with rfl | ⟨front, last, rfl⟩
  · exact .inl rfl
  · exact .inr ⟨last, by simp, resume_concat⟩

/-- Rows in order are those up to a position and those past it. -/
theorem upTo_append_past (h : rows.Pairwise (pos · < pos ·)) (cursor : Int) :
    upTo pos rows cursor ++ past pos rows cursor = rows := by
  induction rows with
  | nil => rfl
  | cons r rest ih =>
    have hrest := ih (List.pairwise_cons.mp h).2
    by_cases hr : pos r ≤ cursor
    · have hnot : ¬ cursor < pos r := by omega
      simpa [upTo, past, hr, hnot] using hrest
    · -- once past the cursor, always past it
      have hlt : cursor < pos r := by omega
      have hnone : upTo pos rest cursor = [] := by
        rw [upTo, List.filter_eq_nil_iff]
        intro a ha
        have hra := (List.pairwise_cons.mp h).1 a ha
        simp only [decide_eq_true_eq]
        omega
      rw [hnone, List.nil_append] at hrest
      rw [upTo, List.filter_cons_of_neg (by simpa using hr), ← upTo, hnone, List.nil_append, past,
        List.filter_cons_of_pos (by simpa using hlt), ← past, hrest]

/-- Rows that come to be seen past the cursor change nothing up to it. -/
theorem upTo_append (hlt : ∀ b ∈ more, cursor < pos b) :
    upTo pos (rows ++ more) cursor = upTo pos rows cursor := by
  have hmore : upTo pos more cursor = [] := by
    rw [upTo, List.filter_eq_nil_iff]
    intro b hb
    have hb := hlt b hb
    simp only [decide_eq_true_eq]
    omega
  rw [upTo, List.filter_append, ← upTo, ← upTo, hmore, List.append_nil]

/-- Where rows are cut between positions up to the cursor and positions past it, the rows up to it
are those before the cut. -/
theorem upTo_append_of_le (hle : ∀ a ∈ rows, pos a ≤ cursor) (hlt : ∀ b ∈ more, cursor < pos b) :
    upTo pos (rows ++ more) cursor = rows := by
  rw [upTo_append hlt]
  exact List.filter_eq_self.mpr fun a ha => decide_eq_true (hle a ha)

/-- **What a reader has taken and its next page** make up what is up to where it goes on from. -/
theorem upTo_page (h : rows.Pairwise (pos · < pos ·)) (cursor : Int) (limit : Nat) :
    upTo pos rows cursor ++ (past pos rows cursor).take limit =
      upTo pos rows (resume pos cursor ((past pos rows cursor).take limit)) := by
  rcases List.eq_nil_or_concat' ((past pos rows cursor).take limit) with hnil | ⟨front, last, hpage⟩
  · rw [hnil, List.append_nil, resume_nil]
  · rw [hpage, resume_concat]
    have hcut : upTo pos rows cursor ++ (front ++ [last]) ++ (past pos rows cursor).drop limit =
        rows := by
      rw [← hpage, List.append_assoc, List.take_append_drop, upTo_append_past h]
    have hordered := hcut ▸ h
    conv_rhs => rw [← hcut]
    obtain ⟨hread, -, hrest⟩ := List.pairwise_append.mp hordered
    refine (upTo_append_of_le ?_ fun b hb => hrest last (by simp) b hb).symm
    intro a ha
    rw [← List.append_assoc] at ha hread
    rcases List.mem_append.mp ha with ha | ha
    · exact Int.le_of_lt ((List.pairwise_append.mp hread).2.2 a ha last (by simp))
    · exact Int.le_of_eq (congrArg pos (List.mem_singleton.mp ha))

/-- A page that is not full leaves nothing past where the reader goes on from. -/
theorem past_resume_eq_nil (h : rows.Pairwise (pos · < pos ·))
    (hshort : ((past pos rows cursor).take limit).length < limit) :
    past pos rows (resume pos cursor ((past pos rows cursor).take limit)) = [] := by
  have hall : (past pos rows cursor).take limit = past pos rows cursor := by
    rw [List.length_take] at hshort
    exact List.take_of_length_le (by omega)
  have hread := upTo_page h cursor limit
  have hsplit := upTo_append_past h (resume pos cursor ((past pos rows cursor).take limit))
  rw [← hread, hall, upTo_append_past h] at hsplit
  have hlen := congrArg List.length hsplit
  rw [List.length_append] at hlen
  rw [hall]
  exact List.eq_nil_of_length_eq_zero (by omega)

end CursorLog
