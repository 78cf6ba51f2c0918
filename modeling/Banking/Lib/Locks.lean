import Mathlib.Data.List.Basic
import Mathlib.Order.Nat

/-! # Locks held to the end of a transaction

A lock as a count its holders move on when they commit. A transaction that has taken locks commits
only while each count is the one it found, so whatever is written under a lock is written while
nobody else has committed under it. Where locks are waited for, a holder always finds its counts
unchanged; every run of such a system is among these. -/

namespace Interactive

section Locks

variable {L : Type}

/-- The counts a transaction found its locks at. -/
abbrev Held (L : Type) : Type := List (L × Nat)

/-- The locks a transaction has taken are still its own. -/
def Held.Own (held : Held L) (locks : L → Nat) : Prop := ∀ h ∈ held, locks h.1 = h.2

instance (held : Held L) (locks : L → Nat) : Decidable (held.Own locks) :=
  inferInstanceAs (Decidable (∀ h ∈ held, locks h.1 = h.2))

theorem Held.Own.eq {held : Held L} {locks : L → Nat} (h : held.Own locks) {l : L} {n : Nat}
    (hl : (l, n) ∈ held) : locks l = n := h (l, n) hl

variable [DecidableEq L]

/-- The counts once the holder has committed. -/
def Held.release (held : Held L) (locks : L → Nat) : L → Nat := fun l =>
  if l ∈ held.map Prod.fst then locks l + 1 else locks l

/-- A count only grows. -/
theorem Held.le_release (held : Held L) (locks : L → Nat) (l : L) :
    locks l ≤ held.release locks l := by
  unfold Held.release
  split_ifs <;> omega

/-- A commit moves the counts of its own locks. -/
theorem Held.release_ne {held : Held L} {l : L} {n : Nat} (locks : L → Nat) (hl : (l, n) ∈ held) :
    held.release locks l ≠ locks l := by
  have hmem : l ∈ held.map Prod.fst := List.mem_map.mpr ⟨(l, n), hl, rfl⟩
  rw [Held.release, if_pos hmem]
  omega

end Locks

/-! ## What a lock protects -/

section Guarded

variable {L W : Type}

/-- What a transaction found under a lock, as long as nobody has committed under it since: `P` of
the world, at a count no less than the one found. -/
structure Guarded (locks : W → L → Nat) (l : L) (n : Nat) (P : W → Prop) (w : W) : Prop where
  found : n ≤ locks w l
  holds : locks w l = n → P w

variable {locks : W → L → Nat} {l : L} {n : Nat} {P : W → Prop} {w w' : W}

/-- What is found when the lock is taken. -/
theorem Guarded.taken (h : P w) : Guarded locks l (locks w l) P w := ⟨le_rfl, fun _ => h⟩

/-- The others leave standing what holds under a lock they have not committed under. -/
theorem Guarded.stable (h : Guarded locks l n P w) (hle : locks w l ≤ locks w' l)
    (hkeep : locks w' l = locks w l → P w → P w') : Guarded locks l n P w' where
  found := le_trans h.found hle
  holds heq := by
    have hsame : locks w l = n := le_antisymm (heq ▸ hle) h.found
    exact hkeep (heq.trans hsame.symm) (h.holds hsame)

end Guarded

end Interactive
