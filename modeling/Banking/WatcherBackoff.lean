import Banking.PrunedHistory
import Banking.DecimalText

/-! # How long a watcher waits

The delay before a watcher's next cycle, after so many failed ones in a row: the poll interval,
doubled for each further failure, up to a cap. The EVM deposit watcher saturates throughout
(`cycleBackoffSecs`); the others multiply by a power of two first and cap the product
(`doublingBackoff`), which overflows once there were enough failures. -/

namespace Banking

/-! ## The delays -/

/-- The longest delay of every watcher. -/
def CYCLE_MAX_BACKOFF_SECS : Nat := 300

/-- A 64-bit number, or nothing where it overflows: a build that checks stops there, one that does
not wraps. -/
def u64 (n : Nat) : Option Nat := if n < 2 ^ 64 then some n else none

/-- The EVM deposit watcher's delay. -/
def cycleBackoffSecs (pollSecs failures : Nat) : Nat :=
  let shift := min (min (failures - 1) (2 ^ 32 - 1)) 63
  min (min (pollSecs * 2 ^ shift) U64_MAX) CYCLE_MAX_BACKOFF_SECS

/-- The delay that is doubled before it is capped: the exponent is one less than the failures as a
32-bit number. -/
def doublingBackoff (cap pollSecs failures : Nat) : Option Nat :=
  if 1 < failures then do
    let exponent ← if asU32 failures = 0 then none else some (asU32 failures - 1)
    let factor ← u64 (2 ^ exponent)
    let product ← u64 (pollSecs * factor)
    return min product cap
  else some pollSecs

/-- The withdrawal watcher's delay. -/
def withdrawalBackoff : Nat → Nat → Option Nat := doublingBackoff CYCLE_MAX_BACKOFF_SECS

/-- The TON deposit watcher's delay. -/
def tonBackoff : Nat → Nat → Option Nat := doublingBackoff CYCLE_MAX_BACKOFF_SECS

/-- The Tron deposit watcher's delay. -/
def tronBackoff : Nat → Nat → Option Nat := doublingBackoff CYCLE_MAX_BACKOFF_SECS

/-! ## What a delay is to be -/

/-- **A delay that is right up to so many failures**: it is computed without overflow, it does not
fall as failures grow, and it is between the poll interval and the cap where the one is not above
the other. -/
structure BackoffRight (delay : Nat → Nat → Option Nat) (pollSecs failures : Nat) : Prop where
  computed : ∀ f, 1 ≤ f → f ≤ failures → ∃ secs, delay pollSecs f = some secs
  grows : ∀ f g secs secs', 1 ≤ f → f ≤ g → g ≤ failures → delay pollSecs f = some secs →
    delay pollSecs g = some secs' → secs ≤ secs'
  between : pollSecs ≤ CYCLE_MAX_BACKOFF_SECS → ∀ f secs, 1 ≤ f → f ≤ failures →
    delay pollSecs f = some secs → pollSecs ≤ secs ∧ secs ≤ CYCLE_MAX_BACKOFF_SECS

theorem u64_of_lt {n : Nat} (h : n < 2 ^ 64) : u64 n = some n := if_pos h

theorem u64_of_le {n : Nat} (h : 2 ^ 64 ≤ n) : u64 n = none := if_neg (by omega)

/-- Doubling more often gives no less. -/
theorem mul_pow_mono (a : Nat) {m n : Nat} (h : m ≤ n) : a * 2 ^ m ≤ a * 2 ^ n :=
  Nat.mul_le_mul_left _ (Nat.pow_le_pow_right (by decide) h)

/-- Doubling any number of times gives no less than before. -/
theorem le_mul_pow (a n : Nat) : a ≤ a * 2 ^ n := Nat.le_mul_of_pos_right a (Nat.two_pow_pos n)

/-! ## Saturating -/

/-- **The saturating delay is right**, however many failures there were. -/
theorem cycleBackoffSecs_right {pollSecs : Nat} (h : pollSecs < 2 ^ 64) (failures : Nat) :
    BackoffRight (fun poll f => some (cycleBackoffSecs poll f)) pollSecs failures where
  computed := fun f _ _ => ⟨_, rfl⟩
  grows := by
    intro f g secs secs' _ hle _ hf hg
    rw [← Option.some.inj hf, ← Option.some.inj hg]
    unfold cycleBackoffSecs
    have hshift : min (min (f - 1) (2 ^ 32 - 1)) 63 ≤ min (min (g - 1) (2 ^ 32 - 1)) 63 := by omega
    have := mul_pow_mono pollSecs hshift
    dsimp only
    omega
  between := by
    intro hpoll f secs _ _ hf
    rw [← Option.some.inj hf]
    unfold cycleBackoffSecs
    have := le_mul_pow pollSecs (min (min (f - 1) (2 ^ 32 - 1)) 63)
    have hmax : U64_MAX = 2 ^ 64 - 1 := rfl
    dsimp only
    omega

/-! ## Doubling first -/

/-- The first failure waits the poll interval, capped or not. -/
theorem doublingBackoff_one (cap pollSecs : Nat) : doublingBackoff cap pollSecs 1 = some pollSecs :=
  if_neg (by decide)

/-- **What a further failure waits**, while the power is a 64-bit number: the doubled interval up to
the cap, unless that overflows. -/
theorem doublingBackoff_further {cap pollSecs failures : Nat} (h : 1 < failures)
    (h64 : failures ≤ 64) : doublingBackoff cap pollSecs failures =
      (u64 (pollSecs * 2 ^ (failures - 1))).map (min · cap) := by
  have hsame : asU32 failures = failures := Nat.mod_eq_of_lt (by omega)
  have hfactor : 2 ^ (failures - 1) < 2 ^ 64 := Nat.pow_lt_pow_right (by decide) (by omega)
  rw [doublingBackoff, if_pos h, hsame, if_neg (by omega)]
  simp only [Option.bind_eq_bind, Option.bind_some, u64_of_lt hfactor]
  cases u64 (pollSecs * 2 ^ (failures - 1)) <;> rfl

/-- A power beyond 64 bits, at the sixty-fifth failure whatever the interval. -/
theorem doublingBackoff_power (cap pollSecs : Nat) : doublingBackoff cap pollSecs 65 = none := by
  rw [doublingBackoff, if_pos (by decide)]
  rfl

/-- **When the doubled delay is right**: up to the first failure; and up to a further one if the
interval is not above the cap, there are no more than sixty-four, and the doubled interval is a
64-bit number. -/
theorem doublingBackoff_right_iff {pollSecs failures : Nat} :
    BackoffRight (doublingBackoff CYCLE_MAX_BACKOFF_SECS) pollSecs failures ↔
      failures ≤ 1 ∨ pollSecs ≤ CYCLE_MAX_BACKOFF_SECS ∧ failures ≤ 64 ∧
        pollSecs * 2 ^ (failures - 1) < 2 ^ 64 := by
  constructor
  · intro h
    by_cases hone : failures ≤ 1
    · exact .inl hone
    right
    have h64 : failures ≤ 64 := by
      by_contra hmore
      obtain ⟨secs, hsecs⟩ := h.computed 65 (by decide) (by omega)
      rw [doublingBackoff_power] at hsecs
      cases hsecs
    have hfits : pollSecs * 2 ^ (failures - 1) < 2 ^ 64 := by
      by_contra hover
      obtain ⟨secs, hsecs⟩ := h.computed failures (by omega) le_rfl
      rw [doublingBackoff_further (by omega) h64, u64_of_le (Nat.not_lt.mp hover)] at hsecs
      cases hsecs
    refine ⟨?_, h64, hfits⟩
    -- the first failure's delay is not capped, the second's is
    have hsecond : pollSecs * 2 ^ (2 - 1) < 2 ^ 64 :=
      (mul_pow_mono pollSecs (by omega)).trans_lt hfits
    have htwo : doublingBackoff CYCLE_MAX_BACKOFF_SECS pollSecs 2 =
        some (min (pollSecs * 2 ^ (2 - 1)) CYCLE_MAX_BACKOFF_SECS) := by
      rw [doublingBackoff_further (by decide) (by decide), u64_of_lt hsecond]
      rfl
    have := h.grows 1 2 _ _ le_rfl (by decide) (by omega) (doublingBackoff_one _ _) htwo
    omega
  · rintro (hone | ⟨hpoll, h64, hfits⟩)
    · have heq : ∀ f, 1 ≤ f → f ≤ failures →
          doublingBackoff CYCLE_MAX_BACKOFF_SECS pollSecs f = some pollSecs := by
        intro f hf hle
        obtain rfl : f = 1 := by omega
        exact doublingBackoff_one _ _
      refine ⟨fun f hf hle => ⟨_, heq f hf hle⟩, fun f g secs secs' hf hle hg hsecs hsecs' => ?_,
        fun hpoll f secs hf hle hsecs => ?_⟩
      · rw [heq f hf (hle.trans hg)] at hsecs
        rw [heq g (hf.trans hle) hg] at hsecs'
        exact (Option.some.inj hsecs).symm.trans_le (Option.some.inj hsecs').le
      · rw [heq f hf hle] at hsecs
        rw [← Option.some.inj hsecs]
        exact ⟨le_rfl, hpoll⟩
    · -- every failure up to the last is computed, and waits the doubled interval up to the cap
      have heq : ∀ f, 1 ≤ f → f ≤ failures →
          doublingBackoff CYCLE_MAX_BACKOFF_SECS pollSecs f =
            some (min (pollSecs * 2 ^ (f - 1)) CYCLE_MAX_BACKOFF_SECS) := by
        intro f hf hle
        by_cases hfirst : f = 1
        · subst hfirst
          rw [doublingBackoff_one]
          congr 1
          omega
        · rw [doublingBackoff_further (by omega) (by omega),
            u64_of_lt ((mul_pow_mono pollSecs (by omega)).trans_lt hfits)]
          rfl
      refine ⟨fun f hf hle => ⟨_, heq f hf hle⟩, fun f g secs secs' hf hle hg hsecs hsecs' => ?_,
        fun _ f secs hf hle hsecs => ?_⟩
      · rw [heq f hf (hle.trans hg)] at hsecs
        rw [heq g (hf.trans hle) hg] at hsecs'
        rw [← Option.some.inj hsecs, ← Option.some.inj hsecs']
        have := mul_pow_mono pollSecs (show f - 1 ≤ g - 1 by omega)
        omega
      · rw [heq f hf hle] at hsecs
        rw [← Option.some.inj hsecs]
        have := le_mul_pow pollSecs (f - 1)
        omega

/-- **The watchers' delays.** The EVM deposit watcher's is right whatever the interval and however
many failures; the withdrawal, the TON and the Tron watcher's are right up to so many failures
exactly when these are at most one, or the interval is not above the cap, the failures are at most
sixty-four and the doubled interval is a 64-bit number. -/
theorem watcher_backoff (pollSecs failures : Nat) (h : pollSecs < 2 ^ 64) :
    BackoffRight (fun poll f => some (cycleBackoffSecs poll f)) pollSecs failures ∧
    ∀ delay, delay = withdrawalBackoff ∨ delay = tonBackoff ∨ delay = tronBackoff →
      (BackoffRight delay pollSecs failures ↔
        failures ≤ 1 ∨ pollSecs ≤ CYCLE_MAX_BACKOFF_SECS ∧ failures ≤ 64 ∧
          pollSecs * 2 ^ (failures - 1) < 2 ^ 64) := by
  refine ⟨cycleBackoffSecs_right h failures, fun delay hdelay => ?_⟩
  rcases hdelay with rfl | rfl | rfl <;> exact doublingBackoff_right_iff

/-- At an interval of twelve seconds, the delay is right up to the sixty-first failure. -/
theorem watcher_backoff_sample : BackoffRight withdrawalBackoff 12 61 :=
  ((watcher_backoff 12 61 (by decide)).2 _ (.inl rfl)).mpr (.inr (by decide))

/-- **Enough failures overflow**: at an interval of twelve seconds, the sixty-second. -/
theorem watcher_backoff_overflows :
    withdrawalBackoff 12 62 = none ∧ tonBackoff 12 62 = none ∧ tronBackoff 12 62 = none ∧
      ¬ BackoffRight withdrawalBackoff 12 62 := by
  have hnone : withdrawalBackoff 12 62 = none := by decide +kernel
  refine ⟨hnone, hnone, hnone, fun h => ?_⟩
  obtain ⟨secs, hsecs⟩ := h.computed 62 (by decide) le_rfl
  rw [hnone] at hsecs
  cases hsecs

end Banking
