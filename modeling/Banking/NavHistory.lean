import Mathlib.Data.List.Sort
import Banking.BookFills
import Banking.Marks

/-! # A holder's history

What a fund's valuation log and a holder's recorded unit flows show of the holding over a window:
its value at the window's start, at every mark, at every flow and at the end. The units are walked
back from the live holding (`unitsAt`) and the prices looked up in the marks that were read
(`priceAt`). A read carries no more than so many marks, and one mark from before its window; where a
mark it left out was in force, the price is another one's. `participation_right` says that nothing
else makes a point wrong but units beyond the signed range. -/

namespace Banking

/-! ## The reads -/

/-- A change to a holder's units: more than none where they arrive, less where they leave. -/
structure UnitFlow where
  atUnix : Int
  delta : Int
deriving DecidableEq, Repr

/-- The second a mark was posted in. -/
def Valuation.postedAtUnix (v : Valuation) : Int := v.postedAt / 1000000

/-- The most marks one answer carries. -/
def MAX_NAV_HISTORY_MARKS : Nat := 2000

/-- The newest marks of a window of seconds, no more than `limit`, oldest first; a log is newest
first. -/
def navHistory (log : List Valuation) (fromUnix toUnix : Int) (limit : Nat) : List Valuation :=
  ((log.filter fun v => fromUnix * 1000000 ≤ v.postedAt ∧
    v.postedAt < saturatingAdd toUnix 1 * 1000000).take limit).reverse

/-- The marks a history reads: those of its window it keeps, whether it left some out, and the mark
in force when the window opens. -/
structure NavReads where
  marks : List Valuation
  truncated : Bool
  preWindow : Option Valuation
deriving DecidableEq, Repr

/-- The end of a window: none given, or none later than now. -/
def windowEnd (toUnix nowUnix : Int) : Int := if toUnix = 0 then nowUnix else min toUnix nowUnix

/-- Where the window opens: with no lower bound, at the oldest mark kept if some were left out. -/
def windowStart (fromUnix : Int) (truncated : Bool) (marks : List Valuation) : Int :=
  if 0 < fromUnix then fromUnix
  else if truncated then marks.head?.elim 0 (·.postedAtUnix) else 0

/-- The mark in force when a window opens. The earliest mark, which `anchor` falls back to, is not
in force before it. -/
def preWindowMark (log : List Valuation) (start : Int) : Option Valuation :=
  if 0 < start then (anchor log start).filter (·.postedAtUnix ≤ start) else none

/-- What a history reads of the log. -/
def readMarks (log : List Valuation) (fromUnix toUnix : Int) : NavReads :=
  let marks := navHistory log fromUnix toUnix (MAX_NAV_HISTORY_MARKS + 1)
  let truncated := decide (MAX_NAV_HISTORY_MARKS < marks.length)
  let marks := if truncated then marks.tail else marks
  { marks, truncated, preWindow := preWindowMark log (windowStart fromUnix truncated marks) }

/-! ## The series -/

/-- A holding's value at a second. -/
structure ParticipationPoint where
  atUnix : Int
  value : Nat
deriving DecidableEq, Repr

/-- A sum that stops at the ends of the signed 128-bit range. -/
def saturatingI128 (a : Int) : Int := max (-2 ^ 127) (min a (2 ^ 127 - 1))

/-- How many of the first elements pass, where those that do come first. -/
def partitionPoint {α : Type} (l : List α) (p : α → Bool) : Nat := (l.takeWhile p).length

/-- The units that arrived from each flow on, and after the last. -/
def netAfter (flows : List UnitFlow) : List Int :=
  flows.scanr (fun flow later => saturatingI128 (later + flow.delta)) 0

/-- The units held at a second: the live ones less those that arrived later. -/
def unitsAt (liveUnits : Nat) (flows : List UnitFlow) (t : Int) : Nat :=
  let i := partitionPoint flows (·.atUnix ≤ t)
  (saturatingI128 (min liveUnits (2 ^ 127 - 1) - (netAfter flows).getD i 0)).toNat

/-- The price of a second, by the marks that were read. -/
def priceAt (preWindow : Option Valuation) (marks : List Valuation) (t : Int) : Nat :=
  match partitionPoint marks (·.postedAtUnix ≤ t) with
  | last + 1 => (marks[last]?).elim 0 (·.nav)
  | 0 => (preWindow.filter (·.postedAtUnix ≤ t)).elim Nav.SEED (·.nav)

/-- Adjacent repetitions left out. -/
def dedupAdjacent : List Int → List Int
  | [] => []
  | [t] => [t]
  | t :: t' :: l => if t = t' then dedupAdjacent (t' :: l) else t :: dedupAdjacent (t' :: l)

/-- The seconds that get a point. -/
def participationInstants (flows : List UnitFlow) (marks : List Valuation) (fromUnix toUnix : Int) :
    List Int :=
  let firstFlow := flows.head?.elim toUnix (·.atUnix)
  let instants := (if 0 < fromUnix then [fromUnix] else []) ++ marks.map (·.postedAtUnix) ++
    (flows.map (·.atUnix)).filter (fun t => fromUnix ≤ t ∧ t ≤ toUnix) ++ [toUnix]
  dedupAdjacent ((instants.filter (firstFlow ≤ ·)).insertionSort (· ≤ ·))

/-- **The participation series** over a window. -/
def participationSeries (liveUnits : Nat) (flows : List UnitFlow) (preWindow : Option Valuation)
    (marks : List Valuation) (fromUnix toUnix : Int) :
    Except DomainError (List ParticipationPoint) :=
  if flows = [] ∧ liveUnits = 0 then .ok []
  else (participationInstants flows marks fromUnix toUnix).mapM fun t =>
    (Nav.value (priceAt preWindow marks t) (unitsAt liveUnits flows t)).map fun value => ⟨t, value⟩

/-- A fund's marks over a window and the caller's participation through it. -/
structure FundNavHistoryView where
  service : ServiceId
  marks : List Valuation
  participation : List ParticipationPoint
  truncated : Bool
deriving DecidableEq

/-- **A fund's history** for a caller: `visible` is what the check of the allocation answers, and
the log, the two balances and the flows are what the ports answer. -/
def fundNavHistory (visible : Except DomainError Unit) (log : List Valuation) (free escrowed : Nat)
    (flows : List UnitFlow) (service : ServiceId) (fromUnix toUnix nowUnix : Int) :
    Except DomainError FundNavHistoryView := do
  visible
  let toUnix := windowEnd toUnix nowUnix
  if fromUnix < 0 ∨ toUnix < fromUnix then
    .error (.validation "history window is empty — `from` must not be after `to`")
  let reads := readMarks log fromUnix toUnix
  let liveUnits ← checkedAdd free escrowed "position units overflow"
  let participation ←
    participationSeries liveUnits flows reads.preWindow reads.marks fromUnix toUnix
  return { service, marks := reads.marks, participation, truncated := reads.truncated }

/-! ## What a history is to show -/

/-- The price in force at a second: the last mark's by then, and the seed's before the first. -/
def navInForce (log : List Valuation) (t : Int) : Nat :=
  (log.find? (·.postedAtUnix ≤ t)).elim Nav.SEED (·.nav)

/-- The units held after all flows up to a second. -/
def unitsHeld (flows : List UnitFlow) (t : Int) : Int :=
  ((flows.filter (·.atUnix ≤ t)).map (·.delta)).sum

/-- **The series is right**: each point is the units held by its second at the price in force then,
the seconds increase, and a series no flow lies beyond ends with the live units at the price in
force at the window's end. -/
structure ParticipationRight (log : List Valuation) (flows : List UnitFlow) (liveUnits : Nat)
    (fromUnix toUnix : Int) (points : List ParticipationPoint) : Prop where
  within : ∀ p ∈ points, fromUnix ≤ p.atUnix ∧ p.atUnix ≤ toUnix
  value : ∀ p ∈ points, (p.value : Int) =
    unitsHeld flows p.atUnix * navInForce log p.atUnix / SCALE
  increasing : points.Pairwise (·.atUnix < ·.atUnix)
  last : flows ≠ [] → (∀ flow ∈ flows, flow.atUnix ≤ toUnix) →
    points.getLast? = some ⟨toUnix, liveUnits * navInForce log toUnix / SCALE⟩

/-! ## The units -/

/-- Where what passes comes first, the elements that pass are the first ones. -/
theorem takeWhile_eq_filter {α : Type} {p : α → Bool} {l : List α}
    (h : l.Pairwise fun a b => p b = true → p a = true) : l.takeWhile p = l.filter p := by
  induction h with
  | nil => rfl
  | @cons a l hfirst _ ih =>
    by_cases ha : p a = true
    · rw [List.takeWhile_cons_of_pos ha, List.filter_cons_of_pos ha, ih]
    · rw [List.takeWhile_cons_of_neg ha, List.filter_cons_of_neg ha, eq_comm,
        List.filter_eq_nil_iff]
      exact fun b hb hpass => ha (hfirst b hb hpass)

/-- What is left from the partition point on. -/
theorem drop_partitionPoint {α : Type} (l : List α) (p : α → Bool) :
    l.drop (partitionPoint l p) = l.dropWhile p := by
  have hsplit := congrArg (List.drop (l.takeWhile p).length)
    (List.takeWhile_append_dropWhile (p := p) (l := l))
  rw [List.drop_left] at hsplit
  exact hsplit.symm

/-- The units from a flow on, where no sum on the way is out of the signed range. -/
theorem foldr_netAfter {flows : List UnitFlow}
    (h : ∀ l, l <:+ flows → -2 ^ 127 ≤ (l.map (·.delta)).sum ∧ (l.map (·.delta)).sum < 2 ^ 127) :
    flows.foldr (fun flow later => saturatingI128 (later + flow.delta)) 0 =
      (flows.map (·.delta)).sum := by
  induction flows with
  | nil => rfl
  | cons flow flows ih =>
    rw [List.foldr_cons, ih fun l hl => h l (hl.trans (List.suffix_cons flow flows))]
    have hrange := h _ List.suffix_rfl
    rw [List.map_cons, List.sum_cons] at hrange ⊢
    unfold saturatingI128
    omega

/-- **No sum of the walk back to a second is out of the signed range**: not the live units, nor
what was held then, nor the net of the flows from any later one on. -/
structure UnitsFit (liveUnits : Nat) (flows : List UnitFlow) (t : Int) : Prop where
  live : liveUnits < 2 ^ 127
  held : unitsHeld flows t < 2 ^ 127
  later : ∀ l, l <:+ flows.dropWhile (·.atUnix ≤ t) → -2 ^ 127 ≤ (l.map (·.delta)).sum

section Units

variable {flows : List UnitFlow} {liveUnits : Nat} {t : Int}

/-- In time order, the flows by a second are the first ones. -/
theorem unitsHeld_eq (hflows : flows.Pairwise (·.atUnix ≤ ·.atUnix)) :
    unitsHeld flows t = ((flows.takeWhile (·.atUnix ≤ t)).map (·.delta)).sum := by
  rw [unitsHeld, takeWhile_eq_filter]
  refine hflows.imp fun {a b} hle hb => ?_
  simp only [decide_eq_true_eq] at hb ⊢
  exact hle.trans hb

/-- **The walk back ends where the flows say**: the units of a second are those that had arrived. -/
theorem unitsAt_eq (hflows : flows.Pairwise (·.atUnix ≤ ·.atUnix))
    (hlive : (liveUnits : Int) = (flows.map (·.delta)).sum)
    (hsums : ∀ l, l <+: flows → 0 ≤ (l.map (·.delta)).sum) (hfit : UnitsFit liveUnits flows t) :
    (unitsAt liveUnits flows t : Int) = unitsHeld flows t := by
  have hheld := unitsHeld_eq (t := t) hflows
  have hlater : (unitsHeld flows t) + ((flows.dropWhile (·.atUnix ≤ t)).map (·.delta)).sum =
      liveUnits := by
    rw [hheld, hlive, ← List.sum_append, ← List.map_append, List.takeWhile_append_dropWhile]
  have hnonneg : 0 ≤ unitsHeld flows t := hheld ▸ hsums _ (List.takeWhile_prefix _)
  -- the net of the flows from a later one on is at most the live units
  have hrange : ∀ l, l <:+ flows.dropWhile (·.atUnix ≤ t) →
      -2 ^ 127 ≤ (l.map (·.delta)).sum ∧ (l.map (·.delta)).sum < 2 ^ 127 := by
    intro l hl
    refine ⟨hfit.later l hl, ?_⟩
    obtain ⟨before, hbefore⟩ := hl.trans (List.dropWhile_suffix _)
    have hsum := congrArg (fun l : List UnitFlow => (l.map (·.delta)).sum) hbefore
    simp only [List.map_append, List.sum_append] at hsum
    have := hsums before ⟨l, hbefore⟩
    have := hfit.live
    omega
  have hafter : (netAfter flows).getD (partitionPoint flows (·.atUnix ≤ t)) 0 =
      ((flows.dropWhile (·.atUnix ≤ t)).map (·.delta)).sum := by
    have hle : partitionPoint flows (·.atUnix ≤ t) < flows.length + 1 :=
      Nat.lt_succ_of_le (List.takeWhile_prefix _).length_le
    rw [List.getD_eq_getElem?_getD, netAfter, List.getElem?_scanr_of_lt hle, drop_partitionPoint,
      foldr_netAfter hrange]
    rfl
  unfold unitsAt
  dsimp only
  rw [hafter]
  unfold saturatingI128
  have := hfit.live
  have := hfit.held
  omega

end Units

/-! ## The prices -/

/-- The mark in force at a second. -/
def markInForce (log : List Valuation) (t : Int) : Option Valuation :=
  log.find? (·.postedAtUnix ≤ t)

/-- **The marks in force are read**: at each second that gets a point, the mark in force, if there
is one, is among those the history keeps or is the one read from before its window. -/
def PricesRead (log : List Valuation) (flows : List UnitFlow) (fromUnix toUnix : Int) : Prop :=
  ∀ t ∈ participationInstants flows (readMarks log fromUnix toUnix).marks fromUnix toUnix,
    ∀ v, markInForce log t = some v →
      v ∈ (readMarks log fromUnix toUnix).marks ∨ (readMarks log fromUnix toUnix).preWindow = some v

/-- A mark is not posted before its second. -/
theorem Valuation.postedAtUnix_le_iff (v : Valuation) (t : Int) :
    v.postedAtUnix ≤ t ↔ v.postedAt < (t + 1) * 1000000 := by
  unfold Valuation.postedAtUnix
  omega

theorem Valuation.le_postedAtUnix_iff (v : Valuation) (t : Int) :
    t ≤ v.postedAtUnix ↔ t * 1000000 ≤ v.postedAt := by
  unfold Valuation.postedAtUnix
  omega

section Prices

variable {log : List Valuation} {fromUnix toUnix t : Int}

/-- What a window of seconds admits. -/
def inWindow (fromUnix toUnix : Int) (v : Valuation) : Bool :=
  fromUnix * 1000000 ≤ v.postedAt ∧ v.postedAt < saturatingAdd toUnix 1 * 1000000

/-- **What is kept** are the newest marks of the window, no more than so many. -/
theorem readMarks_marks : (readMarks log fromUnix toUnix).marks =
    ((log.filter (inWindow fromUnix toUnix)).take MAX_NAV_HISTORY_MARKS).reverse := by
  unfold readMarks navHistory
  dsimp only
  rw [List.length_reverse, List.length_take]
  change (if decide (MAX_NAV_HISTORY_MARKS <
    min (MAX_NAV_HISTORY_MARKS + 1) (log.filter (inWindow fromUnix toUnix)).length) = true
    then ((log.filter (inWindow fromUnix toUnix)).take (MAX_NAV_HISTORY_MARKS + 1)).reverse.tail
    else ((log.filter (inWindow fromUnix toUnix)).take (MAX_NAV_HISTORY_MARKS + 1)).reverse) = _
  generalize log.filter (inWindow fromUnix toUnix) = marks
  split
  case isTrue hmore =>
    have hlen : MAX_NAV_HISTORY_MARKS < marks.length := by
      have := of_decide_eq_true hmore
      omega
    rw [List.take_succ_eq_append_getElem hlen, List.reverse_append]
    rfl
  case isFalse hless =>
    have hlen : marks.length ≤ MAX_NAV_HISTORY_MARKS := by
      have := of_decide_eq_false (Bool.not_eq_true _ ▸ hless)
      omega
    rw [List.take_of_length_le hlen, List.take_of_length_le (hlen.trans (Nat.le_succ _))]

/-- The mark from before a window is one of the log, and in force when the window opens. -/
theorem preWindowMark_some {start : Int} {v : Valuation} (h : preWindowMark log start = some v) :
    v ∈ log ∧ v.postedAtUnix ≤ start ∧ 0 < start := by
  unfold preWindowMark at h
  split_ifs at h with hstart
  obtain ⟨hanchor, hposted⟩ := Option.filter_eq_some_iff.mp h
  refine ⟨?_, of_decide_eq_true hposted, hstart⟩
  unfold anchor at hanchor
  split at hanchor
  case h_1 aged hfound =>
    rw [← Option.some.inj hanchor]
    exact List.mem_of_find?_eq_some hfound
  case h_2 => exact List.mem_of_getLast? hanchor

/-- The price of a second is that of the newest kept mark no later, failing that of the mark from
before the window. -/
theorem priceAt_reverse {marks : List Valuation} {preWindow : Option Valuation}
    (hmarks : marks.Pairwise fun later earlier => earlier.postedAt ≤ later.postedAt) :
    priceAt preWindow marks.reverse t = ((marks.find? (·.postedAtUnix ≤ t)).or
      (preWindow.filter (·.postedAtUnix ≤ t))).elim Nav.SEED (·.nav) := by
  have hfirst : marks.reverse.Pairwise fun a b : Valuation =>
      decide (b.postedAtUnix ≤ t) = true → decide (a.postedAtUnix ≤ t) = true := by
    refine (List.pairwise_reverse.mpr hmarks).imp fun {a b} hle hb => ?_
    simp only [decide_eq_true_eq, Valuation.postedAtUnix_le_iff] at hb ⊢
    omega
  have hpoint : partitionPoint marks.reverse (·.postedAtUnix ≤ t) =
      (marks.filter (·.postedAtUnix ≤ t)).length := by
    rw [partitionPoint, takeWhile_eq_filter hfirst, List.filter_reverse, List.length_reverse]
  have hprefix : marks.reverse.take (marks.filter (·.postedAtUnix ≤ t)).length =
      (marks.filter (·.postedAtUnix ≤ t)).reverse := by
    rw [← hpoint, ← List.filter_reverse, ← takeWhile_eq_filter hfirst]
    exact (List.prefix_iff_eq_take.mp (List.takeWhile_prefix _)).symm
  unfold priceAt
  rw [hpoint, ← List.head?_filter]
  cases hkept : marks.filter (·.postedAtUnix ≤ t) with
  | nil => rfl
  | cons v earlier =>
    rw [hkept, List.length_cons, List.reverse_cons] at hprefix
    have hlast : marks.reverse[earlier.length]? = some v := by
      rw [← List.getElem?_take_of_lt (Nat.lt_succ_self earlier.length), hprefix]
      simp
    simp only [List.length_cons, hlast]
    rfl

/-- With a lower bound, the window opens there. -/
theorem readMarks_preWindow (h : 0 < fromUnix) :
    (readMarks log fromUnix toUnix).preWindow = preWindowMark log fromUnix := by
  change preWindowMark log (windowStart fromUnix _ _) = _
  rw [windowStart, if_pos h]

/-- A kept mark is of the window. -/
theorem mem_readMarks {v : Valuation} (h : v ∈ (readMarks log fromUnix toUnix).marks) :
    v ∈ log.filter (inWindow fromUnix toUnix) := by
  rw [readMarks_marks, List.mem_reverse] at h
  exact List.mem_of_mem_take h

theorem inWindow_iff {v : Valuation} : inWindow fromUnix toUnix v = true ↔
    fromUnix * 1000000 ≤ v.postedAt ∧ v.postedAt < saturatingAdd toUnix 1 * 1000000 := by
  simp only [inWindow, decide_eq_true_eq]

/-- A window that keeps a mark does not open past its end. -/
theorem windowStart_lt {u v : Valuation} (hu : u ∈ (readMarks log fromUnix toUnix).marks)
    (hv : (readMarks log fromUnix toUnix).preWindow = some v) :
    v.postedAtUnix < saturatingAdd toUnix 1 := by
  obtain ⟨-, hposted, hpos⟩ := preWindowMark_some hv
  refine hposted.trans_lt ?_
  have hlt : ∀ w ∈ (readMarks log fromUnix toUnix).marks,
      w.postedAtUnix < saturatingAdd toUnix 1 ∧ fromUnix ≤ w.postedAtUnix := by
    intro w hw
    have := inWindow_iff.mp (List.mem_filter.mp (mem_readMarks hw)).2
    have := w.le_postedAtUnix_iff fromUnix
    have := w.le_postedAtUnix_iff (saturatingAdd toUnix 1)
    omega
  change 0 < windowStart fromUnix _ (readMarks log fromUnix toUnix).marks at hpos
  change windowStart fromUnix _ (readMarks log fromUnix toUnix).marks < _
  have hmem := hlt u hu
  unfold windowStart at hpos ⊢
  cases hmarks : (readMarks log fromUnix toUnix).marks with
  | nil =>
    rw [hmarks] at hu
    cases hu
  | cons oldest marks =>
    have holdest := hlt oldest (by rw [hmarks]; exact List.mem_cons_self)
    rw [hmarks] at hpos
    split_ifs at hpos ⊢ with hfrom htruncated
    · omega
    · exact holdest.1
    · exact absurd hpos (Int.lt_irrefl 0)

/-- The first that passes is the first of those kept too, where it is kept. -/
theorem find?_filter_of_pos {α : Type} {l : List α} {p q : α → Bool} {v : α}
    (h : l.find? p = some v) (hq : q v = true) : (l.filter q).find? p = some v := by
  obtain ⟨hp, before, after, rfl, hbefore⟩ := List.find?_eq_some_iff_append.mp h
  have hnone : (before.filter q).find? p = none := List.find?_eq_none.mpr fun w hw => by
    simpa using hbefore w (List.mem_of_mem_filter hw)
  rw [List.filter_append, List.filter_cons_of_pos hq, List.find?_append, hnone, Option.none_or]
  exact List.find?_cons_of_pos hp

/-- The mark in force at a second is the newest of those posted by it. -/
theorem markInForce_newest
    (hlog : log.Pairwise fun later earlier => earlier.postedAt ≤ later.postedAt) {u v : Valuation}
    (h : markInForce log t = some v) (hu : u ∈ log) (hposted : u.postedAtUnix ≤ t) :
    u.postedAt ≤ v.postedAt := by
  obtain ⟨-, newer, older, rfl, hnewer⟩ := List.find?_eq_some_iff_append.mp h
  rcases List.mem_append.mp hu with hu | hu
  · have := hnewer u hu
    simp only [Bool.not_eq_true', decide_eq_false_iff_not] at this
    exact absurd hposted this
  · rcases List.mem_cons.mp hu with rfl | hu
    · exact le_rfl
    · exact List.rel_of_pairwise_cons (List.pairwise_append.mp hlog).2.1 hu

/-- **The price is the one in force** where the mark in force is read. A kept mark is it unless a
newer one in force was left out, which is then the one from before the window, and that is older. -/
theorem priceAt_eq (hlog : log.Pairwise fun later earlier => earlier.postedAt ≤ later.postedAt)
    (hread : ∀ v, markInForce log t = some v →
      v ∈ (readMarks log fromUnix toUnix).marks ∨
        (readMarks log fromUnix toUnix).preWindow = some v) :
    priceAt (readMarks log fromUnix toUnix).preWindow (readMarks log fromUnix toUnix).marks t =
      navInForce log t := by
  have hwindow : ∀ {v}, v ∈ (readMarks log fromUnix toUnix).marks →
      v ∈ (log.filter (inWindow fromUnix toUnix)).take MAX_NAV_HISTORY_MARKS := by
    intro v hv
    rwa [readMarks_marks, List.mem_reverse] at hv
  rw [readMarks_marks, priceAt_reverse ((hlog.filter _).take), navInForce]
  change _ = (markInForce log t).elim Nav.SEED (·.nav)
  congr 1
  cases hkept : ((log.filter (inWindow fromUnix toUnix)).take MAX_NAV_HISTORY_MARKS).find?
      (·.postedAtUnix ≤ t) with
  | none =>
    rw [Option.none_or]
    cases hforce : markInForce log t with
    | none =>
      -- nothing was posted yet, before the window either
      rw [Option.filter_eq_none_iff]
      intro v hv
      exact List.find?_eq_none.mp hforce v (preWindowMark_some hv).1
    | some v =>
      have hposted := List.find?_some hforce
      rcases hread v hforce with hv | hv
      · exact absurd hposted (List.find?_eq_none.mp hkept v (hwindow hv))
      · rw [hv, Option.filter_some, if_pos hposted]
  | some u =>
    have hin : (log.filter (inWindow fromUnix toUnix)).find? (·.postedAtUnix ≤ t) = some u := by
      rw [← List.take_append_drop MAX_NAV_HISTORY_MARKS (log.filter _), List.find?_append, hkept]
      rfl
    rw [Option.some_or]
    cases hforce : markInForce log t with
    | none =>
      exact absurd (List.find?_some hin)
        (List.find?_eq_none.mp hforce u (List.mem_of_mem_filter (List.mem_of_find?_eq_some hin)))
    | some v =>
      -- the newest mark in force is of the window too, so it is the newest one kept
      have humem : u ∈ (readMarks log fromUnix toUnix).marks := by
        rw [readMarks_marks, List.mem_reverse]
        exact List.mem_of_find?_eq_some hkept
      have hvwindow : inWindow fromUnix toUnix v = true := by
        rcases hread v hforce with hv | hv
        · exact (List.mem_filter.mp (mem_readMarks hv)).2
        · obtain ⟨hulog, huwindow⟩ := List.mem_filter.mp (mem_readMarks humem)
          have huposted := List.find?_some hin
          have hle := markInForce_newest hlog hforce hulog (of_decide_eq_true huposted)
          have hlt := (v.le_postedAtUnix_iff (saturatingAdd toUnix 1)).not.mp
            (not_le.mpr (windowStart_lt humem hv))
          exact inWindow_iff.mpr ⟨(inWindow_iff.mp huwindow).1.trans hle, not_le.mp hlt⟩
      exact hin.symm.trans (find?_filter_of_pos hforce hvwindow)

end Prices

/-! ## The seconds -/

/-- Leaving out repetitions leaves out no second. -/
theorem mem_dedupAdjacent {l : List Int} {t : Int} : t ∈ dedupAdjacent l ↔ t ∈ l := by
  fun_induction dedupAdjacent l with
  | case1 => rfl
  | case2 => rfl
  | case3 a l ih =>
    rw [ih]
    simp
  | case4 a b l hne ih => exact List.mem_cons.trans ((or_congr_right ih).trans List.mem_cons.symm)

/-- In order, no two seconds left are the same. -/
theorem dedupAdjacent_pairwise {l : List Int} (h : l.Pairwise (· ≤ ·)) :
    (dedupAdjacent l).Pairwise (· < ·) := by
  fun_induction dedupAdjacent l with
  | case1 => exact .nil
  | case2 => exact List.pairwise_singleton _ _
  | case3 a l ih => exact ih h.of_cons
  | case4 a b l hne ih =>
    refine .cons (fun t ht => ?_) (ih h.of_cons)
    -- the next second is later, and the rest not before it
    have hnext := List.rel_of_pairwise_cons h (List.mem_cons_self (a := b))
    have hlt : a < b := lt_of_le_of_ne hnext hne
    rcases List.mem_cons.mp (mem_dedupAdjacent.mp ht) with rfl | ht
    · exact hlt
    · exact hlt.trans_le (List.rel_of_pairwise_cons h.of_cons ht)

/-- The largest of an increasing list is its last. -/
theorem getLast?_of_le {l : List Int} {t : Int} (h : l.Pairwise (· < ·)) (ht : t ∈ l)
    (hle : ∀ u ∈ l, u ≤ t) : l.getLast? = some t := by
  rcases List.eq_nil_or_concat l with rfl | ⟨before, last, rfl⟩
  · cases ht
  · rw [List.concat_eq_append] at *
    rw [List.getLast?_concat]
    rcases List.mem_append.mp ht with ht | ht
    · have hlt := (List.pairwise_append.mp h).2.2 t ht last (List.mem_singleton_self last)
      exact absurd (hle last (by simp)) (not_le.mpr hlt)
    · rw [List.mem_singleton.mp ht]

section Instants

variable {log : List Valuation} {flows : List UnitFlow} {marks : List Valuation}
  {fromUnix toUnix t : Int}

/-- **Which seconds get a point**: those from the first flow on of the window's start, the marks,
the window's flows, and the window's end. -/
theorem mem_participationInstants :
    t ∈ participationInstants flows marks fromUnix toUnix ↔
      flows.head?.elim toUnix (·.atUnix) ≤ t ∧
        (0 < fromUnix ∧ t = fromUnix ∨ (∃ v ∈ marks, v.postedAtUnix = t) ∨
          (∃ flow ∈ flows, flow.atUnix = t) ∧ fromUnix ≤ t ∧ t ≤ toUnix ∨ t = toUnix) := by
  unfold participationInstants
  rw [mem_dedupAdjacent, List.mem_insertionSort, List.mem_filter, and_comm, decide_eq_true_eq]
  simp only [List.mem_append, List.mem_map, List.mem_filter, List.mem_singleton,
    List.mem_ite_nil_right, decide_eq_true_eq, or_assoc]

/-- The seconds increase. -/
theorem participationInstants_pairwise :
    (participationInstants flows marks fromUnix toUnix).Pairwise (· < ·) :=
  dedupAdjacent_pairwise (List.pairwise_insertionSort _ _)

/-- They are all of the window. -/
theorem participationInstants_within (hfrom : 0 ≤ fromUnix) (hto : fromUnix ≤ toUnix)
    (ht : t ∈ participationInstants flows (readMarks log fromUnix toUnix).marks fromUnix toUnix) :
    fromUnix ≤ t ∧ t ≤ toUnix := by
  rcases (mem_participationInstants.mp ht).2 with ⟨-, rfl⟩ | ⟨v, hv, rfl⟩ | ⟨-, hwithin⟩ | rfl
  · exact ⟨le_rfl, hto⟩
  · have hwindow := inWindow_iff.mp (List.mem_filter.mp (mem_readMarks hv)).2
    refine ⟨(v.le_postedAtUnix_iff fromUnix).mpr hwindow.1, (v.postedAtUnix_le_iff toUnix).mpr ?_⟩
    have hsum : saturatingAdd toUnix 1 ≤ toUnix + 1 := by
      unfold saturatingAdd
      omega
    omega
  · exact hwithin
  · exact ⟨hto, le_rfl⟩

end Instants

/-! ## The series is right -/

/-- The results of a mapped list, where each says which element it is of. -/
theorem of_mapM {ε α β : Type} {f : α → Except ε β} {g : β → α}
    (hg : ∀ a b, f a = .ok b → g b = a) {l : List α} {out : List β} (h : l.mapM f = .ok out) :
    out.map g = l ∧ ∀ b ∈ out, f (g b) = .ok b := by
  induction l generalizing out with
  | nil =>
    rw [List.mapM_nil] at h
    obtain rfl := Except.ok.inj h
    exact ⟨rfl, nofun⟩
  | cons a l ih =>
    rw [List.mapM_cons] at h
    obtain ⟨b, hb, h⟩ := bind_ok_iff.mp h
    obtain ⟨rest, hrest, h⟩ := bind_ok_iff.mp h
    obtain rfl := Except.ok.inj h
    obtain ⟨hmap, hout⟩ := ih hrest
    refine ⟨by rw [List.map_cons, hmap, hg a b hb], fun c hc => ?_⟩
    rcases List.mem_cons.mp hc with rfl | hc
    · rw [hg a c hb, hb]
    · exact hout c hc

section Right

variable {log : List Valuation} {flows : List UnitFlow} {preWindow : Option Valuation}
  {marks : List Valuation} {liveUnits : Nat} {fromUnix toUnix t : Int}
  {points : List ParticipationPoint}

/-- **The points of a series**: at its seconds, each the value of the units by then at the price of
then; there are none without flows and units. -/
theorem participationSeries_ok
    (h : participationSeries liveUnits flows preWindow marks fromUnix toUnix = .ok points) :
    flows = [] ∧ liveUnits = 0 ∧ points = [] ∨
      points.map (·.atUnix) = participationInstants flows marks fromUnix toUnix ∧
        ∀ p ∈ points, Nav.value (priceAt preWindow marks p.atUnix)
          (unitsAt liveUnits flows p.atUnix) = .ok p.value := by
  unfold participationSeries at h
  split_ifs at h with hnone
  · exact .inl ⟨hnone.1, hnone.2, (Except.ok.inj h).symm⟩
  · have hpoint : ∀ (t : Int) (p : ParticipationPoint),
        (Nav.value (priceAt preWindow marks t) (unitsAt liveUnits flows t)).map
          (fun value => (⟨t, value⟩ : ParticipationPoint)) = .ok p → p.atUnix = t := by
      intro t p hp
      obtain ⟨value, -, rfl⟩ := map_ok_iff.mp hp
      rfl
    obtain ⟨hat, hpoints⟩ := of_mapM (g := (·.atUnix)) hpoint h
    refine .inr ⟨hat, fun p hp => ?_⟩
    obtain ⟨value, hvalue, heq⟩ := map_ok_iff.mp (hpoints p hp)
    rw [hvalue, ← heq]

/-- The price in force is a price. -/
theorem navInForce_lt (hnav : ∀ v ∈ log, v.nav < 2 ^ 128) : navInForce log t < 2 ^ 128 := by
  unfold navInForce
  cases hfound : log.find? (·.postedAtUnix ≤ t) with
  | none => exact SCALE_lt
  | some v => exact hnav v (List.mem_of_find?_eq_some hfound)

/-- What was held by a second no flow is later than are the live units. -/
theorem unitsHeld_last (hlive : (liveUnits : Int) = (flows.map (·.delta)).sum)
    (hlast : ∀ flow ∈ flows, flow.atUnix ≤ t) : unitsHeld flows t = liveUnits := by
  have hall : flows.filter (fun flow => decide (flow.atUnix ≤ t)) = flows :=
    List.filter_eq_self.mpr fun flow hflow => decide_eq_true (hlast flow hflow)
  rw [unitsHeld, hall, hlive]

/-- **A series is right** where the marks in force are read and the sums fit. -/
theorem participationSeries_right
    (hlog : log.Pairwise fun later earlier => earlier.postedAt ≤ later.postedAt)
    (hnav : ∀ v ∈ log, v.nav < 2 ^ 128) (hflows : flows.Pairwise (·.atUnix ≤ ·.atUnix))
    (hlive : (liveUnits : Int) = (flows.map (·.delta)).sum)
    (hsums : ∀ before, before <+: flows → 0 ≤ (before.map (·.delta)).sum)
    (hfrom : 0 ≤ fromUnix) (hto : fromUnix ≤ toUnix)
    (hread : PricesRead log flows fromUnix toUnix)
    (hfit : ∀ t ∈ participationInstants flows (readMarks log fromUnix toUnix).marks fromUnix toUnix,
      UnitsFit liveUnits flows t)
    (h : participationSeries liveUnits flows (readMarks log fromUnix toUnix).preWindow
      (readMarks log fromUnix toUnix).marks fromUnix toUnix = .ok points) :
    ParticipationRight log flows liveUnits fromUnix toUnix points := by
  rcases participationSeries_ok h with ⟨rfl, -, rfl⟩ | ⟨hat, hpoints⟩
  · exact ⟨nofun, nofun, .nil, fun hne => absurd rfl hne⟩
  have hmem : ∀ p ∈ points, p.atUnix ∈
      participationInstants flows (readMarks log fromUnix toUnix).marks fromUnix toUnix :=
    fun p hp => hat ▸ List.mem_map_of_mem hp
  have hvalue : ∀ p ∈ points, (p.value : Int) =
      unitsHeld flows p.atUnix * navInForce log p.atUnix / SCALE := by
    intro p hp
    have hfit := hfit _ (hmem p hp)
    have hunits := unitsAt_eq hflows hlive hsums hfit
    have hpriced := hpoints p hp
    rw [priceAt_eq hlog (hread _ (hmem p hp))] at hpriced
    have hlt : unitsAt liveUnits flows p.atUnix < 2 ^ 128 := by
      have := hfit.held
      omega
    rw [(Nav.value_ok (navInForce_lt hnav) hlt hpriced).1, ← hunits]
    push_cast
    rfl
  refine ⟨fun p hp => participationInstants_within hfrom hto (hmem p hp), hvalue, ?_, ?_⟩
  · have hincreasing : (points.map (·.atUnix)).Pairwise (· < ·) :=
      hat ▸ participationInstants_pairwise
    exact List.pairwise_map.mp hincreasing
  · intro hne hlast
    -- the window's end gets a point, the largest second of all
    have hto_mem : toUnix ∈
        participationInstants flows (readMarks log fromUnix toUnix).marks fromUnix toUnix := by
      refine mem_participationInstants.mpr ⟨?_, .inr (.inr (.inr rfl))⟩
      cases flows with
      | nil => exact absurd rfl hne
      | cons flow flows => exact hlast flow List.mem_cons_self
    have hend := getLast?_of_le participationInstants_pairwise hto_mem fun t ht =>
      (participationInstants_within hfrom hto ht).2
    rw [← hat, List.getLast?_map] at hend
    obtain ⟨p, hp, rfl⟩ := Option.map_eq_some_iff.mp hend
    have hworth := hvalue p (List.mem_of_getLast? hp)
    rw [unitsHeld_last hlive hlast] at hworth
    rw [hp]
    congr 1
    cases p
    congr 1
    exact_mod_cast hworth

/-- **What a history's answer is made of**: a window that is not empty, the marks read for it, and
the series of the two balances together. -/
theorem fundNavHistory_ok {visible : Except DomainError Unit} {free escrowed : Nat}
    {service : ServiceId} {asked nowUnix : Int} {view : FundNavHistoryView}
    (h : fundNavHistory visible log free escrowed flows service fromUnix asked nowUnix = .ok view) :
    0 ≤ fromUnix ∧ fromUnix ≤ windowEnd asked nowUnix ∧
      view.marks = (readMarks log fromUnix (windowEnd asked nowUnix)).marks ∧
      participationSeries (free + escrowed) flows
        (readMarks log fromUnix (windowEnd asked nowUnix)).preWindow view.marks fromUnix
        (windowEnd asked nowUnix) = .ok view.participation := by
  unfold fundNavHistory at h
  obtain ⟨_, -, h⟩ := bind_ok_iff.mp h
  dsimp only at h
  split_ifs at h with hempty
  · cases h
  · obtain ⟨liveUnits, hlive, h⟩ := bind_ok_iff.mp h
    obtain ⟨points, hpoints, h⟩ := bind_ok_iff.mp h
    obtain rfl := Except.ok.inj h
    obtain rfl := checkedAdd_ok hlive
    exact ⟨by omega, by omega, rfl, hpoints⟩

/-- A history is answered where its series is. -/
theorem fundNavHistory_of_series {free escrowed : Nat} {asked nowUnix : Int} (service : ServiceId)
    (hfrom : 0 ≤ fromUnix) (hto : fromUnix ≤ windowEnd asked nowUnix)
    (hlive : free + escrowed < 2 ^ 128)
    (h : participationSeries (free + escrowed) flows
      (readMarks log fromUnix (windowEnd asked nowUnix)).preWindow
      (readMarks log fromUnix (windowEnd asked nowUnix)).marks fromUnix
      (windowEnd asked nowUnix) = .ok points) :
    ∃ view, fundNavHistory (.ok ()) log free escrowed flows service fromUnix asked nowUnix =
        .ok view ∧
      view.marks = (readMarks log fromUnix (windowEnd asked nowUnix)).marks ∧
      view.participation = points := by
  let reads := readMarks log fromUnix (windowEnd asked nowUnix)
  refine ⟨⟨service, reads.marks, points, reads.truncated⟩, ?_, rfl, rfl⟩
  unfold fundNavHistory
  dsimp only
  rw [if_neg (by omega), checkedAdd, if_pos hlive]
  change (participationSeries (free + escrowed) flows _ _ _ _ >>= _) = _
  rw [h]
  rfl

/-- **The participation series.** Whatever the log and the flows: where each mark in force at a
second that gets a point is read, and no sum of the walk back to one is out of the signed range,
every point is the units held by its second at the price in force, the seconds increase, and the
last is the live holding at the window's end. -/
theorem participation_right {visible : Except DomainError Unit} {free escrowed : Nat}
    {service : ServiceId} {asked nowUnix : Int} {view : FundNavHistoryView}
    (hlog : log.Pairwise fun later earlier => earlier.postedAt ≤ later.postedAt)
    (hnav : ∀ v ∈ log, v.nav < 2 ^ 128) (hflows : flows.Pairwise (·.atUnix ≤ ·.atUnix))
    (hlive : ((free + escrowed : Nat) : Int) = (flows.map (·.delta)).sum)
    (hsums : ∀ before, before <+: flows → 0 ≤ (before.map (·.delta)).sum)
    (hread : PricesRead log flows fromUnix (windowEnd asked nowUnix))
    (hfit : ∀ t ∈ participationInstants flows
      (readMarks log fromUnix (windowEnd asked nowUnix)).marks fromUnix (windowEnd asked nowUnix),
      UnitsFit (free + escrowed) flows t)
    (h : fundNavHistory visible log free escrowed flows service fromUnix asked nowUnix = .ok view) :
    ParticipationRight log flows (free + escrowed) fromUnix (windowEnd asked nowUnix)
      view.participation := by
  obtain ⟨hfrom, hto, hmarks, hpoints⟩ := fundNavHistory_ok h
  rw [hmarks] at hpoints
  exact participationSeries_right hlog hnav hflows hlive hsums hfrom hto hread hfit hpoints

/-- **A window of no more marks than an answer carries** has every mark in force read. -/
theorem pricesRead_of_short
    (hepoch : ∀ v ∈ log, 0 ≤ v.postedAt) (hfrom : 0 ≤ fromUnix) (hto : fromUnix ≤ toUnix)
    (hlast : toUnix < I64_MAX)
    (hshort : (log.filter (inWindow fromUnix toUnix)).length ≤ MAX_NAV_HISTORY_MARKS) :
    PricesRead log flows fromUnix toUnix := by
  intro t ht v hforce
  obtain ⟨hlo, hhi⟩ := participationInstants_within hfrom hto ht
  obtain ⟨hposted, newer, older, heq, hnewer⟩ := List.find?_eq_some_iff_append.mp hforce
  have hmem : v ∈ log := List.mem_of_find?_eq_some hforce
  rw [decide_eq_true_eq, Valuation.postedAtUnix_le_iff] at hposted
  by_cases hin : fromUnix * 1000000 ≤ v.postedAt
  · left
    have hend : saturatingAdd toUnix 1 = toUnix + 1 := by
      unfold saturatingAdd
      omega
    rw [readMarks_marks, List.mem_reverse, List.take_of_length_le hshort]
    exact List.mem_filter.mpr ⟨hmem, inWindow_iff.mpr ⟨hin, by omega⟩⟩
  · -- posted before the window: the newest of those
    right
    have hpos : 0 < fromUnix := by
      have := hepoch v hmem
      omega
    have hnone : newer.find? (fun u => decide (u.postedAt ≤ fromUnix * 1000000)) = none := by
      refine List.find?_eq_none.mpr fun u hu => ?_
      have := hnewer u hu
      simp only [Bool.not_eq_true', decide_eq_false_iff_not, Valuation.postedAtUnix_le_iff] at this
      simp only [decide_eq_true_eq]
      omega
    have haged : log.find? (fun u => decide (u.postedAt ≤ fromUnix * 1000000)) = some v := by
      rw [heq, List.find?_append, hnone, Option.none_or]
      exact List.find?_cons_of_pos (decide_eq_true (by omega))
    have hopen : v.postedAtUnix ≤ fromUnix := by
      rw [Valuation.postedAtUnix_le_iff]
      omega
    rw [readMarks_preWindow hpos, preWindowMark, if_pos hpos, anchor, haged, Option.filter_some,
      if_pos (decide_eq_true hopen)]

/-- Partial sums within the signed range keep the whole walk back within it. -/
theorem UnitsFit.of_sums (hlive : (liveUnits : Int) = (flows.map (·.delta)).sum)
    (hflows : flows.Pairwise (·.atUnix ≤ ·.atUnix))
    (hsums : ∀ before, before <+: flows → 0 ≤ (before.map (·.delta)).sum)
    (hsmall : ∀ before, before <+: flows → (before.map (·.delta)).sum < 2 ^ 127) :
    UnitsFit liveUnits flows t where
  live := by
    have := hsmall flows List.prefix_rfl
    omega
  held := unitsHeld_eq (t := t) hflows ▸ hsmall _ (List.takeWhile_prefix _)
  later := by
    intro l hl
    obtain ⟨before, hbefore⟩ := hl.trans (List.dropWhile_suffix _)
    have hsum := congrArg (fun l : List UnitFlow => (l.map (·.delta)).sum) hbefore
    simp only [List.map_append, List.sum_append] at hsum
    have := hsmall before ⟨l, hbefore⟩
    have := hsums flows List.prefix_rfl
    omega

end Right

/-! ## Samples -/

/-- A mark of that price and second, of a fund of one unit. -/
def samplePosted (nav : Nat) (second : Nat) : Valuation :=
  { aum := nav, unitsOutstanding := SCALE, nav, postedAt := second * 1000000 }

/-- A holding that opens with three units, and a window over three marks: the points at its start,
its flow, its marks and its end. -/
theorem participation_right_sample :
    ParticipationRight [samplePosted (4 * SCALE) 20, samplePosted (2 * SCALE) 9, samplePosted SCALE 5]
      [⟨7, 3⟩, ⟨15, -1⟩] 2 12 30 [⟨12, 6⟩, ⟨15, 4⟩, ⟨20, 8⟩, ⟨30, 8⟩] := by
  have hsums : ∀ before : List UnitFlow, before <+: [⟨7, 3⟩, ⟨15, -1⟩] →
      0 ≤ (before.map (·.delta)).sum ∧ (before.map (·.delta)).sum < 2 ^ 127 := by
    intro before hbefore
    rw [← List.mem_inits] at hbefore
    revert before
    decide
  have hview : fundNavHistory (.ok ())
      [samplePosted (4 * SCALE) 20, samplePosted (2 * SCALE) 9, samplePosted SCALE 5] 2 0
      [⟨7, 3⟩, ⟨15, -1⟩] ⟨"fund"⟩ 12 30 40 = .ok ⟨⟨"fund"⟩, [samplePosted (4 * SCALE) 20],
        [⟨12, 6⟩, ⟨15, 4⟩, ⟨20, 8⟩, ⟨30, 8⟩], false⟩ := by decide +kernel
  exact participation_right (by decide) (by decide) (by decide) (by decide)
    (fun l hl => (hsums l hl).1)
    (pricesRead_of_short (by decide) (by decide) (by decide) (by decide) (by decide))
    (fun t _ => .of_sums (by decide) (by decide) (fun l hl => (hsums l hl).1)
      fun l hl => (hsums l hl).2) hview

/-- A mark a day for two thousand and one days: the first at twice the seed's price, every other at
the seed's. -/
def sampleDailyLog : List Valuation :=
  (List.range 2000).map (fun i => samplePosted SCALE (86400 * (2001 - i))) ++
    [samplePosted (2 * SCALE) 86400]

/-- The marks but for the first. -/
def sampleLaterMarks : List Valuation :=
  (List.range 2000).map fun i => samplePosted SCALE (86400 * (2001 - i))

theorem mem_sampleLaterMarks {v : Valuation} (h : v ∈ sampleLaterMarks) :
    v.nav = SCALE ∧ 172800 * 1000000 ≤ v.postedAt ∧ v.postedAt ≤ 172886400 * 1000000 := by
  obtain ⟨i, hi, rfl⟩ := List.mem_map.mp h
  have := List.mem_range.mp hi
  refine ⟨rfl, ?_⟩
  simp only [samplePosted]
  omega

/-- The log is in order. -/
theorem sampleDailyLog_sorted :
    sampleDailyLog.Pairwise fun later earlier => earlier.postedAt ≤ later.postedAt := by
  refine List.pairwise_append.mpr ⟨?_, List.pairwise_singleton _ _, fun v hv u hu => ?_⟩
  · refine List.pairwise_map.mpr (List.pairwise_lt_range.imp fun {i j} hij => ?_)
    simp only [samplePosted]
    omega
  · rw [List.mem_singleton.mp hu]
    have := (mem_sampleLaterMarks hv).2.1
    simp only [samplePosted]
    omega

/-- A history of the whole log keeps all but the first mark, and reads none from before. -/
theorem sampleDailyLog_read :
    (readMarks sampleDailyLog 1 172972800).marks = sampleLaterMarks.reverse ∧
      (readMarks sampleDailyLog 1 172972800).preWindow = none := by
  have hlen : sampleLaterMarks.length = MAX_NAV_HISTORY_MARKS := by
    rw [sampleLaterMarks, List.length_map, List.length_range]
    rfl
  have hend : saturatingAdd 172972800 1 = 172972801 := by decide
  have hall : sampleDailyLog.filter (inWindow 1 172972800) = sampleDailyLog := by
    refine List.filter_eq_self.mpr fun v hv => inWindow_iff.mpr ?_
    rw [hend]
    rcases List.mem_append.mp hv with hv | hv
    · have := (mem_sampleLaterMarks hv).2
      omega
    · rw [List.mem_singleton.mp hv]
      decide
  constructor
  · rw [readMarks_marks, hall, ← hlen]
    exact congrArg List.reverse List.take_left
  · have hnone : sampleDailyLog.find? (fun v => decide (v.postedAt ≤ 1 * 1000000)) = none := by
      refine List.find?_eq_none.mpr fun v hv => ?_
      rw [decide_eq_true_eq]
      rcases List.mem_append.mp hv with hv | hv
      · have := (mem_sampleLaterMarks hv).2.1
        omega
      · rw [List.mem_singleton.mp hv]
        decide
    have holdest : sampleDailyLog.getLast? = some (samplePosted (2 * SCALE) 86400) :=
      List.getLast?_concat
    rw [readMarks_preWindow (by decide), preWindowMark, if_pos (by decide), anchor, hnone]
    simp only [holdest]
    decide

/-- Every mark kept is at the seed's price, so every second is. -/
theorem sampleLaterMarks_price (t : Int) : priceAt none sampleLaterMarks.reverse t = SCALE := by
  unfold priceAt
  split
  case h_1 last hlast =>
    have hlt : last < sampleLaterMarks.reverse.length := by
      have := (List.takeWhile_prefix (l := sampleLaterMarks.reverse)
        (fun v => decide (v.postedAtUnix ≤ t))).length_le
      unfold partitionPoint at hlast
      omega
    rw [List.getElem?_eq_getElem hlt]
    exact (mem_sampleLaterMarks (List.mem_reverse.mp (List.getElem_mem hlt))).1
  case h_2 => rfl

/-- At the seed's price, units are worth as much as they are many. -/
theorem Nav.value_seed (liveUnits : Nat) (flows : List UnitFlow) (t : Int) :
    Nav.value SCALE (unitsAt liveUnits flows t) = .ok (unitsAt liveUnits flows t) := by
  have hlt : unitsAt liveUnits flows t < 2 ^ 128 := by
    unfold unitsAt saturatingI128
    dsimp only
    omega
  rw [Nav.value_fits SCALE_lt hlt hlt (Nat.mul_div_cancel _ SCALE_pos).le,
    Nat.mul_div_cancel _ SCALE_pos]

/-- An hour after the first mark it is the one in force. -/
theorem sampleDailyLog_force : navInForce sampleDailyLog 90000 = 2 * SCALE := by
  have hnone : sampleLaterMarks.find? (fun v => decide (v.postedAtUnix ≤ 90000)) = none := by
    refine List.find?_eq_none.mpr fun v hv => ?_
    have := (mem_sampleLaterMarks hv).2.1
    rw [decide_eq_true_eq, Valuation.postedAtUnix_le_iff]
    omega
  have hfound : sampleDailyLog.find? (fun v => decide (v.postedAtUnix ≤ 90000)) =
      some (samplePosted (2 * SCALE) 86400) := by
    rw [show sampleDailyLog = sampleLaterMarks ++ [samplePosted (2 * SCALE) 86400] from rfl,
      List.find?_append, hnone]
    rfl
  rw [navInForce, hfound]
  rfl

/-- **A mark that is left out prices nothing.** Three units arrive an hour after the first mark, at
twice the seed's price. The history of all two thousand and one days keeps the later marks only, and
values the units then at the seed's price. -/
theorem left_out_mark_prices_nothing :
    ∃ view, fundNavHistory (.ok ()) sampleDailyLog 3 0 [⟨90000, 3⟩] ⟨"fund"⟩ 1 0 172972800 =
        .ok view ∧
      sampleDailyLog.Pairwise (fun later earlier => earlier.postedAt ≤ later.postedAt) ∧
      view.marks = sampleLaterMarks.reverse ∧ ⟨90000, 3⟩ ∈ view.participation ∧
      unitsHeld [⟨90000, 3⟩] 90000 = 3 ∧ navInForce sampleDailyLog 90000 = 2 * SCALE ∧
      ¬ ParticipationRight sampleDailyLog [⟨90000, 3⟩] 3 1 172972800 view.participation := by
  obtain ⟨hmarks, hpre⟩ := sampleDailyLog_read
  have hend : windowEnd 0 172972800 = 172972800 := rfl
  have hseries : participationSeries (3 + 0) [⟨90000, 3⟩]
      (readMarks sampleDailyLog 1 (windowEnd 0 172972800)).preWindow
      (readMarks sampleDailyLog 1 (windowEnd 0 172972800)).marks 1 (windowEnd 0 172972800) =
      .ok ((participationInstants [⟨90000, 3⟩] sampleLaterMarks.reverse 1 172972800).map fun t =>
        ⟨t, unitsAt 3 [⟨90000, 3⟩] t⟩) := by
    rw [hend, hmarks, hpre, participationSeries, if_neg (by decide)]
    simp only [sampleLaterMarks_price, Nav.value_seed]
    exact List.mapM_pure
  obtain ⟨view, hview, hkept, hpoints⟩ :=
    fundNavHistory_of_series ⟨"fund"⟩ (by decide) (by decide) (by decide) hseries
  rw [hend, hmarks] at hkept
  have hinstant : (90000 : Int) ∈
      participationInstants [⟨90000, 3⟩] sampleLaterMarks.reverse 1 172972800 :=
    mem_participationInstants.mpr ⟨le_rfl, .inr (.inr (.inl ⟨⟨_, List.mem_cons_self, rfl⟩,
      by decide, by decide⟩))⟩
  have hpoint : ⟨90000, 3⟩ ∈ view.participation := by
    rw [hpoints]
    exact List.mem_map.mpr ⟨90000, hinstant, by decide⟩
  have hheld : unitsHeld [⟨90000, 3⟩] 90000 = 3 := by decide
  refine ⟨view, hview, sampleDailyLog_sorted, hkept, hpoint, hheld, sampleDailyLog_force,
    fun hright => ?_⟩
  have hsix := hright.value _ hpoint
  rw [hheld, sampleDailyLog_force] at hsix
  exact absurd hsix (by decide)

end Banking
