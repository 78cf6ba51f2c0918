import Banking.Book

/-! # Price-time priority

What the matching engine promises on its own. It walks its listing in the order it is handed over
and never sorts it: the makers it comes to are a prefix (`Reaches`), its fills are what they have
left (`Dealt`), and best first is the listing's part (`inPriceTime`). -/

namespace Banking

/-! ## The makers a taker comes to -/

/-- The units some makers have left. -/
def standing (makers : List RestingOrder) : Nat := (makers.map (·.remaining)).sum

/-- **How far a taker of `size` units gets into a listing**: every maker it comes to crosses and
finds it wanting, and it stops at the first that does not. -/
structure Reaches (taker : Order) (size : Nat) (resting reached : List RestingOrder) : Prop where
  listed : reached <+: resting
  crossing : ∀ maker ∈ reached, crosses taker maker = true
  wanting : ∀ before maker, before ++ [maker] <+: reached → standing before < size
  stops : ∀ maker, reached ++ [maker] <+: resting →
    size ≤ standing reached ∨ crosses taker maker = false

/-- The makers the engine's walk comes to with `size` units left. -/
def reach (taker : Order) : List RestingOrder → Nat → List RestingOrder
  | [], _ => []
  | maker :: makers, size =>
    if size = 0 ∨ ¬ crosses taker maker then []
    else maker :: reach taker makers (size - maker.remaining)

@[simp] theorem standing_nil : standing [] = 0 := rfl

@[simp] theorem standing_cons (maker : RestingOrder) (makers : List RestingOrder) :
    standing (maker :: makers) = maker.remaining + standing makers := rfl

/-- A walk that stops at once has come to nobody. -/
theorem reach_stop {taker : Order} {maker : RestingOrder} {makers : List RestingOrder} {size : Nat}
    (h : size = 0 ∨ ¬ crosses taker maker = true) : reach taker (maker :: makers) size = [] := by
  rw [reach, if_pos h]

/-- A walk that does not stop has come to the first maker. -/
theorem reach_go {taker : Order} {maker : RestingOrder} {makers : List RestingOrder} {size : Nat}
    (h : ¬ (size = 0 ∨ ¬ crosses taker maker = true)) :
    reach taker (maker :: makers) size = maker :: reach taker makers (size - maker.remaining) := by
  rw [reach, if_neg h]

/-- **The walk gets as far as a taker does.** -/
theorem reach_reaches (taker : Order) (resting : List RestingOrder) (size : Nat) :
    Reaches taker size resting (reach taker resting size) := by
  induction resting generalizing size with
  | nil =>
    refine ⟨List.prefix_rfl, by simp [reach], fun before maker h => ?_, fun maker h => ?_⟩
    · exact absurd (List.prefix_nil.mp h) (by simp)
    · exact absurd (List.prefix_nil.mp h) (by simp)
  | cons maker makers ih =>
    by_cases hstop : size = 0 ∨ ¬ crosses taker maker = true
    · rw [reach_stop hstop]
      refine ⟨List.nil_prefix, by simp, fun before m h => ?_, fun m h => ?_⟩
      · exact absurd (List.prefix_nil.mp h) (by simp)
      · -- the maker it stops at is the listing's first
        obtain rfl : m = maker := by simpa using (List.cons_prefix_cons.mp h).1
        rcases hstop with hzero | hcross
        · exact .inl (by omega)
        · exact .inr (by simpa using hcross)
    · rw [reach_go hstop]
      have hcross : crosses taker maker = true := by
        by_contra hne
        exact hstop (.inr hne)
      have hrest := ih (size - maker.remaining)
      constructor
      · exact List.cons_prefix_cons.mpr ⟨rfl, hrest.listed⟩
      · intro m hm
        rcases List.mem_cons.mp hm with rfl | hm
        · exact hcross
        · exact hrest.crossing m hm
      · intro before m h
        cases before with
        | nil => exact Nat.pos_of_ne_zero fun hzero => hstop (.inl hzero)
        | cons first before =>
          obtain ⟨rfl, h⟩ := List.cons_prefix_cons.mp h
          have := hrest.wanting before m h
          rw [standing_cons]
          omega
      · intro m h
        obtain ⟨-, h⟩ := List.cons_prefix_cons.mp h
        rcases hrest.stops m h with hfull | hcross
        · left
          rw [standing_cons]
          omega
        · exact .inr hcross

/-- The makers come to are the first of those that cross. -/
theorem Reaches.prefix_filter {taker : Order} {size : Nat} {resting reached : List RestingOrder}
    (h : Reaches taker size resting reached) : reached <+: resting.filter (crosses taker) := by
  obtain ⟨rest, rfl⟩ := h.listed
  rw [List.filter_append, List.filter_eq_self.mpr h.crossing]
  exact List.prefix_append _ _

/-! ## The fills -/

/-- A fill with a maker: at its price, of some of what it has left. -/
structure Fill.With (fill : Fill) (maker : RestingOrder) : Prop where
  id : fill.maker = maker.id
  user : fill.makerUser = maker.user
  price : fill.price = maker.price
  pos : 0 < fill.size
  le : fill.size ≤ maker.remaining

/-- The makers that have something left. -/
def alive (makers : List RestingOrder) : List RestingOrder := makers.filter (·.remaining ≠ 0)

/-- **What a taker of `size` units is dealt by the makers it comes to**: one fill with each that has
something left, all of it but for the last, and what it wanted is dealt or left. -/
structure Dealt (size : Nat) (reached : List RestingOrder) (fills : List Fill) (left : Nat) :
    Prop where
  conserved : (fills.map (·.size)).sum + left = size
  each : List.Forall₂ Fill.With fills (alive reached)
  exhausts : List.Forall₂ (fun fill maker => fill.size = maker.remaining) fills.dropLast
    (alive reached).dropLast
  left_eq : left = size - standing reached

/-- Every fill is with a maker the taker came to. -/
theorem Dealt.from {size : Nat} {reached : List RestingOrder} {fills : List Fill} {left : Nat}
    (h : Dealt size reached fills left) {fill : Fill} (hfill : fill ∈ fills) :
    ∃ maker ∈ reached, fill.With maker := by
  obtain ⟨hlen, hget⟩ := List.forall₂_iff_get.mp h.each
  obtain ⟨i, hi, rfl⟩ := List.getElem_of_mem hfill
  have hmem := List.getElem_mem (hlen ▸ hi)
  exact ⟨_, (List.mem_filter.mp hmem).1, hget i hi (hlen ▸ hi)⟩

/-- Nobody dealt anything. -/
theorem Dealt.nil (size : Nat) : Dealt size [] [] size :=
  ⟨Nat.zero_add _, .nil, .nil, rfl⟩

/-- A maker with nothing left deals nothing. -/
theorem Dealt.empty {size : Nat} {maker : RestingOrder} {reached : List RestingOrder}
    {fills : List Fill} {left : Nat} (hempty : maker.remaining = 0)
    (h : Dealt size reached fills left) : Dealt size (maker :: reached) fills left := by
  have halive : alive (maker :: reached) = alive reached := by simp [alive, hempty]
  refine ⟨h.conserved, halive ▸ h.each, halive ▸ h.exhausts, ?_⟩
  rw [h.left_eq, standing_cons, hempty, Nat.zero_add]

/-- A maker with something left deals what is wanted of it. -/
theorem Dealt.cons {size : Nat} {maker : RestingOrder} {reached : List RestingOrder}
    {fills : List Fill} {left : Nat} (hsize : size ≠ 0) (hleft : maker.remaining ≠ 0)
    (h : Dealt (size - min size maker.remaining) reached fills left) :
    Dealt size (maker :: reached)
      ({ maker := maker.id, makerUser := maker.user, price := maker.price
         size := min size maker.remaining } :: fills) left := by
  have halive : alive (maker :: reached) = maker :: alive reached := by simp [alive, hleft]
  refine ⟨?_, ?_, ?_, ?_⟩
  · rw [List.map_cons, List.sum_cons, Nat.add_assoc, h.conserved]
    show min size maker.remaining + (size - min size maker.remaining) = size
    omega
  · rw [halive]
    refine .cons ⟨rfl, rfl, rfl, ?_, Nat.min_le_right _ _⟩ h.each
    show 0 < min size maker.remaining
    omega
  · rw [halive]
    have heach := h.each
    have hexhausts := h.exhausts
    have hsum := h.conserved
    revert heach hexhausts hsum
    generalize alive reached = live
    intro heach hexhausts hsum
    cases heach with
    | nil => exact .nil
    | @cons fill next fills' live' hfill htail =>
      -- a further fill says that the first took all the maker had
      rw [List.dropLast_cons_cons, List.dropLast_cons_cons]
      refine .cons ?_ hexhausts
      have := hfill.pos
      rw [List.map_cons, List.sum_cons] at hsum
      show min size maker.remaining = maker.remaining
      omega
  · rw [h.left_eq, standing_cons]
    omega

/-- A walk goes on alike when the taker's size is taken down by all a maker has left. -/
theorem sub_min_eq (size remaining : Nat) : size - min size remaining = size - remaining := by
  omega

/-- **The walk's fills** are dealt by the makers it comes to. -/
theorem walk_dealt {taker : Order} {resting : List RestingOrder} :
    ∀ {size left : Nat} {fills : List Fill}, walk taker resting size = .ok (fills, left) →
      Dealt size (reach taker resting size) fills left := by
  induction resting with
  | nil =>
    intro size left fills h
    obtain ⟨rfl, rfl⟩ := Prod.mk.inj (Except.ok.inj h)
    exact Dealt.nil _
  | cons maker makers ih =>
    intro size left fills h
    unfold walk at h
    split_ifs at h with hstop hself halo hempty
    · -- it stops at once
      obtain ⟨rfl, rfl⟩ := Prod.mk.inj (Except.ok.inj h)
      rw [reach_stop hstop]
      exact Dealt.nil _
    · -- a maker with nothing left is passed over
      rw [reach_go hstop, hempty, Nat.sub_zero]
      exact (ih h).empty hempty
    · -- a fill, and the rest of the walk
      simp only [bind_ok_iff] at h
      obtain ⟨⟨fills', left'⟩, hrest, h⟩ := h
      obtain ⟨rfl, rfl⟩ := Prod.mk.inj (Except.ok.inj h)
      have hdealt := ih hrest
      rw [reach_go hstop]
      have hsize : size ≠ 0 := fun hzero => hstop (.inl hzero)
      refine Dealt.cons hsize hempty ?_
      rw [← sub_min_eq size maker.remaining]
      exact hdealt

/-- **The walk refuses** exactly when it comes to an order of the taker's own, or to anybody while
the taker only adds liquidity. -/
theorem walk_error_iff {taker : Order} {resting : List RestingOrder} :
    ∀ {size : Nat}, (∃ refusal, walk taker resting size = .error refusal) ↔
      (∃ maker ∈ reach taker resting size, maker.user = taker.user) ∨
        taker.tif = .alo ∧ reach taker resting size ≠ [] := by
  induction resting with
  | nil =>
    intro size
    simp [walk, reach]
  | cons maker makers ih =>
    intro size
    by_cases hstop : size = 0 ∨ ¬ crosses taker maker = true
    · rw [reach_stop hstop, walk, if_pos hstop]
      simp
    · rw [reach_go hstop, walk, if_neg hstop]
      by_cases hself : maker.user = taker.user
      · simp [hself]
      · rw [if_neg hself]
        by_cases halo : taker.tif = .alo
        · simp [halo]
        · rw [if_neg halo]
          by_cases hempty : maker.remaining = 0
          · -- nothing to take: the rest of the walk decides
            rw [if_pos hempty, ih, hempty]
            simp [hself, halo]
          · rw [if_neg hempty]
            have hrest := @ih (size - maker.remaining)
            rw [← sub_min_eq] at hrest ⊢
            simp only [halo, false_and, or_false, List.mem_cons, exists_eq_or_imp, hself,
              false_or] at hrest ⊢
            rw [← hrest]
            cases walk taker makers (size - min size maker.remaining) with
            | error refusal => simp [bind, Except.bind]
            | ok out => simp [bind, Except.bind, pure, Except.pure]

/-! ## Best first -/

/-- Whether a maker's price is at least as good for a taker as another's. -/
def noWorse (taker : Order) (maker other : RestingOrder) : Prop :=
  match taker.side with
  | .buy => maker.price ≤ other.price
  | .sell => other.price ≤ maker.price

/-- Whether a maker comes before another in price-time priority, by when each arrived. -/
def ahead (taker : Order) (arrival : RestingOrder → Nat) (maker other : RestingOrder) : Prop :=
  noWorse taker maker other ∧ (maker.price = other.price → arrival maker ≤ arrival other)

instance (taker : Order) (arrival : RestingOrder → Nat) :
    DecidableRel (ahead taker arrival) := fun maker other => by
  unfold ahead noWorse
  cases taker.side <;> exact inferInstance

/-- The listing the adapter reads: by price, then by arrival. -/
def inPriceTime (taker : Order) (arrival : RestingOrder → Nat) (makers : List RestingOrder) :
    List RestingOrder :=
  makers.insertionSort (ahead taker arrival)

theorem ahead_total (taker : Order) (arrival : RestingOrder → Nat) (maker other : RestingOrder) :
    ahead taker arrival maker other ∨ ahead taker arrival other maker := by
  unfold ahead noWorse
  cases taker.side <;> dsimp only <;> omega

theorem ahead_trans {taker : Order} {arrival : RestingOrder → Nat} {a b c : RestingOrder}
    (hab : ahead taker arrival a b) (hbc : ahead taker arrival b c) : ahead taker arrival a c := by
  unfold ahead noWorse at *
  cases hs : taker.side <;> rw [hs] at hab hbc <;> dsimp only at * <;> omega

/-- Makers of one price come in the order they arrived, so two that are ahead of one another arrived
together. -/
theorem ahead_antisymm {taker : Order} {arrival : RestingOrder → Nat} {a b : RestingOrder}
    (hab : ahead taker arrival a b) (hba : ahead taker arrival b a) : arrival a = arrival b := by
  unfold ahead noWorse at *
  cases hs : taker.side <;> rw [hs] at hab hba <;> dsimp only at * <;> omega

/-- **The listing is in price-time order.** -/
theorem inPriceTime_pairwise (taker : Order) (arrival : RestingOrder → Nat)
    (makers : List RestingOrder) :
    (inPriceTime taker arrival makers).Pairwise (ahead taker arrival) := by
  have : Std.Total (ahead taker arrival) := ⟨ahead_total taker arrival⟩
  have : IsTrans RestingOrder (ahead taker arrival) := ⟨fun _ _ _ => ahead_trans⟩
  exact List.pairwise_insertionSort _ _

/-- **The listing is of the makers**, whatever order they are stored in: where no two arrived
together there is one listing in price-time order. -/
theorem inPriceTime_perm {taker : Order} {arrival : RestingOrder → Nat}
    {makers makers' : List RestingOrder} (hperm : makers.Perm makers')
    (hdistinct : ∀ a ∈ makers, ∀ b ∈ makers, arrival a = arrival b → a = b) :
    inPriceTime taker arrival makers = inPriceTime taker arrival makers' := by
  have hlisted : (inPriceTime taker arrival makers).Perm makers := List.perm_insertionSort _ _
  have hlisted' : (inPriceTime taker arrival makers').Perm makers' := List.perm_insertionSort _ _
  refine List.Perm.eq_of_pairwise ?_
    (inPriceTime_pairwise taker arrival makers) (inPriceTime_pairwise taker arrival makers')
    (hlisted.trans (hperm.trans hlisted'.symm))
  intro a b ha hb hab hba
  refine hdistinct a (hlisted.mem_iff.mp ha) b ?_ (ahead_antisymm hab hba)
  exact hperm.mem_iff.mpr (hlisted'.mem_iff.mp hb)

/-- Where a maker crosses, so does one whose price is no worse. -/
theorem crosses_of_noWorse {taker : Order} {maker other : RestingOrder}
    (h : noWorse taker maker other) (hcross : crosses taker other = true) :
    crosses taker maker = true := by
  unfold noWorse at h
  unfold crosses at *
  cases hs : taker.side <;> rw [hs] at h hcross <;> simp only [decide_eq_true_eq] at * <;> omega

/-- **Best first, nobody who crosses is left out**: a taker that is not exhausted comes to all of
them. -/
theorem Reaches.all {taker : Order} {size : Nat} {resting reached : List RestingOrder}
    (h : Reaches taker size resting reached) (hsorted : resting.Pairwise (noWorse taker))
    (hwanting : standing reached < size) : reached = resting.filter (crosses taker) := by
  obtain ⟨rest, rfl⟩ := h.listed
  rw [List.filter_append, List.filter_eq_self.mpr h.crossing]
  -- the first maker it does not come to does not cross, and the rest are no better
  have hnone : rest.filter (crosses taker) = [] := by
    cases rest with
    | nil => rfl
    | cons next rest =>
      have hnext : crosses taker next = false := by
        rcases h.stops next (by simp) with hfull | hcross
        · omega
        · exact hcross
      have hworse := (List.pairwise_cons.mp (List.pairwise_append.mp hsorted).2.1).1
      refine List.filter_eq_nil_iff.mpr fun m hm => ?_
      rcases List.mem_cons.mp hm with rfl | hm
      · simp [hnext]
      · intro hcross
        rw [crosses_of_noWorse (hworse m hm) hcross] at hnext
        cases hnext
  rw [hnone, List.append_nil]

/-- A price within a taker's limit. -/
def Order.Within (taker : Order) (price : Nat) : Prop :=
  match taker.side with
  | .buy => price ≤ taker.price
  | .sell => taker.price ≤ price

/-- A maker that crosses has a price within the limit. -/
theorem within_of_crosses {taker : Order} {maker : RestingOrder}
    (h : crosses taker maker = true) : taker.Within maker.price := by
  unfold crosses at h
  unfold Order.Within
  cases hs : taker.side <;> rw [hs] at h <;> simpa using h

/-- What the engine decides, by its walk. -/
theorem matchOrder_walk {taker : Order} {resting : List RestingOrder} {outcome : MatchOutcome}
    (h : matchOrder taker resting = .ok outcome) :
    walk taker resting taker.size = .ok (outcome.fills, outcome.remainder) ∧
      outcome.rests = (outcome.remainder ≠ 0 && taker.tif ≠ .ioc) := by
  simp only [matchOrder, bind_ok_iff] at h
  obtain ⟨⟨fills, left⟩, hwalk, h⟩ := h
  rw [← Except.ok.inj h]
  exact ⟨hwalk, rfl⟩

/-- The engine refuses what its walk refuses. -/
theorem matchOrder_error_iff {taker : Order} {resting : List RestingOrder} :
    (∃ refusal, matchOrder taker resting = .error refusal) ↔
      ∃ refusal, walk taker resting taker.size = .error refusal := by
  unfold matchOrder
  cases walk taker resting taker.size with
  | error refusal => simp [bind, Except.bind]
  | ok out => simp [bind, Except.bind, pure, Except.pure]

/-- **The engine is price-time priority over the listing it is handed.** For every taker and every
listing there is the prefix of makers the taker comes to: each crosses and finds it wanting, and it
stops where it is exhausted or the next does not cross. The order is refused exactly when that
prefix holds one of the taker's own orders, or anybody while the taker only adds liquidity.
Otherwise its fills are one with each maker of the prefix that has something left, in that order, at
the maker's price and within the limit, all but the last exhausting theirs, and fills and remainder
make the size. Over a listing best first the prefix is all that crosses unless the taker is
exhausted; and the listing in price-time order, and with it the result, does not depend on the order
the makers are stored in. -/
theorem price_time_priority (taker : Order) (resting : List RestingOrder) :
    (∃ reached, Reaches taker taker.size resting reached ∧
      ((∃ refusal, matchOrder taker resting = .error refusal) ↔
        (∃ maker ∈ reached, maker.user = taker.user) ∨ taker.tif = .alo ∧ reached ≠ []) ∧
      (∀ outcome, matchOrder taker resting = .ok outcome →
        Dealt taker.size reached outcome.fills outcome.remainder ∧
        (∀ fill ∈ outcome.fills, taker.Within fill.price) ∧
        outcome.rests = (outcome.remainder ≠ 0 && taker.tif ≠ .ioc)) ∧
      reached <+: resting.filter (crosses taker) ∧
      (resting.Pairwise (noWorse taker) →
        taker.size ≤ standing reached ∨ reached = resting.filter (crosses taker))) ∧
    (∀ arrival : RestingOrder → Nat,
      (inPriceTime taker arrival resting).Pairwise (noWorse taker) ∧
      ∀ makers, resting.Perm makers →
        (∀ a ∈ resting, ∀ b ∈ resting, arrival a = arrival b → a = b) →
        matchOrder taker (inPriceTime taker arrival makers) =
          matchOrder taker (inPriceTime taker arrival resting)) := by
  have hreaches := reach_reaches taker resting taker.size
  refine ⟨⟨reach taker resting taker.size, hreaches, ?_, ?_, hreaches.prefix_filter, ?_⟩, ?_⟩
  · rw [matchOrder_error_iff, walk_error_iff]
  · intro outcome h
    obtain ⟨hwalk, hrests⟩ := matchOrder_walk h
    have hdealt := walk_dealt hwalk
    refine ⟨hdealt, fun fill hfill => ?_, hrests⟩
    obtain ⟨maker, hmaker, hwith⟩ := hdealt.from hfill
    rw [hwith.price]
    exact within_of_crosses (hreaches.crossing maker hmaker)
  · intro hsorted
    by_cases hfull : taker.size ≤ standing (reach taker resting taker.size)
    · exact .inl hfull
    · exact .inr (hreaches.all hsorted (by omega))
  · intro arrival
    have hsorted := inPriceTime_pairwise taker arrival resting
    refine ⟨hsorted.imp (·.1), fun makers hperm hdistinct => ?_⟩
    rw [inPriceTime_perm hperm hdistinct]

/-- Two asks of a unit each, at a price, by somebody who is not the taker. -/
def sampleMaker (id price : Nat) : RestingOrder :=
  { id := .raw id, user := .raw 2, price := price * SCALE, remaining := SCALE }

/-- A buy of one unit at thirty. -/
def sampleTaker : Order :=
  Order.place (.raw 9) ⟨"momentum"⟩ (.raw 1) "b1" .buy .limit .gtc (30 * SCALE) SCALE
    (.cash (30 * SCALE))

/-- **The engine does not sort**: handed an ask at twenty before one at ten, it fills at twenty, and
handed the two the other way round, at ten. -/
theorem price_time_priority_listed :
    ∃ resting makers : List RestingOrder, resting.Perm makers ∧
      matchOrder sampleTaker resting ≠ matchOrder sampleTaker makers ∧
      (matchOrder sampleTaker resting).toOption.map (·.fills.map (·.price)) = some [20 * SCALE] ∧
      (matchOrder sampleTaker makers).toOption.map (·.fills.map (·.price)) = some [10 * SCALE] := by
  refine ⟨[sampleMaker 3 20, sampleMaker 4 10], [sampleMaker 4 10, sampleMaker 3 20],
    .swap _ _ _, ?_, ?_, ?_⟩
  · intro h
    have := congrArg (fun r => r.toOption.map (·.fills.map (·.price))) h
    revert this
    decide +kernel
  · decide +kernel
  · decide +kernel

end Banking
