import Banking.BookFills

/-! # Fills, reserves and limits

What one order's arithmetic promises on its own. A fill is run on the order itself
(`Order.fillInPlace`), so a total that overflows leaves what was stored before it; a buy's reserve
is rounded once and covers its fills however they are cut (`reserve_dominates`); a market order's
limit is the slippage bound rounded outwards to the tick. -/

namespace Banking

/-! ## A fill of the order itself -/

/-- A fill as it is run on the order itself: each total is stored before the next one is checked, so
the order left behind by a refusal need not be the one that was there. -/
def Order.fillInPlace (o : Order) (size price fee : Nat) : Except DomainError Unit × Order :=
  if ¬ o.state.isResting then
    (.error (.conflict ("order is " ++ o.state.asStr ++ ", not fillable")), o)
  else if size = 0 ∨ o.remaining < size then
    (.error (.validation "fill exceeds the order's remaining size"), o)
  else
    match Price.value price size with
    | .error refusal => (.error refusal, o)
    | .ok notional =>
      match checkedAdd o.filled size "filled size overflows" with
      | .error refusal => (.error refusal, o)
      | .ok filled =>
        let o := { o with filled }
        match checkedAdd o.notionalFilled notional "filled notional overflows" with
        | .error refusal => (.error refusal, o)
        | .ok notionalFilled =>
          let o := { o with notionalFilled }
          match checkedAdd o.feePaid fee "fee paid overflows" with
          | .error refusal => (.error refusal, o)
          | .ok feePaid =>
            let o := { o with feePaid }
            (.ok (), { o with state := if o.filled = o.size then .filled else .partiallyFilled })

/-- **The two readings of a fill agree**: the same answer, and the same order where it is
recorded. -/
theorem Order.fillInPlace_fill (o : Order) (size price fee : Nat) :
    o.fill size price fee =
      (o.fillInPlace size price fee).1.map fun _ => (o.fillInPlace size price fee).2 := by
  unfold Order.fill Order.fillInPlace
  by_cases hresting : o.state.isResting = true
  swap
  · rw [if_pos hresting, if_pos hresting]; rfl
  rw [if_neg (not_not.mpr hresting), if_neg (not_not.mpr hresting)]
  by_cases hsize : size = 0 ∨ o.remaining < size
  · rw [if_pos hsize, if_pos hsize]; rfl
  rw [if_neg hsize, if_neg hsize]
  cases Price.value price size with
  | error refusal => rfl
  | ok notional =>
    dsimp only [bind, Except.bind]
    cases checkedAdd o.filled size "filled size overflows" with
    | error refusal => rfl
    | ok filled =>
      dsimp only
      cases checkedAdd o.notionalFilled notional "filled notional overflows" with
      | error refusal => rfl
      | ok total => cases checkedAdd o.feePaid fee "fee paid overflows" <;> rfl

/-- What a fill has to pass before the order is touched. -/
structure Order.Takes (o : Order) (size price notional : Nat) : Prop where
  resting : o.state.isResting
  pos : 0 < size
  le : size ≤ o.remaining
  value : Price.value price size = .ok notional
  filled_lt : o.filled + size < 2 ^ 128

/-- A sum within 128 bits. -/
theorem checkedAdd_of_lt {a b : Nat} {overflow : String} (h : a + b < 2 ^ 128) :
    checkedAdd a b overflow = .ok (a + b) := if_pos h

/-- A sum beyond 128 bits. -/
theorem checkedAdd_of_le {a b : Nat} {overflow : String} (h : 2 ^ 128 ≤ a + b) :
    checkedAdd a b overflow = .error (.validation overflow) := if_neg (by omega)

/-- A fill that does not pass leaves the order alone. -/
theorem Order.fillInPlace_refuses {o : Order} {size price : Nat} (fee : Nat)
    (h : ∀ notional, ¬ o.Takes size price notional) :
    ∃ refusal, o.fillInPlace size price fee = (.error refusal, o) := by
  unfold Order.fillInPlace
  by_cases hresting : o.state.isResting = true
  swap
  · exact ⟨_, if_pos hresting⟩
  rw [if_neg (not_not.mpr hresting)]
  by_cases hsize : size = 0 ∨ o.remaining < size
  · exact ⟨_, if_pos hsize⟩
  rw [if_neg hsize]
  cases hvalue : Price.value price size with
  | error refusal => exact ⟨refusal, rfl⟩
  | ok notional =>
    have hfull : 2 ^ 128 ≤ o.filled + size := by
      by_contra hlt
      exact h notional ⟨hresting, by omega, by omega, hvalue, by omega⟩
    dsimp only
    rw [checkedAdd_of_le hfull]
    exact ⟨_, rfl⟩

/-- **What a fill that passes leaves behind**: the size is in whatever the totals do. -/
theorem Order.Takes.fillInPlace {o : Order} {size price notional : Nat}
    (h : o.Takes size price notional) (fee : Nat) :
    o.fillInPlace size price fee =
      if 2 ^ 128 ≤ o.notionalFilled + notional then
        (.error (.validation "filled notional overflows"), { o with filled := o.filled + size })
      else if 2 ^ 128 ≤ o.feePaid + fee then
        (.error (.validation "fee paid overflows"),
          { o with filled := o.filled + size, notionalFilled := o.notionalFilled + notional })
      else
        (.ok (), { o with
          filled := o.filled + size
          notionalFilled := o.notionalFilled + notional
          feePaid := o.feePaid + fee
          state := if o.filled + size = o.size then .filled else .partiallyFilled }) := by
  have hsize : ¬ (size = 0 ∨ o.remaining < size) := by
    have := h.pos
    have := h.le
    omega
  unfold Order.fillInPlace
  rw [if_neg (not_not.mpr h.resting), if_neg hsize, h.value]
  dsimp only
  rw [checkedAdd_of_lt h.filled_lt]
  dsimp only
  by_cases hnotional : 2 ^ 128 ≤ o.notionalFilled + notional
  · rw [if_pos hnotional, checkedAdd_of_le hnotional]
  · rw [if_neg hnotional, checkedAdd_of_lt (by omega)]
    dsimp only
    by_cases hfee : 2 ^ 128 ≤ o.feePaid + fee
    · rw [if_pos hfee, checkedAdd_of_le hfee]
    · rw [if_neg hfee, checkedAdd_of_lt (by omega)]

/-! ## A refused fill -/

/-- Neither total overflows where a fill gets as far as adding to them. -/
def Order.TotalsFit (o : Order) (size price fee : Nat) : Prop :=
  ∀ notional, o.Takes size price notional →
    o.notionalFilled + notional < 2 ^ 128 ∧ o.feePaid + fee < 2 ^ 128

/-- **A refused fill leaves the order as it was** exactly when it is not one of the totals that
refuses it. -/
theorem refused_fill_unchanged (o : Order) (size price fee : Nat) :
    (∀ refusal after, o.fillInPlace size price fee = (.error refusal, after) → after = o) ↔
      o.TotalsFit size price fee := by
  constructor
  · intro hkept notional htakes
    have hmoved : ∀ (e : DomainError) (after : Order), after.filled = o.filled + size →
        o.fillInPlace size price fee ≠ (.error e, after) := by
      intro e after hfilled h
      rw [hkept e after h] at hfilled
      have := htakes.pos
      omega
    have hrun := htakes.fillInPlace fee
    by_contra hnot
    by_cases hnotional : 2 ^ 128 ≤ o.notionalFilled + notional
    · rw [if_pos hnotional] at hrun
      exact hmoved _ _ rfl hrun
    · rw [if_neg hnotional, if_pos (by omega)] at hrun
      exact hmoved _ _ rfl hrun
  · intro hfit refusal after h
    by_cases htakes : ∃ notional, o.Takes size price notional
    · -- it passes and both totals fit: there is no refusal
      obtain ⟨notional, htakes⟩ := htakes
      obtain ⟨hnotional, hfee⟩ := hfit notional htakes
      rw [htakes.fillInPlace, if_neg (by omega), if_neg (by omega)] at h
      cases (Prod.mk.inj h).1
    · obtain ⟨_, hrefused⟩ := Order.fillInPlace_refuses fee (not_exists.mp htakes)
      rw [hrefused] at h
      exact (Prod.mk.inj h).2.symm

/-- A sell of two units at a price whose value takes half the range for each. -/
def sampleSell : Order :=
  Order.place (.raw 9) ⟨"momentum"⟩ (.raw 1) "s1" .sell .limit .gtc (2 ^ 127) (2 * SCALE)
    (.units (2 * SCALE))

/-- **A refused fill can leave its size behind**: the second unit's value overflows the total, and
the order, still partially filled, has nothing left to fill. -/
theorem refused_fill_moves :
    (sampleSell.fillInPlace SCALE (2 ^ 127) 0).1.isOk = true ∧
    ∃ once refusal after, once = (sampleSell.fillInPlace SCALE (2 ^ 127) 0).2 ∧
      once.fillInPlace SCALE (2 ^ 127) 0 = (.error refusal, after) ∧
      refusal = .validation "filled notional overflows" ∧ after ≠ once ∧
      once.filled = SCALE ∧ after.filled = 2 * SCALE ∧ after.state = .partiallyFilled ∧
      after.remaining = 0 ∧ after.notionalFilled = once.notionalFilled := by
  refine ⟨by decide +kernel, _, _, _, rfl, Prod.ext ?_ rfl, rfl, ?_, ?_, ?_, ?_, ?_, ?_⟩ <;>
    decide +kernel

/-! ## A buy's reserve -/

/-- One call of a fill. -/
structure FillCall where
  size : Nat
  price : Nat
  fee : Nat
deriving DecidableEq, Repr

/-- An order after some calls, each run on what the one before left behind. -/
def Order.afterFills (o : Order) (calls : List FillCall) : Order :=
  calls.foldl (fun o call => (o.fillInPlace call.size call.price call.fee).2) o

/-- How an order ends: filled, or cancelled while it rests. -/
inductive Order.Ends (o : Order) : Order → Prop
  | here : o.state.isResting = false → o.Ends o
  | cancelled {reason : CancelReason} {o' : Order} : o.cancel reason = .ok o' → o.Ends o'

/-- **A buy within its reserve**: what it spent is at most the value at its limit of what it bought,
and its fees at most the fee on what it spent. -/
structure Order.Buying (p : BookPolicy) (limit size reserve : Nat) (o : Order) : Prop where
  size_eq : o.size = size
  reserved_eq : o.reserved = .cash reserve
  filled_le : o.filled ≤ size
  notional_le : o.notionalFilled ≤ o.filled * limit / SCALE
  fee_le : o.feePaid ≤ o.notionalFilled * p.takerFeeBps / BPS_DENOMINATOR
  wanting : o.filled < size → o.state.isResting = true
  kept : o.state ≠ .rejected ∧ o.state ≠ .cancelled

/-- What any part of an order spends is covered by the reserve of the whole. -/
theorem reserve_dominates {size limit bps filled notional fee : Nat} (hfilled : filled ≤ size)
    (hnotional : notional ≤ filled * limit / SCALE)
    (hfee : fee ≤ notional * bps / BPS_DENOMINATOR) :
    notional + fee ≤
      size * limit / SCALE + size * limit / SCALE * bps / BPS_DENOMINATOR := by
  have hworth : notional ≤ size * limit / SCALE :=
    hnotional.trans (Nat.div_le_div_right (Nat.mul_le_mul_right _ hfilled))
  have howed : fee ≤ size * limit / SCALE * bps / BPS_DENOMINATOR :=
    hfee.trans (Nat.div_le_div_right (Nat.mul_le_mul_right _ hworth))
  exact Nat.add_le_add hworth howed

section Reserve

variable {p : BookPolicy} {limit size reserve : Nat}

/-- The reserve, and that it is a 128-bit number. -/
theorem buyReserve_lt (hs : size < 2 ^ 128) (hl : limit < 2 ^ 128)
    (h : p.buyReserve size limit = .ok reserve) :
    reserve = size * limit / SCALE + size * limit / SCALE * p.takerFeeBps / BPS_DENOMINATOR ∧
      reserve < 2 ^ 128 := by
  refine ⟨BookPolicy.buyReserve_ok hs hl h, ?_⟩
  simp only [BookPolicy.buyReserve, bind_ok_iff] at h
  obtain ⟨notional, -, fee, -, hsum⟩ := h
  unfold checkedAdd at hsum
  split at hsum
  case isTrue hlt => exact Except.ok.inj hsum ▸ hlt
  case isFalse => cases hsum

/-- A buy is within its reserve when it is placed. -/
theorem Order.Buying.placed (id : Uuid) (service : ServiceId) (user : UserId)
    (clientOrderId : String) (kind : OrderKind) (tif : Tif) :
    (Order.place id service user clientOrderId .buy kind tif limit size (.cash reserve)).Buying p
      limit size reserve where
  size_eq := rfl
  reserved_eq := rfl
  filled_le := Nat.zero_le _
  notional_le := Nat.zero_le _
  fee_le := Nat.zero_le _
  wanting := fun _ => rfl
  kept := ⟨nofun, nofun⟩

/-- A buy never spends more than its reserve. -/
theorem Order.Buying.spent_le {o : Order} (h : o.Buying p limit size reserve)
    (hreserve : reserve = size * limit / SCALE +
      size * limit / SCALE * p.takerFeeBps / BPS_DENOMINATOR) :
    o.notionalFilled + o.feePaid ≤ reserve :=
  hreserve ▸ reserve_dominates h.filled_le h.notional_le h.fee_le

/-- **One call**, at or below the limit, of no more than is left, with at most the taker's fee: it
is recorded if it is of anything, and the buy stays within its reserve. -/
theorem Order.Buying.step {o : Order} (h : o.Buying p limit size reserve)
    (hreserve : reserve = size * limit / SCALE +
      size * limit / SCALE * p.takerFeeBps / BPS_DENOMINATOR)
    (hlt : reserve < 2 ^ 128) (hs : size < 2 ^ 128) (hl : limit < 2 ^ 128) {call : FillCall}
    (hprice : call.price ≤ limit) (hsize : o.filled + call.size ≤ size)
    (hfee : call.fee ≤ call.size * call.price / SCALE * p.takerFeeBps / BPS_DENOMINATOR) :
    (0 < call.size → (o.fillInPlace call.size call.price call.fee).1 = .ok ()) ∧
    (o.fillInPlace call.size call.price call.fee).2.Buying p limit size reserve ∧
    (o.fillInPlace call.size call.price call.fee).2.filled = o.filled + call.size := by
  by_cases hzero : call.size = 0
  · -- a fill of nothing is refused
    have hnot : ∀ notional, ¬ o.Takes call.size call.price notional := fun _ htakes => by
      have := htakes.pos
      omega
    obtain ⟨refusal, hrefused⟩ := Order.fillInPlace_refuses call.fee hnot
    rw [hrefused]
    exact ⟨fun hpos => absurd hzero hpos.ne', h, by rw [hzero]; rfl⟩
  · -- the fill's value, and the fee on it, are within what the reserve has left
    have hworth : call.size * call.price / SCALE ≤ call.size * limit / SCALE :=
      Nat.div_le_div_right (Nat.mul_le_mul_left _ hprice)
    have hnotional : o.notionalFilled + call.size * call.price / SCALE ≤
        (o.filled + call.size) * limit / SCALE :=
      (Nat.add_le_add h.notional_le hworth).trans (value_add_le _ _ _)
    have hfees : o.feePaid + call.fee ≤
        (o.notionalFilled + call.size * call.price / SCALE) * p.takerFeeBps / BPS_DENOMINATOR := by
      rw [Nat.add_mul]
      exact (Nat.add_le_add h.fee_le hfee).trans Nat.div_add_div_le_add_div
    have hcovered := reserve_dominates hsize hnotional hfees
    rw [← hreserve] at hcovered
    have hnotional_lt := (Nat.le_add_right _ _).trans_lt (hcovered.trans_lt hlt)
    have hfees_lt := (Nat.le_add_left _ _).trans_lt (hcovered.trans_lt hlt)
    have htakes : o.Takes call.size call.price (call.size * call.price / SCALE) := by
      refine ⟨h.wanting (by omega), by omega, ?_, ?_, by omega⟩
      · rw [Order.remaining, h.size_eq]
        omega
      · rw [Price.value, mulDivFloor_eq (by omega) (by omega) SCALE_lt,
          if_neg (not_or.mpr ⟨by decide, by omega⟩)]
    rw [htakes.fillInPlace, if_neg (Nat.not_le.mpr hnotional_lt), if_neg (Nat.not_le.mpr hfees_lt)]
    refine ⟨fun _ => rfl, ⟨h.size_eq, h.reserved_eq, hsize, hnotional, hfees, ?_, ?_⟩, rfl⟩
    · intro hwanting
      dsimp only at hwanting ⊢
      rw [if_neg (by rw [h.size_eq]; omega)]
      rfl
    · dsimp only
      split <;> constructor <;> intro h <;> cases h

/-- **Any number of calls.** -/
theorem Order.Buying.run (hreserve : reserve = size * limit / SCALE +
      size * limit / SCALE * p.takerFeeBps / BPS_DENOMINATOR)
    (hlt : reserve < 2 ^ 128) (hs : size < 2 ^ 128) (hl : limit < 2 ^ 128)
    (calls : List FillCall) : ∀ {o : Order}, o.Buying p limit size reserve →
    (∀ call ∈ calls, call.price ≤ limit) → o.filled + (calls.map (·.size)).sum ≤ size →
    (∀ call ∈ calls, call.fee ≤
      call.size * call.price / SCALE * p.takerFeeBps / BPS_DENOMINATOR) →
    (o.afterFills calls).Buying p limit size reserve ∧
      (o.afterFills calls).filled = o.filled + (calls.map (·.size)).sum := by
  induction calls with
  | nil => exact fun h _ _ _ => ⟨h, rfl⟩
  | cons call calls ih =>
    intro o h hprice hsize hfee
    rw [List.map_cons, List.sum_cons] at hsize
    obtain ⟨-, hstep, hfilled⟩ := h.step hreserve hlt hs hl (hprice call List.mem_cons_self)
      (by omega) (hfee call List.mem_cons_self)
    obtain ⟨hrun, htotal⟩ := ih hstep (fun c hc => hprice c (List.mem_cons_of_mem _ hc))
      (by rw [hfilled]; omega) (fun c hc => hfee c (List.mem_cons_of_mem _ hc))
    refine ⟨hrun, ?_⟩
    rw [List.map_cons, List.sum_cons, ← Nat.add_assoc, ← hfilled]
    exact htotal

/-- What a buy has not spent. -/
theorem Order.Buying.unspent_eq {o : Order} (h : o.Buying p limit size reserve)
    (hspent : o.notionalFilled + o.feePaid ≤ reserve) :
    o.unspent = some (.cash (reserve - o.notionalFilled - o.feePaid)) := by
  rw [Order.unspent, h.reserved_eq]
  exact if_pos hspent

/-- **What an ended buy hands back** makes up its reserve with what it spent. -/
theorem Order.Buying.ends {o ended : Order} (h : o.Buying p limit size reserve)
    (hspent : o.notionalFilled + o.feePaid ≤ reserve) (hends : o.Ends ended) :
    reserve = ended.notionalFilled + ended.feePaid + (ended.release.elim 0 Locked.amount) := by
  have hrelease : ∀ e : Order, e.state.isResting = false → e.state ≠ .rejected →
      e.unspent = some (.cash (reserve - e.notionalFilled - e.feePaid)) →
      e.release.elim 0 Locked.amount = reserve - e.notionalFilled - e.feePaid := by
    intro e hresting haccepted hunspent
    rw [Order.release, if_neg (by simp [hresting, haccepted]), hunspent, Option.filter_some]
    by_cases hleft : reserve - e.notionalFilled - e.feePaid = 0 <;>
      simp [Locked.isZero, Locked.amount, hleft]
  have hunspent := h.unspent_eq hspent
  cases hends with
  | here hresting =>
    rw [hrelease o hresting h.kept.1 hunspent]
    omega
  | cancelled hcancel =>
    obtain ⟨-, heq⟩ := Order.cancel_ok hcancel h.kept.2
    rw [hrelease ended (by rw [heq]; rfl) (by simp [heq])
      (by rw [heq]; exact hunspent), heq]
    dsimp only
    omega

end Reserve

/-- **A buy's reserve covers its fills.** For every policy, size and limit, and every sequence of
fills at or below the limit, of no more than the size in all, each with at most the fee on its
floored value: every fill of anything is recorded, what is spent stays within the reserve after each
of them, and however the order ends the reserve is what was spent and what is released. -/
theorem reserve_covers_fills (p : BookPolicy) {size limit reserve : Nat} (hs : size < 2 ^ 128)
    (hl : limit < 2 ^ 128) (hreserve : p.buyReserve size limit = .ok reserve) (id : Uuid)
    (service : ServiceId) (user : UserId) (clientOrderId : String) (kind : OrderKind) (tif : Tif)
    (calls : List FillCall) (hprice : ∀ call ∈ calls, call.price ≤ limit)
    (hsize : (calls.map (·.size)).sum ≤ size)
    (hfee : ∀ call ∈ calls, call.fee ≤
      call.size * call.price / SCALE * p.takerFeeBps / BPS_DENOMINATOR)
    (before after : List FillCall) (hcalls : calls = before ++ after) :
    let placed :=
      Order.place id service user clientOrderId .buy kind tif limit size (.cash reserve)
    let o := placed.afterFills before
    o.filled = (before.map (·.size)).sum ∧
    o.notionalFilled + o.feePaid ≤ reserve ∧
    o.unspent = some (.cash (reserve - o.notionalFilled - o.feePaid)) ∧
    (∀ call, after.head? = some call → 0 < call.size →
      (o.fillInPlace call.size call.price call.fee).1 = .ok ()) ∧
    ∀ ended, o.Ends ended → ended.reserved = .cash reserve ∧
      reserve = ended.notionalFilled + ended.feePaid + ended.release.elim 0 Locked.amount := by
  intro placed o
  obtain ⟨heq, hlt⟩ := buyReserve_lt hs hl hreserve
  subst hcalls
  rw [List.map_append, List.sum_append] at hsize
  have hplaced : placed.Buying p limit size reserve :=
    .placed id service user clientOrderId kind tif
  obtain ⟨hrun, hfilled⟩ := Order.Buying.run heq hlt hs hl before hplaced
    (fun c hc => hprice c (List.mem_append_left _ hc))
    (by show 0 + _ ≤ size; omega) (fun c hc => hfee c (List.mem_append_left _ hc))
  have hfilled' : o.filled = (before.map (·.size)).sum := hfilled.trans (Nat.zero_add _)
  have hspent := hrun.spent_le heq
  refine ⟨hfilled', hspent, hrun.unspent_eq hspent, ?_, ?_⟩
  · intro call hcall hpos
    obtain ⟨rest, rfl⟩ := List.head?_eq_some_iff.mp hcall
    have hmem : call ∈ before ++ call :: rest := by simp
    rw [List.map_cons, List.sum_cons] at hsize
    refine (hrun.step heq hlt hs hl (hprice call hmem) ?_ (hfee call hmem)).1 hpos
    rw [hfilled']
    omega
  · intro ended hends
    refine ⟨?_, hrun.ends hspent hends⟩
    cases hends with
    | here => exact hrun.reserved_eq
    | cancelled hcancel =>
      obtain ⟨-, rfl⟩ := Order.cancel_ok hcancel hrun.kept.2
      exact hrun.reserved_eq

/-- A tenth of a percent, a cent's tick. -/
def sampleFeePolicy : BookPolicy :=
  { BookPolicy.default with bookOpen := true, takerFeeBps := 10, takerFee_le := by decide }

/-- Two fills of a buy of three units at two, and what is left of it cancelled. -/
theorem reserve_covers_fills_sample :
    let calls : List FillCall := [⟨SCALE, 2 * SCALE, 0⟩, ⟨SCALE, SCALE, SCALE / 1000⟩]
    let o := (Order.place (.raw 9) ⟨"momentum"⟩ (.raw 1) "b1" .buy .limit .gtc (2 * SCALE)
      (3 * SCALE) (.cash (6 * SCALE + 6 * SCALE / 1000))).afterFills calls
    o.notionalFilled + o.feePaid ≤ 6 * SCALE + 6 * SCALE / 1000 ∧ o.feePaid = SCALE / 1000 :=
  ⟨(reserve_covers_fills sampleFeePolicy (show 3 * SCALE < 2 ^ 128 by decide +kernel)
    (show 2 * SCALE < 2 ^ 128 by decide +kernel) (by decide +kernel) (.raw 9) ⟨"momentum"⟩ (.raw 1) "b1"
    .limit .gtc [⟨SCALE, 2 * SCALE, 0⟩, ⟨SCALE, SCALE, SCALE / 1000⟩] (by decide +kernel)
    (by decide +kernel) (by decide +kernel) _ [] (by simp)).2.1, by decide +kernel⟩

/-! ## A market order's limit -/

/-- What a quote is scaled by for a side, in basis points. -/
def BookPolicy.slipped (p : BookPolicy) : OrderSide → Nat
  | .buy => BPS_DENOMINATOR + p.marketSlippageBps
  | .sell => BPS_DENOMINATOR - p.marketSlippageBps

/-- A floored price is on the grid. -/
theorem Price.dvd_floorTo (price : Nat) {tick : Nat} (ht : 0 < tick) :
    tick ∣ Price.floorTo price tick := by
  rw [Price.floorTo, if_neg ht.ne']
  exact Nat.dvd_sub_mod price

/-- The tick at or below a price, within less than one tick. -/
theorem Price.floorTo_bounds (price : Nat) {tick : Nat} (ht : 0 < tick) :
    Price.floorTo price tick ≤ price ∧ price < Price.floorTo price tick + tick := by
  rw [Price.floorTo, if_neg ht.ne']
  have := Nat.mod_lt price ht
  have := Nat.mod_le price tick
  omega

/-- A price on the grid at or below another is at or below its floor. -/
theorem Price.le_floorTo {price tick other : Nat} (ht : 0 < tick) (hgrid : tick ∣ other)
    (h : other ≤ price) : other ≤ Price.floorTo price tick := by
  obtain ⟨k, rfl⟩ := hgrid
  obtain ⟨m, hm⟩ := Price.dvd_floorTo price ht
  obtain ⟨-, hlt⟩ := Price.floorTo_bounds price ht
  rw [hm] at hlt ⊢
  rw [← Nat.mul_succ] at hlt
  exact Nat.mul_le_mul_left _ (Nat.lt_succ_iff.mp (Nat.lt_of_mul_lt_mul_left (h.trans_lt hlt)))

/-- A price on the grid above another is a tick above its floor or more. -/
theorem Price.floorTo_add_le {price tick other : Nat} (ht : 0 < tick) (hgrid : tick ∣ other)
    (h : price < other) : Price.floorTo price tick + tick ≤ other := by
  obtain ⟨k, rfl⟩ := hgrid
  obtain ⟨m, hm⟩ := Price.dvd_floorTo price ht
  obtain ⟨hle, -⟩ := Price.floorTo_bounds price ht
  rw [hm] at hle ⊢
  rw [← Nat.mul_succ]
  exact Nat.mul_le_mul_left _ (Nat.lt_of_mul_lt_mul_left (hle.trans_lt h))

/-- A price whose remainder is none is on the grid. -/
theorem Price.floorTo_eq {price tick : Nat} (h : price % tick = 0) :
    Price.floorTo price tick = price := by
  rw [Price.floorTo, h, Nat.sub_zero, ite_self]

/-- **The tick at or above a price**: at most less than a tick above it, at or above it, and on the
grid unless no tick at or above it is in range, where it is the end of the range. -/
theorem Price.ceilTo_spec {price tick : Nat} (ht : 0 < tick) (hprice : price < 2 ^ 128) :
    price ≤ Price.ceilTo price tick ∧ Price.ceilTo price tick < price + tick ∧
    Price.ceilTo price tick < 2 ^ 128 ∧
    (tick ∣ Price.ceilTo price tick ↔ ∃ other < 2 ^ 128, tick ∣ other ∧ price ≤ other) ∧
    (¬ tick ∣ Price.ceilTo price tick → Price.ceilTo price tick = 2 ^ 128 - 1) := by
  unfold Price.ceilTo
  by_cases haligned : price % tick = 0
  · rw [if_pos (.inr haligned)]
    have hgrid := Nat.dvd_of_mod_eq_zero haligned
    exact ⟨le_rfl, by omega, hprice, iff_of_true hgrid ⟨price, hprice, hgrid, le_rfl⟩,
      fun h => absurd hgrid h⟩
  · rw [if_neg (by omega)]
    obtain ⟨hle, hlt⟩ := Price.floorTo_bounds price ht
    have hnext : tick ∣ Price.floorTo price tick + tick :=
      (Price.dvd_floorTo price ht).add (dvd_refl tick)
    -- the price is off the grid, so strictly above its floor
    have hoff : ∀ other, tick ∣ other → price ≤ other →
        Price.floorTo price tick + tick ≤ other := by
      intro other hgrid h
      refine Price.floorTo_add_le ht hgrid (lt_of_le_of_ne h ?_)
      rintro rfl
      exact haligned (Nat.mod_eq_zero_of_dvd hgrid)
    have hfloor : Price.floorTo price tick < price := by
      refine lt_of_le_of_ne hle fun heq => haligned ?_
      rw [← heq]
      exact Nat.mod_eq_zero_of_dvd (Price.dvd_floorTo price ht)
    by_cases hfits : Price.floorTo price tick + tick < 2 ^ 128
    · rw [Nat.min_eq_left (by omega)]
      exact ⟨by omega, by omega, hfits, iff_of_true hnext ⟨_, hfits, hnext, by omega⟩,
        fun h => absurd hnext h⟩
    · rw [Nat.min_eq_right (by omega)]
      refine ⟨by omega, by omega, by omega, ⟨fun h => ?_, ?_⟩, fun _ => rfl⟩
      · exact ⟨_, by omega, h, by omega⟩
      · rintro ⟨other, hlt', hgrid, h⟩
        have := hoff other hgrid h
        omega

/-- A scaled quote, where it is a 128-bit number. -/
theorem BookPolicy.scale_eq (p : BookPolicy) (side : OrderSide) {best : Nat}
    (hbest : best < 2 ^ 128) :
    (best * p.slipped side / BPS_DENOMINATOR < 2 ^ 128 →
      Price.scale best (p.slipped side) BPS_DENOMINATOR =
        .ok (best * p.slipped side / BPS_DENOMINATOR)) ∧
    (2 ^ 128 ≤ best * p.slipped side / BPS_DENOMINATOR →
      ∃ refusal, Price.scale best (p.slipped side) BPS_DENOMINATOR = .error refusal) := by
  have hslipped : p.slipped side < 2 ^ 128 := by
    have := p.slippage_le
    cases side <;> simp only [BookPolicy.slipped, BPS_DENOMINATOR] at * <;> omega
  rw [Price.scale, mulDivFloor_eq hbest hslipped (by decide)]
  constructor
  · intro h
    rw [if_neg (not_or.mpr ⟨by decide, Nat.not_le.mpr h⟩)]
  · intro h
    rw [if_pos (.inr h)]
    exact ⟨_, rfl⟩

/-- The limit a market order is given, by its side's scaling. -/
theorem BookPolicy.marketLimit_eq (p : BookPolicy) (side : OrderSide) (best : Nat) :
    p.marketLimit side best =
      (Price.scale best (p.slipped side) BPS_DENOMINATOR).bind fun scaled =>
        let limit := match side with
          | .buy => Price.ceilTo scaled p.priceTick
          | .sell => Price.floorTo scaled p.priceTick
        if limit = 0 then .error (.validation "market sell would fill at a zero price")
        else .ok limit := by
  cases side <;> unfold BookPolicy.marketLimit BookPolicy.slipped <;> dsimp only
  · cases Price.scale best (BPS_DENOMINATOR + p.marketSlippageBps) BPS_DENOMINATOR <;> rfl
  · cases Price.scale best (BPS_DENOMINATOR - p.marketSlippageBps) BPS_DENOMINATOR <;> rfl

/-- What a market buy is given: the tick at or above the scaled quote, unless that is no number or
nothing. -/
theorem BookPolicy.marketLimit_buy (p : BookPolicy) {best : Nat} (hbest : best < 2 ^ 128) :
    (2 ^ 128 ≤ best * p.slipped .buy / BPS_DENOMINATOR ∨ best = 0 →
      ∃ refusal, p.marketLimit .buy best = .error refusal) ∧
    (best * p.slipped .buy / BPS_DENOMINATOR < 2 ^ 128 → 0 < best →
      p.marketLimit .buy best =
        .ok (Price.ceilTo (best * p.slipped .buy / BPS_DENOMINATOR) p.priceTick) ∧
      0 < Price.ceilTo (best * p.slipped .buy / BPS_DENOMINATOR) p.priceTick) := by
  obtain ⟨hok, herror⟩ := p.scale_eq .buy hbest
  have hzero : best = 0 ↔ best * p.slipped .buy / BPS_DENOMINATOR = 0 := by
    have hslipped : p.slipped .buy = 10000 + p.marketSlippageBps := rfl
    rw [show BPS_DENOMINATOR = 10000 from rfl, Nat.div_eq_zero_iff_lt (by decide), hslipped,
      Nat.mul_add]
    have := Nat.zero_le (best * p.marketSlippageBps)
    constructor
    · rintro rfl
      omega
    · intro h
      omega
  have hpos := p.tick_pos
  rw [p.marketLimit_eq]
  constructor
  · intro h
    by_cases hover : 2 ^ 128 ≤ best * p.slipped .buy / BPS_DENOMINATOR
    · obtain ⟨refusal, hscale⟩ := herror hover
      rw [hscale]
      exact ⟨refusal, rfl⟩
    · rw [hok (by omega), Except.bind]
      have hlimit : Price.ceilTo (best * p.slipped .buy / BPS_DENOMINATOR) p.priceTick = 0 := by
        rw [hzero.mp (h.resolve_left hover), Price.ceilTo, Nat.zero_mod]
        exact if_pos (.inr rfl)
      exact ⟨_, if_pos hlimit⟩
  · intro hlt hbest0
    rw [hok hlt, Except.bind]
    have hge := (Price.ceilTo_spec hpos hlt).1
    have hscaled : 0 < best * p.slipped .buy / BPS_DENOMINATOR :=
      Nat.pos_of_ne_zero fun h => hbest0.ne' (hzero.mpr h)
    exact ⟨if_neg (hscaled.trans_le hge).ne', hscaled.trans_le hge⟩

/-- What a market sell is given: the tick at or below the scaled quote, unless that is nothing. -/
theorem BookPolicy.marketLimit_sell (p : BookPolicy) {best : Nat} (hbest : best < 2 ^ 128) :
    (best * p.slipped .sell / BPS_DENOMINATOR < p.priceTick →
      ∃ refusal, p.marketLimit .sell best = .error refusal) ∧
    (p.priceTick ≤ best * p.slipped .sell / BPS_DENOMINATOR →
      p.marketLimit .sell best =
        .ok (Price.floorTo (best * p.slipped .sell / BPS_DENOMINATOR) p.priceTick)) ∧
    best * p.slipped .sell / BPS_DENOMINATOR < 2 ^ 128 := by
  -- a sell's quote is scaled down
  have hlt : best * p.slipped .sell / BPS_DENOMINATOR < 2 ^ 128 := by
    refine lt_of_le_of_lt ?_ hbest
    refine Nat.div_le_of_le_mul ?_
    rw [Nat.mul_comm]
    exact Nat.mul_le_mul_right _ (Nat.sub_le _ _)
  have hscale := (p.scale_eq .sell hbest).1 hlt
  have hpos := p.tick_pos
  rw [p.marketLimit_eq, hscale, Except.bind]
  refine ⟨?_, ?_, hlt⟩
  · intro hsmall
    refine ⟨_, if_pos ?_⟩
    rw [Price.floorTo, if_neg hpos.ne', Nat.mod_eq_of_lt hsmall, Nat.sub_self]
  · intro hlarge
    refine if_neg ?_
    have := Price.le_floorTo hpos (dvd_refl p.priceTick) hlarge
    dsimp only
    omega

/-- **A market order's limit hugs the slippage bound**, which is `best * slipped / 10000` exactly.
A buy's is less than a tick above it and admits every price on the grid inside it; it is on the grid
unless no tick at or above the bound is in range, where it is the end of the range. A sell's is less
than a tick below it, admits every price on the grid inside it, is on the grid and never zero. A
limit that is no number, or nothing, is refused. -/
theorem market_limit_hugs (p : BookPolicy) {best : Nat} (hbest : best < 2 ^ 128) :
    (∀ limit, p.marketLimit .buy best = .ok limit →
      limit * BPS_DENOMINATOR < best * p.slipped .buy + p.priceTick * BPS_DENOMINATOR ∧
      (∀ maker, p.priceTick ∣ maker → maker * BPS_DENOMINATOR ≤ best * p.slipped .buy →
        maker ≤ limit) ∧
      0 < limit ∧ limit < 2 ^ 128 ∧
      (p.priceTick ∣ limit ↔ ∃ price < 2 ^ 128, p.priceTick ∣ price ∧
        best * p.slipped .buy / BPS_DENOMINATOR ≤ price) ∧
      (¬ p.priceTick ∣ limit → limit = 2 ^ 128 - 1)) ∧
    (∀ limit, p.marketLimit .sell best = .ok limit →
      best * p.slipped .sell < (limit + p.priceTick) * BPS_DENOMINATOR ∧
      (∀ maker, p.priceTick ∣ maker → best * p.slipped .sell ≤ maker * BPS_DENOMINATOR →
        limit ≤ maker) ∧
      0 < limit ∧ limit < 2 ^ 128 ∧ p.priceTick ∣ limit) ∧
    ((∃ refusal, p.marketLimit .buy best = .error refusal) ↔
      2 ^ 128 ≤ best * p.slipped .buy / BPS_DENOMINATOR ∨ best = 0) ∧
    ((∃ refusal, p.marketLimit .sell best = .error refusal) ↔
      best * p.slipped .sell / BPS_DENOMINATOR < p.priceTick) := by
  have hpos := p.tick_pos
  obtain ⟨hbuyNo, hbuy⟩ := p.marketLimit_buy hbest
  obtain ⟨hsellNo, hsell, hsellLt⟩ := p.marketLimit_sell hbest
  have hbps : 0 < BPS_DENOMINATOR := by decide
  have hdiv : ∀ n, n / BPS_DENOMINATOR * BPS_DENOMINATOR ≤ n := fun n =>
    Nat.div_mul_le_self n BPS_DENOMINATOR
  have hmod : ∀ n, n < (n / BPS_DENOMINATOR + 1) * BPS_DENOMINATOR := fun n => by
    rw [Nat.mul_comm]
    exact Nat.lt_mul_div_succ n hbps
  refine ⟨fun limit h => ?_, fun limit h => ?_, ⟨fun h => ?_, hbuyNo⟩, ⟨fun h => ?_, hsellNo⟩⟩
  · -- a buy: the scaled quote, taken up to the tick
    have hlt : best * p.slipped .buy / BPS_DENOMINATOR < 2 ^ 128 := by
      by_contra hge
      obtain ⟨refusal, hno⟩ := hbuyNo (.inl (Nat.not_lt.mp hge))
      rw [hno] at h
      cases h
    have hbest0 : 0 < best := by
      refine Nat.pos_of_ne_zero fun hzero => ?_
      obtain ⟨refusal, hno⟩ := hbuyNo (.inr hzero)
      rw [hno] at h
      cases h
    obtain ⟨heq, hpositive⟩ := hbuy hlt hbest0
    rw [heq] at h
    rw [← Except.ok.inj h]
    obtain ⟨hge, hclose, hrange, hgrid, htop⟩ := Price.ceilTo_spec hpos hlt
    refine ⟨?_, fun maker _ hinside => ?_, hpositive, hrange, hgrid, htop⟩
    · have := Nat.mul_lt_mul_of_pos_right hclose hbps
      rw [Nat.add_mul] at this
      exact this.trans_le (Nat.add_le_add_right (hdiv _) _)
    · exact ((Nat.le_div_iff_mul_le hbps).mpr hinside).trans hge
  · -- a sell: the scaled quote, taken down to the tick
    have hlarge : p.priceTick ≤ best * p.slipped .sell / BPS_DENOMINATOR := by
      by_contra hsmall
      obtain ⟨refusal, hno⟩ := hsellNo (Nat.not_le.mp hsmall)
      rw [hno] at h
      cases h
    rw [hsell hlarge] at h
    rw [← Except.ok.inj h]
    obtain ⟨hle, hclose⟩ := Price.floorTo_bounds
      (best * p.slipped .sell / BPS_DENOMINATOR) hpos
    refine ⟨?_, fun maker _ hinside => ?_, ?_, hle.trans_lt hsellLt, Price.dvd_floorTo _ hpos⟩
    · exact (hmod _).trans_le (Nat.mul_le_mul_right _ hclose)
    · refine hle.trans (Nat.div_le_of_le_mul ?_)
      rw [Nat.mul_comm BPS_DENOMINATOR]
      exact hinside
    · exact hpos.trans_le (Price.le_floorTo hpos (dvd_refl p.priceTick) hlarge)
  · by_contra hnot
    obtain ⟨refusal, h⟩ := h
    rw [(hbuy (by omega) (by omega)).1] at h
    cases h
  · by_contra hnot
    obtain ⟨refusal, h⟩ := h
    rw [hsell (by omega)] at h
    cases h

/-- **A buy's limit can end off the grid**: on a cent's tick with a slippage of two hundredths of a
percent, the tick above this quote's bound is beyond the range. -/
theorem market_limit_hugs_top :
    ∃ (p : BookPolicy) (best limit : Nat), best < 2 ^ 128 ∧ p.priceTick = SCALE / 100 ∧
      p.priceTick ∣ best ∧ p.marketLimit .buy best = .ok limit ∧ ¬ p.priceTick ∣ limit := by
  refine ⟨{ BookPolicy.default with marketSlippageBps := 2, slippage_le := by decide },
    340214324056127238015770000000000000000, 2 ^ 128 - 1, ?_, rfl, ?_, ?_, ?_⟩ <;> decide +kernel

/-- At the default terms, a market buy off a best ask of ten. -/
theorem market_limit_hugs_sample :
    BookPolicy.default.marketLimit .buy (10 * SCALE) = .ok (105 * SCALE / 10) ∧
    ∀ maker, BookPolicy.default.priceTick ∣ maker →
      maker * BPS_DENOMINATOR ≤ 10 * SCALE * BookPolicy.default.slipped .buy →
      maker ≤ 105 * SCALE / 10 := by
  have h : BookPolicy.default.marketLimit .buy (10 * SCALE) = .ok (105 * SCALE / 10) := by
    decide +kernel
  exact ⟨h, ((market_limit_hugs BookPolicy.default (by decide)).1 _ h).2.1⟩

end Banking
