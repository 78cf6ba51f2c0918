import Mathlib.Algebra.Order.BigOperators.Group.List
import Mathlib.Logic.Relation
import Banking.Book

/-! # Fills

What one order's row, the trades that name it and the facts drained for it say of its escrow, and
that they agree (`Book.Row`). An order spends at most what it reserved (`Order.Sound`): a buy's
reserve is its value at the limit and the fee on that, and every fill rounds down. One fill keeps
the agreement for the taker and the maker and touches no other order
(`Book.Filling.applyFill`). -/

namespace Banking

/-! ## Domain rules -/

/-- A checked sum is the sum. -/
theorem checkedAdd_ok {a b c : Nat} {overflow : String} (h : checkedAdd a b overflow = .ok c) :
    c = a + b := by
  unfold checkedAdd at h
  split at h
  · exact (Except.ok.inj h).symm
  · cases h

/-- What a value at a price is. -/
theorem Price.value_ok {price units cash : Nat} (hp : price < 2 ^ 128) (hu : units < 2 ^ 128)
    (h : Price.value price units = .ok cash) : cash = units * price / SCALE ∧ cash < 2 ^ 128 := by
  unfold Price.value at h
  split at h
  case h_1 q hq => exact Except.ok.inj h ▸ (mulDivFloor_some hu hp SCALE_lt hq).2
  case h_2 => cases h

/-- What a taker's fee is. -/
theorem BookPolicy.takerFee_ok {p : BookPolicy} {notional fee : Nat} (hn : notional < 2 ^ 128)
    (h : p.takerFee notional = .ok fee) : fee = notional * p.takerFeeBps / BPS_DENOMINATOR := by
  have hbps : p.takerFeeBps < 2 ^ 128 := p.takerFee_le.trans_lt (by decide)
  exact (Usdt.scale_ok hn hbps (by decide) h).2.1

/-- What a buy reserves: its value at the limit and the fee on that. -/
theorem BookPolicy.buyReserve_ok {p : BookPolicy} {size price reserve : Nat} (hs : size < 2 ^ 128)
    (hp : price < 2 ^ 128) (h : p.buyReserve size price = .ok reserve) :
    reserve = size * price / SCALE +
      size * price / SCALE * p.takerFeeBps / BPS_DENOMINATOR := by
  simp only [BookPolicy.buyReserve, bind_ok_iff] at h
  obtain ⟨notional, hnotional, fee, hfee, hsum⟩ := h
  obtain ⟨hn, hlt⟩ := Price.value_ok hp hs hnotional
  rw [checkedAdd_ok hsum, BookPolicy.takerFee_ok hlt hfee, hn]

/-- **What a fill does**: it needs a resting order with that much left, and adds to what was filled
and spent. -/
theorem Order.fill_ok {o o' : Order} {size price fee : Nat} (h : o.fill size price fee = .ok o') :
    o.state.isResting ∧ 0 < size ∧ size ≤ o.remaining ∧
    ∃ notional, Price.value price size = .ok notional ∧
      o' = { o with
        filled := o.filled + size
        notionalFilled := o.notionalFilled + notional
        feePaid := o.feePaid + fee
        state := if o.filled + size = o.size then .filled else .partiallyFilled } := by
  unfold Order.fill at h
  split_ifs at h with hresting hsize
  simp only [bind_ok_iff] at h
  obtain ⟨notional, hvalue, filled, hfilled, total, htotal, paid, hpaid, h⟩ := h
  refine ⟨hresting, by omega, by omega, notional, hvalue, ?_⟩
  rw [← Except.ok.inj h, checkedAdd_ok hfilled, checkedAdd_ok htotal, checkedAdd_ok hpaid]

/-- Cancelling a resting order ends it. -/
theorem Order.cancel_ok {o o' : Order} {reason : CancelReason} (h : o.cancel reason = .ok o')
    (hne : o.state ≠ .cancelled) :
    o.state.isResting ∧ o' = { o with state := .cancelled, cancelReason := some reason } := by
  unfold Order.cancel at h
  split at h
  case h_1 hs => exact absurd hs hne
  case h_2 hs | h_3 hs => exact ⟨by rw [hs]; rfl, (Except.ok.inj h).symm⟩
  case h_4 => cases h

/-! ## One order -/

/-- A lock of what a side escrows. -/
def Locked.of : OrderSide → Nat → Locked
  | .buy, amount => .cash amount
  | .sell, amount => .units amount

/-- What an order's row says it spent of its escrow: cash and fees, or units. -/
def Order.spent (o : Order) : Nat :=
  match o.side with
  | .buy => o.notionalFilled + o.feePaid
  | .sell => o.filled

/-- What an order's row says its escrow still holds. -/
def Order.escrowed (o : Order) : Nat :=
  if o.state.isResting then o.reserved.amount - o.spent else 0

/-- What an ended order got back. -/
def Order.left (o : Order) : Nat :=
  if o.state.isResting then 0 else o.reserved.amount - o.spent

/-- **An order's own rules.** A buy reserves its value at its limit and a fee; it has spent at most
the value of what it bought at the limit, and at most that fee. -/
structure Order.Sound (o : Order) : Prop where
  price_lt : o.price < 2 ^ 128
  size_lt : o.size < 2 ^ 128
  filled_le : o.filled ≤ o.size
  resting_lt : o.state.isResting → o.filled < o.size
  accepted : o.state ≠ .rejected
  sells : o.side = .sell → o.reserved = .units o.size
  buys : o.side = .buy → ∃ fee, o.reserved = .cash (o.size * o.price / SCALE + fee) ∧
    o.notionalFilled ≤ o.filled * o.price / SCALE ∧ o.feePaid ≤ fee

/-- A taker's fee so far is at most the fee on all it spent, and its reserve has the fee on all it
may spend. -/
def Order.FeeBounded (p : BookPolicy) (o : Order) : Prop :=
  o.side = .buy →
    o.reserved = .cash (o.size * o.price / SCALE +
      o.size * o.price / SCALE * p.takerFeeBps / BPS_DENOMINATOR) ∧
    o.feePaid ≤ o.notionalFilled * p.takerFeeBps / BPS_DENOMINATOR

/-- An order reserves in its side's kind. -/
theorem Order.Sound.reserved_eq {o : Order} (h : o.Sound) :
    o.reserved = .of o.side o.reserved.amount := by
  cases hs : o.side with
  | buy =>
    obtain ⟨fee, hr, -⟩ := h.buys hs
    rw [hr]; rfl
  | sell => rw [h.sells hs]; rfl

/-- No order spends more than it reserved. -/
theorem Order.Sound.spent_le {o : Order} (h : o.Sound) : o.spent ≤ o.reserved.amount := by
  unfold Order.spent
  cases hs : o.side with
  | sell =>
    rw [h.sells hs]
    exact h.filled_le
  | buy =>
    obtain ⟨fee, hr, hn, hf⟩ := h.buys hs
    have hmono : o.filled * o.price / SCALE ≤ o.size * o.price / SCALE :=
      Nat.div_le_div_right (Nat.mul_le_mul_right _ h.filled_le)
    rw [hr]
    exact Nat.add_le_add (hn.trans hmono) hf

/-- What is not spent. -/
theorem Order.Sound.unspent_eq {o : Order} (h : o.Sound) :
    o.unspent = some (.of o.side (o.reserved.amount - o.spent)) := by
  have hle := h.spent_le
  rw [Order.unspent, h.reserved_eq]
  unfold Order.spent at *
  cases hs : o.side <;> rw [hs] at hle <;> dsimp only [Locked.of, Locked.amount] at hle ⊢
  · rw [if_pos hle, Nat.sub_sub]
  · rw [if_pos hle]

/-- **What an order releases** is what it got back, if that is anything. -/
theorem Order.Sound.release_eq {o : Order} (h : o.Sound) :
    o.release = if o.left = 0 then none else some (.of o.side o.left) := by
  unfold Order.release Order.left
  have haccepted := h.accepted
  by_cases hresting : o.state.isResting = true
  · simp [hresting]
  · rw [if_neg (by simp [hresting, haccepted]), h.unspent_eq, if_neg hresting]
    have hzero : ∀ side amount, (Locked.of side amount).isZero = decide (amount = 0) := by
      intro side amount
      cases side <;> rfl
    rw [Option.filter_some, hzero]
    by_cases hleft : o.reserved.amount - o.spent = 0 <;> simp [hleft]

/-- Rounding a sum's value down keeps at least what the parts' values add up to. -/
theorem value_add_le (a b price : Nat) :
    a * price / SCALE + b * price / SCALE ≤ (a + b) * price / SCALE := by
  rw [Nat.add_mul]
  exact Nat.div_add_div_le_add_div

/-- **One fill of one order**: at or better than its limit, with a fee its reserve has room for. -/
theorem Order.Sound.fill {o o' : Order} {size price fee : Nat} (h : o.Sound)
    (hprice : o.side = .buy → price ≤ o.price) (hlt : price < 2 ^ 128)
    (hfee : ∀ cap, o.reserved = .cash (o.size * o.price / SCALE + cap) → o.feePaid ≤ cap →
      o.feePaid + fee ≤ cap)
    (hfill : o.fill size price fee = .ok o') : o'.Sound := by
  obtain ⟨hresting, hpos, hle, notional, hvalue, rfl⟩ := Order.fill_ok hfill
  rw [Order.remaining] at hle
  have hfilled := h.resting_lt hresting
  have hsize := h.size_lt
  refine ⟨h.price_lt, hsize, by simp only; omega, ?_, ?_, h.sells, ?_⟩
  · intro hstill
    simp only at hstill ⊢
    split at hstill
    · cases hstill
    · omega
  · dsimp only
    split <;> decide
  · intro hs
    obtain ⟨cap, hr, hn, hf⟩ := h.buys hs
    obtain ⟨hvalue, -⟩ := Price.value_ok hlt (by omega) hvalue
    refine ⟨cap, hr, ?_, hfee cap hr hf⟩
    have hworth : notional ≤ size * o.price / SCALE :=
      hvalue ▸ Nat.div_le_div_right (Nat.mul_le_mul_left _ (hprice hs))
    exact (Nat.add_le_add hn hworth).trans (value_add_le _ _ _)

/-- A maker's fill, at its own price and without a fee. -/
theorem Order.Sound.makerFill {o o' : Order} {size : Nat} (h : o.Sound)
    (hfill : o.fill size o.price 0 = .ok o') : o'.Sound :=
  h.fill (fun _ => le_rfl) h.price_lt (fun _ _ hcap => hcap) hfill

/-- A taker's fill, with the fee on it. -/
theorem Order.Sound.takerFill {p : BookPolicy} {o o' : Order} {size price notional fee : Nat}
    (h : o.Sound) (hbound : o.FeeBounded p) (hprice : o.side = .buy → price ≤ o.price)
    (hlt : price < 2 ^ 128) (hvalue : Price.value price size = .ok notional)
    (hfee : p.takerFee notional = .ok fee) (hfill : o.fill size price fee = .ok o') :
    o'.Sound ∧ o'.FeeBounded p := by
  obtain ⟨hresting, hpos, hle, notional', hvalue', heq⟩ := Order.fill_ok hfill
  rw [hvalue] at hvalue'
  obtain rfl := Except.ok.inj hvalue'
  rw [Order.remaining] at hle
  have hfilled := h.resting_lt hresting
  have hsize : size < 2 ^ 128 := by have := h.size_lt; omega
  obtain ⟨hn, hnlt⟩ := Price.value_ok hlt hsize hvalue
  have hfee := BookPolicy.takerFee_ok hnlt hfee
  -- the fees of two fills are at most the fee on both
  have hsum : o.notionalFilled * p.takerFeeBps / BPS_DENOMINATOR + fee ≤
      (o.notionalFilled + notional) * p.takerFeeBps / BPS_DENOMINATOR := by
    rw [hfee, Nat.add_mul]
    exact Nat.div_add_div_le_add_div
  have hbounded : o'.FeeBounded p := by
    intro hs
    rw [heq] at hs ⊢
    obtain ⟨hr, hpaid⟩ := hbound hs
    exact ⟨hr, (Nat.add_le_add_right hpaid _).trans hsum⟩
  have hroom : ∀ cap, o.reserved = .cash (o.size * o.price / SCALE + cap) → o.feePaid ≤ cap →
      o.feePaid + fee ≤ cap := by
    intro cap hr _
    have hs : o.side = .buy := by
      cases hs : o.side with
      | buy => rfl
      | sell => rw [h.sells hs] at hr; cases hr
    obtain ⟨hr', hpaid⟩ := hbound hs
    obtain ⟨_, _, hspent, _⟩ := h.buys hs
    have hcap : cap = o.size * o.price / SCALE * p.takerFeeBps / BPS_DENOMINATOR := by
      rw [hr] at hr'
      have := Locked.cash.inj hr'
      omega
    -- what it spends is at most its value at the limit
    have hworth : notional ≤ size * o.price / SCALE :=
      hn ▸ Nat.div_le_div_right (Nat.mul_le_mul_left _ (hprice hs))
    have htotal : o.notionalFilled + notional ≤ o.size * o.price / SCALE := by
      refine (Nat.add_le_add hspent hworth).trans ((value_add_le _ _ _).trans ?_)
      exact Nat.div_le_div_right (Nat.mul_le_mul_right _ (by omega))
    refine (Nat.add_le_add_right hpaid _).trans (hsum.trans ?_)
    rw [hcap]
    exact Nat.div_le_div_right (Nat.mul_le_mul_right _ htotal)
  exact ⟨h.fill hprice hlt hroom hfill, hbounded⟩

/-- What a fill takes out of an order's escrow. -/
theorem Order.fill_spent {o o' : Order} {size price notional fee : Nat}
    (hvalue : Price.value price size = .ok notional) (hfill : o.fill size price fee = .ok o') :
    o'.spent = o.spent + match o.side with
      | .buy => notional + fee
      | .sell => size := by
  obtain ⟨-, -, -, notional', hvalue', rfl⟩ := Order.fill_ok hfill
  rw [hvalue] at hvalue'
  obtain rfl := Except.ok.inj hvalue'
  unfold Order.spent
  cases o.side
  · simp only
    omega
  · rfl

/-! ## What the tables say -/

/-- What a trade takes out of the escrow of an order on a side. -/
def Trade.draws (t : Trade) (side : OrderSide) (id : Uuid) : Nat :=
  match side with
  | .buy =>
    if t.buyOrder = id then t.notional + (if t.takerSide = .buy then t.fee else 0) else 0
  | .sell => if t.sellOrder = id then t.size else 0

/-- What a fact locks for an order. -/
def BookEvent.locks (id : Uuid) : BookEvent → Nat
  | .orderPlaced orderId _ _ _ locked => if orderId = id then locked.amount else 0
  | .tradeExecuted .. | .orderReleased .. => 0

/-- What a fact hands back to an order. -/
def BookEvent.releases (id : Uuid) : BookEvent → Nat
  | .orderReleased orderId _ _ _ released => if orderId = id then released.amount else 0
  | .orderPlaced .. | .tradeExecuted .. => 0

/-- What an order's trades spent of its escrow. -/
def Book.spent (b : Book) (o : Order) : Nat := (b.trades.map (·.draws o.side o.id)).sum

/-- What was locked for an order. -/
def Book.locked (b : Book) (o : Order) : Nat := (b.events.map (·.locks o.id)).sum

/-- What was handed back to an order. -/
def Book.released (b : Book) (o : Order) : Nat := (b.events.map (·.releases o.id)).sum

/-- What an order bought, or sold, of a product. -/
def Order.dealt (o : Order) (service : ServiceId) (side : OrderSide) : Nat :=
  if o.service = service ∧ o.side = side then o.filled else 0

/-- What was bought, or sold, of a product. -/
def Book.total (b : Book) (service : ServiceId) (side : OrderSide) : Nat :=
  (b.orders.map (·.dealt service side)).sum

/-- What was traded of a product. -/
def Book.volume (b : Book) (service : ServiceId) : Nat :=
  (b.trades.map fun t => if t.service = service then t.size else 0).sum

/-- The table with the fields of an order that change. -/
def Book.store (b : Book) (order : Order) : Book :=
  { b with orders := b.orders.map fun o => if o.id = order.id then o.updated order else o }

/-- What an order asked for: all that placing it fixed. -/
def Order.terms (o : Order) : Order :=
  { o with filled := 0, notionalFilled := 0, feePaid := 0, state := .opened, rejectReason := none
           cancelReason := none }

/-- **An order, its trades and its facts agree**, with `released` handed back. -/
structure Book.Row (b : Book) (o : Order) (released : Nat) : Prop where
  sound : o.Sound
  spent : b.spent o = o.spent
  locked : b.locked o = o.reserved.amount
  released : b.released o = released

/-- **The tables agree**, of every order and of every product. -/
structure Book.Kept (b : Book) : Prop where
  ids : (b.orders.map (·.id)).Nodup
  row : ∀ o ∈ b.orders, b.Row o o.left
  unknown : ∀ o : Order, o.id ∉ b.orders.map (·.id) →
    b.spent o = 0 ∧ b.locked o = 0 ∧ b.released o = 0
  volume : ∀ service side, b.total service side = b.volume service

/-- **The tables agree but for one order**, held out of its row: nothing was handed back to it. -/
structure Book.Filling (b : Book) (held : Order) : Prop where
  ids : (b.orders.map (·.id)).Nodup
  inserted : ∃ row ∈ b.orders, row.updated held = held
  row : ∀ o ∈ b.orders, o.id ≠ held.id → b.Row o o.left
  heldRow : b.Row held 0
  unknown : ∀ o : Order, o.id ∉ b.orders.map (·.id) →
    b.spent o = 0 ∧ b.locked o = 0 ∧ b.released o = 0
  volume : ∀ service side,
    (b.orders.map fun o => (if o.id = held.id then held else o).dealt service side).sum =
      b.volume service

@[simp] theorem Order.updated_terms (row o : Order) : (row.updated o).terms = row.terms := rfl

@[simp] theorem Book.store_trades (b : Book) (o : Order) : (b.store o).trades = b.trades := rfl

@[simp] theorem Book.store_events (b : Book) (o : Order) : (b.store o).events = b.events := rfl

/-- A row that an order fits, fits it whatever becomes of it. -/
theorem Order.updated_held {row held held' : Order} (h : row.updated held = held)
    (hterms : held'.terms = held.terms) (hreason : held'.rejectReason = held.rejectReason) :
    row.updated held' = held' := by
  cases row
  cases held
  cases held'
  simp only [Order.updated, Order.terms, Order.mk.injEq] at *
  simp_all

/-- Storing an order changes no order's terms. -/
theorem Book.store_terms (b : Book) (o : Order) :
    (b.store o).orders.map Order.terms = b.orders.map Order.terms := by
  rw [Book.store, List.map_map]
  refine List.map_congr_left fun row _ => ?_
  rw [Function.comp_apply]
  split <;> rfl

/-- The ids are among the terms. -/
theorem Book.ids_of_terms {b b' : Book}
    (h : b'.orders.map Order.terms = b.orders.map Order.terms) :
    b'.orders.map (·.id) = b.orders.map (·.id) := by
  have := congrArg (List.map (·.id)) h
  rwa [List.map_map, List.map_map] at this

/-- Orders of one id are one. -/
theorem eq_of_id {orders : List Order} (hids : (orders.map (·.id)).Nodup) {o o' : Order}
    (ho : o ∈ orders) (ho' : o' ∈ orders) (h : o.id = o'.id) : o = o' :=
  List.inj_on_of_nodup_map hids ho ho' h

/-- What a stored order's table holds. -/
theorem Book.mem_store {b : Book} {held row o : Order} (hids : (b.orders.map (·.id)).Nodup)
    (hrow : row ∈ b.orders) (hheld : row.updated held = held) :
    o ∈ (b.store held).orders ↔ o = held ∨ o ∈ b.orders ∧ o.id ≠ held.id := by
  have hid : row.id = held.id := (congrArg Order.id hheld :)
  rw [Book.store, List.mem_map]
  constructor
  · rintro ⟨x, hx, rfl⟩
    by_cases h : x.id = held.id
    · rw [if_pos h, eq_of_id hids hx hrow (h.trans hid.symm)]
      exact .inl hheld
    · rw [if_neg h]
      exact .inr ⟨hx, h⟩
  · rintro (rfl | ⟨ho, hne⟩)
    · exact ⟨row, hrow, by rw [if_pos hid]; exact hheld⟩
    · exact ⟨o, ho, if_neg hne⟩

/-- Replacing one order's share of a sum. -/
theorem sum_replace {orders : List Order} (hids : (orders.map (·.id)).Nodup) {row : Order}
    (hrow : row ∈ orders) (f : Order → Nat) (x : Nat) :
    (orders.map fun o => if o.id = row.id then x else f o).sum + f row =
      (orders.map f).sum + x := by
  induction orders with
  | nil => cases hrow
  | cons o orders ih =>
    rw [List.map_cons, List.nodup_cons] at hids
    simp only [List.map_cons, List.sum_cons]
    rcases List.mem_cons.mp hrow with rfl | hmem
    · -- no other order has its id
      have hrest : (orders.map fun o => if o.id = row.id then x else f o) = orders.map f := by
        refine List.map_congr_left fun o ho => if_neg fun h => hids.1 ?_
        exact List.mem_map.mpr ⟨o, ho, h⟩
      rw [if_pos rfl, hrest]
      omega
    · have hne : o.id ≠ row.id := fun h => hids.1 (List.mem_map.mpr ⟨row, hmem, h.symm⟩)
      have := ih hids.2 hmem
      rw [if_neg hne]
      omega

/-- Replacing two orders' shares of a sum. -/
theorem sum_replace_two {orders : List Order} (hids : (orders.map (·.id)).Nodup)
    {row row' : Order} (hrow : row ∈ orders) (hrow' : row' ∈ orders) (hne : row.id ≠ row'.id)
    (f : Order → Nat) (x x' : Nat) :
    (orders.map fun o => if o.id = row.id then x else if o.id = row'.id then x' else f o).sum +
      f row + f row' = (orders.map f).sum + x + x' := by
  have hsecond := sum_replace hids hrow' f x'
  have hfirst := sum_replace hids hrow (fun o => if o.id = row'.id then x' else f o) x
  rw [if_neg hne] at hfirst
  omega

section Releases

variable (b : Book) {order : Order}

@[simp] theorem Book.recordRelease_orders : (b.recordRelease order).orders = b.orders := by
  unfold Book.recordRelease
  split <;> rfl

@[simp] theorem Book.recordRelease_trades : (b.recordRelease order).trades = b.trades := by
  unfold Book.recordRelease
  split <;> rfl

/-- A release locks nothing. -/
theorem Book.recordRelease_locked (o : Order) : (b.recordRelease order).locked o = b.locked o := by
  unfold Book.recordRelease
  split
  · rfl
  · simp [Book.recordEvent, Book.locked, BookEvent.locks]

/-- A release hands back what its order has left, to that order. -/
theorem Book.recordRelease_released (h : order.Sound) (o : Order) :
    (b.recordRelease order).released o =
      b.released o + if order.id = o.id then order.left else 0 := by
  unfold Book.recordRelease
  rw [h.release_eq]
  have hamount : ∀ side amount, (Locked.of side amount).amount = amount := by
    intro side amount
    cases side <;> rfl
  by_cases hleft : order.left = 0
  · simp [hleft]
  · simp [hleft, Book.recordEvent, Book.released, BookEvent.releases, hamount]

end Releases

/-! ## One fill -/

/-- A maker that a fill of `taker` may be against. -/
structure Order.Fits (taker : Order) (fill : Fill) (maker : Order) : Prop where
  other : maker.id ≠ taker.id
  service : maker.service = taker.service
  side : maker.side = taker.side.opposite
  price : maker.price = fill.price
  limit : taker.side = .buy → fill.price ≤ taker.price

/-- Fitting is a matter of terms. -/
theorem Order.Fits.of_terms {taker taker' maker maker' : Order} {fill : Fill}
    (h : taker.Fits fill maker) (htaker : taker'.terms = taker.terms)
    (hmaker : maker'.terms = maker.terms) : taker'.Fits fill maker' := by
  have hid : taker'.id = taker.id := (congrArg Order.id htaker :)
  have hservice : taker'.service = taker.service := (congrArg Order.service htaker :)
  have hside : taker'.side = taker.side := (congrArg Order.side htaker :)
  have hprice : taker'.price = taker.price := (congrArg Order.price htaker :)
  have hid' : maker'.id = maker.id := (congrArg Order.id hmaker :)
  have hservice' : maker'.service = maker.service := (congrArg Order.service hmaker :)
  have hside' : maker'.side = maker.side := (congrArg Order.side hmaker :)
  have hprice' : maker'.price = maker.price := (congrArg Order.price hmaker :)
  refine ⟨?_, ?_, ?_, ?_, ?_⟩
  · rw [hid, hid']; exact h.other
  · rw [hservice, hservice']; exact h.service
  · rw [hside, hside']; exact h.side
  · rw [hprice']; exact h.price
  · rw [hside, hprice]; exact h.limit

/-- An order that was loaded is in the table. -/
theorem Book.loadOrder_ok {b : Book} {id : Uuid} {o : Order} (h : b.loadOrder id = .ok o) :
    o ∈ b.orders ∧ o.id = id := by
  unfold Book.loadOrder Book.findOrder at h
  split at h
  case h_1 o' ho =>
    rw [← Except.ok.inj h]
    exact ⟨List.mem_of_find?_eq_some ho, by simpa using List.find?_some ho⟩
  case h_2 => cases h

/-- What storing an order does. -/
theorem Book.updateOrder_ok {b b' : Book} {o : Order} (h : b.updateOrder o = .ok b') :
    b' = b.store o := by
  unfold Book.updateOrder at h
  split at h
  · exact (Except.ok.inj h).symm
  · cases h

/-- What inserting a trade does. -/
theorem Book.insertTrade_ok {b b' : Book} {t : Trade} (h : b.insertTrade t = .ok b') :
    b' = { b with trades := b.trades ++ [t] } := by
  unfold Book.insertTrade at h
  split at h
  · cases h
  · exact (Except.ok.inj h).symm

/-- **What recording a fill does.** -/
theorem Book.applyFill_ok {p : BookPolicy} {nav : Nat} {b b' : Book} {taker taker' : Order}
    {fill : Fill} {tradeId : Uuid} (h : b.applyFill p nav taker fill tradeId = .ok (taker', b')) :
    ∃ maker ∈ b.orders, maker.id = fill.maker ∧ ∃ notional fee maker',
      Price.value fill.price fill.size = .ok notional ∧ p.takerFee notional = .ok fee ∧
      maker.fill fill.size fill.price 0 = .ok maker' ∧
      taker.fill fill.size fill.price fee = .ok taker' ∧
      b' = (Book.store
        { b with
          trades := b.trades ++ [.between tradeId taker' maker' fill notional fee]
          events := b.events ++
            [(Trade.between tradeId taker' maker' fill notional fee).executed nav] }
        maker').recordRelease maker' := by
  simp only [Book.applyFill, bind_ok_iff, Except.ok.injEq, Prod.mk.injEq] at h
  obtain ⟨maker, hmaker, notional, hvalue, fee, hfee, maker', hfill, taker'', htaker, traded,
    htraded, settled, hsettled, rfl, rfl⟩ := h
  obtain ⟨hmem, hid⟩ := Book.loadOrder_ok hmaker
  refine ⟨maker, hmem, hid, notional, fee, maker', hvalue, hfee, hfill, htaker, ?_⟩
  rw [Book.updateOrder_ok hsettled, Book.insertTrade_ok htraded]
  rfl

section Draws

variable (id : Uuid) (taker maker : Order) (fill : Fill) (notional fee : Nat)

/-- What a fill draws from its taker's escrow. -/
theorem Trade.draws_taker :
    (Trade.between id taker maker fill notional fee).draws taker.side taker.id =
      match taker.side with
      | .buy => notional + fee
      | .sell => fill.size := by
  unfold Trade.between Trade.draws
  cases taker.side <;> simp

/-- What a fill draws from its maker's escrow: no fee. -/
theorem Trade.draws_maker (hside : maker.side = taker.side.opposite) :
    (Trade.between id taker maker fill notional fee).draws maker.side maker.id =
      match maker.side with
      | .buy => notional + 0
      | .sell => fill.size := by
  unfold Trade.between Trade.draws
  rw [hside]
  cases taker.side <;> simp [OrderSide.opposite]

/-- A fill draws from no other escrow. -/
theorem Trade.draws_other {o : Order} (htaker : o.id ≠ taker.id) (hmaker : o.id ≠ maker.id) :
    (Trade.between id taker maker fill notional fee).draws o.side o.id = 0 := by
  unfold Trade.between Trade.draws
  cases taker.side <;> cases o.side <;> simp [htaker.symm, hmaker.symm]

@[simp] theorem Trade.between_service :
    (Trade.between id taker maker fill notional fee).service = taker.service := by
  unfold Trade.between
  split <;> rfl

@[simp] theorem Trade.between_size :
    (Trade.between id taker maker fill notional fee).size = fill.size := by
  unfold Trade.between
  split <;> rfl

end Draws

/-- The tables with one more trade and its fact. -/
def Book.traded (b : Book) (t : Trade) (nav : Nat) : Book :=
  { b with trades := b.trades ++ [t], events := b.events ++ [t.executed nav] }

section Traded

variable (b : Book) (t : Trade) (nav : Nat)

theorem Book.traded_spent (o : Order) :
    (b.traded t nav).spent o = b.spent o + t.draws o.side o.id := by
  simp [Book.traded, Book.spent]

theorem Book.traded_locked (o : Order) : (b.traded t nav).locked o = b.locked o := by
  simp [Book.traded, Book.locked, Trade.executed, BookEvent.locks]

theorem Book.traded_released (o : Order) : (b.traded t nav).released o = b.released o := by
  simp [Book.traded, Book.released, Trade.executed, BookEvent.releases]

theorem Book.traded_volume (service : ServiceId) :
    (b.traded t nav).volume service =
      b.volume service + if t.service = service then t.size else 0 := by
  simp [Book.traded, Book.volume]

end Traded

/-- A fill changes no terms. -/
theorem Order.fill_terms {o o' : Order} {size price fee : Nat}
    (h : o.fill size price fee = .ok o') : o'.terms = o.terms := by
  obtain ⟨-, -, -, notional, -, rfl⟩ := Order.fill_ok h
  rfl

/-- What a fill adds to what its order dealt. -/
theorem Order.fill_dealt {o o' : Order} {size price fee : Nat}
    (h : o.fill size price fee = .ok o') (service : ServiceId) (side : OrderSide) :
    o'.dealt service side =
      o.dealt service side + if o.service = service ∧ o.side = side then size else 0 := by
  obtain ⟨-, -, -, notional, -, rfl⟩ := Order.fill_ok h
  unfold Order.dealt
  dsimp only
  split <;> rfl

/-- **One fill, step by step**: the tables agree after it as before, the taker and the maker have
the fill's size more, and no other order has changed. -/
theorem Book.Filling.applyFill {p : BookPolicy} {nav : Nat} {b b' : Book} {taker taker' : Order}
    {fill : Fill} {tradeId : Uuid} (h : b.Filling taker) (hfees : taker.FeeBounded p)
    (hfits : ∀ maker ∈ b.orders, maker.id = fill.maker → taker.Fits fill maker)
    (happly : b.applyFill p nav taker fill tradeId = .ok (taker', b')) :
    (b'.Filling taker' ∧ taker'.FeeBounded p) ∧ taker'.terms = taker.terms ∧
    taker'.filled = taker.filled + fill.size ∧
    b'.orders.map Order.terms = b.orders.map Order.terms ∧
    ∀ o ∈ b.orders, ∀ o' ∈ b'.orders, o'.id = o.id →
      (o'.state.isResting → o.state.isResting) ∧
      o'.filled = o.filled + if fill.maker = o.id then fill.size else 0 := by
  obtain ⟨maker, hmaker, hid, notional, fee, maker', hvalue, hfee, hmfill, htfill, hb'⟩ :=
    Book.applyFill_ok happly
  have hfit := hfits maker hmaker hid
  obtain ⟨row, hrow, hheld⟩ := h.inserted
  have hrowid : row.id = taker.id := (congrArg Order.id hheld :)
  have hmrow := h.row maker hmaker hfit.other
  -- the maker as it was and as it is
  have hmterms := Order.fill_terms hmfill
  have hmid : maker'.id = maker.id := (congrArg Order.id hmterms :)
  have hmside : maker'.side = maker.side := (congrArg Order.side hmterms :)
  have hmsound : maker'.Sound := hmrow.sound.makerFill (hfit.price ▸ hmfill)
  obtain ⟨hmresting, -, -, mnotional, -, hmeq⟩ := Order.fill_ok hmfill
  have hmupdated : maker.updated maker' = maker' := by rw [hmeq]; rfl
  have hmleft : maker.left = 0 := if_pos hmresting
  -- and the taker
  have htterms := Order.fill_terms htfill
  have htid : taker'.id = taker.id := (congrArg Order.id htterms :)
  have htside : taker'.side = taker.side := (congrArg Order.side htterms :)
  have htservice : taker'.service = taker.service := (congrArg Order.service htterms :)
  obtain ⟨htsound, htfees⟩ := h.heldRow.sound.takerFill hfees hfit.limit
    (hfit.price ▸ hmrow.sound.price_lt) hvalue hfee htfill
  obtain ⟨-, -, -, tnotional, -, hteq⟩ := Order.fill_ok htfill
  have hrowupdated : row.updated taker' = taker' :=
    Order.updated_held hheld htterms (by rw [hteq])
  have hopposite : maker'.side = taker'.side.opposite := by rw [hmside, htside]; exact hfit.side
  -- what the tables say of any order now
  generalize ht : Trade.between tradeId taker' maker' fill notional fee = t at hb'
  have horders : b'.orders = (b.store maker').orders := by rw [hb']; simp; rfl
  have hspent : ∀ o, b'.spent o = b.spent o + t.draws o.side o.id := fun o => by
    rw [← Book.traded_spent b t nav, hb', Book.spent, Book.recordRelease_trades]
    rfl
  have hlocked : ∀ o, b'.locked o = b.locked o := fun o => by
    rw [hb', Book.recordRelease_locked]
    exact Book.traded_locked b t nav o
  have hreleased : ∀ o, b'.released o =
      b.released o + if maker'.id = o.id then maker'.left else 0 := fun o => by
    rw [hb', Book.recordRelease_released _ hmsound]
    exact congrArg (· + _) (Book.traded_released b t nav o)
  have hvolume : ∀ s, b'.volume s = b.volume s + if taker.service = s then fill.size else 0 := by
    intro s
    have := Book.traded_volume b t nav s
    rw [← ht, Trade.between_service, Trade.between_size, htservice, ht] at this
    rw [← this, hb', Book.volume, Book.recordRelease_trades]
    rfl
  have hterms : b'.orders.map Order.terms = b.orders.map Order.terms := by
    rw [horders]
    exact Book.store_terms b maker'
  have hids := Book.ids_of_terms hterms
  have hmem : ∀ o, o ∈ b'.orders ↔ o = maker' ∨ o ∈ b.orders ∧ o.id ≠ maker'.id := fun o => by
    rw [horders]
    exact Book.mem_store h.ids hmaker hmupdated
  refine ⟨⟨⟨?_, ?_, ?_, ?_, ?_, ?_⟩, htfees⟩, htterms, ?_, hterms, ?_⟩
  · rw [hids]
    exact h.ids
  · refine ⟨row, (hmem row).mpr (.inr ⟨hrow, ?_⟩), hrowupdated⟩
    rw [hrowid, hmid]
    exact hfit.other.symm
  · -- every other order's row
    intro o ho hne
    rw [htid] at hne
    rcases (hmem o).mp ho with rfl | ⟨ho, hnm⟩
    · have hsame : b.spent o = b.spent maker := by rw [Book.spent, Book.spent, hmid, hmside]
      refine ⟨hmsound, ?_, ?_, ?_⟩
      · rw [hspent, ← ht, Trade.draws_maker _ _ _ _ _ _ hopposite, hsame, hmrow.spent, hmside]
        exact (Order.fill_spent hvalue hmfill).symm
      · rw [hlocked, Book.locked, hmid]
        exact hmrow.locked.trans (congrArg (fun o : Order => o.reserved.amount) hmterms :).symm
      · rw [hreleased, if_pos rfl, Book.released, hmid]
        exact (congrArg (· + o.left) (hmrow.released.trans hmleft)).trans (Nat.zero_add _)
    · have hother := h.row o ho hne
      refine ⟨hother.sound, ?_, (hlocked o).trans hother.locked, ?_⟩
      · rw [hspent, ← ht, Trade.draws_other _ _ _ _ _ _ (htid ▸ hne) hnm]
        exact hother.spent
      · rw [hreleased, if_neg (Ne.symm hnm)]
        exact hother.released
  · -- the taker
    have hsame : b.spent taker' = b.spent taker := by rw [Book.spent, Book.spent, htid, htside]
    refine ⟨htsound, ?_, ?_, ?_⟩
    · rw [hspent, ← ht, Trade.draws_taker, hsame, h.heldRow.spent, htside]
      exact (Order.fill_spent hvalue htfill).symm
    · rw [hlocked, Book.locked, htid]
      exact h.heldRow.locked.trans (congrArg (fun o : Order => o.reserved.amount) htterms :).symm
    · rw [hreleased, htid, if_neg (hmid ▸ hfit.other), Book.released, htid]
      exact h.heldRow.released
  · -- no order of another id
    intro o ho
    rw [hids] at ho
    have hne : ∀ x ∈ b.orders, o.id ≠ x.id := fun x hx he =>
      ho (he ▸ List.mem_map.mpr ⟨x, hx, rfl⟩)
    obtain ⟨hs, hl, hr⟩ := h.unknown o ho
    have htaker : o.id ≠ taker'.id := by rw [htid, ← hrowid]; exact hne row hrow
    have hnm : o.id ≠ maker'.id := by rw [hmid]; exact hne maker hmaker
    refine ⟨?_, (hlocked o).trans hl, ?_⟩
    · rw [hspent, ← ht, Trade.draws_other _ _ _ _ _ _ htaker hnm, hs]
    · rw [hreleased, if_neg (Ne.symm hnm), hr]
  · -- what was dealt: one of the two is on the side
    intro s side
    have hsum : (b'.orders.map fun o => (if o.id = taker'.id then taker' else o).dealt s side) =
        b.orders.map fun o => if o.id = row.id then taker'.dealt s side
          else if o.id = maker.id then maker'.dealt s side
          else (if o.id = taker.id then taker else o).dealt s side := by
      rw [horders, Book.store, List.map_map]
      refine List.map_congr_left fun o ho => ?_
      simp only [Function.comp_apply, htid, hmid, hrowid]
      by_cases hm : o.id = maker.id
      · have hne : o.id ≠ taker.id := hm ▸ hfit.other
        have hupdated : (o.updated maker').id = o.id := rfl
        rw [if_pos hm, hupdated, if_neg hne, if_neg hne, if_pos hm, eq_of_id h.ids ho hmaker hm,
          hmupdated]
      · rw [if_neg hm, if_neg hm]
        split <;> rfl
    have htwo := sum_replace_two h.ids hrow hmaker (hrowid ▸ hfit.other.symm)
      (fun o => (if o.id = taker.id then taker else o).dealt s side) (taker'.dealt s side)
      (maker'.dealt s side)
    rw [h.volume s side, if_pos hrowid, if_neg hfit.other] at htwo
    have hmdealt := Order.fill_dealt hmfill s side
    have htdealt := Order.fill_dealt htfill s side
    have hone : (if taker.service = s ∧ taker.side = side then fill.size else 0) +
        (if maker.service = s ∧ maker.side = side then fill.size else 0) =
        if taker.service = s then fill.size else 0 := by
      rw [hfit.service, hfit.side]
      cases taker.side <;> cases side <;> simp [OrderSide.opposite]
    rw [hsum, hvolume s]
    omega
  · rw [hteq]
  · -- what each order has filled
    intro o ho o' ho' he
    rcases (hmem o').mp ho' with rfl | ⟨hold, hnm⟩
    · have : maker = o := eq_of_id h.ids hmaker ho (hmid ▸ he)
      rw [← this, if_pos hid.symm]
      exact ⟨fun _ => hmresting, by rw [hmeq]⟩
    · have : o' = o := eq_of_id h.ids hold ho he
      rw [this, if_neg (by rw [← hid, ← hmid, ← he]; exact Ne.symm hnm)]
      exact ⟨id, rfl⟩

end Banking
