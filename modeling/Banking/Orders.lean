import Banking.Arrivals
import Banking.Money

/-! # Orders

The book's domain: prices and terms, the order aggregate with its escrow, and the matching engine.
Amounts and prices are numbers of base units, 18 decimals. -/

namespace Banking

/-! ## Terms -/

/-- One hundred percent, in basis points. -/
def BPS_DENOMINATOR : Nat := 10000

/-- A sum that must stay within 128 bits. -/
def checkedAdd (a b : Nat) (overflow : String) : Except DomainError Nat :=
  if a + b < 2 ^ 128 then .ok (a + b) else .error (.validation overflow)

/-- The cash value of `units` at a price, floored. -/
def Price.value (price units : Nat) : Except DomainError Nat :=
  match mulDivFloor units price SCALE with
  | some cash => .ok cash
  | none => .error (.validation "trade value overflows")

/-- A quote scaled by a fraction, floored. -/
def Price.scale (price numer denom : Nat) : Except DomainError Nat :=
  match mulDivFloor price numer denom with
  | some scaled => .ok scaled
  | none => .error (.validation "price scaling overflows or divides by zero")

/-- The nearest tick at or below a price. -/
def Price.floorTo (price tick : Nat) : Nat := if tick = 0 then price else price - price % tick

/-- The nearest tick at or above a price, stopping at the end of the range. -/
def Price.ceilTo (price tick : Nat) : Nat :=
  if tick = 0 ∨ price % tick = 0 then price
  else min (Price.floorTo price tick + tick) (2 ^ 128 - 1)

/-- What stands behind an allocation's units: the cash paid for them, or an asset held in kind. -/
inductive AllocationBacking
  | cash
  | inKind
deriving DecidableEq, Repr

/-- One allocation's trading terms. Fees and slippage are at most one hundred percent, tick and lot
positive. -/
structure BookPolicy where
  bookOpen : Bool
  takerFeeBps : Nat
  priceTick : Nat
  lotSize : Nat
  marketSlippageBps : Nat
  allowUnbackedTrading : Bool
  takerFee_le : takerFeeBps ≤ BPS_DENOMINATOR
  slippage_le : marketSlippageBps ≤ BPS_DENOMINATOR
  tick_pos : 0 < priceTick
  lot_pos : 0 < lotSize
deriving DecidableEq, Repr

/-- The terms of a product nobody set any for: a closed book, a cent's tick, a lot of 0.0001. -/
def BookPolicy.default : BookPolicy where
  bookOpen := false
  takerFeeBps := 0
  priceTick := SCALE / 100
  lotSize := SCALE / 10000
  marketSlippageBps := 500
  allowUnbackedTrading := false
  takerFee_le := by decide
  slippage_le := by decide
  tick_pos := by decide
  lot_pos := by decide

/-- Whether the book is open, and acknowledged where the units are not backed by cash. -/
def BookPolicy.ensureTradableFor (p : BookPolicy) (service : ServiceId)
    (backing : AllocationBacking) : Except DomainError Unit :=
  if ¬ p.bookOpen then
    .error (.precondition ("the book for '" ++ service.slug ++ "' is closed"))
  else if backing = .inKind ∧ ¬ p.allowUnbackedTrading then
    .error (.precondition ("the book on '" ++ service.slug ++
      "' trades units that are not backed by fund cash — an operator must acknowledge unbacked" ++
      " trading (allow_unbacked_trading) before the book opens"))
  else .ok ()

/-- A limit price a caller named, checked against the grid. -/
def BookPolicy.price (p : BookPolicy) (price : Nat) : Except DomainError Nat :=
  if price = 0 then .error (.validation "price must be positive")
  else if price % p.priceTick ≠ 0 then
    .error (.validation ("price must be a multiple of the " ++ toDecimalString p.priceTick ++
      " tick"))
  else .ok price

/-- An order size a caller named, checked against the lot. -/
def BookPolicy.size (p : BookPolicy) (size : Nat) : Except DomainError Nat :=
  if size = 0 then .error (.validation "size must be positive")
  else if size % p.lotSize ≠ 0 then
    .error (.validation ("size must be a multiple of the " ++ toDecimalString p.lotSize ++ " lot"))
  else .ok size

/-- What a taker owes on a fill of `notional`, floored. -/
def BookPolicy.takerFee (p : BookPolicy) (notional : Nat) : Except DomainError Nat :=
  Usdt.scale notional p.takerFeeBps BPS_DENOMINATOR

/-- The cash a buy order commits: its notional at the limit and the taker fee on it. -/
def BookPolicy.buyReserve (p : BookPolicy) (size price : Nat) : Except DomainError Nat := do
  let notional ← Price.value price size
  let fee ← p.takerFee notional
  checkedAdd notional fee "order reserve overflows"

/-- The limit a market order is given from the best opposite quote, rounded outwards to the tick. -/
def BookPolicy.marketLimit (p : BookPolicy) (side : OrderSide) (bestOpposite : Nat) :
    Except DomainError Nat := do
  let limit ← match side with
    | .buy =>
      (Price.scale bestOpposite (BPS_DENOMINATOR + p.marketSlippageBps) BPS_DENOMINATOR).map
        (Price.ceilTo · p.priceTick)
    | .sell =>
      (Price.scale bestOpposite (BPS_DENOMINATOR - p.marketSlippageBps) BPS_DENOMINATOR).map
        (Price.floorTo · p.priceTick)
  if limit = 0 then .error (.validation "market sell would fill at a zero price") else .ok limit

/-! ## Orders -/

/-- A side's stored text. -/
def OrderSide.asStr : OrderSide → String
  | .buy => "buy"
  | .sell => "sell"

/-- The other side. -/
def OrderSide.opposite : OrderSide → OrderSide
  | .buy => .sell
  | .sell => .buy

/-- A limit order, or one priced off the best opposite quote. -/
inductive OrderKind
  | limit
  | market
deriving DecidableEq, Repr

/-- Time in force: good till cancelled, immediate or cancel, post only. -/
inductive Tif
  | gtc
  | ioc
  | alo
deriving DecidableEq, Repr

/-- Where an order stands. -/
inductive OrderState
  | opened
  | partiallyFilled
  | filled
  | cancelled
  | rejected
deriving DecidableEq, Repr

/-- A state's stored text. -/
def OrderState.asStr : OrderState → String
  | .opened => "open"
  | .partiallyFilled => "partially_filled"
  | .filled => "filled"
  | .cancelled => "cancelled"
  | .rejected => "rejected"

/-- Whether an order is on the book. -/
def OrderState.isResting : OrderState → Bool
  | .opened | .partiallyFilled => true
  | .filled | .cancelled | .rejected => false

/-- Why an order was cancelled. -/
inductive CancelReason
  | user
  | iocRemainder
  | marketRemainder
deriving DecidableEq, Repr

/-- The reason a remainder is cancelled for. -/
def CancelReason.remainderOf : OrderKind → CancelReason
  | .market => .marketRemainder
  | .limit => .iocRemainder

/-- One order. -/
structure Order where
  id : Uuid
  service : ServiceId
  user : UserId
  clientOrderId : String
  side : OrderSide
  kind : OrderKind
  tif : Tif
  price : Nat
  size : Nat
  filled : Nat
  notionalFilled : Nat
  feePaid : Nat
  reserved : Locked
  state : OrderState
  rejectReason : Option String
  cancelReason : Option CancelReason
deriving DecidableEq, Repr

/-- A fresh order, priced and sized, with the escrow it commits. -/
def Order.place (id : Uuid) (service : ServiceId) (user : UserId) (clientOrderId : String)
    (side : OrderSide) (kind : OrderKind) (tif : Tif) (price size : Nat) (reserved : Locked) :
    Order :=
  { id, service, user, clientOrderId, side, kind, tif, price, size, filled := 0, notionalFilled := 0,
    feePaid := 0, reserved, state := .opened, rejectReason := none, cancelReason := none }

/-- The units not filled yet. -/
def Order.remaining (o : Order) : Nat := o.size - o.filled

/-- Whether a retry under the same client order id asks for the same thing. -/
def Order.matchesRequest (o : Order) (service : ServiceId) (side : OrderSide) (kind : OrderKind)
    (tif : Tif) (size : Nat) : Bool :=
  o.service = service && o.side = side && o.kind = kind && o.tif = tif && o.size = size

/-- Record `size` units traded at `price`, charging `fee` to this order. -/
def Order.fill (o : Order) (size price fee : Nat) : Except DomainError Order :=
  if ¬ o.state.isResting then
    .error (.conflict ("order is " ++ o.state.asStr ++ ", not fillable"))
  else if size = 0 ∨ o.remaining < size then
    .error (.validation "fill exceeds the order's remaining size")
  else do
    let notional ← Price.value price size
    let filled ← checkedAdd o.filled size "filled size overflows"
    let notionalFilled ← checkedAdd o.notionalFilled notional "filled notional overflows"
    let feePaid ← checkedAdd o.feePaid fee "fee paid overflows"
    .ok { o with
          filled, notionalFilled, feePaid
          state := if filled = o.size then .filled else .partiallyFilled }

/-- Take the order off the book; a cancelled one stays as it is. -/
def Order.cancel (o : Order) (reason : CancelReason) : Except DomainError Order :=
  match o.state with
  | .cancelled => .ok o
  | .opened | .partiallyFilled =>
    .ok { o with state := .cancelled, cancelReason := some reason }
  | state => .error (.conflict ("order is " ++ state.asStr ++ ", not cancellable"))

/-- Take an order the ledger refused to escrow off the book. -/
def Order.reject (o : Order) (reason : String) : Order :=
  if o.state.isResting then { o with state := .rejected, rejectReason := some reason } else o

/-- What of the escrow is not spent; none when more was spent than reserved. -/
def Order.unspent (o : Order) : Option Locked :=
  match o.reserved with
  | .units u => if o.filled ≤ u then some (.units (u - o.filled)) else none
  | .cash c =>
    if o.notionalFilled + o.feePaid ≤ c then some (.cash (c - o.notionalFilled - o.feePaid)) else none

/-- How much a lock holds, of units or of cash. -/
def Locked.amount : Locked → Nat
  | .units u => u
  | .cash c => c

/-- Whether a lock is of nothing. -/
def Locked.isZero (l : Locked) : Bool := l.amount = 0

/-- What the escrow still holds once the order is terminal; nothing while it rests, and nothing for a
rejected order. -/
def Order.release (o : Order) : Option Locked :=
  if o.state.isResting || o.state = .rejected then none
  else o.unspent.filter (! ·.isZero)

/-! ## Matching -/

/-- A resting order as the engine sees it. -/
structure RestingOrder where
  id : Uuid
  user : UserId
  price : Nat
  remaining : Nat
deriving DecidableEq, Repr

/-- The engine's view of an order while it rests. -/
def Order.asResting (o : Order) : RestingOrder :=
  { id := o.id, user := o.user, price := o.price, remaining := o.remaining }

/-- One trade the engine decided, at the maker's price. -/
structure Fill where
  maker : Uuid
  makerUser : UserId
  price : Nat
  size : Nat
deriving DecidableEq, Repr

/-- Why an incoming order is refused as a whole. -/
inductive Rejection
  | selfTrade
  | wouldCross
deriving DecidableEq, Repr

/-- What a caller is told of a rejection. -/
def Rejection.reason : Rejection → String
  | .selfTrade => "order would trade against your own resting order"
  | .wouldCross => "post-only order would cross the book"

/-- What the engine decided. -/
structure MatchOutcome where
  fills : List Fill
  remainder : Nat
  rests : Bool
deriving DecidableEq, Repr

/-- Whether a maker's price crosses the incoming order's limit. -/
def crosses (incoming : Order) (maker : RestingOrder) : Bool :=
  match incoming.side with
  | .buy => maker.price ≤ incoming.price
  | .sell => incoming.price ≤ maker.price

/-- Walk the opposite side best first with `remaining` units left: the fills, and what is left. -/
def walk (incoming : Order) : List RestingOrder → Nat → Except Rejection (List Fill × Nat)
  | [], remaining => .ok ([], remaining)
  | maker :: makers, remaining =>
    if remaining = 0 ∨ ¬ crosses incoming maker then .ok ([], remaining)
    else if maker.user = incoming.user then .error .selfTrade
    else if incoming.tif = .alo then .error .wouldCross
    else if maker.remaining = 0 then walk incoming makers remaining
    else do
      let size := min remaining maker.remaining
      let (fills, left) ← walk incoming makers (remaining - size)
      pure ({ maker := maker.id, makerUser := maker.user, price := maker.price, size } :: fills, left)

/-- **Strict price-time priority**: fill at each maker's price while it crosses; the remainder rests
unless the order is immediate or cancel. -/
def matchOrder (incoming : Order) (resting : List RestingOrder) : Except Rejection MatchOutcome := do
  let (fills, remainder) ← walk incoming resting incoming.size
  pure { fills, remainder, rests := remainder ≠ 0 && incoming.tif ≠ .ioc }

end Banking
