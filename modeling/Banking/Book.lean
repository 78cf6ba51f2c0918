import Mathlib.Data.List.Sort
import Banking.Orders

/-! # The book

Placing and cancelling, from the request to the tables. The book of a product is the orders of it
that rest; one placement runs the engine over the other side, best first, and records the trades,
what became of the makers, and the facts the relay moves the escrow by. Everything a placement writes
is one transaction: where it fails, nothing was written. -/

namespace Banking

/-! ## The tables -/

/-- One trade as recorded: the two parties and their orders, the maker's price, and what the taker
paid on top. -/
structure Trade where
  id : Uuid
  service : ServiceId
  buyer : UserId
  seller : UserId
  buyOrder : Uuid
  sellOrder : Uuid
  takerSide : OrderSide
  price : Nat
  size : Nat
  notional : Nat
  fee : Nat
deriving DecidableEq, Repr

/-- **The books of all products**: orders and trades as they arrived, a revision counter for each
product, and the facts drained to the outbox, in their order. -/
structure Book where
  orders : List Order
  trades : List Trade
  revisions : List (ServiceId × Nat)
  events : List BookEvent
deriving DecidableEq, Repr

/-- The books before the first order. -/
def Book.empty : Book := { orders := [], trades := [], revisions := [], events := [] }

section Reads

variable (b : Book)

/-- The order a caller's own id names. -/
def Book.findByClientId (user : UserId) (clientOrderId : String) : Option Order :=
  b.orders.find? fun o => o.user = user && o.clientOrderId = clientOrderId

/-- The order with an id. -/
def Book.findOrder (id : Uuid) : Option Order := b.orders.find? (·.id = id)

/-- The order with an id, which has to be there. -/
def Book.loadOrder (id : Uuid) : Except DomainError Order :=
  match b.findOrder id with
  | some order => .ok order
  | none => .error (.notFound "order" id.text)

/-- One side of a product's book. -/
def Book.resting (service : ServiceId) (side : OrderSide) : List Order :=
  b.orders.filter fun o => o.service = service && o.side = side && o.state.isResting

/-- Whether an order comes before another on its side. -/
def bestFirst (side : OrderSide) (o o' : Order) : Prop :=
  match side with
  | .buy => o'.price ≤ o.price
  | .sell => o.price ≤ o'.price

instance (side : OrderSide) : DecidableRel (bestFirst side) := fun _ _ => by
  cases side <;> exact Nat.decLe _ _

/-- The best quote of a side. -/
def Book.bestPrice (service : ServiceId) (side : OrderSide) : Option Nat :=
  match side with
  | .buy => ((b.resting service .buy).map (·.price)).max?
  | .sell => ((b.resting service .sell).map (·.price)).min?

/-- What an incoming order may trade with: the orders of the other side that cross its limit, best
first and in order of arrival within a price. -/
def Book.crossing (incoming : Order) : List RestingOrder :=
  (((b.resting incoming.service incoming.side.opposite).filter fun o =>
    crosses incoming o.asResting).insertionSort (bestFirst incoming.side.opposite)).map
      Order.asResting

/-- A product's revision. -/
def Book.currentRevision (service : ServiceId) : Nat :=
  ((b.revisions.find? (·.1 = service)).map (·.2)).getD 0

end Reads

section Writes

variable (b : Book)

/-- Count a product's revision up. -/
def Book.bumpRevision (service : ServiceId) : Book :=
  { b with
    revisions := (service, b.currentRevision service + 1) ::
      b.revisions.filter (·.1 ≠ service) }

/-- Append a fact to the outbox. -/
def Book.recordEvent (event : BookEvent) : Book := { b with events := b.events ++ [event] }

/-- Insert an order: its id is new, its owner has not used the client's id, and its price, its size
and what it reserves are not zero. -/
def Book.insertOrder (order : Order) : Except DomainError Book :=
  if b.orders.any (·.id = order.id) then .error (.repository "book_orders_pkey")
  else if b.orders.any (fun o => o.user = order.user && o.clientOrderId = order.clientOrderId) then
    .error (.repository "book_orders_user_id_client_order_id_key")
  else if order.price = 0 ∨ order.size = 0 ∨ order.reserved.amount = 0 then
    .error (.repository "book_orders_check")
  else .ok { b with orders := b.orders ++ [order] }

/-- An order's row with the fields that change taken from `order`. -/
def Order.updated (row order : Order) : Order :=
  { row with
    filled := order.filled
    notionalFilled := order.notionalFilled
    feePaid := order.feePaid
    state := order.state
    cancelReason := order.cancelReason }

/-- Store the fields of an order that change. -/
def Book.updateOrder (order : Order) : Except DomainError Book :=
  if b.orders.any (·.id = order.id) then
    .ok { b with orders := b.orders.map fun o => if o.id = order.id then o.updated order else o }
  else .error (.repository "order row vanished under the book lock")

/-- Insert a trade, between two different parties. -/
def Book.insertTrade (trade : Trade) : Except DomainError Book :=
  if trade.price = 0 ∨ trade.size = 0 ∨ trade.buyer = trade.seller then
    .error (.repository "book_trades_check")
  else .ok { b with trades := b.trades ++ [trade] }

/-- Hand back what the escrow of an order still holds, if it ended and anything is left. -/
def Book.recordRelease (order : Order) : Book :=
  match order.release with
  | none => b
  | some released =>
    b.recordEvent (.orderReleased order.id order.service order.user order.side released)

end Writes

/-! ## Placing and cancelling -/

/-- The trade of one fill of `order`, the taker, against `maker`. -/
def Trade.between (id : Uuid) (order maker : Order) (fill : Fill) (notional fee : Nat) : Trade :=
  match order.side with
  | .buy =>
    { id, service := order.service, buyer := order.user, seller := maker.user, buyOrder := order.id
      sellOrder := maker.id, takerSide := .buy, price := fill.price, size := fill.size, notional, fee }
  | .sell =>
    { id, service := order.service, buyer := maker.user, seller := order.user, buyOrder := maker.id
      sellOrder := order.id, takerSide := .sell, price := fill.price, size := fill.size
      notional, fee }

/-- The fact a trade leaves for the relay: its fee goes to the fee allocation. -/
def Trade.executed (t : Trade) (nav : Nat) : BookEvent :=
  .tradeExecuted t.id t.service t.buyer t.seller t.buyOrder t.sellOrder t.takerSide t.size t.notional
    t.fee nav (.service .fee)

section Place

variable (policy : BookPolicy) (nav : Nat)

/-- Record one fill of `order`: the maker pays no fee. -/
def Book.applyFill (b : Book) (order : Order) (fill : Fill) (tradeId : Uuid) :
    Except DomainError (Order × Book) := do
  let maker ← b.loadOrder fill.maker
  let notional ← Price.value fill.price fill.size
  let fee ← policy.takerFee notional
  let maker ← maker.fill fill.size fill.price 0
  let order ← order.fill fill.size fill.price fee
  let trade := Trade.between tradeId order maker fill notional fee
  let traded ← b.insertTrade trade
  let settled ← (traded.recordEvent (trade.executed nav)).updateOrder maker
  .ok (order, settled.recordRelease maker)

/-- Record the fills of `order`, in the order the engine decided them; `mint` names the trades. -/
def Book.applyFills (mint : Nat → Uuid) : Book → Order → List Fill → Except DomainError (Order × Book)
  | b, order, [] => .ok (order, b)
  | b, order, fill :: fills => do
    let (order, b) ← b.applyFill policy nav order fill (mint fills.length)
    b.applyFills mint order fills

/-- What an order that does not rest could not fill is cancelled. -/
def MatchOutcome.cancelRemainder (outcome : MatchOutcome) (order : Order) :
    Except DomainError Order :=
  if ¬ outcome.rests ∧ order.state.isResting then order.cancel (.remainderOf order.kind)
  else .ok order

/-- What a placement came to. -/
inductive PlaceOutcome
  | placed (order : Order) (trades : List Trade) (revision : Nat)
  | rejected (rejection : Rejection)
  | existing (order : Order)
deriving DecidableEq, Repr

/-- **One placement**, under the book's lock. `covers` is the answer of the guard, which asks again
whether the owner's claim covers what the order reserves. -/
def Book.place (b : Book) (order : Order) (covers : Except DomainError Unit) (mint : Nat → Uuid) :
    Except DomainError (PlaceOutcome × Book) :=
  match b.findByClientId order.user order.clientOrderId with
  | some existing => .ok (.existing existing, b)
  | none => do
    covers
    match matchOrder order (b.crossing order) with
    | .error rejection => .ok (.rejected rejection, b)
    | .ok outcome => do
      let inserted ← (b.bumpRevision order.service).insertOrder order
      let opened := inserted.recordEvent
        (.orderPlaced order.id order.service order.user order.side order.reserved)
      let (order, traded) ← opened.applyFills policy nav mint order outcome.fills
      let order ← outcome.cancelRemainder order
      let stored ← traded.updateOrder order
      let released := stored.recordRelease order
      let record ← released.loadOrder order.id
      .ok (.placed record (released.trades.drop b.trades.length)
        (released.currentRevision order.service), released)

end Place

/-- **One cancellation** by the owner, under the book's lock; a cancelled order stays as it is. -/
def Book.cancel (b : Book) (id : Uuid) : Except DomainError (Order × Nat × Book) := do
  let order ← b.loadOrder id
  if order.state = .cancelled then .ok (order, b.currentRevision order.service, b)
  else do
    let order ← order.cancel .user
    let stored ← (b.bumpRevision order.service).updateOrder order
    let released := stored.recordRelease order
    let record ← released.loadOrder id
    .ok (record, released.currentRevision order.service, released)

/-! ## The use cases -/

/-- What one investor may do with a product. -/
inductive AllocationAccess
  | hidden
  | view
  | invest
deriving DecidableEq, Repr

/-- Whether a product at this level is in the caller's catalog. -/
def AllocationAccess.permitsViewing : AllocationAccess → Bool
  | .hidden => false
  | .view | .invest => true

/-- Whether this level lets the caller put money in. -/
def AllocationAccess.permitsInvesting : AllocationAccess → Bool
  | .hidden | .view => false
  | .invest => true

/-- One order as the caller asked for it. Amounts are 128-bit. -/
structure PlaceOrderRequest where
  service : ServiceId
  side : OrderSide
  kind : OrderKind
  tif : Tif
  price : Option Nat
  size : Nat
  clientOrderId : String
  price_lt : ∀ p ∈ price, p < 2 ^ 128
  size_lt : size < 2 ^ 128
deriving DecidableEq

/-- What a placement reads beside the book: the pause, the caller's standing, the registry and the
caller's access, the terms, the balances, and the fund's price. `spendableLocked` is the spendable
claim asked again under the lock. -/
structure PlaceReads where
  outflowsPaused : Bool
  blocked : Option Bool
  allocation : Option (AllocationAccess × AllocationBacking)
  policy : Option BookPolicy
  available : Nat
  spendable : Nat
  spendableLocked : Nat
  nav : Except DomainError Nat

/-- The product as a caller may trade it; a hidden one answers as one that is not there. -/
def requireTradable (allocation : Option (AllocationAccess × AllocationBacking))
    (service : ServiceId) : Except DomainError AllocationBacking :=
  match allocation with
  | none => .error (.notFound "allocation" service.slug)
  | some (access, backing) =>
    if ¬ access.permitsViewing then .error (.notFound "allocation" service.slug)
    else if ¬ access.permitsInvesting then
      .error (.precondition ("allocation '" ++ service.slug ++
        "' is not open to you for trading — an operator must grant you 'invest' access"))
    else .ok backing

/-- The price an order is placed at: the caller's, or for a market order one off the best opposite
quote. -/
def orderPrice (policy : BookPolicy) (quoted : Book) (r : PlaceOrderRequest) :
    Except DomainError Nat :=
  match r.kind with
  | .limit =>
    match r.price with
    | none => .error (.validation "a limit order needs a price")
    | some price => policy.price price
  | .market =>
    if r.price.isSome then
      .error (.validation "a market order takes no price — it is priced from the book")
    else if r.tif ≠ .ioc then .error (.validation "a market order is immediate-or-cancel")
    else
      match quoted.bestPrice r.service r.side.opposite with
      | none => .error (.precondition ("no " ++ r.side.opposite.asStr ++
          " liquidity on the book for '" ++ r.service.slug ++ "'"))
      | some best => policy.marketLimit r.side best

/-- **What a placement asks before it looks whether the client's id is taken**: the pause, the
caller's standing and access, the terms, and the grid. -/
def placeGates (w : PlaceReads) (quoted : Book) (r : PlaceOrderRequest) :
    Except DomainError (BookPolicy × Nat) :=
  if w.outflowsPaused then
    .error (.precondition "money movements are temporarily paused (read-only mode)")
  else if w.blocked = some true then .error (.forbidden "account is frozen")
  else do
    let backing ← requireTradable w.allocation r.service
    let policy := w.policy.getD .default
    policy.ensureTradableFor r.service backing
    let _ ← policy.size r.size
    let price ← orderPrice policy quoted r
    .ok (policy, price)

/-- What a request reserves, where the caller has it free. -/
def reserve (w : PlaceReads) (policy : BookPolicy) (r : PlaceOrderRequest) (price : Nat) :
    Except DomainError Locked :=
  match r.side with
  | .sell =>
    if w.available < r.size then .error (.validation "insufficient units to sell")
    else .ok (.units r.size)
  | .buy => do
    let reserve ← policy.buyReserve r.size price
    if w.spendable < reserve then .error (.validation "insufficient available balance to buy")
    else .ok (.cash reserve)

/-- The guard of a placement: a sell has none. -/
def claimCovers (w : PlaceReads) : Locked → Except DomainError Unit
  | .units _ => .ok ()
  | .cash reserve =>
    if w.spendableLocked < reserve then .error (.validation "insufficient available balance to buy")
    else .ok ()

/-- The order a request's id names already, if it asks for the same thing. -/
def sameRequestOrConflict (existing : Order) (r : PlaceOrderRequest) : Except DomainError Order :=
  if existing.matchesRequest r.service r.side r.kind r.tif r.size then .ok existing
  else .error (.conflict ("client order id '" ++ r.clientOrderId ++
    "' already names a different order"))

/-- **Placing an order.** `quoted` and `seen` are the books as the best quote and the client's id
were read, without a lock; `b` is the book under the lock. `id` and `mint` name the order and its
trades. -/
def placeOrder (w : PlaceReads) (quoted seen b : Book) (user : UserId) (r : PlaceOrderRequest)
    (id : Uuid) (mint : Nat → Uuid) : Except DomainError Order × Book :=
  match placeGates w quoted r with
  | .error e => (.error e, b)
  | .ok (policy, price) =>
    match seen.findByClientId user r.clientOrderId with
    | some existing => (sameRequestOrConflict existing r, b)
    | none =>
      match reserve w policy r price, w.nav with
      | .error e, _ | .ok _, .error e => (.error e, b)
      | .ok reserved, .ok nav =>
        let order := Order.place id r.service user r.clientOrderId r.side r.kind r.tif price r.size
          reserved
        match b.place policy nav order (claimCovers w reserved) mint with
        | .error e => (.error e, b)
        | .ok (.placed record _ _, b') => (.ok record, b')
        | .ok (.rejected rejection, _) => (.error (.validation rejection.reason), b)
        | .ok (.existing existing, _) => (sameRequestOrConflict existing r, b)

/-- **Cancelling one's own order**; `seen` is the book as its owner was read. -/
def cancelOrder (seen b : Book) (id : Uuid) (user : UserId) : Except DomainError Order × Book :=
  match seen.findOrder id with
  | none => (.error (.notFound "order" id.text), b)
  | some existing =>
    if existing.user ≠ user then (.error (.forbidden "not your order"), b)
    else
      match b.cancel id with
      | .error e => (.error e, b)
      | .ok (record, _, b') => (.ok record, b')

end Banking
