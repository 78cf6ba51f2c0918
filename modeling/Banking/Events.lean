import Banking.Accounts

/-! # Domain events and outbox rows

The facts the aggregates raise, one type for each kind of event the relay knows, and the outbox row
that carries one to it. Amounts of cash (`Usdt`), of units (`Shares`) and prices (`Nav`) are numbers of
base units, 18 decimals.

A row's `kind` and `payload` columns are modelled together as its **decoded payload**: the event,
or `undecodable` when the payload does not decode as its kind's event type, or `other` for a kind
the relay has no plan for. -/

namespace Banking

/-! ## Event types -/

/-- Standalone ledger facts: a deposit credits the party the chain named. -/
inductive LedgerEvent
  | deposited (party : Party) (network : Network) (amount : Nat)
deriving DecidableEq, Repr

/-- A withdrawal's saga. -/
inductive WithdrawalEvent
  | requested (source : WithdrawalSource) (network : Network) (address : String)
      (amount fee : Nat)
  | dispatched (source : WithdrawalSource) (network : Network) (address : String)
      (amount fee : Nat)
  | settled (source : WithdrawalSource) (network : Network) (amount fee : Nat) (txRef : String)
      (payee : FeePayee)
  | failed (source : WithdrawalSource) (network : Network) (amount fee : Nat)
  | cancelled (source : WithdrawalSource) (network : Network) (amount fee : Nat)
deriving DecidableEq, Repr

/-- A subscription: cash into the fund, units to the investor. -/
inductive SubscriptionEvent
  | subscribed (user : UserId) (service : ServiceId) (cash nav units : Nat)
deriving DecidableEq, Repr

/-- A redemption's saga. -/
inductive RedemptionEvent
  | requested (user : UserId) (service : ServiceId) (units : Nat)
  | settled (user : UserId) (service : ServiceId) (units nav cash : Nat)
  | failed (user : UserId) (service : ServiceId) (units : Nat)
  | cancelled (user : UserId) (service : ServiceId) (units : Nat)
deriving DecidableEq, Repr

/-- The fee plane: units clawed back from a holder, and the accumulated units settled in cash. -/
inductive FeeEvent
  | charged (user : UserId) (service : ServiceId) (units nav cash : Nat)
  | sharesSettled (service : ServiceId) (units nav cash : Nat) (payee : Party)
deriving DecidableEq, Repr

/-- Where an issuance's units come from, or go. -/
inductive IssuanceSource
  | mint
  | retire
deriving DecidableEq, Repr

/-- Units handed to, or taken from, a holder with no cash leg. -/
inductive IssuanceEvent
  | issued (service : ServiceId) (holder : UnitHolder) (source : IssuanceSource) (units : Nat)
      (nav costBasis : Nat)
deriving DecidableEq, Repr

/-- The side of an order. -/
inductive OrderSide
  | buy
  | sell
deriving DecidableEq, Repr

/-- What an order holds in escrow: units for a sell, cash for a buy. -/
inductive Locked
  | units (amount : Nat)
  | cash (amount : Nat)
deriving DecidableEq, Repr

/-- The book: an escrow locked, two orders traded, what is left of an escrow handed back. -/
inductive BookEvent
  | orderPlaced (orderId : Uuid) (service : ServiceId) (user : UserId) (side : OrderSide)
      (locked : Locked)
  | tradeExecuted (tradeId : Uuid) (service : ServiceId) (buyer seller : UserId)
      (buyOrderId sellOrderId : Uuid) (takerSide : OrderSide) (size : Nat) (notional fee : Nat)
      (nav : Nat) (payee : Party)
  | orderReleased (orderId : Uuid) (service : ServiceId) (user : UserId) (side : OrderSide)
      (released : Locked)
deriving DecidableEq, Repr

/-- A payment order. Only `reserved`, `settled` and `released` move money; the rest is its audit
trail. -/
inductive PaymentEvent
  | reserved (source : Party) (amount : Nat)
  | settled (source target : Party) (amount : Nat)
  | released (source : Party) (amount : Nat)
  | opened
  | approvalRecorded
  | approved
  | executed
  | executionFailed
  | rejected
  | expired
  | cancelled
deriving DecidableEq, Repr

/-- A user's own move between `main` and a scope compartment. -/
inductive CompartmentEvent
  | moved (user : UserId) (source target : Compartment) (amount : Nat)
deriving DecidableEq, Repr

/-- A client's transfer between two scope accounts. -/
inductive ScopeLedgerEvent
  | transferred (scope : ScopeId) (fromLabel : ScopeAccountLabel) (toScope : ScopeId)
      (toLabel : ScopeAccountLabel) (amount : Nat)
deriving DecidableEq, Repr

/-- A hold's steps, relayed in order. `version` is the event's own; `released` is the version whose
reservation it voids. -/
inductive HoldEvent
  | placed (holdId : Uuid) (scope : ScopeId) (user : UserId) (amount : Nat) (version : Nat)
  | captured (holdId : Uuid) (scope : ScopeId) (user : UserId) (version released : Nat)
      (held amount : Nat) (target : HoldDestination)
  | released (holdId : Uuid) (scope : ScopeId) (user : UserId) (version released : Nat)
      (held : Nat) (expired : Bool)
deriving DecidableEq, Repr

/-- One line of a payout. -/
structure PaidLine where
  user : UserId
  amount : Nat
deriving DecidableEq, Repr

/-- A payout out of a scope account into users' compartments. -/
inductive ScopePayoutEvent
  | paidOut (scope : ScopeId) (fromLabel : ScopeAccountLabel) (lines : List PaidLine)
deriving DecidableEq, Repr

/-- An invoice's steps; only `paid` moves money. -/
inductive InvoiceEvent
  | created (version : Nat)
  | paid (scope : ScopeId) (toLabel : ScopeAccountLabel) (amount : Nat) (payer : UserId)
      (source : Compartment) (version : Nat)
  | cancelled (version : Nat)
  | expired (version : Nat)
  | paymentFailed (version : Nat) (reason : String)
deriving DecidableEq, Repr

/-- A scope's one-off charge of a user's compartment. -/
inductive ChargeEvent
  | charged (scope : ScopeId) (user : UserId) (toLabel : ScopeAccountLabel) (amount : Nat)
deriving DecidableEq, Repr

/-! ## Outbox rows -/

/-- The kinds of event the relay plans. -/
inductive Kind
  | balance | withdrawals | subscriptions | redemptions | fees | issuances | book | payments
  | compartments | scopeLedger | scopeHolds | scopePayouts | scopeInvoices | scopeCharges
deriving DecidableEq, Repr

/-- What a row's `kind` and `payload` decode to. -/
inductive Payload
  | balance (event : LedgerEvent)
  | withdrawals (event : WithdrawalEvent)
  | subscriptions (event : SubscriptionEvent)
  | redemptions (event : RedemptionEvent)
  | fees (event : FeeEvent)
  | issuances (event : IssuanceEvent)
  | book (event : BookEvent)
  | payments (event : PaymentEvent)
  | compartments (event : CompartmentEvent)
  | scopeLedger (event : ScopeLedgerEvent)
  | scopeHolds (event : HoldEvent)
  | scopePayouts (event : ScopePayoutEvent)
  | scopeInvoices (event : InvoiceEvent)
  | scopeCharges (event : ChargeEvent)
  | undecodable (kind : Kind) (error : String)
  | other (kind : String)
deriving DecidableEq, Repr

/-- A row's kind; none for a kind the relay has no plan for. -/
def Payload.kind : Payload → Option Kind
  | .balance _ => some .balance
  | .withdrawals _ => some .withdrawals
  | .subscriptions _ => some .subscriptions
  | .redemptions _ => some .redemptions
  | .fees _ => some .fees
  | .issuances _ => some .issuances
  | .book _ => some .book
  | .payments _ => some .payments
  | .compartments _ => some .compartments
  | .scopeLedger _ => some .scopeLedger
  | .scopeHolds _ => some .scopeHolds
  | .scopePayouts _ => some .scopePayouts
  | .scopeInvoices _ => some .scopeInvoices
  | .scopeCharges _ => some .scopeCharges
  | .undecodable k _ => some k
  | .other _ => none

/-- An outbox row as the relay reads it. -/
structure OutboxRow where
  seq : Nat
  eventId : Uuid
  aggregateId : Uuid
  payload : Payload
  attempts : Nat
deriving DecidableEq, Repr

end Banking
