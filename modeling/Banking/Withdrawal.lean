import Banking.TxRef

/-! # Withdrawals

The withdrawal aggregate: its five states, and the commands that move it and raise the events the
relay applies. A repeated command is a no-op; the never-void rule is that a withdrawal fails only
from `processing` and is cancelled only from `queued`. -/

namespace Banking

/-! ## Policy -/

/-- The decimals a rail's token has on chain. -/
def Network.onchainDecimals : Network → Nat
  | .bep20 => 18
  | .trc20 | .ton | .polygon => 6

/-- The multiplier from on-chain units to the 18-decimal ones. -/
def Network.scaleToCanonical (n : Network) : Nat := 10 ^ (18 - n.onchainDecimals)

/-- An external address on a rail. -/
structure WalletAddress where
  network : Network
  text : String
deriving DecidableEq, Repr

/-- The fee retained for a user's withdrawal: one USDT. -/
def withdrawalFee : Nat := 1000000000000000000

/-- The smallest gross amount accepted: two USDT. -/
def withdrawalMinimum : Nat := 2000000000000000000

/-- The fee retained for a withdrawal out of `source`: the treasury pays none to itself. -/
def WithdrawalSource.feeFor : WithdrawalSource → Nat
  | .user _ => withdrawalFee
  | .treasury _ => 0

/-! ## The aggregate -/

/-- Where a withdrawal stands. -/
inductive WithdrawalState
  | queued
  | processing
  | completed
  | failed
  | cancelled
deriving DecidableEq, Repr

/-- A state's stored text. -/
def WithdrawalState.asStr : WithdrawalState → String
  | .queued => "queued"
  | .processing => "processing"
  | .completed => "completed"
  | .failed => "failed"
  | .cancelled => "cancelled"

/-- A withdrawal as it is stored. -/
structure Withdrawal where
  id : Uuid
  source : WithdrawalSource
  network : Network
  address : WalletAddress
  amount : Nat
  fee : Nat
  state : WithdrawalState
  txRef : Option TxRef
deriving DecidableEq, Repr

/-- A command's result: the aggregate and the events it raised. -/
abbrev WithdrawalResult := Except DomainError (Withdrawal × List WithdrawalEvent)

/-- Record a request: the address is on the rail, the amount above the minimum, the net positive and
expressible at the chain's precision. -/
def Withdrawal.request (id : Uuid) (source : WithdrawalSource) (network : Network)
    (address : WalletAddress) (amount fee : Nat) : WithdrawalResult :=
  if address.network ≠ network then
    .error (.validation "withdrawal address is for a different network")
  else if amount < withdrawalMinimum then
    .error (.validation "amount is below the minimum withdrawal")
  else if amount ≤ fee then .error (.validation "amount does not cover the network fee")
  else if ¬ network.scaleToCanonical ∣ amount - fee then
    .error (.validation ("amount not representable on " ++ network.asStr ++ " (sub-precision dust)"))
  else
    .ok ({ id, source, network, address, amount, fee, state := .queued, txRef := none },
      [.requested source network address.text amount fee])

/-- Hand a queued withdrawal to custody. -/
def Withdrawal.dispatch (w : Withdrawal) : WithdrawalResult :=
  match w.state with
  | .processing => .ok (w, [])
  | .queued =>
    .ok ({ w with state := .processing },
      [.dispatched w.source w.network w.address.text w.amount w.fee])
  | state => .error (.conflict ("withdrawal is " ++ state.asStr ++ ", not dispatchable"))

/-- Settle a processing withdrawal under its transaction reference. -/
def Withdrawal.settle (w : Withdrawal) (txRef : TxRef) : WithdrawalResult :=
  match w.state with
  | .completed => .ok (w, [])
  | .processing =>
    .ok ({ w with state := .completed, txRef := some txRef },
      [.settled w.source w.network w.amount w.fee txRef.text .treasury])
  | state => .error (.conflict ("withdrawal is " ++ state.asStr ++ ", not settleable"))

/-- Fail a processing withdrawal. -/
def Withdrawal.fail (w : Withdrawal) : WithdrawalResult :=
  match w.state with
  | .failed => .ok (w, [])
  | .processing =>
    .ok ({ w with state := .failed }, [.failed w.source w.network w.amount w.fee])
  | state => .error (.conflict ("withdrawal is " ++ state.asStr ++ ", not failable"))

/-- Cancel a queued withdrawal. -/
def Withdrawal.cancel (w : Withdrawal) : WithdrawalResult :=
  match w.state with
  | .cancelled => .ok (w, [])
  | .queued =>
    .ok ({ w with state := .cancelled }, [.cancelled w.source w.network w.amount w.fee])
  | state => .error (.conflict ("withdrawal is " ++ state.asStr ++ ", not cancellable"))

end Banking
