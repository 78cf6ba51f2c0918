import Mathlib.Data.List.Infix
import Banking.Payments
import Banking.Relay
import Banking.Lib.Pool

/-! # Tron custody

How a withdrawal's transfer gets onto Tron. A transaction has no nonce but an expiry: it is stored
before it is sent, sent again as it is while it may still land, and replaced by a fresh one only
when an irreversible block is past its expiry and no receipt is found, by a swap that wins only
while the row still holds it. The relay sends a withdrawal first; the confirmation watcher settles
it, and drives it on while it has no receipt. -/

namespace Banking

open Interactive

/-! ## What custody speaks of -/

/-- A signed transaction. -/
structure TronTx where
  rawTx : String
  txid : String
  expiration : Int
deriving DecidableEq, Repr

/-- A row of `withdrawal_broadcasts`. -/
structure BroadcastRow where
  rawTx : String
  txHash : String
  expiration : Option Int
deriving DecidableEq, Repr

/-- The row of a signed transaction. -/
def TronTx.row (t : TronTx) : BroadcastRow := ⟨t.rawTx, t.txid, some t.expiration⟩

/-- The transaction of a row. -/
def BroadcastRow.storedTx (r : BroadcastRow) : TronTx := ⟨r.rawTx, r.txHash, r.expiration.getD 0⟩

/-- Why a node did not answer. -/
inductive TronRpcError
  | transport (detail : String)
  | rpc (message : String)
deriving DecidableEq, Repr

/-- Its text. -/
def TronRpcError.text : TronRpcError → String
  | .transport detail => "tron rpc transport: " ++ detail
  | .rpc message => "tron rpc error: " ++ message

/-- A mined transaction's outcome. -/
structure TronReceipt where
  blockNumber : Nat
  success : Bool
deriving DecidableEq, Repr

/-- The block a transaction refers to, and the window it may land in. -/
structure RefBlockParams where
  refBlockBytes : String
  refBlockHash : String
  expiration : Int
  timestamp : Int
deriving DecidableEq, Repr

/-- What an account holds. -/
structure AccountState where
  trx : Nat
  trc20 : List (String × Nat)
deriving DecidableEq, Repr

/-- What it holds of one token. -/
def AccountState.token (s : AccountState) (contract : String) : Nat :=
  (s.trc20.lookup contract).getD 0

/-- What the signer is asked to sign. -/
structure Trc20Signing where
  tokenContract : String
  toAddress : String
  amount : Nat
  refs : RefBlockParams
  feeLimit : Int
deriving DecidableEq, Repr

/-- Why the signer refused. -/
inductive SignerRefusal
  | unavailable (message : String)
  | deadlineExceeded (message : String)
  | other (message : String)
deriving DecidableEq, Repr

/-- What custody asks of the table, the clock, the node and the signer, and what the watcher does. -/
inductive TronOp
  | storedTx
  | storeTx (signed : TronTx)
  | replaceTx (oldTxid : String) (signed : TronTx)
  | nowMs
  | solidBlockTimestamp
  | transactionInfo (txid : String)
  | broadcastHex (rawTx : String)
  | provisionTreasury
  | accountState (address : String)
  | refBlockParams
  | signTrc20Transfer (request : Trc20Signing)
  | pendingBroadcast
  | solidBlockNumber
  | settleWithdrawal (txRef : String)

/-- What each is answered with. -/
@[reducible] def TronOp.Ans : TronOp → Type
  | .storedTx => Except String (Option BroadcastRow)
  | .storeTx _ => Except String Unit
  | .replaceTx _ _ => Except String Bool
  | .nowMs => Int
  | .solidBlockTimestamp => Except TronRpcError Int
  | .transactionInfo _ => Except TronRpcError (Option TronReceipt)
  | .broadcastHex _ => Except TronRpcError String
  | .provisionTreasury => Except String (String × String)
  | .accountState _ => Except TronRpcError AccountState
  | .refBlockParams => Except TronRpcError RefBlockParams
  | .signTrc20Transfer _ => Except SignerRefusal TronTx
  | .pendingBroadcast => Except String (Option String)
  | .solidBlockNumber => Except TronRpcError Nat
  | .settleWithdrawal _ => Except String Unit

/-- Custody's programs. -/
abbrev TronProg (α : Type) : Type := Prog TronOp TronOp.Ans CustodyError α

/-- The custody adapter's settings, and how the standard library spells a text in upper case. -/
structure TronCustody where
  usdtContract : String
  feeLimit : Int
  uppercase : String → String

/-- How much later than a stored transaction's expiry an irreversible block must be. -/
def EXPIRATION_MARGIN_MS : Int := 180000

/-! ## Answers -/

/-- A failure of the table. -/
def dbUnavailable {α : Type} : Except String α → TronProg α
  | .ok a => .ret a
  | .error e => .exit (.unavailable ("tron custody db: " ++ e))

/-- A failed read of the node. -/
def readErr {α : Type} : Except TronRpcError α → TronProg α
  | .ok a => .ret a
  | .error e => .exit (.unavailable e.text)

/-- The amount on the chain, of six decimals. -/
def toOnchainTrc20 (amount : Nat) : Except CustodyError Nat :=
  if amount % 10 ^ 12 = 0 then .ok (amount / 10 ^ 12)
  else .error (.rejected ("amount not representable on trc20: validation failed: " ++
    "amount not representable on trc20 (sub-precision dust)"))

/-- Whether a node's message says it has the transaction already. -/
def TronCustody.isDuplicate (c : TronCustody) (message : String) : Bool :=
  ["DUP_TRANSACTION", "ALREADY EXISTS", "ALREADY KNOWN"].any fun known =>
    decide (known.toList <:+: (c.uppercase message).toList)

/-- A signer's failure. -/
def signerErr : Except SignerRefusal TronTx → TronProg TronTx
  | .ok signed => .ret signed
  | .error (.unavailable message) | .error (.deadlineExceeded message) =>
    .exit (.unavailable ("signer: " ++ message))
  | .error (.other message) => .exit (.rejected ("signer: " ++ message))

/-- An answer, or custody's failure. -/
def orCustody {α : Type} : Except CustodyError α → TronProg α
  | .ok a => .ret a
  | .error e => .exit e

/-! ## Custody -/

/-- The treasury's address, when it can be funded. -/
def TronCustody.treasuryAddress : TronProg String :=
  (Prog.ask TronOp.provisionTreasury).bind fun answer =>
    match answer with
    | .error e => .exit (.unavailable ("resolve tron treasury address: " ++ e))
    | .ok (address, kind) =>
      if kind = "derived" then .ret address
      else .exit (.rejected s!"tron treasury address is not fundable (kind={kind})")

/-- The treasury must hold the USDT to send and the TRX of the fee limit. -/
def TronCustody.ensureTreasuryFunded (c : TronCustody) (request : BroadcastRequest) :
    TronProg Unit :=
  TronCustody.treasuryAddress.bind fun treasury =>
  (Prog.ask (.accountState treasury)).bind fun answer => (readErr answer).bind fun state =>
  (orCustody (toOnchainTrc20 request.amount)).bind fun needed =>
  let usdt := state.token c.usdtContract
  if usdt < needed then
    .exit (.rejected s!"tron treasury underfunded on-chain: {usdt} USDT units < {needed} needed")
  else if state.trx < c.feeLimit.toNat then
    .exit (.rejected
      s!"tron treasury fee-underfunded on-chain: {state.trx} SUN < fee limit {c.feeLimit}")
  else .ret ()

/-- A fresh transaction of the withdrawal. -/
def TronCustody.signFresh (c : TronCustody) (request : BroadcastRequest) : TronProg TronTx :=
  (orCustody (toOnchainTrc20 request.amount)).bind fun amount =>
  (Prog.ask .refBlockParams).bind fun answer => (readErr answer).bind fun refs =>
  (Prog.ask (.signTrc20Transfer ⟨c.usdtContract, request.address, amount, refs, c.feeLimit⟩)).bind
    signerErr

/-- Submit a signed transaction; the node having it already is a success. -/
def TronCustody.submit (c : TronCustody) (rawTx : String) : TronProg Unit :=
  (Prog.ask (TronOp.broadcastHex rawTx)).bind fun answer =>
    match answer with
    | .ok _ => .ret ()
    | .error (.transport detail) => .exit (.unavailable detail)
    | .error (.rpc message) =>
      if c.isDuplicate message then .ret () else .exit (.rejected message)

/-- **Re-sign a transaction that is dead**: only the driver whose swap wins sends what it signed. -/
def TronCustody.resign (c : TronCustody) (request : BroadcastRequest) (stored : TronTx) :
    TronProg Unit :=
  (c.ensureTreasuryFunded request).bind fun _ =>
  (c.signFresh request).bind fun signed =>
  (Prog.ask (.replaceTx stored.txid signed)).bind fun answer =>
  (dbUnavailable answer).bind fun won => if won then c.submit signed.rawTx else .ret ()

/-- **Handle a stored transaction again**: send it as it is while it may land, wait while it may
have, and re-sign it once it is dead. -/
def TronCustody.resubmit (c : TronCustody) (request : BroadcastRequest) (stored : TronTx) :
    TronProg Unit :=
  (Prog.ask .nowMs).bind fun now =>
  if now < stored.expiration then c.submit stored.rawTx
  else
    (Prog.ask .solidBlockTimestamp).bind fun answer => (readErr answer).bind fun solidTs =>
    if solidTs ≤ saturatingAdd stored.expiration EXPIRATION_MARGIN_MS then
      .exit (.unavailable (s!"stored tx {stored.txid} past expiration but not yet provably dead " ++
        s!"(solid head ts {solidTs} <= expiration {stored.expiration} + margin) — waiting for " ++
        "solidification"))
    else
      (Prog.ask (.transactionInfo stored.txid)).bind fun answer =>
      (readErr answer).bind fun receipt =>
        match receipt with
        | some _ => .ret ()
        | none => c.resign request stored

/-- What is stored of the withdrawal. -/
def TronCustody.storedTx : TronProg (Option TronTx) :=
  (Prog.ask .storedTx).bind fun answer => (dbUnavailable answer).bind fun row =>
    .ret (row.map (·.storedTx))

/-- The first send: signed, stored, and submitted. -/
def TronCustody.firstSend (c : TronCustody) (request : BroadcastRequest) : TronProg Unit :=
  (c.ensureTreasuryFunded request).bind fun _ =>
  (c.signFresh request).bind fun signed =>
  (Prog.ask (.storeTx signed)).bind fun answer =>
  (dbUnavailable answer).bind fun _ => c.submit signed.rawTx

/-- **The relay's broadcast.** -/
def TronCustody.broadcast (c : TronCustody) (request : BroadcastRequest) : TronProg Unit :=
  TronCustody.storedTx.bind fun stored =>
    match stored with
    | some stored => c.resubmit request stored
    | none => c.firstSend request

/-- **The watcher's drive**; the first send is the relay's. -/
def TronCustody.resubmitStuck (c : TronCustody) (request : BroadcastRequest) : TronProg Unit :=
  TronCustody.storedTx.bind fun stored =>
    match stored with
    | some stored => c.resubmit request stored
    | none => .ret ()

/-! ## The confirmation watcher -/

/-- The watcher's programs; a failure ends the scan. -/
abbrev WatchProg (α : Type) : Type := Prog TronOp TronOp.Ans String α

/-- A failed read of the node ends the scan. -/
def orRpc {α : Type} : Except TronRpcError α → WatchProg α
  | .ok a => .ret a
  | .error e => .exit e.text

/-- **One pending broadcast**: driven on while it has no receipt, left to an operator when it
failed, and settled once its block is irreversible. -/
def TronCustody.checkOne (c : TronCustody) (request : BroadcastRequest) (txid : String)
    (solidHead : Nat) : WatchProg Unit :=
  (Prog.ask (.transactionInfo txid)).bind fun answer => (orRpc answer).bind fun receipt =>
    match receipt with
    | none => ((c.resubmitStuck request).outcome).bind fun _ => .ret ()
    | some receipt =>
      if receipt.success = false then .ret ()
      else if solidHead < receipt.blockNumber then .ret ()
      else (Prog.ask (.settleWithdrawal txid)).bind fun _ => .ret ()

/-- **One scan**: of the withdrawal, while it is processing and has a row. -/
def TronCustody.scanOnce (c : TronCustody) (request : BroadcastRequest) : WatchProg Unit :=
  (Prog.ask TronOp.pendingBroadcast).bind fun answer =>
    match answer with
    | .error e => .exit e
    | .ok none => .ret ()
    | .ok (some txid) =>
      (Prog.ask .solidBlockNumber).bind fun answer => (orRpc answer).bind fun solidHead =>
        c.checkOne request txid solidHead

end Banking
