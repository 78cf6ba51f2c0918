import Banking.ChainTx
import Banking.ChartKeys
import Banking.Lib.Journal
import Banking.Lib.Locks

/-! # The signer's handlers

The six signing requests, each a program of what it asks the brake, the stores, the spend ledger and
the key backend, in the order it asks: the brake and the policy first, the windows charged next, the
signature last, and what was charged given back when something fails before there is one. -/

namespace Banking

open Interactive (Prog Held Journal)

/-! ## Wallets and windows -/

/-- The treasury's reserved wallet. -/
def TREASURY_WALLET : Uuid := .nil

/-- The gas station's reserved wallet. -/
def GAS_STATION_WALLET : Uuid := .raw 1

/-- The class of a sending wallet. -/
inductive WalletClass
  | treasury
  | gasStation
  | deposit
deriving DecidableEq, Repr

/-- The class of a wallet. -/
def WalletClass.of (wallet : Uuid) : WalletClass :=
  if wallet = TREASURY_WALLET then .treasury
  else if wallet = GAS_STATION_WALLET then .gasStation
  else .deposit

/-- What a ledger row counts. -/
inductive Asset
  | native
  | usdt
deriving DecidableEq, Repr

/-- What a spend window is kept for. -/
structure WindowKey where
  wallet : Uuid
  network : Network
  asset : Asset
deriving DecidableEq, Repr

/-- The check of a window, by what it counts. -/
def SignerPolicy.checkWindow (p : SignerPolicy) (key : WindowKey) (spent spend : U128) : Verdict :=
  match key.asset with
  | .native => p.checkNativeSpendWindow key.network spent spend
  | .usdt => p.checkTreasuryUsdtWindow key.network spent spend

/-- Which stored key signs. -/
structure KeyHandle where
  wallet : Uuid
  network : Network
deriving DecidableEq, Repr

/-- The curve of a key. -/
inductive Curve
  | secp256k1
  | ed25519
deriving DecidableEq, Repr

/-! ## What is asked -/

/-- One thing a handler asks of the signer's database or its key backend. A window's row is swept
and recorded by the commit of the transaction that locked it. -/
inductive SignerOp
  | readBrake
  | findAddress (wallet : Uuid) (network : Network)
  | activeAddresses (network : Network) (rendering : String)
  | learnJettonWallet (wallet : Uuid) (jettonWallet : String)
  | readJettonWallet (wallet : Uuid)
  | publicKey (handle : KeyHandle)
  | begin
  | lock (key : WindowKey)
  | spent (held : Held WindowKey) (key : WindowKey) (now : Int)
  | record (held : Held WindowKey) (key : WindowKey) (spend : U128) (now : Int)
  | release (row : Nat)
  | sign (handle : KeyHandle) (curve : Curve) (digest : List UInt8)
  | respond (outcome : Except SignerStatus SignedResponse)

/-- What it is answered with, unless it fails. -/
abbrev SignerOp.Value : SignerOp → Type
  | .readBrake => Option BrakeRow
  | .findAddress .. => Option String
  | .activeAddresses .. => List String
  | .learnJettonWallet .. => Bool
  | .readJettonWallet _ => Option String
  | .publicKey _ => List UInt8
  | .begin => Int
  | .lock _ => Nat
  | .spent .. => U128
  | .record .. => Nat
  | .release _ => Unit
  | .sign .. => ChainSignature
  | .respond _ => Unit

/-- An answer, or the status of a failure. -/
abbrev SignerOp.Ans (op : SignerOp) : Type := Except SignerStatus op.Value

/-- A program of the signer's. -/
abbrev SignerProg (α : Type) : Type := Prog SignerOp SignerOp.Ans SignerStatus α

/-- What a request asked and was answered. -/
abbrev SignerJournal : Type := Journal SignerOp SignerOp.Ans

/-- A value, or the end. -/
def passed {α : Type} : Except SignerStatus α → SignerProg α
  | .ok a => .ret a
  | .error status => .exit status

/-- One question, whose failure ends the request. -/
def askSigner (op : SignerOp) : SignerProg op.Value := .call op passed

/-! ## The windows -/

/-- A window opened: the start of its transaction, the lock it holds, what the window holds. -/
structure SpendWindow where
  now : Int
  held : Held WindowKey
  spent : U128

/-- A window locked and summed. -/
def openWindow (key : WindowKey) : SignerProg SpendWindow := do
  let now ← askSigner .begin
  let count ← askSigner (.lock key)
  let spent ← askSigner (.spent [(key, count)] key now)
  return ⟨now, [(key, count)], spent⟩

/-- An outcome passed through; a failure first gives back everything charged, and a release that
fails is left. -/
def orRelease {α : Type} (charged : List Nat) : Except SignerStatus α → SignerProg α
  | .ok a => .ret a
  | .error status => do
    Prog.each (fun row => .call (.release row) fun _ => .ret ()) charged
    .exit status

/-- A spend charged to a window, or refused. -/
def charge (policy : SignerPolicy) (charged : List Nat) (key : WindowKey) (spend : U128) :
    SignerProg (List Nat) := do
  let reserved ← Prog.outcome (do
    let window ← openWindow key
    passed (policy.checkWindow key window.spent spend)
    askSigner (.record window.held key spend window.now))
  let row ← orRelease charged reserved
  return charged ++ [row]

/-- A treasury payout's USDT charged to the treasury's window; the other classes pay none out. -/
def chargeTreasuryUsdt (policy : SignerPolicy) (charged : List Nat) (walletClass : WalletClass)
    (network : Network) (amountBaseUnits : U128) : SignerProg (List Nat) :=
  match walletClass with
  | .treasury => charge policy charged ⟨TREASURY_WALLET, network, .usdt⟩ amountBaseUnits
  | .gasStation | .deposit => return charged

/-! ## The class rules -/

section Guards

variable (lib : ChainLib)

/-- The class rule of a token transfer. -/
def guardTokenTransfer (policy : SignerPolicy) (walletClass : WalletClass) (network : Network)
    (tokenContract : Option String) (toAddress : String) (amountBaseUnits : U128) :
    SignerProg Unit :=
  match walletClass with
  | .treasury => passed
    (policy.checkTreasuryTransfer lib.parseTon network tokenContract toAddress amountBaseUnits)
  | .gasStation => .exit (refuseGasStationToken network)
  | .deposit => do
    let treasury ← askSigner (.findAddress TREASURY_WALLET network)
    passed (checkSweepDestination lib.parseTon network treasury toAddress)

/-- The stored active address an address is a rendering of, among those of one lower-case rendering.
-/
def findActiveByAddress (network : Network) (address : String) : SignerProg (Option String) :=
  match lib.storedRendering network address with
  | none => return none
  | some rendering => do
    let candidates ← askSigner (.activeAddresses network rendering)
    return candidates.find? (lib.agree network · address)

/-- The class rule of a native transfer. -/
def guardNativeTransfer (policy : SignerPolicy) (walletClass : WalletClass) (network : Network)
    (toAddress : String) (amount : U128) : SignerProg Unit :=
  match walletClass with
  | .treasury => passed
    (policy.checkTreasuryNativeTransfer lib.parseTon network toAddress amount)
  | .gasStation => do
    let held ← findActiveByAddress lib network toAddress
    passed (policy.checkGasTopup lib.parseTon network toAddress held amount)
  | .deposit => .exit (refuseDepositNative network)

/-- A jetton wallet learned on first use, or the one pinned then. -/
def learnOrRead (wallet : Uuid) (rendering : String) : SignerProg (Option String) := do
  if ← askSigner (.learnJettonWallet wallet rendering) then return none
  else
    let pinned ← askSigner (.readJettonWallet wallet)
    let pinned ← passed (orElse pinned withheld)
    return some pinned

/-- A jetton wallet against the one of the wallet's first use. -/
def guardFirstUse (wallet : Uuid) (ourJettonWallet : String) : SignerProg Unit := do
  let rendering ← passed (orElse (lib.storedRendering .ton ourJettonWallet)
    (invalidArgument "our_jetton_wallet must be a TON address"))
  match ← learnOrRead wallet rendering with
  | none => return ()
  | some pinned => passed (checkJettonWalletPin lib.parseTon pinned ourJettonWallet .firstUse)

/-- The pin of a jetton transfer's own wallet: the operator's for the treasury, if there is one,
else the one of its first use. -/
def guardJettonWallet (policy : SignerPolicy) (walletClass : WalletClass) (wallet : Uuid)
    (ourJettonWallet : String) : SignerProg Unit :=
  match walletClass with
  | .gasStation => .exit (refuseGasStationToken .ton)
  | .treasury =>
    match policy.tonTreasuryJettonWallet with
    | some pinned => passed (checkJettonWalletPin lib.parseTon pinned ourJettonWallet .operator)
    | none => guardFirstUse lib wallet ourJettonWallet
  | .deposit => guardFirstUse lib wallet ourJettonWallet

/-- Where a jetton transfer's excess returns. -/
def guardResponseDestination (policy : SignerPolicy) (walletClass : WalletClass)
    (publicKey : List UInt8) (responseDestination : String) : SignerProg Unit := do
  let ownAddress ← passed (orElse (lib.tonAddress publicKey) withheld)
  match walletClass with
  | .treasury => passed (policy.checkTreasuryResponseDestination lib.parseTon ownAddress
      responseDestination)
  | .gasStation => .exit (refuseGasStationToken .ton)
  | .deposit => do
    let gasStation ← askSigner (.findAddress GAS_STATION_WALLET .ton)
    let treasury ← askSigner (.findAddress TREASURY_WALLET .ton)
    passed (checkSweepResponseDestination lib.parseTon ownAddress gasStation treasury
      responseDestination)

/-! ## Requests -/

/-- What every signing request names. -/
structure Sender where
  network : String
  fromUserId : String
deriving DecidableEq, Repr

/-- An ERC-20 transfer. -/
structure SignErc20TransferRequest extends Sender where
  tokenContract : String
  toAddress : String
  amount : String
  chainId : U64
  nonce : U64
  gasPrice : String
  gasLimit : U64
deriving DecidableEq, Repr

/-- A native EVM transfer. -/
structure SignNativeTransferRequest extends Sender where
  toAddress : String
  amount : String
  chainId : U64
  nonce : U64
  gasPrice : String
  gasLimit : U64
deriving DecidableEq, Repr

/-- A TRC20 transfer. -/
structure SignTrc20TransferRequest extends Sender where
  tokenContract : String
  toAddress : String
  amount : String
  refBlockBytes : String
  refBlockHash : String
  expiration : I64
  timestamp : I64
  feeLimit : I64
deriving DecidableEq

/-- A TRX transfer. -/
structure SignTrxTransferRequest extends Sender where
  toAddress : String
  amount : String
  refBlockBytes : String
  refBlockHash : String
  expiration : I64
  timestamp : I64
deriving DecidableEq

/-- A jetton transfer. -/
structure SignJettonTransferRequest extends Sender where
  toAddress : String
  amount : String
  ourJettonWallet : String
  responseDestination : String
  msgValue : U64
  forwardTonAmount : U64
  seqno : U64
  validUntil : Nat
deriving DecidableEq, Repr

/-- A Toncoin transfer. -/
structure SignTonTransferRequest extends Sender where
  toAddress : String
  amount : String
  seqno : U64
  validUntil : Nat
deriving DecidableEq, Repr

/-- A signing request. -/
inductive SigningRequest
  | erc20 (r : SignErc20TransferRequest)
  | native (r : SignNativeTransferRequest)
  | trc20 (r : SignTrc20TransferRequest)
  | trx (r : SignTrxTransferRequest)
  | jetton (r : SignJettonTransferRequest)
  | ton (r : SignTonTransferRequest)
deriving DecidableEq

/-! ## Reading the wire -/

/-- A network of some rails, by its wire name. -/
def requireRail (rails : List Network) (mismatch raw : String) : Except SignerStatus Network :=
  match Network.parse raw with
  | .ok network =>
    if network ∈ rails then .ok network else .error (invalidArgument (mismatch ++ network.asStr))
  | .error _ => .error (invalidArgument ("unknown network: " ++ raw))

/-- An EVM rail. -/
def requireEvm : String → Except SignerStatus Network :=
  requireRail [.bep20, .polygon] "EVM signer called with a non-EVM network: "

/-- The Tron rail. -/
def requireTron : String → Except SignerStatus Network :=
  requireRail [.trc20] "Tron signer called with a non-Tron network: "

/-- The TON rail. -/
def requireTon : String → Except SignerStatus Network :=
  requireRail [.ton] "TON signer called with a non-TON network: "

/-- The chain ids of an EVM rail, main and test. -/
def chainIds : Network → List U64
  | .bep20 => [56, 97]
  | .polygon => [137, 80002]
  | .trc20 | .ton => []

/-- A chain id belongs to its rail, for the rail picks the gas-price ceiling. -/
def requireEvmChain (network : Network) (chainId : U64) : Verdict :=
  match network with
  | .bep20 | .polygon => require (chainId ∈ chainIds network) (invalidArgument ("chain_id "
      ++ toString chainId.val ++ " does not belong to network " ++ network.asStr))
  | .trc20 | .ton => .error (invalidArgument (network.asStr ++ " is not an EVM network"))

/-- The sending wallet: the treasury when none is named. -/
def resolveWallet (fromUserId : String) : Except SignerStatus Uuid :=
  if fromUserId = "" then .ok TREASURY_WALLET
  else orElse (lib.parseUuid fromUserId) (invalidArgument "from_user_id must be a UUID or empty")

/-- An unsigned 128-bit decimal. -/
def parseU128 (value : String) : Option U128 :=
  (Text.parseUnsigned (2 ^ 128) value.toList).bind U128.fit

/-- A field of a request, parsed or malformed. -/
def field {α : Type} (value : Option α) (message : String) : SignerProg α :=
  passed (orElse value (invalidArgument message))

/-- The recent block a Tron request names. -/
def parseTronRef (refBlockBytes refBlockHash : String) (expiration timestamp : I64) :
    SignerProg TxRef.Tron := do
  let refBlockBytes ← field (hexDecode refBlockBytes.toList) "ref_block_bytes must be hex"
  let refBlockHash ← field (hexDecode refBlockHash.toList) "ref_block_hash must be hex"
  return ⟨refBlockBytes, refBlockHash, expiration, timestamp⟩

/-! ## Signing -/

/-- A transaction hashed, signed and put together. -/
def signTx (handle : KeyHandle) (curve : Curve) (tx : ChainTx) : SignerProg SignedResponse := do
  let digest ← passed (tonCell (tx.digest lib))
  let signature ← askSigner (.sign handle curve digest)
  passed (tx.assemble lib signature)

/-- The raw address that must own a Tron transaction: the signing key's. -/
def ownerAddress (handle : KeyHandle) : SignerProg TronAddress := do
  let publicKey ← askSigner (.publicKey handle)
  passed (orElse (lib.tronRawAddress publicKey) signingFailed)

/-- A TON wallet's public key, of 32 bytes. -/
def tonPublicKey (handle : KeyHandle) : SignerProg (List UInt8) := do
  let stored ← askSigner (.publicKey handle)
  passed (require (stored.length = 32) signingFailed)
  return stored

/-- `SignErc20Transfer`. -/
def signErc20Transfer (policy : SignerPolicy) (r : SignErc20TransferRequest) :
    SignerProg SignedResponse := do
  let network ← passed (requireEvm r.network)
  passed (requireEvmChain network r.chainId)
  let wallet ← passed (resolveWallet lib r.fromUserId)
  let token ← field (parseEvmAddress r.tokenContract) "token_contract must be a 0x 20-byte address"
  let recipient ← field (parseEvmAddress r.toAddress) "to_address must be a 0x 20-byte address"
  let amount ← field (parseU128 r.amount) "amount must be a u128 decimal"
  let gasPrice ← field (parseU128 r.gasPrice) "gas_price must be a u128 decimal"
  passed (policy.checkFeeBudget network (.evm gasPrice r.gasLimit))
  let walletClass := WalletClass.of wallet
  guardTokenTransfer lib policy walletClass network (some r.tokenContract) r.toAddress amount
  let charged ← chargeTreasuryUsdt policy [] walletClass network amount
  let spend ← passed (evmNativeSpend network gasPrice r.gasLimit 0)
  let charged ← charge policy charged ⟨wallet, network, .native⟩ spend
  let signed ← Prog.outcome (signTx lib ⟨wallet, network⟩ .secp256k1 (.evm
    { chainId := r.chainId, nonce := r.nonce, gasPrice, gasLimit := r.gasLimit
      toAddress := token, value := 0, data := erc20TransferCalldata recipient amount }))
  orRelease charged signed

/-- `SignNativeTransfer`. -/
def signNativeTransfer (policy : SignerPolicy) (r : SignNativeTransferRequest) :
    SignerProg SignedResponse := do
  let network ← passed (requireEvm r.network)
  passed (requireEvmChain network r.chainId)
  let wallet ← passed (resolveWallet lib r.fromUserId)
  let recipient ← field (parseEvmAddress r.toAddress) "to_address must be a 0x 20-byte address"
  let amount ← field (parseU128 r.amount) "amount must be a u128 decimal"
  let gasPrice ← field (parseU128 r.gasPrice) "gas_price must be a u128 decimal"
  passed (policy.checkFeeBudget network (.evm gasPrice r.gasLimit))
  guardNativeTransfer lib policy (.of wallet) network r.toAddress amount
  let spend ← passed (evmNativeSpend network gasPrice r.gasLimit amount)
  let charged ← charge policy [] ⟨wallet, network, .native⟩ spend
  let signed ← Prog.outcome (signTx lib ⟨wallet, network⟩ .secp256k1 (.evm
    { chainId := r.chainId, nonce := r.nonce, gasPrice, gasLimit := r.gasLimit
      toAddress := recipient, value := amount, data := [] }))
  orRelease charged signed

/-- `SignTrc20Transfer`. -/
def signTrc20Transfer (policy : SignerPolicy) (r : SignTrc20TransferRequest) :
    SignerProg SignedResponse := do
  passed policy.checkTronSigning
  let network ← passed (requireTron r.network)
  let wallet ← passed (resolveWallet lib r.fromUserId)
  let token ← field (lib.parseTron r.tokenContract) "token_contract must be a base58 Tron address"
  let recipient ← field (lib.parseTron r.toAddress) "to_address must be a base58 Tron address"
  let amount ← field (parseU128 r.amount) "amount must be a u128 decimal"
  let ref ← parseTronRef r.refBlockBytes r.refBlockHash r.expiration r.timestamp
  passed (policy.checkFeeBudget network (.tron r.feeLimit))
  let walletClass := WalletClass.of wallet
  guardTokenTransfer lib policy walletClass network (some r.tokenContract) r.toAddress amount
  let charged ← chargeTreasuryUsdt policy [] walletClass network amount
  let charged ← charge policy charged ⟨wallet, network, .native⟩ (r.feeLimit.toU128.getD .max)
  let signed ← Prog.outcome (do
    let owner ← ownerAddress lib ⟨wallet, network⟩
    signTx lib ⟨wallet, network⟩ .secp256k1
      (.tron (buildUnsignedTrc20 owner token recipient amount r.feeLimit ref)))
  orRelease charged signed

/-- `SignTrxTransfer`. -/
def signTrxTransfer (policy : SignerPolicy) (r : SignTrxTransferRequest) :
    SignerProg SignedResponse := do
  passed policy.checkTronSigning
  let network ← passed (requireTron r.network)
  let wallet ← passed (resolveWallet lib r.fromUserId)
  let recipient ← field (lib.parseTron r.toAddress) "to_address must be a base58 Tron address"
  let amount ← field (parseU128 r.amount) "amount must be a u128 decimal"
  let ref ← parseTronRef r.refBlockBytes r.refBlockHash r.expiration r.timestamp
  guardNativeTransfer lib policy (.of wallet) network r.toAddress amount
  let charged ← charge policy [] ⟨wallet, network, .native⟩ amount
  let signed ← Prog.outcome (do
    let owner ← ownerAddress lib ⟨wallet, network⟩
    let raw ← passed (orElse (buildUnsignedTrx owner recipient amount ref) signingFailed)
    signTx lib ⟨wallet, network⟩ .secp256k1 (.tron raw))
  orRelease charged signed

/-- `SignJettonTransfer`. -/
def signJettonTransfer (policy : SignerPolicy) (r : SignJettonTransferRequest) :
    SignerProg SignedResponse := do
  let network ← passed (requireTon r.network)
  let wallet ← passed (resolveWallet lib r.fromUserId)
  let amount ← field (parseU128 r.amount) "amount must be a u128 decimal"
  passed (policy.checkFeeBudget network (.ton r.msgValue r.forwardTonAmount))
  let walletClass := WalletClass.of wallet
  guardTokenTransfer lib policy walletClass network none r.toAddress amount
  guardJettonWallet lib policy walletClass wallet r.ourJettonWallet
  let publicKey ← tonPublicKey ⟨wallet, network⟩
  guardResponseDestination lib policy walletClass publicKey r.responseDestination
  let charged ← chargeTreasuryUsdt policy [] walletClass network amount
  let charged ← charge policy charged ⟨wallet, network, .native⟩ r.msgValue.toU128
  let signed ← Prog.outcome (do
    let message ← passed (buildUnsignedJetton lib publicKey
      ⟨r.ourJettonWallet, r.toAddress, r.responseDestination, amount, r.forwardTonAmount,
        r.msgValue, r.seqno, r.validUntil⟩)
    signTx lib ⟨wallet, network⟩ .ed25519 (.ton message))
  orRelease charged signed

/-- `SignTonTransfer`. -/
def signTonTransfer (policy : SignerPolicy) (r : SignTonTransferRequest) :
    SignerProg SignedResponse := do
  let network ← passed (requireTon r.network)
  let wallet ← passed (resolveWallet lib r.fromUserId)
  let amount ← field (parseU128 r.amount) "amount must be a u128 decimal (nanotons)"
  guardNativeTransfer lib policy (.of wallet) network r.toAddress amount
  let charged ← charge policy [] ⟨wallet, network, .native⟩ amount
  let signed ← Prog.outcome (do
    let publicKey ← tonPublicKey ⟨wallet, network⟩
    let message ← passed
      (buildUnsignedNative lib publicKey r.toAddress amount r.seqno r.validUntil)
    signTx lib ⟨wallet, network⟩ .ed25519 (.ton message))
  orRelease charged signed

/-- A request under a policy. -/
def signUnder (policy : SignerPolicy) : SigningRequest → SignerProg SignedResponse
  | .erc20 r => signErc20Transfer lib policy r
  | .native r => signNativeTransfer lib policy r
  | .trc20 r => signTrc20Transfer lib policy r
  | .trx r => signTrxTransfer lib policy r
  | .jetton r => signJettonTransfer lib policy r
  | .ton r => signTonTransfer lib policy r

/-- The policy a request runs under: the environment's, tightened by the brake as it stands, which
must be released. -/
def brakedPolicy (env : SignerPolicy) : SignerProg SignerPolicy := do
  let row ← askSigner .readBrake
  let brake ← passed (SpendBrake.ofRow row)
  passed brake.requireReleased
  return env.tightened brake

/-- A signing request: the brake before anything else. -/
def sign (env : SignerPolicy) (request : SigningRequest) : SignerProg SignedResponse := do
  let policy ← brakedPolicy env
  signUnder lib policy request

/-- A request served: signed or not, it is answered. -/
def serveSigning (env : SignerPolicy) (request : SigningRequest) : SignerProg Unit := do
  let outcome ← Prog.outcome (sign lib env request)
  askSigner (.respond outcome)

end Guards

end Banking
