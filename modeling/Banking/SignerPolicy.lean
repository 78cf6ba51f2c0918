import Mathlib.Order.Fin.Basic
import Banking.Withdrawal
import Banking.Lib.Text

/-! # The signer's own policy

The second gate: what the signer checks of a transaction before it asks for a signature, whoever
asked. Every wallet it holds a key for is the treasury's, the gas station or a deposit wallet, and
each class has its rule; ceilings come from the environment, and the operator's brake can only
tighten them or halt everything. -/

namespace Banking

/-! ## Machine numbers -/

/-- An unsigned 128-bit number. -/
abbrev U128 : Type := Fin (2 ^ 128)

/-- An unsigned 64-bit number. -/
abbrev U64 : Type := Fin (2 ^ 64)

instance neZero_u128 : NeZero (2 ^ 128) := ⟨by decide⟩

instance neZero_u64 : NeZero (2 ^ 64) := ⟨by decide⟩

/-- A signed 64-bit number. -/
abbrev I64 : Type := { n : Int // -2 ^ 63 ≤ n ∧ n < 2 ^ 63 }

/-- The largest 128-bit number. -/
def U128.max : U128 := ⟨2 ^ 128 - 1, by decide⟩

/-- A number, if it fits. -/
def U128.fit (n : Nat) : Option U128 := if h : n < 2 ^ 128 then some ⟨n, h⟩ else none

/-- A sum, unless it overflows. -/
def U128.checkedAdd (a b : U128) : Option U128 := U128.fit (a.val + b.val)

/-- A product, unless it overflows. -/
def U128.checkedMul (a b : U128) : Option U128 := U128.fit (a.val * b.val)

/-- A product, or the largest number. -/
def U128.saturatingMul (a b : U128) : U128 := (a.checkedMul b).getD .max

/-- A 64-bit number widened. -/
def U64.toU128 (n : U64) : U128 := ⟨n.val, n.isLt.trans (by decide)⟩

/-- A signed number widened, unless it is negative. -/
def I64.toU128 (n : I64) : Option U128 := if 0 ≤ n.val then U128.fit n.val.toNat else none

theorem U128.fit_eq_some {n : Nat} {m : U128} : U128.fit n = some m ↔ m.val = n := by
  unfold U128.fit
  split_ifs with h
  · rw [Option.some.injEq, eq_comm, Fin.ext_iff]
  · exact ⟨nofun, fun hm => absurd m.isLt (hm ▸ h)⟩

theorem U128.checkedAdd_eq_some {a b c : U128} :
    a.checkedAdd b = some c ↔ c.val = a.val + b.val := U128.fit_eq_some

theorem U128.checkedMul_eq_some {a b c : U128} :
    a.checkedMul b = some c ↔ c.val = a.val * b.val := U128.fit_eq_some

@[simp] theorem U64.toU128_val (n : U64) : n.toU128.val = n.val := rfl

/-! ## Refusals -/

/-- The kinds of a refusal. -/
inductive StatusCode
  | invalidArgument
  | permissionDenied
  | failedPrecondition
  | unavailable
  | internal
deriving DecidableEq, Repr

/-- A refused call's status. -/
structure SignerStatus where
  code : StatusCode
  message : String
deriving DecidableEq, Repr

/-- A malformed request. -/
def invalidArgument (message : String) : SignerStatus := ⟨.invalidArgument, message⟩

/-- A policy's verdict. -/
def permissionDenied (message : String) : SignerStatus := ⟨.permissionDenied, message⟩

/-- What is answered to a fault of the signer's own. -/
def internalStatus (message : String) : SignerStatus := ⟨.internal, message⟩

/-- What a failing store or key answers: nothing of it reaches the wire. -/
def withheld : SignerStatus := internalStatus "internal error"

/-- What a check answers: nothing, or a refusal. -/
abbrev Verdict : Type := Except SignerStatus Unit

/-- A refusal unless a condition holds. -/
def require (condition : Prop) [Decidable condition] (refusal : SignerStatus) : Verdict :=
  if condition then .ok () else .error refusal

theorem require_ok {condition : Prop} [Decidable condition] {refusal : SignerStatus} :
    require condition refusal = .ok () ↔ condition := by
  unfold require
  split_ifs with h <;> simp [h]

/-- A value, or a refusal when there is none. -/
def orElse {α : Type} (value : Option α) (refusal : SignerStatus) : Except SignerStatus α :=
  match value with
  | some a => .ok a
  | none => .error refusal

theorem orElse_ok {α : Type} {value : Option α} {refusal : SignerStatus} {a : α} :
    orElse value refusal = .ok a ↔ value = some a := by
  cases value <;> simp [orElse]

/-! ## Addresses -/

/-- A TON address: what its two renderings both parse to. -/
structure TonAddress where
  workchain : Int
  hash : List UInt8
deriving DecidableEq, Repr

/-- An ASCII letter lowered, any other character as it is. -/
def asciiLower (s : String) : String := String.ofList (s.toList.map Char.toLower)

section Addresses

variable (parseTon : String → Option TonAddress)

/-- Whether two renderings mean one address: EIP-55 casing is a display checksum, Base58Check is
case-sensitive, and a TON address is what its rendering parses to. -/
def addressesAgree (network : Network) (ours theirs : String) : Bool :=
  match network with
  | .bep20 | .polygon => asciiLower ours = asciiLower theirs
  | .trc20 => ours = theirs
  | .ton =>
    match parseTon ours, parseTon theirs with
    | some ours, some theirs => ours = theirs
    | _, _ => false

/-- Whether an address is on a list, in any rendering. -/
def listed (list : List String) (network : Network) (address : String) : Bool :=
  list.any (addressesAgree parseTon network · address)

end Addresses

/-! ## Ceilings -/

/-- A value for each rail. -/
structure PerRail (α : Type) where
  bep20 : α
  polygon : α
  trc20 : α
  ton : α
deriving DecidableEq, Repr

/-- The value of a rail. -/
def PerRail.cap {α : Type} (p : PerRail α) : Network → α
  | .bep20 => p.bep20
  | .polygon => p.polygon
  | .trc20 => p.trc20
  | .ton => p.ton

/-- Ceilings on the native coin one wallet may commit to over a window. -/
abbrev NativeSpendWindow : Type := PerRail U128

/-- The window when nothing is configured. -/
def NativeSpendWindow.default : NativeSpendWindow where
  bep20 := 1000000000000000000
  polygon := 50000000000000000000
  trc20 := 2000000000
  ton := 5000000000

/-- Ceilings on the native amount of one gas-station drip. -/
abbrev GasTopupCaps : Type := PerRail U128

/-- The drips when nothing is configured. -/
def GasTopupCaps.default : GasTopupCaps where
  bep20 := 50000000000000000
  polygon := 2000000000000000000
  trc20 := 50000000
  ton := 200000000

/-- Ceilings on a native transfer from the treasury; a rail without one stays refused. -/
abbrev TreasuryNativeCaps : Type := PerRail (Option U128)

/-- The token contract of each rail that has one. -/
structure TokenPins where
  bep20 : String
  polygon : String
  trc20 : String
deriving DecidableEq, Repr

/-- The pins when nothing is configured: mainnet USDT. -/
def TokenPins.default : TokenPins where
  bep20 := "0x55d398326f99059fF775485246999027B3197955"
  polygon := "0xc2132D05D31c914a87C6611C10748AEb04B58e8F"
  trc20 := "TR7NHqjeKQxGTCi8q8ZY4pL8otSzgjLj6t"

/-- The contract a rail's treasury transfers must name; on TON the jetton wallet's pin covers it. -/
def TokenPins.pinned (p : TokenPins) : Network → Option String
  | .bep20 => some p.bep20
  | .polygon => some p.polygon
  | .trc20 => some p.trc20
  | .ton => none

/-- Ceilings on the fee side of a transaction. -/
structure FeeBudget where
  maxGasLimit : U64
  maxGasPriceWeiBep20 : U128
  maxGasPriceWeiPolygon : U128
  maxTronFeeLimitSun : U64
  maxTonMsgValueNano : U64
  maxTonForwardNano : U64
deriving DecidableEq, Repr

/-- The fee budget when nothing is configured. -/
def FeeBudget.default : FeeBudget where
  maxGasLimit := 100000
  maxGasPriceWeiBep20 := 100000000000
  maxGasPriceWeiPolygon := 5000000000000
  maxTronFeeLimitSun := 100000000
  maxTonMsgValueNano := 100000000
  maxTonForwardNano := 50000000

/-- The fee side of a transaction, as it will be signed. -/
inductive FeeQuote
  | evm (gasPrice : U128) (gasLimit : U64)
  | tron (feeLimit : I64)
  | ton (msgValue forwardTonAmount : U64)
deriving DecidableEq, Repr

/-- A value over its ceiling is refused, naming the control, the field and both numbers. -/
def denyOver (network : Network) (control field : String) (value cap : U128) : Verdict :=
  require (value ≤ cap) (permissionDenied (field ++ " " ++ toString value.val
    ++ " exceeds the signer's " ++ control ++ " cap of " ++ toString cap.val ++ " on "
    ++ network.asStr))

/-- The gas price of an EVM rail. -/
def FeeBudget.maxGasPriceWei (b : FeeBudget) : Network → Except SignerStatus U128
  | .bep20 => .ok b.maxGasPriceWeiBep20
  | .polygon => .ok b.maxGasPriceWeiPolygon
  | network@.trc20 | network@.ton =>
    .error (internalStatus ("an EVM fee quote was checked against " ++ network.asStr))

/-- The fee budget on a quote. -/
def FeeBudget.check (b : FeeBudget) (network : Network) : FeeQuote → Verdict
  | .evm gasPrice gasLimit => do
    let _ ← orElse (gasPrice.checkedMul gasLimit.toU128)
      (permissionDenied ("gas_price " ++ toString gasPrice.val ++ " × gas_limit "
        ++ toString gasLimit.val ++ " overflows the signer's fee budget on " ++ network.asStr))
    denyOver network "fee budget" "gas_limit" gasLimit.toU128 b.maxGasLimit.toU128
    let maxGasPrice ← b.maxGasPriceWei network
    denyOver network "fee budget" "gas_price" gasPrice maxGasPrice
  | .tron feeLimit => do
    let feeLimit ← orElse feeLimit.toU128 (invalidArgument "fee_limit must not be negative")
    denyOver network "fee budget" "fee_limit" feeLimit b.maxTronFeeLimitSun.toU128
  | .ton msgValue forwardTonAmount => do
    denyOver network "fee budget" "msg_value" msgValue.toU128 b.maxTonMsgValueNano.toU128
    denyOver network "fee budget" "forward_ton_amount" forwardTonAmount.toU128
      b.maxTonForwardNano.toU128
    require (forwardTonAmount ≤ msgValue) (permissionDenied ("forward_ton_amount "
      ++ toString forwardTonAmount.val ++ " exceeds msg_value " ++ toString msgValue.val
      ++ " it is paid out of on " ++ network.asStr))

/-- The native coin an EVM signature commits to: the whole fee, and the value it moves. -/
def evmNativeSpend (network : Network) (gasPrice : U128) (gasLimit : U64) (value : U128) :
    Except SignerStatus U128 :=
  orElse ((gasPrice.checkedMul gasLimit.toU128).bind (·.checkedAdd value))
    (permissionDenied ("native spend of the transaction overflows the signer's window on "
      ++ network.asStr))

/-- Canonical base units of one USDT. -/
def CANONICAL_PER_USDT : U128 := 1000000000000000000

/-- A canonical amount in the rail's on-chain units, when it has no dust. -/
def toOnchain (network : Network) (amount : U128) : Option U128 :=
  if network.scaleToCanonical ∣ amount.val then U128.fit (amount.val / network.scaleToCanonical)
  else none

/-- A whole-USDT ceiling in the rail's on-chain units. -/
def usdtCapOnchain (network : Network) (wholeUsdt : U64) : Except SignerStatus U128 :=
  orElse (toOnchain network (wholeUsdt.toU128.saturatingMul CANONICAL_PER_USDT))
    (internalStatus "signer cap is not representable on this network")

/-! ## The brake -/

/-- The brake's ceilings on the native windows; a rail without one leaves the environment's. -/
abbrev NativeSpendBrake : Type := PerRail (Option U128)

/-- One reading of the operator's brake. -/
structure SpendBrake where
  halted : Bool
  maxTransferUsdt : Option U64
  maxTreasuryUsdtPerHour : Option U64
  nativeSpend : NativeSpendBrake
  reason : Option String
deriving DecidableEq, Repr

/-- The brake as it is seeded: released, every ceiling the environment's. -/
def SpendBrake.released : SpendBrake := ⟨false, none, none, ⟨none, none, none, none⟩, none⟩

/-- A halted brake refuses everything, with the operator's reason. -/
def SpendBrake.requireReleased (b : SpendBrake) : Verdict :=
  require (b.halted = false) (permissionDenied ("the signer's spend brake is halted"
    ++ (match b.reason with
      | some reason => " (" ++ reason ++ ")"
      | none => "")
    ++ ": no signature is issued until an operator releases it at the signer's database"))

/-- The brake's row as it is selected. -/
structure BrakeRow where
  halted : Bool
  maxTransferUsdt : Option I64
  maxTreasuryUsdtPerHour : Option I64
  maxNativeSpendPerHour : PerRail (Option String)
  reason : Option String
deriving DecidableEq, Repr

/-- A USDT column of the row. -/
def parseUsdtCap : Option I64 → Except SignerStatus (Option U64)
  | none => .ok none
  | some raw =>
    if h : 0 ≤ raw.val then
      .ok (some ⟨raw.val.toNat, by have := raw.property; omega⟩)
    else .error withheld

/-- A native column of the row. -/
def parseNativeCap : Option String → Except SignerStatus (Option U128)
  | none => .ok none
  | some raw =>
    match Text.parseUnsigned (2 ^ 128) raw.toList with
    | some n => (orElse (U128.fit n) withheld).map some
    | none => .error withheld

/-- A brake from its row; a missing row, like a broken one, is no release. -/
def SpendBrake.ofRow : Option BrakeRow → Except SignerStatus SpendBrake
  | none => .error withheld
  | some row => do
    let bep20 ← parseNativeCap row.maxNativeSpendPerHour.bep20
    let polygon ← parseNativeCap row.maxNativeSpendPerHour.polygon
    let trc20 ← parseNativeCap row.maxNativeSpendPerHour.trc20
    let ton ← parseNativeCap row.maxNativeSpendPerHour.ton
    let maxTransferUsdt ← parseUsdtCap row.maxTransferUsdt
    let maxTreasuryUsdtPerHour ← parseUsdtCap row.maxTreasuryUsdtPerHour
    .ok ⟨row.halted, maxTransferUsdt, maxTreasuryUsdtPerHour, ⟨bep20, polygon, trc20, ton⟩,
      row.reason⟩

/-! ## The policy -/

/-- The signer's policy. -/
structure SignerPolicy where
  maxTransferUsdt : U64
  treasuryUsdtPerHour : U64
  destinationAllowlist : List String
  treasuryNativeAllowlist : List String
  tonTreasuryJettonWallet : Option String
  feeBudget : FeeBudget
  gasTopup : GasTopupCaps
  tokenPins : TokenPins
  treasuryNative : Option TreasuryNativeCaps
  nativeSpend : NativeSpendWindow
  tronSigningEnabled : Bool
deriving DecidableEq, Repr

/-- The policy when nothing is configured. -/
def SignerPolicy.default : SignerPolicy where
  maxTransferUsdt := 100
  treasuryUsdtPerHour := 1000
  destinationAllowlist := []
  treasuryNativeAllowlist := []
  tonTreasuryJettonWallet := none
  feeBudget := .default
  gasTopup := .default
  tokenPins := .default
  treasuryNative := none
  nativeSpend := .default
  tronSigningEnabled := false

/-- A ceiling under a brake: the lower of the two. -/
def tighten {α : Type} [Min α] (env : α) : Option α → α
  | some cap => min env cap
  | none => env

/-- The policy with each ceiling the brake sets taken as the lower of the two. -/
def SignerPolicy.tightened (p : SignerPolicy) (brake : SpendBrake) : SignerPolicy :=
  { p with
    maxTransferUsdt := tighten p.maxTransferUsdt brake.maxTransferUsdt
    treasuryUsdtPerHour := tighten p.treasuryUsdtPerHour brake.maxTreasuryUsdtPerHour
    nativeSpend :=
      { bep20 := tighten p.nativeSpend.bep20 (brake.nativeSpend.cap .bep20)
        polygon := tighten p.nativeSpend.polygon (brake.nativeSpend.cap .polygon)
        trc20 := tighten p.nativeSpend.trc20 (brake.nativeSpend.cap .trc20)
        ton := tighten p.nativeSpend.ton (brake.nativeSpend.cap .ton) } }

/-- Whether the Tron handlers sign at all. -/
def SignerPolicy.checkTronSigning (p : SignerPolicy) : Verdict :=
  require (p.tronSigningEnabled = true) (permissionDenied
    ("Tron signing is disabled on this signer (SIGNER_TRON_SIGNING_ENABLED) while the rail is "
      ++ "frozen"))

/-- The fee budget, on a transaction from any wallet. -/
def SignerPolicy.checkFeeBudget (p : SignerPolicy) (network : Network) (quote : FeeQuote) :
    Verdict := p.feeBudget.check network quote

/-- The native window: what the wallet's window holds already, and what a signature adds. -/
def SignerPolicy.checkNativeSpendWindow (p : SignerPolicy) (network : Network)
    (spent spend : U128) : Verdict := do
  let cap := p.nativeSpend.cap network
  let total ← orElse (spent.checkedAdd spend) (permissionDenied ("native spend "
    ++ toString spend.val ++ " overflows the signer's window on " ++ network.asStr))
  require (total ≤ cap) (permissionDenied ("native spend " ++ toString spend.val
    ++ " would bring this wallet's last hour on " ++ network.asStr ++ " to " ++ toString total.val
    ++ ", over the signer's native spend window cap of " ++ toString cap.val))

/-- The treasury's USDT window, in the rail's units. -/
def SignerPolicy.checkTreasuryUsdtWindow (p : SignerPolicy) (network : Network)
    (spent spend : U128) : Verdict := do
  let cap ← usdtCapOnchain network p.treasuryUsdtPerHour
  let total ← orElse (spent.checkedAdd spend) (permissionDenied ("USDT spend "
    ++ toString spend.val ++ " overflows the signer's window on " ++ network.asStr))
  require (total ≤ cap) (permissionDenied ("treasury transfer of " ++ toString spend.val
    ++ " would bring the treasury's last hour on " ++ network.asStr ++ " to "
    ++ toString total.val ++ ", over the signer's treasury USDT window cap of "
    ++ toString p.treasuryUsdtPerHour.val ++ " USDT (" ++ toString cap.val ++ " on "
    ++ network.asStr ++ ")"))

section Rules

variable (parseTon : String → Option TonAddress) (p : SignerPolicy)

/-! ### The treasury -/

/-- USDT-allowlist membership. -/
def SignerPolicy.allowlisted (network : Network) (address : String) : Bool :=
  listed parseTon p.destinationAllowlist network address

/-- An allowlist, when there is one, holds every destination. -/
def SignerPolicy.checkAllowlist (network : Network) (toAddress : String) : Verdict :=
  require (p.destinationAllowlist = [] ∨ p.allowlisted parseTon network toAddress = true)
    (permissionDenied "treasury transfer destination is not on the signer's allowlist")

/-- A treasury transfer names the pinned token. -/
def SignerPolicy.checkTokenPin (network : Network) (tokenContract : Option String) : Verdict :=
  match p.tokenPins.pinned network, tokenContract with
  | some pinned, some token =>
    require (addressesAgree parseTon network pinned token = true) (permissionDenied
      ("token_contract is not the signer's pinned USDT contract on " ++ network.asStr))
  | none, none => .ok ()
  | some _, none | none, some _ => .error (internalStatus
      ("token pin and wire contract disagree on presence for " ++ network.asStr))

/-- A token transfer from the treasury: the pinned token, the cap, the allowlist. -/
def SignerPolicy.checkTreasuryTransfer (network : Network) (tokenContract : Option String)
    (toAddress : String) (amountBaseUnits : U128) : Verdict := do
  p.checkTokenPin parseTon network tokenContract
  let cap ← usdtCapOnchain network p.maxTransferUsdt
  require (amountBaseUnits ≤ cap) (permissionDenied ("treasury transfer of "
    ++ toString amountBaseUnits.val ++ " exceeds the signer's per-transfer cap of "
    ++ toString p.maxTransferUsdt.val ++ " USDT (" ++ toString cap.val ++ " on "
    ++ network.asStr ++ ")"))
  p.checkAllowlist parseTon network toAddress

/-- A native transfer from the treasury: refused unless opted into, on the rail's list, under its
ceiling. -/
def SignerPolicy.checkTreasuryNativeTransfer (network : Network) (toAddress : String)
    (amount : U128) : Verdict := do
  let caps ← orElse p.treasuryNative (permissionDenied
    ("native transfers from the treasury are disabled on " ++ network.asStr
      ++ " (SIGNER_ALLOW_TREASURY_NATIVE)"))
  let cap ← orElse (caps.cap network) (permissionDenied
    ("native transfers from the treasury have no ceiling on " ++ network.asStr
      ++ " (SIGNER_MAX_TREASURY_NATIVE_*)"))
  require (listed parseTon p.treasuryNativeAllowlist network toAddress = true) (permissionDenied
    "treasury native transfer destination is not on the signer's treasury native allowlist")
  denyOver network "treasury native" "amount" amount cap

/-- Where the excess Toncoin of a treasury's jetton transfer returns: the wallet itself, or a listed
address. -/
def SignerPolicy.checkTreasuryResponseDestination (ownAddress responseDestination : String) :
    Verdict :=
  require (addressesAgree parseTon .ton ownAddress responseDestination = true ∨
      p.allowlisted parseTon .ton responseDestination = true)
    (permissionDenied ("treasury transfer response_destination must be the sending wallet or on "
      ++ "the signer's allowlist"))

/-! ### Deposit wallets -/

/-- A sweep goes to the treasury's own address. -/
def checkSweepDestination (network : Network) (treasuryAddress : Option String)
    (toAddress : String) : Verdict := do
  let treasury ← orElse treasuryAddress (permissionDenied
    ("the treasury is not provisioned on " ++ network.asStr ++ " — nothing to sweep to"))
  require (addressesAgree parseTon network treasury toAddress = true) (permissionDenied
    ("a deposit wallet may only sweep to the treasury on " ++ network.asStr
      ++ "; to_address is not the treasury"))

/-- Where the excess Toncoin of a sweep returns: the wallet itself, the gas station or the treasury.
-/
def checkSweepResponseDestination (ownAddress : String) (gasStation treasury : Option String)
    (responseDestination : String) : Verdict :=
  require ((ownAddress :: gasStation.toList ++ treasury.toList).any
      (addressesAgree parseTon .ton · responseDestination) = true)
    (permissionDenied
      "sweep response_destination must be the sending wallet, the gas station or the treasury")

/-- A native transfer out of a deposit wallet: no flow makes one. -/
def refuseDepositNative (network : Network) : SignerStatus :=
  permissionDenied ("a deposit wallet signs no native transfers on " ++ network.asStr
    ++ " — only USDT sweeps into the treasury")

/-! ### The gas station -/

/-- A top-up goes to an address the signer holds a key for, under the rail's cap. -/
def SignerPolicy.checkGasTopup (network : Network) (toAddress : String)
    (heldAddress : Option String) (amount : U128) : Verdict := do
  require (heldAddress.any (addressesAgree parseTon network · toAddress) = true) (permissionDenied
    ("gas top-up destination is not an address this signer holds a key for on " ++ network.asStr))
  denyOver network "gas top-up" "amount" amount (p.gasTopup.cap network)

/-- A token transfer out of the gas station: forged by construction. -/
def refuseGasStationToken (network : Network) : SignerStatus :=
  permissionDenied ("the gas station signs native top-ups only on " ++ network.asStr
    ++ " — never a token transfer")

/-! ### Jetton wallets -/

/-- Who pinned a jetton wallet. -/
inductive JettonPinSource
  | operator
  | firstUse
deriving DecidableEq, Repr

/-- A jetton transfer goes through the wallet's pinned jetton wallet. -/
def checkJettonWalletPin (pinned ourJettonWallet : String) (source : JettonPinSource) : Verdict :=
  require (addressesAgree parseTon .ton pinned ourJettonWallet = true) (permissionDenied
    (match source with
    | .operator => "our_jetton_wallet is not the treasury's jetton wallet pinned by "
      ++ "SIGNER_TON_TREASURY_JETTON_WALLET"
    | .firstUse => "our_jetton_wallet is not the jetton wallet this wallet pinned on first use"))

end Rules

end Banking
