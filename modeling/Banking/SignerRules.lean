import Banking.Signer

/-! # What the signer's policy accepts

What each check of the policy accepts, in numbers that do not wrap and in accounts rather than
renderings; what a transaction moves, read off the transaction; and the rule of each wallet class
over that. A tightened policy accepts no more than the environment's. -/

namespace Banking

open Interactive (Journal)

/-! ## The checks -/

theorem denyOver_ok {network : Network} {control field : String} {value cap : U128} :
    denyOver network control field value cap = .ok () ↔ value ≤ cap := require_ok

/-- A ceiling in whole USDT has its exact value on every rail. -/
theorem usdtCapOnchain_ok (network : Network) (wholeUsdt : U64) :
    ∃ cap, usdtCapOnchain network wholeUsdt = .ok cap ∧
      cap.val = wholeUsdt.val * 10 ^ network.onchainDecimals := by
  have hfits : wholeUsdt.val * 10 ^ 18 < 2 ^ 128 := by
    have := wholeUsdt.isLt
    omega
  obtain ⟨canonical, hcanonical⟩ : ∃ c, wholeUsdt.toU128.checkedMul CANONICAL_PER_USDT = some c :=
    ⟨_, dif_pos hfits⟩
  have hval : canonical.val = wholeUsdt.val * 10 ^ 18 := U128.checkedMul_eq_some.mp hcanonical
  have hscale : canonical.val =
      network.scaleToCanonical * (wholeUsdt.val * 10 ^ network.onchainDecimals) := by
    rw [hval]
    cases network <;> simp only [Network.scaleToCanonical, Network.onchainDecimals] <;> ring
  have hpos : 0 < network.scaleToCanonical := Nat.pow_pos (by decide)
  have hquot : canonical.val / network.scaleToCanonical =
      wholeUsdt.val * 10 ^ network.onchainDecimals := by
    rw [hscale, Nat.mul_div_cancel_left _ hpos]
  have hlt : wholeUsdt.val * 10 ^ network.onchainDecimals < 2 ^ 128 :=
    hquot ▸ (Nat.div_le_self _ _).trans_lt canonical.isLt
  refine ⟨⟨_, hlt⟩, ?_, rfl⟩
  rw [usdtCapOnchain, U128.saturatingMul, hcanonical, Option.getD_some, toOnchain,
    if_pos (Dvd.intro _ hscale.symm), hquot, U128.fit, dif_pos hlt]
  rfl

/-- The ceiling of a window, as a number. -/
def SignerPolicy.windowCeiling (p : SignerPolicy) (key : WindowKey) : Nat :=
  match key.asset with
  | .native => (p.nativeSpend.cap key.network).val
  | .usdt => p.treasuryUsdtPerHour.val * 10 ^ key.network.onchainDecimals

/-- A sum under a ceiling of 128 bits, checked without wrapping. -/
theorem checkedSum_ok {spent spend cap : U128} {tooMuch : U128 → SignerStatus}
    {refusal : SignerStatus} :
    (do
      let total ← orElse (spent.checkedAdd spend) refusal
      require (total ≤ cap) (tooMuch total) : Verdict) = .ok () ↔
      spent.val + spend.val ≤ cap.val := by
  constructor
  · intro h
    obtain ⟨total, htotal, hle⟩ := bind_ok_iff.mp h
    have hval := U128.checkedAdd_eq_some.mp (orElse_ok.mp htotal)
    exact hval ▸ Fin.le_def.mp (require_ok.mp hle)
  · intro h
    have hfits : spent.val + spend.val < 2 ^ 128 := h.trans_lt cap.isLt
    refine bind_ok_iff.mpr ⟨⟨_, hfits⟩, ?_, require_ok.mpr (Fin.le_def.mpr h)⟩
    rw [U128.checkedAdd, U128.fit, dif_pos hfits]
    rfl

/-- **A window lets a spend in** exactly when what it holds and the spend, added without wrapping,
are under its ceiling. -/
theorem SignerPolicy.checkWindow_ok {p : SignerPolicy} {key : WindowKey} {spent spend : U128} :
    p.checkWindow key spent spend = .ok () ↔ spent.val + spend.val ≤ p.windowCeiling key := by
  unfold SignerPolicy.checkWindow SignerPolicy.windowCeiling
  cases key.asset with
  | native => exact checkedSum_ok
  | usdt =>
    obtain ⟨cap, hcap, hval⟩ := usdtCapOnchain_ok key.network p.treasuryUsdtPerHour
    simp only [SignerPolicy.checkTreasuryUsdtWindow, hcap]
    rw [← hval]
    exact checkedSum_ok

/-- The fee side of an EVM transaction within the budget. -/
theorem FeeBudget.check_evm_ok {b : FeeBudget} {network : Network} {gasPrice : U128}
    {gasLimit : U64} (h : b.check network (.evm gasPrice gasLimit) = .ok ()) :
    gasPrice.val * gasLimit.val < 2 ^ 128 ∧ gasLimit ≤ b.maxGasLimit ∧
      ∃ cap, b.maxGasPriceWei network = .ok cap ∧ gasPrice ≤ cap := by
  obtain ⟨product, hproduct, h⟩ := bind_ok_iff.mp h
  obtain ⟨⟨⟩, hlimit, h⟩ := bind_ok_iff.mp h
  obtain ⟨cap, hcap, h⟩ := bind_ok_iff.mp h
  have hval := U128.checkedMul_eq_some.mp (orElse_ok.mp hproduct)
  exact ⟨hval ▸ product.isLt, denyOver_ok.mp hlimit, cap, hcap, denyOver_ok.mp h⟩

/-- A Tron fee limit within the budget. -/
theorem FeeBudget.check_tron_ok {b : FeeBudget} {network : Network} {feeLimit : I64}
    (h : b.check network (.tron feeLimit) = .ok ()) :
    0 ≤ feeLimit.val ∧ feeLimit.val ≤ b.maxTronFeeLimitSun.val := by
  obtain ⟨limit, hlimit, h⟩ := bind_ok_iff.mp h
  have hsome := orElse_ok.mp hlimit
  unfold I64.toU128 at hsome
  split_ifs at hsome with hnonneg
  have hval := U128.fit_eq_some.mp hsome
  have hle : limit.val ≤ b.maxTronFeeLimitSun.val := Fin.le_def.mp (denyOver_ok.mp h)
  omega

/-- The Toncoin of a jetton transfer within the budget. -/
theorem FeeBudget.check_ton_ok {b : FeeBudget} {network : Network}
    {msgValue forwardTonAmount : U64} (h : b.check network (.ton msgValue forwardTonAmount) = .ok ()) :
    msgValue ≤ b.maxTonMsgValueNano ∧ forwardTonAmount ≤ b.maxTonForwardNano ∧
      forwardTonAmount ≤ msgValue := by
  obtain ⟨⟨⟩, hvalue, h⟩ := bind_ok_iff.mp h
  obtain ⟨⟨⟩, hforward, h⟩ := bind_ok_iff.mp h
  exact ⟨Fin.le_def.mpr (Fin.le_def.mp (denyOver_ok.mp hvalue)),
    Fin.le_def.mpr (Fin.le_def.mp (denyOver_ok.mp hforward)), require_ok.mp h⟩

/-! ## The brake only tightens -/

theorem tighten_le {α : Type} [LinearOrder α] (env : α) (cap : Option α) : tighten env cap ≤ env := by
  cases cap with
  | none => exact le_refl env
  | some cap => exact min_le_left env cap

theorem SignerPolicy.tightened_maxTransferUsdt_le (p : SignerPolicy) (brake : SpendBrake) :
    (p.tightened brake).maxTransferUsdt ≤ p.maxTransferUsdt := tighten_le _ _

/-- **No window's ceiling is raised.** -/
theorem SignerPolicy.tightened_windowCeiling_le (p : SignerPolicy) (brake : SpendBrake)
    (key : WindowKey) : (p.tightened brake).windowCeiling key ≤ p.windowCeiling key := by
  unfold SignerPolicy.windowCeiling
  cases key.asset with
  | native => cases key.network <;> exact Fin.le_def.mp (tighten_le _ _)
  | usdt => exact Nat.mul_le_mul_right _ (Fin.le_def.mp (tighten_le _ _))

/-! ## What a transaction moves -/

/-- An account as a transaction names it. -/
inductive ChainAccount
  | evm (address : EvmAddress)
  | tron (address : TronAddress)
  | ton (address : TonAddress)
deriving DecidableEq

/-- An account as a token call's argument: a Tron address loses its version byte. -/
def ChainAccount.asPayee : ChainAccount → ChainAccount
  | .tron address => .evm address.account
  | account => account

/-- What a transaction moves: a token of a contract, or the native coin. -/
inductive Movement
  | token (contract payee : ChainAccount) (amount : Nat)
  | native (recipient : ChainAccount) (amount : Nat)
deriving DecidableEq

/-- The number of big-endian bytes. -/
def ofBytes (bytes : List UInt8) : Nat := bytes.foldl (fun n b => 256 * n + b.toNat) 0

/-- The payee and the amount of an ERC-20 transfer's calldata. -/
def decodeTransfer (data : List UInt8) : Option (EvmAddress × Nat) :=
  if data.take 4 = ERC20_TRANSFER_SELECTOR ∧ data.length = 68 then
    (ofLength 20 ((data.drop 16).take 20)).map fun payee => (payee, ofBytes (data.drop 36))
  else none

/-- What a transaction moves, read off its fields. -/
def ChainTx.movement : ChainTx → Option Movement
  | .evm tx =>
    if tx.data = [] then some (.native (.evm tx.toAddress) tx.value.val)
    else if tx.value = 0 then
      (decodeTransfer tx.data).map fun (payee, amount) =>
        .token (.evm tx.toAddress) (.evm payee) amount
    else none
  | .tron raw =>
    match raw.contract with
    | .transferContract t => some (.native (.tron t.toAddress) t.amount.val.toNat)
    | .triggerSmartContract c =>
      if c.callValue = 0 ∧ c.callTokenValue = 0 then
        (decodeTransfer c.data).map fun (payee, amount) =>
          .token (.tron c.contractAddress) (.evm payee) amount
      else none
  | .ton message =>
    match message.internal.body with
    | none => some (.native (.ton message.internal.dest) message.internal.value.val)
    | some body => some (.token (.ton message.internal.dest) (.ton body.toOwner) body.amount.val)

theorem foldl_bytes (bytes : List UInt8) (n : Nat) :
    bytes.foldl (fun n b => 256 * n + b.toNat) n = 256 ^ bytes.length * n + ofBytes bytes := by
  unfold ofBytes
  induction bytes generalizing n with
  | nil => simp
  | cons b bytes ih =>
    rw [List.foldl_cons, List.foldl_cons, ih, ih (256 * 0 + b.toNat), List.length_cons]
    ring

theorem ofBytes_append (a b : List UInt8) :
    ofBytes (a ++ b) = 256 ^ b.length * ofBytes a + ofBytes b := by
  rw [ofBytes, List.foldl_append, foldl_bytes]
  rfl

theorem ofBytes_replicate_zero (n : Nat) : ofBytes (List.replicate n 0) = 0 := by
  induction n with
  | zero => rfl
  | succ n ih =>
    have hsplit : List.replicate (n + 1) (0 : UInt8) = [0] ++ List.replicate n 0 := rfl
    rw [hsplit, ofBytes_append, ih]
    rfl

/-- A number is read back from its bytes, as far as they go. -/
theorem ofBytes_beBytes (w n : Nat) : ofBytes (Framing.beBytes w n) = n % 256 ^ w := by
  induction w with
  | zero => rw [Nat.pow_zero, Nat.mod_one]; rfl
  | succ w ih =>
    have hsplit : Framing.beBytes (w + 1) n =
        [UInt8.ofNat (n / 256 ^ w % 256)] ++ Framing.beBytes w n := by
      simp [Framing.beBytes, Framing.digits, List.range_succ]
    have hdigit : ofBytes [UInt8.ofNat (n / 256 ^ w % 256)] = n / 256 ^ w % 256 := by
      simp [ofBytes]
    rw [hsplit, ofBytes_append, ih, hdigit, Framing.length_beBytes, Nat.mod_pow_succ, Nat.add_comm]

/-- **The calldata of a transfer** says its payee and its amount. -/
theorem decodeTransfer_calldata (payee : EvmAddress) (amount : U128) :
    decodeTransfer (erc20TransferCalldata payee amount) = some (payee, amount.val) := by
  obtain ⟨payee, hpayee⟩ := payee
  have hlength : (erc20TransferCalldata ⟨payee, hpayee⟩ amount).length = 68 := by
    simp [erc20TransferCalldata, ERC20_TRANSFER_SELECTOR, hpayee]
  have hpayeeAt : ((erc20TransferCalldata ⟨payee, hpayee⟩ amount).drop 16).take 20 = payee := by
    simp [erc20TransferCalldata, ERC20_TRANSFER_SELECTOR, List.drop_append,
      hpayee]
  have hamountAt : (erc20TransferCalldata ⟨payee, hpayee⟩ amount).drop 36 =
      List.replicate 16 0 ++ Framing.beBytes 16 amount.val := by
    simp [erc20TransferCalldata, ERC20_TRANSFER_SELECTOR, hpayee]
  have hselector : (erc20TransferCalldata ⟨payee, hpayee⟩ amount).take 4 =
      ERC20_TRANSFER_SELECTOR := rfl
  have hamount : ofBytes (List.replicate 16 0 ++ Framing.beBytes 16 amount.val) = amount.val := by
    rw [ofBytes_append, ofBytes_replicate_zero, ofBytes_beBytes, Nat.mul_zero, Nat.zero_add]
    exact Nat.mod_eq_of_lt (amount.isLt.trans_le (by decide))
  rw [decodeTransfer, if_pos ⟨hselector, hlength⟩, hpayeeAt, hamountAt, hamount, ofLength,
    dif_pos hpayee]
  rfl

/-! ## Renderings of one account -/

/-- A digit's case does not matter. -/
theorem hexDigit_toLower (c : Char) : hexDigit c.toLower = hexDigit c := by
  by_cases h : 65 ≤ c.toNat ∧ c.toNat ≤ 90
  · have hall : ∀ n < 26, hexDigit (Char.ofNat (65 + n)).toLower =
        hexDigit (Char.ofNat (65 + n)) := by decide
    have hc : Char.ofNat (65 + (c.toNat - 65)) = c := by
      rw [Nat.add_sub_cancel' h.1, Char.ofNat_toNat]
    exact hc ▸ hall (c.toNat - 65) (by omega)
  · have hsame : c.toLower = c := dif_neg h
    rw [hsame]

theorem hexDecode_toLower (s : List Char) : hexDecode (s.map Char.toLower) = hexDecode s := by
  fun_induction hexDecode s with
  | case1 => rfl
  | case2 c => rfl
  | case3 hi lo rest ih =>
    simp only [List.map_cons, hexDecode, hexDigit_toLower, ih]

/-- Digits read are read in lower case, their prefix included. -/
theorem hexDecode_strip_toLower {s : List Char} {bytes : List UInt8}
    (h : hexDecode (stripHexPrefix s) = some bytes) :
    hexDecode (stripHexPrefix (s.map Char.toLower)) = some bytes := by
  by_cases hs : ∃ rest, s = '0' :: 'x' :: rest
  · obtain ⟨rest, rfl⟩ := hs
    have hlower : stripHexPrefix (('0' :: 'x' :: rest).map Char.toLower) = rest.map Char.toLower := rfl
    rw [hlower, hexDecode_toLower]
    exact h
  · have hstrip : ∀ s : List Char, (¬ ∃ rest, s = '0' :: 'x' :: rest) → stripHexPrefix s = s := by
      intro s hs
      unfold stripHexPrefix
      split
      · exact absurd ⟨_, rfl⟩ hs
      · rfl
    rw [hstrip s hs] at h
    rw [hstrip, hexDecode_toLower]
    · exact h
    · rintro ⟨rest, hrest⟩
      -- an `x` of either case is no digit
      obtain _ | ⟨c, _ | ⟨x, rest'⟩⟩ := s
      · cases hrest
      · simp at hrest
      · have hx : hexDigit x = none := by
          have hlower : x.toLower = 'x' := (List.cons.inj (List.cons.inj hrest).2).1
          rw [← hexDigit_toLower, hlower]
          decide
        cases hc : hexDigit c <;> simp [hexDecode, hx, hc] at h

/-- Renderings that agree and parse name one EVM account. -/
theorem parseEvmAddress_agree {ours theirs : String} {a b : EvmAddress}
    (h : asciiLower ours = asciiLower theirs) (ha : parseEvmAddress ours = some a)
    (hb : parseEvmAddress theirs = some b) : a = b := by
  have hlower : ours.toList.map Char.toLower = theirs.toList.map Char.toLower := by
    have := congrArg String.toList h
    simpa [asciiLower] using this
  obtain ⟨bytes, hbytes, ha⟩ := Option.bind_eq_some_iff.mp ha
  obtain ⟨bytes', hbytes', hb⟩ := Option.bind_eq_some_iff.mp hb
  have hsame : bytes = bytes' := by
    have hfirst := hexDecode_strip_toLower hbytes
    rw [hlower, hexDecode_strip_toLower hbytes'] at hfirst
    exact (Option.some.inj hfirst).symm
  subst hsame
  exact Option.some.inj (ha.symm.trans hb)

section Accounts

variable (lib : ChainLib)

/-- The account a rendering names on a rail. -/
def ChainLib.account (network : Network) (rendering : String) : Option ChainAccount :=
  match network with
  | .bep20 | .polygon => (parseEvmAddress rendering).map .evm
  | .trc20 => (lib.parseTron rendering).map .tron
  | .ton => (lib.parseTon rendering).map .ton

/-- Renderings that agree name one account. -/
theorem ChainLib.account_agree {lib : ChainLib} {network : Network} {ours theirs : String}
    {a b : ChainAccount} (h : lib.agree network ours theirs = true)
    (ha : lib.account network ours = some a) (hb : lib.account network theirs = some b) : a = b := by
  have hevm : asciiLower ours = asciiLower theirs →
      (parseEvmAddress ours).map ChainAccount.evm = some a →
      (parseEvmAddress theirs).map ChainAccount.evm = some b → a = b := by
    intro h ha hb
    obtain ⟨x, hx, rfl⟩ := Option.map_eq_some_iff.mp ha
    obtain ⟨y, hy, rfl⟩ := Option.map_eq_some_iff.mp hb
    rw [parseEvmAddress_agree h hx hy]
  unfold ChainLib.agree addressesAgree at h
  cases network with
  | bep20 => exact hevm (of_decide_eq_true h) ha hb
  | polygon => exact hevm (of_decide_eq_true h) ha hb
  | trc20 =>
    obtain rfl : ours = theirs := of_decide_eq_true h
    exact Option.some.inj (ha.symm.trans hb)
  | ton =>
    obtain ⟨x, hx, rfl⟩ := Option.map_eq_some_iff.mp ha
    obtain ⟨y, hy, rfl⟩ := Option.map_eq_some_iff.mp hb
    simp only [hx, hy, decide_eq_true_eq] at h
    rw [h]

/-- A stored rendering and one that agrees with it, which names an account. -/
def ChainLib.Names (network : Network) (stored : String) (account : ChainAccount) : Prop :=
  ∃ rendering, lib.agree network stored rendering = true ∧
    lib.account network rendering = some account

/-- It is the account the stored rendering itself names. -/
theorem ChainLib.Names.eq {lib : ChainLib} {network : Network} {stored : String}
    {a b : ChainAccount} (h : lib.Names network stored a) (hb : lib.account network stored = some b) :
    a = b := by
  obtain ⟨rendering, hagree, ha⟩ := h
  exact (ChainLib.account_agree hagree hb ha).symm

end Accounts

end Banking
