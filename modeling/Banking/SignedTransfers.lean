import Banking.SignerRules

/-! # The signer signs only what its policy checked

The rule of each wallet class, over what a transaction moves and over what the request read on its
way, and the protocol it makes: a key is asked to sign a digest only after everything the rule asks
for is in the request's journal. Every handler keeps it, however it is answered. -/

namespace Banking

open Interactive (Prog Journal World Exec Accepts journaling journaling_call)

/-! ## What a request names -/

/-- The destination a request names. -/
def SigningRequest.toAddress : SigningRequest → String
  | .erc20 r => r.toAddress
  | .native r => r.toAddress
  | .trc20 r => r.toAddress
  | .trx r => r.toAddress
  | .jetton r => r.toAddress
  | .ton r => r.toAddress

/-- The amount a request names. -/
def SigningRequest.amount : SigningRequest → String
  | .erc20 r => r.amount
  | .native r => r.amount
  | .trc20 r => r.amount
  | .trx r => r.amount
  | .jetton r => r.amount
  | .ton r => r.amount

/-- Who a request says it sends from. -/
def SigningRequest.sender : SigningRequest → Sender
  | .erc20 r => r.toSender
  | .native r => r.toSender
  | .trc20 r => r.toSender
  | .trx r => r.toSender
  | .jetton r => r.toSender
  | .ton r => r.toSender

/-! ## The rules -/

section Rules

variable (lib : ChainLib) (policy : SignerPolicy) (j : SignerJournal)

/-- **The rule of a wallet class**, over what a transaction on a rail moves to the destination and
in the amount its request names. -/
inductive ClassRule (network : Network) (toAddress : String) (amount : U128) :
    WalletClass → Movement → Prop
  | payout {contract payee : ChainAccount} (hpayee : lib.account network toAddress = some payee)
      (hpin : ∀ pinned, policy.tokenPins.pinned network = some pinned →
        lib.Names network pinned contract)
      (hcap : amount.val ≤ policy.maxTransferUsdt.val * 10 ^ network.onchainDecimals)
      (hlist : policy.destinationAllowlist = [] ∨
        ∃ entry ∈ policy.destinationAllowlist, lib.Names network entry payee) :
      ClassRule network toAddress amount .treasury (.token contract payee.asPayee amount.val)
  | refill {recipient : ChainAccount} {caps : TreasuryNativeCaps} {cap : U128}
      (hrecipient : lib.account network toAddress = some recipient)
      (hallowed : policy.treasuryNative = some caps) (hcap : caps.cap network = some cap)
      (hlist : ∃ entry ∈ policy.treasuryNativeAllowlist, lib.Names network entry recipient)
      (hle : amount ≤ cap) :
      ClassRule network toAddress amount .treasury (.native recipient amount.val)
  | sweep {contract payee : ChainAccount} {treasury : String}
      (hpayee : lib.account network toAddress = some payee)
      (hread : ⟨.findAddress TREASURY_WALLET network, .ok (some treasury)⟩ ∈ j)
      (htreasury : lib.Names network treasury payee) :
      ClassRule network toAddress amount .deposit (.token contract payee.asPayee amount.val)
  | topup {recipient : ChainAccount} {rendering held : String} {active : List String}
      (hrecipient : lib.account network toAddress = some recipient)
      (hread : ⟨.activeAddresses network rendering, .ok active⟩ ∈ j) (hheld : held ∈ active)
      (hours : lib.Names network held recipient) (hle : amount ≤ policy.gasTopup.cap network) :
      ClassRule network toAddress amount .gasStation (.native recipient amount.val)

/-- The fee side of a transaction is under its ceilings. -/
def FeesWithin (network : Network) : ChainTx → Prop
  | .evm tx => tx.gasLimit ≤ policy.feeBudget.maxGasLimit ∧
      ∃ cap, policy.feeBudget.maxGasPriceWei network = .ok cap ∧ tx.gasPrice ≤ cap
  | .tron raw =>
    match raw.contract with
    | .transferContract _ => raw.feeLimit.val = 0
    | .triggerSmartContract _ =>
      0 ≤ raw.feeLimit.val ∧ raw.feeLimit.val ≤ policy.feeBudget.maxTronFeeLimitSun.val
  | .ton message =>
    match message.internal.body with
    | none => True
    | some body => message.internal.value.val ≤ policy.feeBudget.maxTonMsgValueNano.val ∧
        body.forwardTonAmount ≤ policy.feeBudget.maxTonForwardNano ∧
        body.forwardTonAmount.val ≤ message.internal.value.val

/-- The jetton wallet of a transfer is the one pinned for its wallet: by the operator, or by the
wallet's first transfer, which this one may be. -/
inductive PinnedWallet (walletClass : WalletClass) (wallet : Uuid) (ours : String) : Prop
  | operator {pinned : String} (hclass : walletClass = .treasury)
      (hpin : policy.tonTreasuryJettonWallet = some pinned)
      (hagree : lib.agree .ton pinned ours = true)
  | learned {rendering : String}
      (hfree : walletClass = .treasury → policy.tonTreasuryJettonWallet = none)
      (hstored : lib.storedRendering .ton ours = some rendering)
      (hread : ⟨.learnJettonWallet wallet rendering, .ok true⟩ ∈ j)
  | firstUse {pinned : String}
      (hfree : walletClass = .treasury → policy.tonTreasuryJettonWallet = none)
      (hread : ⟨.readJettonWallet wallet, .ok (some pinned)⟩ ∈ j)
      (hagree : lib.agree .ton pinned ours = true)

/-- Where the excess of a jetton transfer returns: the sending wallet, and beside it a listed address
for the treasury, the gas station or the treasury for a sweep. -/
inductive ReturnsExcess (walletClass : WalletClass) (handle : KeyHandle) (response : String) : Prop
  | own {publicKey : List UInt8} {own : String}
      (hread : ⟨.publicKey handle, .ok publicKey⟩ ∈ j) (hown : lib.tonAddress publicKey = some own)
      (hagree : lib.agree .ton own response = true)
  | listed (hclass : walletClass = .treasury) {entry : String}
      (hentry : entry ∈ policy.destinationAllowlist) (hagree : lib.agree .ton entry response = true)
  | house (hclass : walletClass = .deposit) {wallet : Uuid} {stored : String}
      (hwallet : wallet = GAS_STATION_WALLET ∨ wallet = TREASURY_WALLET)
      (hread : ⟨.findAddress wallet .ton, .ok (some stored)⟩ ∈ j)
      (hagree : lib.agree .ton stored response = true)

/-- A jetton transfer goes through its wallet's pinned jetton wallet, and its excess returns home. -/
structure JettonRule (r : SignJettonTransferRequest) (handle : KeyHandle) (message : TonExternal)
    (body : JettonBody) : Prop where
  ours : lib.account .ton r.ourJettonWallet = some (.ton message.internal.dest)
  pinned : PinnedWallet lib policy j (.of handle.wallet) handle.wallet r.ourJettonWallet
  response : lib.account .ton r.responseDestination = some (.ton body.responseDestination)
  returns : ReturnsExcess lib policy j (.of handle.wallet) handle r.responseDestination

/-- **A transaction the policy checked**: its sender's class rule holds of what it moves, its fees
are within the budget, it is its rail's, and a jetton transfer keeps the jetton rule. -/
structure Approved (request : SigningRequest) (handle : KeyHandle) (tx : ChainTx) : Prop where
  sender : resolveWallet lib request.sender.fromUserId = .ok handle.wallet
  network : handle.network.asStr = request.sender.network
  moves : ∃ movement amount, tx.movement = some movement ∧
    parseU128 request.amount = some amount ∧
    ClassRule lib policy j handle.network request.toAddress amount (.of handle.wallet) movement
  fees : FeesWithin policy handle.network tx
  chain : ∀ legacy, tx = .evm legacy → legacy.chainId ∈ chainIds handle.network
  jetton : ∀ message body, tx = .ton message → message.internal.body = some body →
    ∃ r, request = .jetton r ∧ JettonRule lib policy j r handle message body

/-- What must be in a request's journal before a key is asked to sign a digest: the brake read and
released, and a transaction of that digest the tightened policy checked. -/
def Signable (request : SigningRequest) (handle : KeyHandle) (digest : List UInt8) : Prop :=
  ∃ row brake tx, ⟨.readBrake, .ok row⟩ ∈ j ∧ SpendBrake.ofRow row = .ok brake ∧
    brake.halted = false ∧ tx.digest lib = .ok digest ∧
    Approved lib (policy.tightened brake) j request handle tx

/-- What a signed response is: a checked transaction, put together with a signature over its digest.
-/
def SignedAs (request : SigningRequest) (response : SignedResponse) : Prop :=
  ∃ row brake tx handle curve digest signature, ⟨.readBrake, .ok row⟩ ∈ j ∧
    SpendBrake.ofRow row = .ok brake ∧ brake.halted = false ∧ tx.digest lib = .ok digest ∧
    Approved lib (policy.tightened brake) j request handle tx ∧
    ⟨.sign handle curve digest, .ok signature⟩ ∈ j ∧ tx.assemble lib signature = .ok response

end Rules

/-- The protocol of a request: a key is asked to sign only what may be signed. -/
def SignsChecked (lib : ChainLib) (env : SignerPolicy) (request : SigningRequest)
    (j : SignerJournal) (op : SignerOp) : Prop :=
  ∀ handle curve digest, op = .sign handle curve digest → Signable lib env j request handle digest

/-! ## Rules and journals -/

section Monotone

variable {lib : ChainLib} {policy : SignerPolicy} {j j' : SignerJournal}

/-- What a longer journal still says. -/
theorem ClassRule.mono (hsub : j ⊆ j') {network : Network} {toAddress : String} {amount : U128}
    {walletClass : WalletClass} {movement : Movement}
    (h : ClassRule lib policy j network toAddress amount walletClass movement) :
    ClassRule lib policy j' network toAddress amount walletClass movement := by
  cases h with
  | payout hpayee hpin hcap hlist => exact .payout hpayee hpin hcap hlist
  | refill hrecipient hallowed hcap hlist hle => exact .refill hrecipient hallowed hcap hlist hle
  | sweep hpayee hread htreasury => exact .sweep hpayee (hsub hread) htreasury
  | topup hrecipient hread hheld hours hle =>
    exact .topup hrecipient (hsub hread) hheld hours hle

theorem PinnedWallet.mono (hsub : j ⊆ j') {walletClass : WalletClass} {wallet : Uuid}
    {ours : String} (h : PinnedWallet lib policy j walletClass wallet ours) :
    PinnedWallet lib policy j' walletClass wallet ours := by
  cases h with
  | operator hclass hpin hagree => exact .operator hclass hpin hagree
  | learned hfree hstored hread => exact .learned hfree hstored (hsub hread)
  | firstUse hfree hread hagree => exact .firstUse hfree (hsub hread) hagree

theorem ReturnsExcess.mono (hsub : j ⊆ j') {walletClass : WalletClass} {handle : KeyHandle}
    {response : String} (h : ReturnsExcess lib policy j walletClass handle response) :
    ReturnsExcess lib policy j' walletClass handle response := by
  cases h with
  | own hread hown hagree => exact .own (hsub hread) hown hagree
  | listed hclass hentry hagree => exact .listed hclass hentry hagree
  | house hclass hwallet hread hagree => exact .house hclass hwallet (hsub hread) hagree

theorem JettonRule.mono (hsub : j ⊆ j') {r : SignJettonTransferRequest} {handle : KeyHandle}
    {message : TonExternal} {body : JettonBody} (h : JettonRule lib policy j r handle message body) :
    JettonRule lib policy j' r handle message body :=
  ⟨h.ours, h.pinned.mono hsub, h.response, h.returns.mono hsub⟩

theorem Approved.mono (hsub : j ⊆ j') {request : SigningRequest} {handle : KeyHandle}
    {tx : ChainTx} (h : Approved lib policy j request handle tx) :
    Approved lib policy j' request handle tx := by
  obtain ⟨movement, amount, hmovement, hamount, hrule⟩ := h.moves
  refine ⟨h.sender, h.network, ⟨movement, amount, hmovement, hamount, hrule.mono hsub⟩, h.fees,
    h.chain, fun message body htx hbody => ?_⟩
  obtain ⟨r, hr, hrule⟩ := h.jetton message body htx hbody
  exact ⟨r, hr, hrule.mono hsub⟩

/-- **What a tightened policy checked, the environment's does.** -/
theorem Approved.untightened {brake : SpendBrake} {request : SigningRequest} {handle : KeyHandle}
    {tx : ChainTx} (h : Approved lib (policy.tightened brake) j request handle tx) :
    Approved lib policy j request handle tx := by
  obtain ⟨movement, amount, hmovement, hamount, hrule⟩ := h.moves
  refine ⟨h.sender, h.network, ⟨movement, amount, hmovement, hamount, ?_⟩, h.fees, h.chain,
    fun message body htx hbody => ?_⟩
  · generalize hclass : WalletClass.of handle.wallet = walletClass at hrule
    cases hrule with
    | payout hpayee hpin hcap hlist =>
      refine .payout hpayee hpin (hcap.trans (Nat.mul_le_mul_right _ ?_)) hlist
      exact Fin.le_def.mp (policy.tightened_maxTransferUsdt_le brake)
    | refill hrecipient hallowed hcap hlist hle =>
      exact .refill hrecipient hallowed hcap hlist hle
    | sweep hpayee hread htreasury => exact .sweep hpayee hread htreasury
    | topup hrecipient hread hheld hours hle => exact .topup hrecipient hread hheld hours hle
  · obtain ⟨r, hr, hrule⟩ := h.jetton message body htx hbody
    refine ⟨r, hr, hrule.ours, ?_, hrule.response, ?_⟩
    · cases hrule.pinned with
      | operator hclass hpin hagree => exact .operator hclass hpin hagree
      | learned hfree hstored hread => exact .learned hfree hstored hread
      | firstUse hfree hread hagree => exact .firstUse hfree hread hagree
    · cases hrule.returns with
      | own hread hown hagree => exact .own hread hown hagree
      | listed hclass hentry hagree => exact .listed hclass hentry hagree
      | house hclass hwallet hread hagree => exact .house hclass hwallet hread hagree

end Monotone

/-! ## Steps of a handler -/

section Steps

variable {α β : Type} {allowed : SignerJournal → SignerOp → Prop} {Q : α → SignerJournal → Prop}
  {Q' : β → SignerJournal → Prop} {E : SignerStatus → SignerJournal → Prop} {j : SignerJournal}

/-- One program after another. -/
theorem wp_andThen {p : SignerProg α} {f : α → SignerProg β}
    (h : (journaling allowed).wp (fun a => (journaling allowed).wp Q' E (f a)) E p j) :
    (journaling allowed).wp Q' E (p >>= f) j := World.wp_bind.mpr h

/-- A value passed on. -/
theorem wp_passed {r : Except SignerStatus α} (he : ∀ status, r = .error status → E status j)
    (h : ∀ a, r = .ok a → Q a j) : (journaling allowed).wp Q E (passed r) j := by
  cases r with
  | ok a => exact h a rfl
  | error status => exact he status rfl

/-- One question. -/
theorem wp_askSigner {op : SignerOp} {Q : op.Value → SignerJournal → Prop} (hop : allowed j op)
    (he : ∀ status, E status (⟨op, .error status⟩ :: j))
    (h : ∀ a, Q a (⟨op, .ok a⟩ :: j)) : (journaling allowed).wp Q E (askSigner op) j := by
  refine journaling_call hop fun answer => ?_
  cases answer with
  | ok a => exact h a
  | error status => exact he status

/-- A program that asks only what is allowed after any journal longer than its own leaves a longer
one. -/
theorem wp_quiet {p : SignerProg α} {quiet : SignerOp → Prop} (hp : p.Within quiet)
    (hquiet : ∀ j op, quiet op → allowed j op) :
    (journaling allowed).wp (fun _ j' => j ⊆ j') (fun _ j' => j ⊆ j') p j := by
  refine World.wp_within (J := fun j' => j ⊆ j') hp ?_ ?_ (List.Subset.refl j)
  · rintro w w' rfl hsub
    exact hsub
  · rintro op w a w' hop hkeeps hsub rfl
    exact ⟨⟨hquiet w op hop, hkeeps⟩, fun _ h => List.mem_cons_of_mem _ (hsub h)⟩

end Steps

/-! ## Every handler keeps the protocol -/

/-- Not a signature. -/
def SignerOp.Quiet : SignerOp → Prop
  | .sign .. => False
  | _ => True

theorem SignsChecked.quiet {lib : ChainLib} {env : SignerPolicy} {request : SigningRequest}
    (j : SignerJournal) (op : SignerOp) (h : op.Quiet) : SignsChecked lib env request j op := by
  rintro handle curve digest rfl
  exact h.elim

theorem passed_quiet {α : Type} (r : Except SignerStatus α) {S : SignerOp → Prop} :
    (passed r).Within S := by
  cases r <;> trivial

theorem askSigner_within {op : SignerOp} {S : SignerOp → Prop} (h : S op) :
    (askSigner op).Within S := ⟨h, fun a => passed_quiet a⟩

theorem openWindow_quiet (key : WindowKey) : (openWindow key).Within SignerOp.Quiet :=
  (askSigner_within trivial).bind fun _ => (askSigner_within trivial).bind fun _ =>
    (askSigner_within trivial).bind fun _ => trivial

theorem release_quiet (row : Nat) :
    Prog.Within SignerOp.Quiet (.call (.release row) fun _ => .ret () : SignerProg Unit) :=
  ⟨trivial, fun _ => trivial⟩

theorem orRelease_quiet {α : Type} (charged : List Nat) (r : Except SignerStatus α) :
    (orRelease charged r).Within SignerOp.Quiet := by
  cases r with
  | ok a => trivial
  | error status =>
    exact (Prog.Within.each fun row _ => release_quiet row).bind fun _ => trivial

theorem charge_quiet (policy : SignerPolicy) (charged : List Nat) (key : WindowKey)
    (spend : U128) : (charge policy charged key spend).Within SignerOp.Quiet := by
  refine (Prog.Within.outcome ?_).bind fun _ => (orRelease_quiet charged _).bind fun _ => trivial
  exact (openWindow_quiet key).bind fun _ => (passed_quiet _).bind fun _ =>
    askSigner_within trivial

theorem chargeTreasuryUsdt_quiet (policy : SignerPolicy) (charged : List Nat)
    (walletClass : WalletClass) (network : Network) (amount : U128) :
    (chargeTreasuryUsdt policy charged walletClass network amount).Within SignerOp.Quiet := by
  cases walletClass with
  | treasury => exact charge_quiet policy charged _ amount
  | gasStation => trivial
  | deposit => trivial

section Handlers

variable {lib : ChainLib} {env policy : SignerPolicy} {request : SigningRequest}
  {j : SignerJournal}

/-- The condition of a handler, stopped wherever it fails. -/
abbrev Signs (lib : ChainLib) (env : SignerPolicy) (request : SigningRequest) {α : Type}
    (Q : α → SignerJournal → Prop) (p : SignerProg α) (j : SignerJournal) : Prop :=
  (journaling (SignsChecked lib env request)).wp Q (fun _ _ => True) p j

/-- A part of a handler with what it leaves, and the rest from there. -/
theorem signs_then {α β : Type} {p : SignerProg α} {f : α → SignerProg β}
    {Q : α → SignerJournal → Prop} {Q' : β → SignerJournal → Prop}
    (hp : Signs lib env request Q p j) (hf : ∀ a j', Q a j' → Signs lib env request Q' (f a) j') :
    Signs lib env request Q' (p >>= f) j :=
  wp_andThen (World.wp_mono hp hf fun _ _ _ => trivial)

theorem signs_passed {α : Type} {r : Except SignerStatus α} {Q : α → SignerJournal → Prop}
    (h : ∀ a, r = .ok a → Q a j) : Signs lib env request Q (passed r) j :=
  wp_passed (fun _ _ => trivial) h

theorem signs_field {α : Type} {value : Option α} {message : String}
    {Q : α → SignerJournal → Prop} (h : ∀ a, value = some a → Q a j) :
    Signs lib env request Q (field value message) j :=
  signs_passed fun a ha => h a (orElse_ok.mp ha)

theorem signs_ask {op : SignerOp} {Q : op.Value → SignerJournal → Prop} (hop : op.Quiet)
    (h : ∀ a, Q a (⟨op, .ok a⟩ :: j)) : Signs lib env request Q (askSigner op) j :=
  wp_askSigner (SignsChecked.quiet j op hop) (fun _ => trivial) h

theorem signs_quiet {α : Type} {p : SignerProg α} {Q : α → SignerJournal → Prop}
    (hp : p.Within SignerOp.Quiet) (h : ∀ a j', j ⊆ j' → Q a j') :
    Signs lib env request Q p j :=
  World.wp_mono (wp_quiet hp SignsChecked.quiet) (fun a j' hsub => h a j' hsub) fun _ _ _ => trivial

/-- What a handler gives back when it fails asks for no signature. -/
theorem signs_settled {α : Type} {p : SignerProg α} {charged : List Nat}
    {Q : α → SignerJournal → Prop} (h : Signs lib env request Q p j) :
    Signs lib env request Q (Prog.outcome p >>= orRelease charged) j := by
  refine wp_andThen (World.wp_outcome.mpr (World.wp_mono h (fun a j' hq => hq) ?_))
  intro status j' _
  exact wp_andThen (signs_quiet (Prog.Within.each fun row _ => release_quiet row)
    fun _ _ _ => trivial)

theorem tonCell_ok {α : Type} {r : Except String α} {a : α} : tonCell r = .ok a ↔ r = .ok a := by
  cases r <;> simp [tonCell]

/-- A key asked to sign a checked transaction. -/
theorem signs_signTx {handle : KeyHandle} {curve : Curve} {tx : ChainTx} {row : Option BrakeRow}
    {brake : SpendBrake} (hread : ⟨.readBrake, .ok row⟩ ∈ j) (hrow : SpendBrake.ofRow row = .ok brake)
    (hreleased : brake.halted = false)
    (happroved : Approved lib (env.tightened brake) j request handle tx) :
    Signs lib env request (fun response j' => SignedAs lib env j' request response)
      (signTx lib handle curve tx) j := by
  refine wp_andThen (signs_passed fun digest hdigest => wp_andThen (wp_askSigner ?_
    (fun _ => trivial) fun signature => signs_passed fun response hresponse => ?_))
  · rintro handle' curve' digest' heq
    cases heq
    exact ⟨row, brake, tx, hread, hrow, hreleased, tonCell_ok.mp hdigest, happroved⟩
  · have hsub : j ⊆ ⟨.sign handle curve digest, .ok signature⟩ :: j := List.subset_cons_self _ _
    exact ⟨row, brake, tx, handle, curve, digest, signature, hsub hread, hrow, hreleased,
      tonCell_ok.mp hdigest, happroved.mono hsub, List.mem_cons_self, hresponse⟩

/-! ### The class rules -/

/-- A treasury transfer the policy lets through. -/
theorem SignerPolicy.checkTreasuryTransfer_ok {network : Network} {token : Option String}
    {toAddress : String} {amount : U128}
    (h : policy.checkTreasuryTransfer lib.parseTon network token toAddress amount = .ok ()) :
    (∀ pinned, policy.tokenPins.pinned network = some pinned →
      ∃ rendering, token = some rendering ∧ lib.agree network pinned rendering = true) ∧
    amount.val ≤ policy.maxTransferUsdt.val * 10 ^ network.onchainDecimals ∧
    (policy.destinationAllowlist = [] ∨
      ∃ entry ∈ policy.destinationAllowlist, lib.agree network entry toAddress = true) := by
  obtain ⟨⟨⟩, hpin, h⟩ := bind_ok_iff.mp h
  obtain ⟨cap, hcap, h⟩ := bind_ok_iff.mp h
  obtain ⟨⟨⟩, hle, h⟩ := bind_ok_iff.mp h
  refine ⟨fun pinned hpinned => ?_, ?_, ?_⟩
  · unfold SignerPolicy.checkTokenPin at hpin
    rw [hpinned] at hpin
    cases token with
    | none => cases hpin
    | some rendering => exact ⟨rendering, rfl, require_ok.mp hpin⟩
  · obtain ⟨exact, hexact, hval⟩ := usdtCapOnchain_ok network policy.maxTransferUsdt
    rw [hcap] at hexact
    cases hexact
    exact hval ▸ Fin.le_def.mp (require_ok.mp hle)
  · exact (require_ok.mp h).imp id fun hlisted => List.any_eq_true.mp hlisted

/-- The class rule of a token transfer, read off the guard. -/
theorem signs_guardTokenTransfer {walletClass : WalletClass} {network : Network}
    {token : Option String} {toAddress : String} {amount : U128} :
    Signs lib env request
      (fun _ j' => j ⊆ j' ∧ ∀ contract payee, lib.account network toAddress = some payee →
        (∀ rendering, token = some rendering → lib.account network rendering = some contract) →
        ClassRule lib policy j' network toAddress amount walletClass
          (.token contract payee.asPayee amount.val))
      (guardTokenTransfer lib policy walletClass network token toAddress amount) j := by
  cases walletClass with
  | treasury =>
    refine signs_passed fun _ h => ⟨List.Subset.refl j, fun contract payee hpayee htoken => ?_⟩
    obtain ⟨hpin, hcap, hlist⟩ := SignerPolicy.checkTreasuryTransfer_ok h
    refine .payout hpayee (fun pinned hpinned => ?_) hcap
      (hlist.imp id fun ⟨entry, hentry, hagree⟩ => ⟨entry, hentry, toAddress, hagree, hpayee⟩)
    obtain ⟨rendering, hrendering, hagree⟩ := hpin pinned hpinned
    exact ⟨rendering, hagree, htoken rendering hrendering⟩
  | gasStation => trivial
  | deposit =>
    refine wp_andThen (signs_ask trivial fun treasury => signs_passed fun _ h =>
      ⟨List.subset_cons_self _ _, fun contract payee hpayee _ => ?_⟩)
    obtain ⟨own, hown, h⟩ := bind_ok_iff.mp h
    obtain rfl := orElse_ok.mp hown
    exact .sweep hpayee List.mem_cons_self ⟨toAddress, require_ok.mp h, hpayee⟩

/-- The class rule of a native transfer, read off the guard. -/
theorem signs_guardNativeTransfer {walletClass : WalletClass} {network : Network}
    {toAddress : String} {amount : U128} :
    Signs lib env request
      (fun _ j' => j ⊆ j' ∧ ∀ recipient, lib.account network toAddress = some recipient →
        ClassRule lib policy j' network toAddress amount walletClass
          (.native recipient amount.val))
      (guardNativeTransfer lib policy walletClass network toAddress amount) j := by
  cases walletClass with
  | treasury =>
    refine signs_passed fun _ h => ⟨List.Subset.refl j, fun recipient hrecipient => ?_⟩
    obtain ⟨caps, hcaps, h⟩ := bind_ok_iff.mp h
    obtain ⟨cap, hcap, h⟩ := bind_ok_iff.mp h
    obtain ⟨⟨⟩, hlisted, h⟩ := bind_ok_iff.mp h
    obtain ⟨entry, hentry, hagree⟩ := List.any_eq_true.mp (require_ok.mp hlisted)
    exact .refill hrecipient (orElse_ok.mp hcaps) (orElse_ok.mp hcap)
      ⟨entry, hentry, toAddress, hagree, hrecipient⟩ (denyOver_ok.mp h)
  | gasStation =>
    refine wp_andThen ?_
    unfold findActiveByAddress
    cases lib.storedRendering network toAddress with
    | none =>
      refine signs_passed fun _ h => ?_
      obtain ⟨⟨⟩, hheld, -⟩ := bind_ok_iff.mp h
      cases require_ok.mp hheld
    | some rendering =>
      refine wp_andThen (signs_ask trivial fun active => signs_passed fun _ h =>
        ⟨List.subset_cons_self _ _, fun recipient hrecipient => ?_⟩)
      obtain ⟨⟨⟩, hheld, h⟩ := bind_ok_iff.mp h
      obtain ⟨held, hfound, hagree⟩ := (Option.any_eq_true _ _).mp (require_ok.mp hheld)
      exact .topup hrecipient List.mem_cons_self (List.mem_of_find?_eq_some hfound)
        ⟨toAddress, hagree, hrecipient⟩ (denyOver_ok.mp h)
  | deposit => trivial

/-- A jetton wallet against the wallet's first use, read off the guard. -/
theorem signs_guardFirstUse {walletClass : WalletClass} {wallet : Uuid} {ours : String}
    (hfree : walletClass = .treasury → policy.tonTreasuryJettonWallet = none) :
    Signs lib env request
      (fun _ j' => j ⊆ j' ∧ PinnedWallet lib policy j' walletClass wallet ours)
      (guardFirstUse lib wallet ours) j := by
  refine wp_andThen (signs_passed fun rendering hrendering => ?_)
  have hstored := orElse_ok.mp hrendering
  unfold learnOrRead
  refine wp_andThen (wp_andThen (signs_ask trivial fun learned => ?_))
  cases learned with
  | true => exact ⟨List.subset_cons_self _ _, .learned hfree hstored List.mem_cons_self⟩
  | false =>
    refine wp_andThen (signs_ask trivial fun found => wp_andThen (signs_passed fun pinned h => ?_))
    obtain rfl := orElse_ok.mp h
    refine signs_passed fun _ hagree => ⟨fun _ he => ?_, .firstUse hfree List.mem_cons_self
      (require_ok.mp hagree)⟩
    exact List.mem_cons_of_mem _ (List.mem_cons_of_mem _ he)

/-- The jetton wallet's pin, read off the guard. -/
theorem signs_guardJettonWallet {walletClass : WalletClass} {wallet : Uuid} {ours : String} :
    Signs lib env request
      (fun _ j' => j ⊆ j' ∧ PinnedWallet lib policy j' walletClass wallet ours)
      (guardJettonWallet lib policy walletClass wallet ours) j := by
  unfold guardJettonWallet
  cases walletClass with
  | gasStation => trivial
  | deposit => exact signs_guardFirstUse nofun
  | treasury =>
    cases hpin : policy.tonTreasuryJettonWallet with
    | none => exact signs_guardFirstUse fun _ => hpin
    | some pinned =>
      exact signs_passed fun _ h => ⟨List.Subset.refl j, .operator rfl hpin (require_ok.mp h)⟩

/-- Where a jetton transfer's excess returns, read off the guard. -/
theorem signs_guardResponseDestination {walletClass : WalletClass} {handle : KeyHandle}
    {publicKey : List UInt8} {response : String}
    (hread : ⟨.publicKey handle, .ok publicKey⟩ ∈ j) :
    Signs lib env request
      (fun _ j' => j ⊆ j' ∧ ReturnsExcess lib policy j' walletClass handle response)
      (guardResponseDestination lib policy walletClass publicKey response) j := by
  refine wp_andThen (signs_passed fun own hown => ?_)
  have hown := orElse_ok.mp hown
  cases walletClass with
  | gasStation => trivial
  | treasury =>
    refine signs_passed fun _ h => ⟨List.Subset.refl j, ?_⟩
    rcases require_ok.mp h with hagree | hlisted
    · exact .own hread hown hagree
    · obtain ⟨entry, hentry, hagree⟩ := List.any_eq_true.mp hlisted
      exact .listed rfl hentry hagree
  | deposit =>
    refine wp_andThen (signs_ask trivial fun gasStation => wp_andThen (signs_ask trivial
      fun treasury => signs_passed fun _ h => ⟨fun _ he => ?_, ?_⟩))
    · exact List.mem_cons_of_mem _ (List.mem_cons_of_mem _ he)
    · obtain ⟨address, haddress, hagree⟩ := List.any_eq_true.mp (require_ok.mp h)
      simp only [List.cons_append, List.mem_cons, List.mem_append, Option.mem_toList] at haddress
      rcases haddress with rfl | hstation | htreasury
      · exact .own (List.mem_cons_of_mem _ (List.mem_cons_of_mem _ hread)) hown hagree
      · obtain rfl := Option.mem_def.mp hstation
        exact .house rfl (.inl rfl) (List.mem_cons_of_mem _ List.mem_cons_self) hagree
      · obtain rfl := Option.mem_def.mp htreasury
        exact .house rfl (.inr rfl) List.mem_cons_self hagree

/-! ### The handlers -/

/-- A network named by its wire name. -/
theorem requireRail_ok {rails : List Network} {mismatch raw : String} {network : Network}
    (h : requireRail rails mismatch raw = .ok network) :
    network ∈ rails ∧ network.asStr = raw := by
  unfold requireRail at h
  cases hparse : Network.parse raw with
  | error e => rw [hparse] at h; cases h
  | ok parsed =>
    rw [hparse] at h
    dsimp only at h
    split_ifs at h with hmem
    cases h
    exact ⟨hmem, Network.parse_ok.mp hparse⟩

/-- The account an EVM address names on its rail. -/
theorem ChainLib.account_evm {network : Network} (h : network ∈ [Network.bep20, .polygon])
    {rendering : String} {address : EvmAddress} (ha : parseEvmAddress rendering = some address) :
    lib.account network rendering = some (.evm address) := by
  simp only [List.mem_cons, List.not_mem_nil, or_false] at h
  rcases h with rfl | rfl <;> exact congrArg (Option.map ChainAccount.evm) ha

theorem requireEvmChain_ok {network : Network} {chainId : U64}
    (h : requireEvmChain network chainId = .ok ()) : chainId ∈ chainIds network := by
  cases network with
  | bep20 => exact require_ok.mp h
  | polygon => exact require_ok.mp h
  | trc20 => cases h
  | ton => cases h

/-- A journal that has read a released brake. -/
structure ReadBrake (j : SignerJournal) (row : Option BrakeRow) (brake : SpendBrake) : Prop where
  read : ⟨.readBrake, .ok row⟩ ∈ j
  row : SpendBrake.ofRow row = .ok brake
  released : brake.halted = false

theorem signs_erc20 {r : SignErc20TransferRequest} {row : Option BrakeRow} {brake : SpendBrake}
    (hbrake : ReadBrake j row brake) (hrequest : request = .erc20 r) :
    Signs lib env request (fun response j' => SignedAs lib env j' request response)
      (signErc20Transfer lib (env.tightened brake) r) j := by
  subst hrequest
  refine wp_andThen (signs_passed fun network hnetwork => ?_)
  refine wp_andThen (signs_passed fun _ hchain => ?_)
  refine wp_andThen (signs_passed fun wallet hwallet => ?_)
  refine wp_andThen (signs_field fun token htoken => ?_)
  refine wp_andThen (signs_field fun recipient hrecipient => ?_)
  refine wp_andThen (signs_field fun amount hamount => ?_)
  refine wp_andThen (signs_field fun gasPrice hgasPrice => ?_)
  refine wp_andThen (signs_passed fun _ hfees => ?_)
  obtain ⟨hrail, hname⟩ := requireRail_ok hnetwork
  refine signs_then signs_guardTokenTransfer ?_
  rintro _ j₁ ⟨hsub₁, hrule⟩
  have hrule := hrule (.evm token) _ (ChainLib.account_evm hrail hrecipient) fun rendering h => by
    cases h
    exact ChainLib.account_evm hrail htoken
  refine wp_andThen (signs_quiet (chargeTreasuryUsdt_quiet _ _ _ _ _) fun charged j₂ hsub₂ => ?_)
  refine wp_andThen (signs_passed fun spend _ => ?_)
  refine wp_andThen (signs_quiet (charge_quiet _ _ _ _) fun charged j₃ hsub₃ => ?_)
  have hsub : j ⊆ j₃ := fun _ h => hsub₃ (hsub₂ (hsub₁ h))
  refine signs_settled (signs_signTx (hsub hbrake.read) hbrake.row hbrake.released ?_)
  obtain ⟨-, hlimit, cap, hcap, hprice⟩ := FeeBudget.check_evm_ok hfees
  refine ⟨hwallet, hname, ⟨_, amount, ?_, hamount, hrule.mono fun _ h => hsub₃ (hsub₂ h)⟩,
    ⟨hlimit, cap, hcap, hprice⟩, ?_, nofun⟩
  · have hdata : erc20TransferCalldata recipient amount ≠ [] := by
      simp [erc20TransferCalldata, ERC20_TRANSFER_SELECTOR]
    rw [ChainTx.movement, if_neg hdata, if_pos rfl, decodeTransfer_calldata]
    rfl
  · rintro legacy ⟨⟩
    exact requireEvmChain_ok hchain

theorem signs_native {r : SignNativeTransferRequest} {row : Option BrakeRow} {brake : SpendBrake}
    (hbrake : ReadBrake j row brake) (hrequest : request = .native r) :
    Signs lib env request (fun response j' => SignedAs lib env j' request response)
      (signNativeTransfer lib (env.tightened brake) r) j := by
  subst hrequest
  refine wp_andThen (signs_passed fun network hnetwork => ?_)
  refine wp_andThen (signs_passed fun _ hchain => ?_)
  refine wp_andThen (signs_passed fun wallet hwallet => ?_)
  refine wp_andThen (signs_field fun recipient hrecipient => ?_)
  refine wp_andThen (signs_field fun amount hamount => ?_)
  refine wp_andThen (signs_field fun gasPrice hgasPrice => ?_)
  refine wp_andThen (signs_passed fun _ hfees => ?_)
  obtain ⟨hrail, hname⟩ := requireRail_ok hnetwork
  refine signs_then signs_guardNativeTransfer ?_
  rintro _ j₁ ⟨hsub₁, hrule⟩
  have hrule := hrule _ (ChainLib.account_evm hrail hrecipient)
  refine wp_andThen (signs_passed fun spend _ => ?_)
  refine wp_andThen (signs_quiet (charge_quiet _ _ _ _) fun charged j₂ hsub₂ => ?_)
  have hsub : j ⊆ j₂ := fun _ h => hsub₂ (hsub₁ h)
  refine signs_settled (signs_signTx (hsub hbrake.read) hbrake.row hbrake.released ?_)
  obtain ⟨-, hlimit, cap, hcap, hprice⟩ := FeeBudget.check_evm_ok hfees
  refine ⟨hwallet, hname, ⟨_, amount, ?_, hamount, hrule.mono hsub₂⟩,
    ⟨hlimit, cap, hcap, hprice⟩, ?_, nofun⟩
  · rw [ChainTx.movement, if_pos rfl]
  · rintro legacy ⟨⟩
    exact requireEvmChain_ok hchain

/-- The account a Tron address names on its rail. -/
theorem ChainLib.account_tron {rendering : String} {address : TronAddress}
    (ha : lib.parseTron rendering = some address) :
    lib.account .trc20 rendering = some (.tron address) :=
  congrArg (Option.map ChainAccount.tron) ha

theorem requireTron_ok {raw : String} {network : Network} (h : requireTron raw = .ok network) :
    network = .trc20 ∧ network.asStr = raw := by
  obtain ⟨hmem, hname⟩ := requireRail_ok h
  exact ⟨List.mem_singleton.mp hmem, hname⟩

theorem requireTon_ok {raw : String} {network : Network} (h : requireTon raw = .ok network) :
    network = .ton ∧ network.asStr = raw := by
  obtain ⟨hmem, hname⟩ := requireRail_ok h
  exact ⟨List.mem_singleton.mp hmem, hname⟩

theorem parseTronRef_quiet (refBlockBytes refBlockHash : String) (expiration timestamp : I64) :
    (parseTronRef refBlockBytes refBlockHash expiration timestamp).Within SignerOp.Quiet :=
  (passed_quiet _).bind fun _ => (passed_quiet _).bind fun _ => trivial

theorem ownerAddress_quiet (handle : KeyHandle) :
    (ownerAddress lib handle).Within SignerOp.Quiet :=
  (askSigner_within trivial).bind fun _ => passed_quiet _

theorem signs_trc20 {r : SignTrc20TransferRequest} {row : Option BrakeRow} {brake : SpendBrake}
    (hbrake : ReadBrake j row brake) (hrequest : request = .trc20 r) :
    Signs lib env request (fun response j' => SignedAs lib env j' request response)
      (signTrc20Transfer lib (env.tightened brake) r) j := by
  subst hrequest
  refine wp_andThen (signs_passed fun _ _ => ?_)
  refine wp_andThen (signs_passed fun network hnetwork => ?_)
  refine wp_andThen (signs_passed fun wallet hwallet => ?_)
  refine wp_andThen (signs_field fun token htoken => ?_)
  refine wp_andThen (signs_field fun recipient hrecipient => ?_)
  refine wp_andThen (signs_field fun amount hamount => ?_)
  refine wp_andThen (signs_quiet (parseTronRef_quiet _ _ _ _) fun ref j₁ hsub₁ => ?_)
  refine wp_andThen (signs_passed fun _ hfees => ?_)
  obtain ⟨rfl, hname⟩ := requireTron_ok hnetwork
  refine signs_then signs_guardTokenTransfer ?_
  rintro _ j₂ ⟨hsub₂, hrule⟩
  have hrule := hrule (.tron token) _ (ChainLib.account_tron hrecipient) fun rendering h => by
    cases h
    exact ChainLib.account_tron htoken
  refine wp_andThen (signs_quiet (chargeTreasuryUsdt_quiet _ _ _ _ _) fun charged j₃ hsub₃ => ?_)
  refine wp_andThen (signs_quiet (charge_quiet _ _ _ _) fun charged j₄ hsub₄ => signs_settled ?_)
  refine wp_andThen (signs_quiet (ownerAddress_quiet _) fun owner j₅ hsub₅ => ?_)
  have hafter : j₂ ⊆ j₅ := fun _ h => hsub₅ (hsub₄ (hsub₃ h))
  have hsub : j ⊆ j₅ := fun _ h => hafter (hsub₂ (hsub₁ h))
  refine signs_signTx (hsub hbrake.read) hbrake.row hbrake.released ?_
  refine ⟨hwallet, hname, ⟨_, amount, ?_, hamount, hrule.mono hafter⟩,
    FeeBudget.check_tron_ok hfees, nofun, nofun⟩
  simp only [ChainTx.movement, buildUnsignedTrc20, and_self, if_true, decodeTransfer_calldata]
  rfl

/-- A 128-bit amount as a TRX one. -/
theorem U128.toI64_val {n : U128} {m : I64} (h : n.toI64 = some m) : m.val.toNat = n.val := by
  unfold U128.toI64 at h
  split_ifs at h with hlt
  cases h
  exact Int.toNat_natCast n.val

theorem signs_trx {r : SignTrxTransferRequest} {row : Option BrakeRow} {brake : SpendBrake}
    (hbrake : ReadBrake j row brake) (hrequest : request = .trx r) :
    Signs lib env request (fun response j' => SignedAs lib env j' request response)
      (signTrxTransfer lib (env.tightened brake) r) j := by
  subst hrequest
  refine wp_andThen (signs_passed fun _ _ => ?_)
  refine wp_andThen (signs_passed fun network hnetwork => ?_)
  refine wp_andThen (signs_passed fun wallet hwallet => ?_)
  refine wp_andThen (signs_field fun recipient hrecipient => ?_)
  refine wp_andThen (signs_field fun amount hamount => ?_)
  refine wp_andThen (signs_quiet (parseTronRef_quiet _ _ _ _) fun ref j₁ hsub₁ => ?_)
  obtain ⟨rfl, hname⟩ := requireTron_ok hnetwork
  refine signs_then signs_guardNativeTransfer ?_
  rintro _ j₂ ⟨hsub₂, hrule⟩
  have hrule := hrule _ (ChainLib.account_tron hrecipient)
  refine wp_andThen (signs_quiet (charge_quiet _ _ _ _) fun charged j₃ hsub₃ => signs_settled ?_)
  refine wp_andThen (signs_quiet (ownerAddress_quiet _) fun owner j₄ hsub₄ => ?_)
  refine wp_andThen (signs_passed fun raw hraw => ?_)
  obtain ⟨sun, hsun, rfl⟩ := Option.map_eq_some_iff.mp (orElse_ok.mp hraw)
  have hafter : j₂ ⊆ j₄ := fun _ h => hsub₄ (hsub₃ h)
  have hsub : j ⊆ j₄ := fun _ h => hafter (hsub₂ (hsub₁ h))
  refine signs_signTx (hsub hbrake.read) hbrake.row hbrake.released ?_
  refine ⟨hwallet, hname, ⟨_, amount, ?_, hamount, hrule.mono hafter⟩, rfl, nofun, nofun⟩
  rw [ChainTx.movement]
  exact congrArg (fun n => some (Movement.native (.tron recipient) n)) (U128.toI64_val hsun)

/-- The account a TON field names. -/
theorem ChainLib.account_ton {name rendering : String} {address : TonAddress}
    (h : lib.tonField name rendering = .ok address) :
    lib.parseTon rendering = some address ∧ lib.account .ton rendering = some (.ton address) := by
  have hparse : lib.parseTon rendering = some address := by
    unfold ChainLib.tonField at h
    unfold ChainLib.parseTon
    cases hr : lib.parseTonAddress rendering with
    | error e => rw [hr] at h; cases h
    | ok a => rw [hr] at h; exact congrArg some (Except.ok.inj h)
  exact ⟨hparse, congrArg (Option.map ChainAccount.ton) hparse⟩

/-- The message of a jetton transfer, as it is built. -/
theorem buildUnsignedJetton_ok {publicKey : List UInt8} {t : JettonTransferTx}
    {message : TonExternal} (h : buildUnsignedJetton lib publicKey t = .ok message) :
    ∃ ours owner response, lib.account .ton t.ourJettonWallet = some (.ton ours) ∧
      lib.account .ton t.toOwner = some (.ton owner) ∧
      lib.account .ton t.responseDestination = some (.ton response) ∧
      message = ⟨publicKey, ⟨ours, t.msgValue.toU128, true,
        some ⟨0, t.amount, owner, response, t.forwardTonAmount⟩⟩, t.seqno, t.validUntil⟩ := by
  obtain ⟨ours, hours, h⟩ := bind_ok_iff.mp h
  obtain ⟨owner, howner, h⟩ := bind_ok_iff.mp h
  obtain ⟨response, hresponse, h⟩ := bind_ok_iff.mp h
  exact ⟨ours, owner, response, (ChainLib.account_ton hours).2, (ChainLib.account_ton howner).2,
    (ChainLib.account_ton hresponse).2, (Except.ok.inj h).symm⟩

theorem signs_tonPublicKey {handle : KeyHandle} :
    Signs lib env request (fun publicKey j' => j ⊆ j' ∧ ⟨.publicKey handle, .ok publicKey⟩ ∈ j')
      (tonPublicKey handle) j :=
  wp_andThen (signs_ask trivial fun _ => wp_andThen (signs_passed fun _ _ =>
    ⟨List.subset_cons_self _ _, List.mem_cons_self⟩))

theorem signs_jetton {r : SignJettonTransferRequest} {row : Option BrakeRow} {brake : SpendBrake}
    (hbrake : ReadBrake j row brake) (hrequest : request = .jetton r) :
    Signs lib env request (fun response j' => SignedAs lib env j' request response)
      (signJettonTransfer lib (env.tightened brake) r) j := by
  subst hrequest
  refine wp_andThen (signs_passed fun network hnetwork => ?_)
  refine wp_andThen (signs_passed fun wallet hwallet => ?_)
  refine wp_andThen (signs_field fun amount hamount => ?_)
  refine wp_andThen (signs_passed fun _ hfees => ?_)
  obtain ⟨rfl, hname⟩ := requireTon_ok hnetwork
  refine signs_then signs_guardTokenTransfer ?_
  rintro _ j₁ ⟨hsub₁, hrule⟩
  refine signs_then signs_guardJettonWallet ?_
  rintro _ j₂ ⟨hsub₂, hpinned⟩
  refine signs_then signs_tonPublicKey ?_
  rintro publicKey j₃ ⟨hsub₃, hkey⟩
  refine signs_then (signs_guardResponseDestination hkey) ?_
  rintro _ j₄ ⟨hsub₄, hreturns⟩
  refine wp_andThen (signs_quiet (chargeTreasuryUsdt_quiet _ _ _ _ _) fun charged j₅ hsub₅ => ?_)
  refine wp_andThen (signs_quiet (charge_quiet _ _ _ _) fun charged j₆ hsub₆ => signs_settled ?_)
  refine wp_andThen (signs_passed fun message hmessage => ?_)
  obtain ⟨ours, owner, response, hours, howner, hresponse, rfl⟩ := buildUnsignedJetton_ok hmessage
  have h₄₆ : j₄ ⊆ j₆ := fun _ h => hsub₆ (hsub₅ h)
  have h₂₆ : j₂ ⊆ j₆ := fun _ h => h₄₆ (hsub₄ (hsub₃ h))
  have h₁₆ : j₁ ⊆ j₆ := fun _ h => h₂₆ (hsub₂ h)
  have hsub : j ⊆ j₆ := fun _ h => h₁₆ (hsub₁ h)
  refine signs_signTx (hsub hbrake.read) hbrake.row hbrake.released ?_
  obtain ⟨hvalue, hforward, hle⟩ := FeeBudget.check_ton_ok hfees
  have hmoved := (hrule (.ton ours) _ howner nofun).mono h₁₆
  refine ⟨hwallet, hname, ⟨_, amount, rfl, hamount, hmoved⟩,
    ⟨Fin.le_def.mp hvalue, hforward, Fin.le_def.mp hle⟩, nofun, ?_⟩
  rintro message body ⟨⟩ ⟨⟩
  exact ⟨r, rfl, hours, hpinned.mono h₂₆, hresponse, hreturns.mono h₄₆⟩

theorem signs_ton {r : SignTonTransferRequest} {row : Option BrakeRow} {brake : SpendBrake}
    (hbrake : ReadBrake j row brake) (hrequest : request = .ton r) :
    Signs lib env request (fun response j' => SignedAs lib env j' request response)
      (signTonTransfer lib (env.tightened brake) r) j := by
  subst hrequest
  refine wp_andThen (signs_passed fun network hnetwork => ?_)
  refine wp_andThen (signs_passed fun wallet hwallet => ?_)
  refine wp_andThen (signs_field fun amount hamount => ?_)
  obtain ⟨rfl, hname⟩ := requireTon_ok hnetwork
  refine signs_then signs_guardNativeTransfer ?_
  rintro _ j₁ ⟨hsub₁, hrule⟩
  refine wp_andThen (signs_quiet (charge_quiet _ _ _ _) fun charged j₂ hsub₂ => signs_settled ?_)
  refine signs_then signs_tonPublicKey ?_
  rintro publicKey j₃ ⟨hsub₃, -⟩
  refine wp_andThen (signs_passed fun message hmessage => ?_)
  obtain ⟨recipient, hrecipient, hmessage⟩ := bind_ok_iff.mp hmessage
  cases hmessage
  have hafter : j₁ ⊆ j₃ := fun _ h => hsub₃ (hsub₂ h)
  have hsub : j ⊆ j₃ := fun _ h => hafter (hsub₁ h)
  refine signs_signTx (hsub hbrake.read) hbrake.row hbrake.released ?_
  have hmoved := (hrule _ (ChainLib.account_ton hrecipient).2).mono hafter
  refine ⟨hwallet, hname, ⟨_, amount, rfl, hamount, hmoved⟩, trivial, nofun, ?_⟩
  rintro message body ⟨⟩ ⟨⟩

/-- **Every request keeps the protocol**, and a response it signs is of a checked transaction. -/
theorem signs_sign :
    Signs lib env request (fun response j' => SignedAs lib env j' request response)
      (sign lib env request) [] := by
  refine wp_andThen (wp_andThen (signs_ask trivial fun row => wp_andThen
    (signs_passed fun brake hrow => wp_andThen (signs_passed fun _ hreleased => ?_))))
  have hbrake : ReadBrake [⟨.readBrake, .ok row⟩] row brake :=
    ⟨List.mem_cons_self, hrow, require_ok.mp hreleased⟩
  cases request with
  | erc20 r => exact signs_erc20 hbrake rfl
  | native r => exact signs_native hbrake rfl
  | trc20 r => exact signs_trc20 hbrake rfl
  | trx r => exact signs_trx hbrake rfl
  | jetton r => exact signs_jetton hbrake rfl
  | ton r => exact signs_ton hbrake rfl

end Handlers

/-! ## What a tightened policy accepts -/

section Accepted

variable {lib : ChainLib} {env : SignerPolicy} {brake : SpendBrake}

/-- One program accepts, on the same answers, what the other does. -/
abbrev Vetted {α : Type} (p p' : SignerProg α) : Prop :=
  Accepts (fun op j a j' => j' = ⟨op, a⟩ :: j) (fun j j' : SignerJournal => j' = j) p p'

theorem vetted_andThen {α β : Type} {p p' : SignerProg α} {f f' : α → SignerProg β}
    (hp : Vetted p p') (hf : ∀ a, Vetted (f a) (f' a)) : Vetted (p >>= f) (p' >>= f') :=
  Accepts.bind hp hf

theorem vetted_passed {r r' : Verdict} (h : r = .ok () → r' = .ok ()) :
    Vetted (passed r) (passed r') := by
  intro w a w' hrun
  cases r with
  | ok a => rw [h rfl]; exact hrun
  | error status => cases hrun

/-- What is given back ends in the failure. -/
theorem orRelease_fails {α : Type} (charged : List Nat) (status : SignerStatus)
    (j : SignerJournal) (a : α) (j' : SignerJournal) :
    ¬ Exec (fun op j a j' => j' = ⟨op, a⟩ :: j) (fun j j' : SignerJournal => j' = j)
      (orRelease charged (.error status)) j (.ok a) j' := by
  intro h
  obtain ⟨_, _, -, hexit⟩ := Exec.of_bind h
  cases hexit

theorem vetted_charge {charged : List Nat} {key : WindowKey} {spend : U128} :
    Vetted (charge (env.tightened brake) charged key spend) (charge env charged key spend) := by
  refine Accepts.outcome ?_ fun status j row j' h => ?_
  · refine vetted_andThen (.refl _) fun window => vetted_andThen (vetted_passed fun h => ?_)
      fun _ => .refl _
    have hle := env.tightened_windowCeiling_le brake key
    exact SignerPolicy.checkWindow_ok.mpr ((SignerPolicy.checkWindow_ok.mp h).trans hle)
  · obtain ⟨row, j₁, hrelease, -⟩ := Exec.of_bind h
    exact orRelease_fails charged status j row j₁ hrelease

theorem vetted_chargeTreasuryUsdt {charged : List Nat} {walletClass : WalletClass}
    {network : Network} {amount : U128} :
    Vetted (chargeTreasuryUsdt (env.tightened brake) charged walletClass network amount)
      (chargeTreasuryUsdt env charged walletClass network amount) := by
  cases walletClass with
  | treasury => exact vetted_charge
  | gasStation => exact .refl _
  | deposit => exact .refl _

/-- A treasury transfer under the tightened cap is under the environment's. -/
theorem SignerPolicy.checkTreasuryTransfer_untightened {network : Network} {token : Option String}
    {toAddress : String} {amount : U128}
    (h : (env.tightened brake).checkTreasuryTransfer lib.parseTon network token toAddress amount =
      .ok ()) : env.checkTreasuryTransfer lib.parseTon network token toAddress amount = .ok () := by
  have hle := (SignerPolicy.checkTreasuryTransfer_ok h).2.1
  obtain ⟨⟨⟩, hpin, h⟩ := bind_ok_iff.mp h
  obtain ⟨_, -, h⟩ := bind_ok_iff.mp h
  obtain ⟨⟨⟩, -, h⟩ := bind_ok_iff.mp h
  obtain ⟨cap, hcap, hval⟩ := usdtCapOnchain_ok network env.maxTransferUsdt
  refine bind_ok_iff.mpr ⟨(), hpin, bind_ok_iff.mpr ⟨cap, hcap, bind_ok_iff.mpr ⟨(), ?_, h⟩⟩⟩
  refine require_ok.mpr (Fin.le_def.mpr (hval ▸ hle.trans (Nat.mul_le_mul_right _ ?_)))
  exact Fin.le_def.mp (env.tightened_maxTransferUsdt_le brake)

theorem vetted_guardTokenTransfer {walletClass : WalletClass} {network : Network}
    {token : Option String} {toAddress : String} {amount : U128} :
    Vetted
      (guardTokenTransfer lib (env.tightened brake) walletClass network token toAddress amount)
      (guardTokenTransfer lib env walletClass network token toAddress amount) := by
  cases walletClass with
  | treasury => exact vetted_passed SignerPolicy.checkTreasuryTransfer_untightened
  | gasStation => exact .refl _
  | deposit => exact .refl _

/-- **Every request a tightened policy accepts, the environment's does**, on the same answers. -/
theorem vetted_signUnder (request : SigningRequest) :
    Vetted (signUnder lib (env.tightened brake) request) (signUnder lib env request) := by
  cases request with
  | erc20 r =>
    refine vetted_andThen (.refl _) fun network => vetted_andThen (.refl _) fun _ => ?_
    refine vetted_andThen (.refl _) fun wallet => vetted_andThen (.refl _) fun token => ?_
    refine vetted_andThen (.refl _) fun recipient => vetted_andThen (.refl _) fun amount => ?_
    refine vetted_andThen (.refl _) fun gasPrice => vetted_andThen (.refl _) fun _ => ?_
    refine vetted_andThen vetted_guardTokenTransfer fun _ => ?_
    refine vetted_andThen vetted_chargeTreasuryUsdt fun charged => ?_
    exact vetted_andThen (.refl _) fun spend => vetted_andThen vetted_charge fun charged => .refl _
  | native r =>
    refine vetted_andThen (.refl _) fun network => vetted_andThen (.refl _) fun _ => ?_
    refine vetted_andThen (.refl _) fun wallet => vetted_andThen (.refl _) fun recipient => ?_
    refine vetted_andThen (.refl _) fun amount => vetted_andThen (.refl _) fun gasPrice => ?_
    refine vetted_andThen (.refl _) fun _ => vetted_andThen (.refl _) fun _ => ?_
    exact vetted_andThen (.refl _) fun spend => vetted_andThen vetted_charge fun charged => .refl _
  | trc20 r =>
    refine vetted_andThen (.refl _) fun _ => vetted_andThen (.refl _) fun network => ?_
    refine vetted_andThen (.refl _) fun wallet => vetted_andThen (.refl _) fun token => ?_
    refine vetted_andThen (.refl _) fun recipient => vetted_andThen (.refl _) fun amount => ?_
    refine vetted_andThen (.refl _) fun ref => vetted_andThen (.refl _) fun _ => ?_
    refine vetted_andThen vetted_guardTokenTransfer fun _ => ?_
    refine vetted_andThen vetted_chargeTreasuryUsdt fun charged => ?_
    exact vetted_andThen vetted_charge fun charged => .refl _
  | trx r =>
    refine vetted_andThen (.refl _) fun _ => vetted_andThen (.refl _) fun network => ?_
    refine vetted_andThen (.refl _) fun wallet => vetted_andThen (.refl _) fun recipient => ?_
    refine vetted_andThen (.refl _) fun amount => vetted_andThen (.refl _) fun ref => ?_
    exact vetted_andThen (.refl _) fun _ => vetted_andThen vetted_charge fun charged => .refl _
  | jetton r =>
    refine vetted_andThen (.refl _) fun network => vetted_andThen (.refl _) fun wallet => ?_
    refine vetted_andThen (.refl _) fun amount => vetted_andThen (.refl _) fun _ => ?_
    refine vetted_andThen vetted_guardTokenTransfer fun _ => ?_
    refine vetted_andThen (.refl _) fun _ => vetted_andThen (.refl _) fun publicKey => ?_
    refine vetted_andThen (.refl _) fun _ => ?_
    refine vetted_andThen vetted_chargeTreasuryUsdt fun charged => ?_
    exact vetted_andThen vetted_charge fun charged => .refl _
  | ton r =>
    refine vetted_andThen (.refl _) fun network => vetted_andThen (.refl _) fun wallet => ?_
    refine vetted_andThen (.refl _) fun amount => vetted_andThen (.refl _) fun _ => ?_
    exact vetted_andThen vetted_charge fun charged => .refl _

end Accepted

/-! ## The signer signs only what its policy checked -/

/-- **A signature is only of what the policy checked.** However a request of any kind is answered by
the stores, the ledger and the key backend: whenever a key is asked to sign a digest the brake was
read released and the digest is of a transaction that keeps the rule of its sender's class, its fee
budget and, for a jetton, its pins, under the policy the brake tightened and so under the
environment's; a response is such a transaction with a signature over its digest; and what any
tightened policy accepts the environment's accepts on the same answers. -/
theorem signature_only_as_checked (lib : ChainLib) (env : SignerPolicy)
    (request : SigningRequest) :
    (∀ r j, (sign lib env request).Ran r j →
      (∀ handle curve digest reply, ⟨.sign handle curve digest, reply⟩ ∈ j →
        Signable lib env j request handle digest) ∧
      ∀ response, r = .ok response → SignedAs lib env j request response) ∧
    (∀ brake j tx handle, Approved lib (env.tightened brake) j request handle tx →
      Approved lib env j request handle tx) ∧
    ∀ brake response j, (signUnder lib (env.tightened brake) request).Ran (.ok response) j →
      (signUnder lib env request).Ran (.ok response) j := by
  refine ⟨fun r j hran => ?_, fun _ _ _ _ h => h.untightened,
    fun brake response j hran => vetted_signUnder request _ _ _ hran⟩
  obtain ⟨hkeeps, hends⟩ := hran.keeps signs_sign
  refine ⟨fun handle curve digest reply hmem => ?_, ?_⟩
  · obtain ⟨later, earlier, rfl, hallowed, -⟩ := hkeeps.of_mem hmem
    obtain ⟨row, brake, tx, hread, hrow, hreleased, hdigest, happroved⟩ :=
      hallowed handle curve digest rfl
    have hsub : earlier ⊆ later ++ ⟨.sign handle curve digest, reply⟩ :: earlier := fun _ h =>
      List.mem_append_right _ (List.mem_cons_of_mem _ h)
    exact ⟨row, brake, tx, hsub hread, hrow, hreleased, hdigest, happroved.mono hsub⟩
  · rintro response rfl
    exact hends

end Banking
