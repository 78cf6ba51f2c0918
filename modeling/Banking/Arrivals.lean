import Banking.TxRef

/-! # Arrivals from the chains

How an on-chain transfer becomes a deposit: found by a rail's watcher, recorded by hand under a
reference the rail verifies, or seeded into the fund for a depositor. All three write the `deposits`
row keyed by the reference. What the rails answer is the environment's; a deposit keeps the transfer
it was recorded for, so that one can ask whether a transfer was ever credited twice. -/

namespace Banking

/-! ## The chains -/

/-- A transfer on a chain: on an EVM rail the hash in lower case and the log's index, on TON the
transaction and the address that received it, on Tron the transaction and the recipient. -/
inductive ChainTransfer
  | evm (network : Network) (hash : String) (index : Nat)
  | ton (transaction : Nat) (owner : String)
  | tron (txid recipient : String)
deriving DecidableEq, Repr

/-- What a verified reference says of its transfer. -/
structure InboundTransfer where
  source : String
  target : String
  amount : Nat
deriving DecidableEq, Repr

/-- The recipient part of a TON reference. -/
inductive TonRecipient
  | piggybank
  | user (user : UserId)
deriving DecidableEq, Repr

/-- The recipient as the watcher writes it. -/
def TonRecipient.text : TonRecipient → String
  | .piggybank => "piggybank"
  | .user u => u.text

/-- What does not change while the hub runs: how a uuid is read, which transaction the TON indexer
answers a hash with, how it spells a transaction's hash in its feeds, and whom a TON address was
ever provisioned for. -/
structure Rails where
  uuid : String → Option UserId
  transactionOf : String → Option Nat
  feedHash : Nat → String
  holder : String → Option TonRecipient
  /-- The spelling of a feed is one the indexer accepts, for that transaction. -/
  feedHash_names : ∀ t, transactionOf (feedHash t) = some t

/-- A log of a mined EVM transaction; `transfer` is what it moved if it is a `Transfer` of the
rail's USDT contract. -/
structure EvmLog where
  logIndex : Nat
  transfer : Option InboundTransfer
deriving DecidableEq, Repr

/-- A mined EVM transaction. -/
structure EvmReceipt where
  success : Bool
  blockNumber : Nat
  logs : List EvmLog
deriving DecidableEq, Repr

/-- One entry of an owner's incoming USDT feed on TON. -/
structure JettonTransfer where
  txHash : String
  source : Option String
  amount : Nat
deriving DecidableEq, Repr

/-- A rail's own wallets. -/
structure TreasuryFunding where
  address : String
  gasStationAddress : Option String
deriving DecidableEq, Repr

/-- What the chains and the address book answer at one moment. -/
structure ChainView (R : Rails) where
  receipt : Network → String → Except String (Option EvmReceipt)
  blockNumber : Network → Except String Nat
  confirmations : Network → Nat
  transactionUtime : String → Except String (Option Nat)
  incoming : String → Nat → Except String (List JettonTransfer)
  tonAddress : TonRecipient → Except String (Option String)
  ownerOf : Network → String → Option UserId
  treasuryFunding : Network → Except String (Option TreasuryFunding)
  /-- A feed spells every hash its own way. -/
  incoming_hash : ∀ owner utime page, incoming owner utime = .ok page → ∀ e ∈ page,
    ∃ t, e.txHash = R.feedHash t
  /-- An address is provisioned for one recipient. -/
  tonAddress_holder : ∀ r a, tonAddress r = .ok (some a) → R.holder a = some r

section Verify

variable {R : Rails} (v : ChainView R)

/-- The transfer an EVM reference names: mined, not reverted, under the rail's confirmations, and a
USDT transfer. -/
def evmInbound (network : Network) (ref : TxRef) :
    Except String (Option (ChainTransfer × InboundTransfer)) := do
  let some (hash, index) := splitEvmTxRef ref.text | return none
  let some receipt ← v.receipt network hash | return none
  if ¬ receipt.success then return none
  let head ← v.blockNumber network
  if head - receipt.blockNumber < v.confirmations network then return none
  let some log := receipt.logs.find? (·.logIndex = index) | return none
  return log.transfer.map fun transfer => (.evm network hash index, transfer)

/-- The wallet the recipient part of a TON reference stands for. -/
def recipientAddress (recipient : String) : Except String (Option String) :=
  if recipient = TonRecipient.piggybank.text then v.tonAddress .piggybank
  else
    match R.uuid recipient with
    | none => .ok none
    | some user => v.tonAddress (.user user)

/-- The transfer a TON reference names: the recipient's incoming feed has an entry of that very
hash. -/
def tonInbound (ref : TxRef) : Except String (Option (ChainTransfer × InboundTransfer)) := do
  let some (hash, recipient) := Text.rsplitOnce ':' ref.text.toList | return none
  let hash := String.ofList hash
  let some owner ← recipientAddress v (String.ofList recipient) | return none
  let some utime ← v.transactionUtime hash | return none
  let page ← v.incoming owner utime
  let some entry := page.find? (·.txHash = hash) | return none
  let some source := entry.source | return none
  return (R.transactionOf hash).map fun t => (.ton t owner, ⟨source, owner, entry.amount⟩)

/-- One inbound transfer read back off its chain; Tron has no such view. -/
def inboundTransfer (network : Network) (ref : TxRef) :
    Except String (Option (ChainTransfer × InboundTransfer)) :=
  match network with
  | .bep20 | .polygon => evmInbound v network ref
  | .ton => tonInbound v ref
  | .trc20 => .ok none

/-- Whose money a confirmed transfer is. -/
inductive Arrival
  | user (user : UserId)
  | treasury
deriving DecidableEq, Repr

/-- Two addresses but for the case of their letters. -/
def eqIgnoreAsciiCase (a b : String) : Bool :=
  a.toList.map Char.toLower = b.toList.map Char.toLower

/-- Attribute a transfer by its recipient; refuse what is not ours to credit. -/
def attributeArrival (network : Network) (transfer : InboundTransfer) : Except DomainError Arrival :=
  match v.ownerOf network transfer.target with
  | some user => .ok (.user user)
  | none =>
    match v.treasuryFunding network with
    | .error e => .error (.repository ("treasury address unavailable: " ++ e))
    | .ok funding =>
      if ¬ funding.any (eqIgnoreAsciiCase ·.address transfer.target) then
        .error (.validation (transfer.target ++ " received this transfer and it is not one of our " ++
          network.asStr ++ " addresses"))
      else if (v.ownerOf network transfer.source).isSome ||
          (funding.bind (·.gasStationAddress)).any (eqIgnoreAsciiCase · transfer.source) ||
          funding.any (eqIgnoreAsciiCase ·.address transfer.source) then
        .error (.validation
          "this transfer is the sweep consolidating funds already on the ledger, not new capital")
      else .ok .treasury

/-- An amount in whole units, its fraction without trailing zeros. -/
def toDecimalString (amount : Nat) : String :=
  let frac := amount % 10 ^ 18
  let digits := Nat.toDigits 10 frac
  if frac = 0 then toString (amount / 10 ^ 18)
  else
    toString (amount / 10 ^ 18) ++ "." ++ String.ofList
      ((List.replicate (18 - digits.length) '0' ++ digits).reverse.dropWhile (· = '0')).reverse

/-- The chain's account of a reference: the transfer it names and whose money it is. -/
def verifyArrival (network : Network) (ref : TxRef) (expected : Option Nat) :
    Except DomainError (Arrival × ChainTransfer × InboundTransfer) :=
  match inboundTransfer v network ref with
  | .error e => .error (.repository ("chain lookup failed: " ++ e))
  | .ok none =>
    .error (.validation ("no confirmed " ++ network.asStr ++ " USDT transfer matches " ++ ref.text ++
      " — check the reference, the rail, and that it has enough confirmations"))
  | .ok (some (on, transfer)) =>
    match expected with
    | some amount =>
      if amount ≠ transfer.amount then
        .error (.validation ("the chain reports " ++ toDecimalString transfer.amount ++
          " USDT for this reference, not " ++ toDecimalString amount))
      else (attributeArrival v network transfer).map fun arrival => (arrival, on, transfer)
    | none => (attributeArrival v network transfer).map fun arrival => (arrival, on, transfer)

end Verify

/-! ## What is recorded -/

/-- A row of `deposits`, and the transfer it was recorded for. -/
structure Deposit where
  txRef : String
  user : UserId
  network : Network
  amount : Nat
  arrival : ChainTransfer
deriving DecidableEq, Repr

/-- A subscription of seeded capital, and the transfer it mints against. -/
structure SeedSubscription where
  id : Uuid
  user : UserId
  cash : Nat
  arrival : ChainTransfer
deriving DecidableEq, Repr

/-- The recorded deposits and seed subscriptions, newest first. -/
structure ArrivalBooks where
  deposits : List Deposit
  subscriptions : List SeedSubscription
deriving DecidableEq, Repr

/-- The namespace the ids of arrivals are derived in. -/
def NAMESPACE_OID : Uuid := .raw 0x6ba7b8129dad11d180b400c04fd430c8

/-- The seed subscription's id, a function of the reference. -/
def seedSubscriptionId (ref : TxRef) : Uuid := .v5 NAMESPACE_OID ("seed:" ++ ref.text)

/-- Record a deposit unless its reference is recorded; the answer says whether it was new. -/
def ArrivalBooks.record (b : ArrivalBooks) (ref : TxRef) (user : UserId) (network : Network)
    (amount : Nat) (on : ChainTransfer) : Bool × ArrivalBooks :=
  if b.deposits.any (·.txRef = ref.text) then (false, b)
  else (true, { b with deposits := ⟨ref.text, user, network, amount, on⟩ :: b.deposits })

/-- Record an on-chain deposit of a positive amount. -/
def recordDeposit (b : ArrivalBooks) (ref : TxRef) (user : UserId) (network : Network)
    (amount : Nat) (on : ChainTransfer) : Except DomainError Bool × ArrivalBooks :=
  if amount = 0 then (.error (.validation "deposit amount must be positive"), b)
  else
    let (recorded, b') := b.record ref user network amount on
    (.ok recorded, b')

/-- A user's deposits, the newest 200. -/
def ArrivalBooks.listByUser (b : ArrivalBooks) (user : UserId) : List Deposit :=
  (b.deposits.filter (·.user = user)).take 200

/-- Record an out-of-band arrival, every material fact taken from the chain. -/
def recordVerifiedArrival {R : Rails} (v : ChainView R) (b : ArrivalBooks) (ref : TxRef)
    (network : Network) (expected : Option Nat) : Except DomainError Bool × ArrivalBooks :=
  match verifyArrival v network ref expected with
  | .error e => (.error e, b)
  | .ok (.treasury, _, transfer) =>
    (.error (.validation (transfer.target ++ " is the " ++ network.asStr ++ " treasury, so the " ++
      "chain cannot say whose deposit this is — attribute it to its sender with SeedCapital")), b)
  | .ok (.user user, on, transfer) => recordDeposit b ref user network transfer.amount on

/-- Open the subscription of a seed; its id admits one. -/
def ArrivalBooks.openSeed (b : ArrivalBooks) (s : SeedSubscription) :
    Except DomainError Bool × ArrivalBooks :=
  if b.subscriptions.any (·.id = s.id) then
    (.error (.repository "duplicate key value violates unique constraint"), b)
  else (.ok true, { b with subscriptions := s :: b.subscriptions })

/-- Seed the platform's capital: a treasury arrival booked as `depositor`'s deposit and subscribed
into the fund. `priced` is the fund's own refusal; `dies` is a process that dies between the deposit
and the subscription. -/
def seedFundCapital {R : Rails} (v : ChainView R) (b : ArrivalBooks) (depositor : UserId)
    (ref : TxRef) (network : Network) (expected : Option Nat) (priced : Except DomainError Unit)
    (dies : Bool) : Except DomainError Bool × ArrivalBooks :=
  match verifyArrival v network ref expected with
  | .error e => (.error e, b)
  | .ok (.user _, _, transfer) =>
    (.error (.validation (transfer.target ++ " is a user's deposit address, so this transfer is " ++
      "that user's deposit, not seed capital — record it with RecordDeposit")), b)
  | .ok (.treasury, on, transfer) =>
    match priced with
    | .error e => (.error e, b)
    | .ok () =>
      let id := seedSubscriptionId ref
      match recordDeposit b ref depositor network transfer.amount on with
      | (.error e, b') => (.error e, b')
      | (.ok recorded, b') =>
        if dies then (.error (.repository "the process died"), b')
        else if recorded then b'.openSeed ⟨id, depositor, transfer.amount, on⟩
        else if b'.subscriptions.any (·.id = id) then (.ok false, b')
        else if ¬ (b'.listByUser depositor).any (·.txRef = ref.text) then
          (.error (.conflict (ref.text ++ " was already recorded as another person's deposit — " ++
            "its fund subscription can only be opened for them")), b')
        else b'.openSeed ⟨id, depositor, transfer.amount, on⟩

end Banking
