import Banking.Arrivals
import Banking.Withdrawal
import Banking.Lib.Interactive
import Banking.Lib.Paging

/-! # The deposit scans of TON and Tron

The two rails whose indexers are asked address by address. A cycle reads the network's watermark and
the watched addresses, drains each address's feed of incoming transfers page by page from a lookback
below the watermark, records what it finds, and stores the newest time it saw. An owner whose feed
cannot be read, or whose full page makes no progress, is skipped for the cycle. -/

namespace Banking

open Interactive

/-! ## Transfers -/

/-- Why a cycle stops. -/
inductive WatcherError
  | rpc (detail : String)
  | decode (error : DomainError)
  | credit (error : DomainError)
  | db (detail : String)
  | custody (detail : String)
deriving DecidableEq, Repr

/-- An on-chain amount in canonical units. -/
def fromOnchain (network : Network) (raw : Nat) : Except DomainError Nat :=
  if raw * network.scaleToCanonical < 2 ^ 128 then .ok (raw * network.scaleToCanonical)
  else .error (.validation "amount overflows canonical units")

/-- A row of the TON indexer's feed of jetton transfers; its fields may be missing or unreadable. -/
structure JettonRow where
  amount : Option Nat
  transactionHash : Option String
  transactionNow : Option Nat
  transactionAborted : Option Bool
  source : Option String
deriving DecidableEq, Repr

/-- One incoming jetton transfer. -/
structure JettonDeposit where
  txHash : String
  amount : Nat
  now : Nat
  source : Option String
deriving DecidableEq, Repr

/-- A row read; one of an aborted transaction, of no amount or malformed is dropped. -/
def decodeOneTransfer (row : JettonRow) : Option JettonDeposit :=
  if row.transactionAborted.getD false then none
  else
    match row.amount, row.transactionHash with
    | some amount, some txHash =>
      if amount = 0 then none
      else some ⟨txHash, amount, row.transactionNow.getD 0, row.source.map String.toLower⟩
    | _, _ => none

/-- A row of the Tron indexer's feed of TRC20 transfers. -/
structure Trc20Row where
  transactionId : Option String
  target : Option String
  source : Option String
  value : Option Nat
  blockTimestamp : Option Int
  tokenAddress : Option String
deriving DecidableEq, Repr

/-- One incoming TRC20 transfer. -/
structure Trc20Transfer where
  transactionId : String
  target : String
  source : String
  value : Nat
  blockTimestamp : Int
  token : String
deriving DecidableEq, Repr

/-- A row read. -/
def decodeTrc20Transfer (row : Trc20Row) : Option Trc20Transfer := do
  let value ← row.value
  return ⟨← row.transactionId, ← row.target, row.source.getD "", value, ← row.blockTimestamp,
    row.tokenAddress.getD ""⟩

/-- What a transfer to a user is recorded as, its reference and its amount; nothing for a transfer
that is no deposit. -/
abbrev CreditTerms (T : Type) : Type := UserId → T → Except WatcherError (Option (TxRef × Nat))

/-- A jetton transfer's. -/
def jettonTerms : CreditTerms JettonDeposit := fun user transfer => do
  let amount ← (fromOnchain .ton transfer.amount).mapError .decode
  if amount = 0 then return none
  let txRef ← (TxRef.parse (transfer.txHash ++ ":" ++ user.text)).mapError .decode
  return some (txRef, amount)

/-- A TRC20 transfer's; a token that is named and is another contract's is passed over. -/
def trc20Terms (usdtContract : String) : CreditTerms Trc20Transfer := fun _ transfer => do
  if transfer.token ≠ "" ∧ ¬ eqIgnoreAsciiCase transfer.token usdtContract then return none
  let amount ← (fromOnchain .trc20 transfer.value).mapError .decode
  if amount = 0 then return none
  let txRef ← (TxRef.parse (transfer.transactionId ++ ":" ++ transfer.target)).mapError .decode
  return some (txRef, amount)

/-! ## What a scan asks -/

/-- One page of a feed: the transfers that could be read, how many rows it had, and the newest time
of a row. -/
structure TransferPage (T : Type) where
  transfers : List T
  rawLen : Nat
  maxTime : Int
deriving DecidableEq, Repr

/-- What a scan asks of its database, the indexer, the custody adapter and the clock. -/
inductive ScanOp
  | storedCursor
  | insertCursor (init : Int)
  | setScanCursor (cursor : Int)
  | watchedAddresses
  | treasuryAddresses
  | incoming (owner : String) (since : Int) (limit : Nat)
  | record (txRef : TxRef) (user : UserId) (network : Network) (amount : Nat)
  | reportTreasuryArrival (txHash : String)
  | nowUnixSecs
  | headTimestamp
deriving DecidableEq, Repr

/-- What each is answered with. -/
abbrev ScanOp.Reply (T : Type) : ScanOp → Type
  | .storedCursor => Option Int
  | .insertCursor _ | .setScanCursor _ | .reportTreasuryArrival _ => Unit
  | .watchedAddresses => List (String × UserId)
  | .treasuryAddresses => Option (String × Option String)
  | .incoming _ _ _ => TransferPage T
  | .record _ _ _ _ => Bool
  | .nowUnixSecs => Nat
  | .headTimestamp => Int

/-- Any of them may fail. -/
abbrev ScanOp.Ans (T : Type) (op : ScanOp) : Type := Except WatcherError (op.Reply T)

/-- A program of a rail whose transfers are `T`. -/
abbrev ScanProg (T α : Type) : Type := Prog ScanOp (ScanOp.Ans T) WatcherError α

/-! ## Draining a feed -/

section Drain

variable {T O : Type}

/-- An operation with its failure passed on. -/
def askScan (op : ScanOp) : ScanProg T (op.Reply T) :=
  .call op fun answer => match answer with
    | .ok reply => .ret reply
    | .error e => .exit e

/-- A result with its failure passed on. -/
def orStop {α : Type} : Except WatcherError α → ScanProg T α
  | .ok a => .ret a
  | .error e => .exit e

/-- A transfer to a user recorded. -/
def creditTransfer (network : Network) (terms : CreditTerms T) (user : UserId) (transfer : T) :
    ScanProg T Unit :=
  match terms user transfer with
  | .error e => .exit e
  | .ok none => .ret ()
  | .ok (some (txRef, amount)) => do
    let _ ← askScan (.record txRef user network amount)

/-- An owner's feed drained page by page from a time on; the newest time seen by now, and whether
the head was reached. A cycle that has not got there in `pages` pages is one that stops there. -/
def drainFeed (limit : Nat) (time : T → Int) (visit : T → ScanProg T Unit) (owner : String) :
    Nat → Int → Int → ScanProg T (Int × Bool)
  | 0, _, _ => .exit (.rpc "stopped")
  | pages + 1, since, high => do
    match ← (askScan (.incoming owner since limit)).outcome with
    | .error _ => return (high, false)
    | .ok page =>
      Prog.each visit page.transfers
      let high := page.transfers.foldl (fun high transfer => max high (time transfer)) high
      if page.rawLen < limit then return (high, true)
      else if page.maxTime ≤ since then return (high, false)
      else drainFeed limit time visit owner pages page.maxTime high

/-- Every owner drained in turn. -/
def scanOwners (scan : O → Int → ScanProg T (Int × Bool)) :
    List O → Int × Bool → ScanProg T (Int × Bool)
  | [], seen => return seen
  | owner :: owners, (high, allDrained) => do
    let (high, drained) ← scan owner high
    scanOwners scan owners (high, allDrained && drained)

end Drain

/-! ## TON -/

/-- The rows of one page. -/
def PAGE_LIMIT : Nat := 128

/-- The seconds read again below the watermark. -/
def LOOKBACK_SECS : Nat := 900

/-- The watcher's configuration: where a first scan starts. -/
structure TonDepositWatcher where
  startCursor : Option Nat
deriving DecidableEq, Repr

/-- Whether a transfer into the treasury comes from outside; one without a source is taken for
ours. -/
def isExternalSource (source : Option String) (ours : List String) : Bool :=
  source.any fun source => !ours.contains source

/-- The watermark to store after a cycle. -/
def nextWatermark (cursor high : Int) (allOwnersDrained : Bool) (now : Nat) : Int :=
  let floor : Int := if allOwnersDrained then ((now - LOOKBACK_SECS : Nat) : Int) else 0
  max (max high floor) cursor

namespace TonDepositWatcher

/-- The watermark; a first scan stores where it starts. -/
def cursor (w : TonDepositWatcher) : ScanProg JettonDeposit Int := do
  match ← askScan .storedCursor with
  | some cursor => return max cursor 0
  | none =>
    let init ← match w.startCursor with
      | some start => Prog.ret start
      | none => askScan .nowUnixSecs
    askScan (.insertCursor init)
    return init

/-- A transfer to a user recorded. -/
def credit : UserId → JettonDeposit → ScanProg JettonDeposit Unit := creditTransfer .ton jettonTerms

/-- An outside arrival on the treasury is reported, never credited. -/
def reportTreasuryArrival (transfer : JettonDeposit) : ScanProg JettonDeposit Unit := do
  let amount ← orStop ((fromOnchain .ton transfer.amount).mapError .decode)
  if amount = 0 then return else askScan (.reportTreasuryArrival transfer.txHash)

/-- What a transfer to an owner is worth: a user's is credited; the treasury's is reported when it
comes from outside. -/
def visit (ours : List String) (user : Option UserId) (transfer : JettonDeposit) :
    ScanProg JettonDeposit Unit :=
  match user with
  | some user => credit user transfer
  | none =>
    if isExternalSource transfer.source ours then reportTreasuryArrival transfer else .ret ()

/-- **One cycle.** -/
def scanOnce (w : TonDepositWatcher) (pages : Nat) : ScanProg JettonDeposit Unit := do
  let cursor ← w.cursor
  let watched ← askScan .watchedAddresses
  let treasury ← askScan .treasuryAddresses
  if watched = [] ∧ treasury = none then
    -- nothing fundable yet
    let now ← askScan .nowUnixSecs
    askScan (.setScanCursor now)
  else
    let owners := watched.map (fun (address, user) => (address, some user)) ++
      treasury.toList.map fun (address, _) => (address, none)
    let ours := watched.map (fun (address, _) => address.toLower) ++
      treasury.toList.flatMap fun (address, gasStation) => address :: gasStation.toList
    let since := max (cursor - LOOKBACK_SECS) 0
    let (high, allDrained) ← scanOwners (fun (owner : String × Option UserId) high =>
      drainFeed PAGE_LIMIT (fun transfer => transfer.now) (visit ours owner.2) owner.1 pages since
        high) owners (cursor, true)
    let now ← askScan .nowUnixSecs
    let next := nextWatermark cursor high allDrained now
    if cursor < next then askScan (.setScanCursor next)

end TonDepositWatcher

/-! ## Tron -/

/-- The milliseconds read again below the watermark. -/
def LOOKBACK_MS : Nat := 120000

/-- The watcher's configuration. -/
structure TronDepositWatcher where
  usdtContract : String
  startTimestamp : Option Int
  maxTransfers : Nat
deriving DecidableEq, Repr

namespace TronDepositWatcher

/-- The watermark; a first scan stores where it starts, the head when nothing is configured. -/
def cursor (w : TronDepositWatcher) : ScanProg Trc20Transfer Int := do
  match ← askScan .storedCursor with
  | some cursor => return cursor
  | none =>
    let init ← match w.startTimestamp with
      | some start => Prog.ret start
      | none => askScan .headTimestamp
    askScan (.insertCursor init)
    return init

/-- A transfer to a user recorded. -/
def credit (w : TronDepositWatcher) : UserId → Trc20Transfer → ScanProg Trc20Transfer Unit :=
  creditTransfer .trc20 (trc20Terms w.usdtContract)

/-- The watched rows by address; of two rows of one address the later stays. -/
def byAddress (rows : List (String × UserId)) : List (String × UserId) :=
  rows.foldl (fun map row => row :: map.filter (·.1 ≠ row.1)) []

/-- **One cycle.** -/
def scanOnce (w : TronDepositWatcher) (pages : Nat) : ScanProg Trc20Transfer Unit := do
  let watched ← askScan .watchedAddresses
  if watched = [] then return
  let cursor ← w.cursor
  let since := max (cursor - LOOKBACK_MS) 0
  let (high, _) ← scanOwners (fun (owner : String × UserId) high =>
    drainFeed w.maxTransfers Trc20Transfer.blockTimestamp (w.credit owner.2) owner.1 pages since
      high) (byAddress watched) (cursor, true)
  if cursor < high then askScan (.setScanCursor high)

end TronDepositWatcher

end Banking
