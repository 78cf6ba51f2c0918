import Banking.ChainTx
import Banking.Lib.Journal
import Banking.PrunedHistory

/-! # The deposit scan of the EVM rails

One transfer log of the rail's token at a time: it is decoded, its recipient looked up among the
watched addresses, and a transfer to one of them is recorded once, under its transaction and log
index. The live cycle scans from the stored cursor to the safe head, and an operator's backfill
scans any window; both are the scan of `PrunedHistory`, whose operations are carried out here. -/

namespace Banking

open Interactive

/-! ## Transfer logs -/

/-- A log as the endpoint answers it; its fields may be missing or of another type. -/
structure LogValue where
  topics : Option (List (Option String))
  data : Option String
  transactionHash : Option String
  logIndex : Option String
deriving DecidableEq, Repr

/-- The topic of the token's `Transfer` event. -/
def TRANSFER_TOPIC : String := "0xddf252ad1be2c89b69c2b068fc378daa952ba7f163c4a11628f55a4df523b3ef"

/-- One decoded transfer of the rail's token. -/
structure EvmTransfer where
  source : String
  target : String
  value : Nat
  txHash : String
  logIndex : Nat
deriving DecidableEq, Repr

/-- What follows the prefix `0x`. -/
def strip0x (s : String) : Option (List Char) :=
  match s.toList with
  | '0' :: 'x' :: rest => some rest
  | _ => none

/-- An unsigned number below `bound` in hexadecimal digits, at least one, after an optional plus
sign. -/
def fromStrRadix16 (bound : Nat) (s : List Char) : Option Nat :=
  let digits := match s with
    | '+' :: rest => rest
    | _ => s
  if digits = [] then none
  else (digits.mapM hexDigit).bind fun digits =>
    let n := digits.foldl (fun n digit => 16 * n + digit) 0
    if n < bound then some n else none

/-- A quantity of the endpoint's. -/
def hexToU64 (s : String) : Option Nat := (strip0x s).bind (fromStrRadix16 (2 ^ 64))

/-- The text past a number of bytes; none where the cut falls inside a character. -/
def dropBytes : Nat → List Char → Option (List Char)
  | 0, s => some s
  | _ + 1, [] => none
  | n + 1, c :: s => if c.utf8Size ≤ n + 1 then dropBytes (n + 1 - c.utf8Size) s else none

/-- The address in the last 20 bytes of a topic word, in lower case. -/
def addressFromTopic (topic : String) : Option String := do
  let hex ← strip0x topic
  if byteLen hex ≠ 64 then none
  else return lowerHash ("0x" ++ String.ofList (← dropBytes 24 hex))

/-- A 32-byte word as a number; one past 128 bits is refused. -/
def wordToU128 (word : String) : Option Nat := do
  let hex ← strip0x word
  if byteLen hex ≠ 64 ∨ ¬ (hex.take 32).all (· = '0') then none
  else fromStrRadix16 (2 ^ 128) (hex.drop 32)

/-- A transfer log decoded; none of an unexpected shape, or of a value past 128 bits. -/
def LogValue.decodeTransfer (log : LogValue) : Option EvmTransfer := do
  let topics ← log.topics
  if topics.length < 3 then none
  else if ¬ eqIgnoreAsciiCase (← topics[0]?.join) TRANSFER_TOPIC then none
  else
    let source ← addressFromTopic (← topics[1]?.join)
    let target ← addressFromTopic (← topics[2]?.join)
    let value ← wordToU128 (← log.data)
    let txHash := lowerHash (← log.transactionHash)
    let logIndex ← hexToU64 (← log.logIndex)
    return { source, target, value, txHash, logIndex }

/-- The key a transfer is recorded under. -/
def EvmTransfer.txRef (transfer : EvmTransfer) : String :=
  evmTxRef transfer.txHash transfer.logIndex

/-- What a transfer to a user is recorded as, its reference and its amount; nothing for one of
nothing. -/
def EvmTransfer.terms (network : Network) (transfer : EvmTransfer) :
    Except WatcherError (Option (TxRef × Nat)) := do
  let amount ← (fromOnchain network transfer.value).mapError .decode
  if amount = 0 then return none
  let txRef ← (TxRef.parse transfer.txRef).mapError .decode
  return some (txRef, amount)

/-! ## Whose a transfer is -/

/-- What a scan read of whom it scans for: the derived addresses with their users, and the rail's
treasury with its gas station. -/
structure ScanView where
  rows : List (UserId × String)
  custody : Option (String × Option String)
deriving DecidableEq, Repr

namespace ScanView

/-- The watched addresses, in lower case. -/
def keys (view : ScanView) : List String := (view.rows.map (lowerHash ·.2)).dedup

/-- The user of a watched address; of two rows of one address the later stays. -/
def watched (view : ScanView) (address : String) : Option UserId :=
  (view.rows.reverse.find? fun row => lowerHash row.2 = address).map (·.1)

/-- The treasury's address, in lower case. -/
def treasury (view : ScanView) : Option String := view.custody.map (lowerHash ·.1)

/-- The gas station's. -/
def gasStation (view : ScanView) : Option String :=
  view.custody.bind fun custody => custody.2.map lowerHash

/-- The addresses whose arrivals are asked for. -/
def addresses (view : ScanView) : List String := view.keys ++ view.treasury.toList

end ScanView

/-- Who a transfer is for. -/
inductive Recipient
  | user (user : UserId)
  | unattributedTreasury
  | notOurs
deriving DecidableEq, Repr

/-- Whether an arrival on the treasury is new money: from none of our own wallets. -/
def ScanView.isExternalSource (view : ScanView) (source : String) : Bool :=
  (view.watched source).isNone && view.gasStation ≠ some source && view.treasury ≠ some source

/-- **Who a transfer is for.** A watched address is looked up first. -/
def ScanView.recipientOf (view : ScanView) (transfer : EvmTransfer) : Recipient :=
  match view.watched transfer.target with
  | some user => .user user
  | none =>
    if view.treasury = some transfer.target ∧ view.isExternalSource transfer.source then
      .unattributedTreasury
    else .notOurs

/-! ## The watcher -/

/-- What the watcher asks of its database, the endpoint and the custody adapter; `finished` is its
own, said of a window it has done. -/
inductive WatchOp
  | blockNumber
  | readCursor
  | insertCursor (init : Nat)
  | setScanCursor (block : Nat)
  | watchedRows
  | treasuryAddresses
  | ethGetLogs (fromBlock toBlock : Nat) (addresses : List String)
  | recordDeposit (txRef : TxRef) (user : UserId) (network : Network) (amount : Nat)
  | noteUnattributed (txHash source : String) (amount : Nat)
  | reportSkipped (fromBlock toBlock retainedFrom : Nat)
  | finished (fromBlock toBlock : Nat) (summary : ScanSummary)
deriving DecidableEq, Repr

/-- What each is answered with. A failure may come of any call. -/
abbrev WatchOp.Ans : WatchOp → Type
  | .blockNumber => Except WatcherError Nat
  | .readCursor => Except WatcherError (Option Int)
  | .insertCursor _ | .setScanCursor _ => Except WatcherError Unit
  | .watchedRows => Except WatcherError (List (UserId × String))
  | .treasuryAddresses => Option (String × Option String)
  | .ethGetLogs .. => Except String (Option (List LogValue))
  | .recordDeposit .. => Except WatcherError Bool
  | .noteUnattributed .. | .reportSkipped .. | .finished .. => Unit

/-- A program of the watcher. -/
abbrev WatcherProg (α : Type) : Type := Prog WatchOp WatchOp.Ans WatcherError α

/-- The watcher's configuration. -/
structure DepositWatcher where
  network : Network
  confirmations : Nat
  startBlock : Option Nat
deriving DecidableEq, Repr

/-- An answer with its failure passed on. -/
def orWatcherError {α : Type} : Except WatcherError α → WatcherProg α
  | .ok a => .ret a
  | .error e => .exit e

namespace DepositWatcher

variable (w : DepositWatcher)

/-- A transfer to a user recorded; whether it is new. -/
def credit (user : UserId) (transfer : EvmTransfer) : WatcherProg Bool :=
  (orWatcherError (transfer.terms w.network)).bind fun terms =>
    match terms with
    | none => .ret false
    | some (txRef, amount) => .call (.recordDeposit txRef user w.network amount) orWatcherError

/-- What one log comes to. -/
def visitLog (view : ScanView) (log : LogValue) : WatcherProg Bool :=
  match log.decodeTransfer with
  | none => .ret false
  | some transfer =>
    match view.recipientOf transfer with
    | .user user => w.credit user transfer
    | .unattributedTreasury =>
      (orWatcherError ((fromOnchain w.network transfer.value).mapError .decode)).bind fun amount =>
        if amount = 0 then .ret false
        else .call (.noteUnattributed transfer.txHash transfer.source amount) fun _ => .ret false
    | .notOurs => .ret false

/-- How what a scan asks is carried out, once it has read whom it scans for. -/
def carriedOut (view : ScanView) : (op : EvmScanOp LogValue) → WatcherProg op.Ans
  | .watchedAddresses => .ret (.ok view.keys)
  | .treasuryAddresses => .ret view.treasury
  | .ethGetLogs a b addresses => Prog.ask (WatchOp.ethGetLogs a b addresses)
  | .creditLog log => (w.visitLog view log).outcome
  | .reportSkipped a b first => Prog.ask (WatchOp.reportSkipped a b first)
  | .setScanCursor block => Prog.ask (WatchOp.setScanCursor block)

/-- **The scan of a window.** -/
def scanRange (fromBlock toBlock : Nat) (policy : CursorPolicy) (range : Nat) :
    WatcherProg ScanSummary :=
  if toBlock < fromBlock then .ret { scannedTo := fromBlock - 1, credited := 0 }
  else
    .call .watchedRows fun rows => (orWatcherError rows).bind fun rows =>
      .call .treasuryAddresses fun custody =>
        (Banking.scanRange fromBlock toBlock policy range).via (w.carriedOut ⟨rows, custody⟩)

/-- The last block scanned; a first scan stores where it starts. -/
def cursor (defaultHead : Nat) : WatcherProg Nat :=
  .call .readCursor fun existing => (orWatcherError existing).bind fun existing =>
    match existing with
    | some block => .ret (max block 0).toNat
    | none =>
      let init := (w.startBlock.map (· - 1)).getD defaultHead
      .call (.insertCursor init) fun inserted => (orWatcherError inserted).bind fun _ => .ret init

/-- **One live cycle**: from the cursor to the safe head. -/
def scanOnce (range : Nat) : WatcherProg Unit :=
  .call .blockNumber fun latest => (orWatcherError latest).bind fun latest =>
    let safeHead := latest - w.confirmations
    (w.cursor safeHead).bind fun lastScanned =>
      if safeHead ≤ lastScanned then .ret ()
      else (w.scanRange (lastScanned + 1) safeHead .advance range).bind fun _ => .ret ()

/-- **A backfill** of a window, which leaves the cursor alone. -/
def backfill (fromBlock toBlock range : Nat) : WatcherProg Unit :=
  (w.scanRange fromBlock toBlock .leave range).bind fun summary =>
    .call (.finished fromBlock toBlock summary) fun _ => .ret ()

end DepositWatcher

end Banking
