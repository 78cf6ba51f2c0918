import Banking.TxRef
import Banking.WindowTool
import Mathlib.Data.List.Sort

/-! # Closing the share accounts

After the import, the window's tool moves every holding an export file lists off against its
product's supply, one linked chain a product, and writes each closed account down. The file is
vetted whole; every account is classified from the ledger before anything is written; the ledger is
written first and the rows second, so a later run finds the transfers and writes the rows that are
missing. -/

namespace Banking

open Interactive

/-! ## The export file -/

/-- Which account a listed holding was read from. -/
inductive HoldingKind
  | userShares
  | bookShares
  | feeShares
deriving DecidableEq, Repr

/-- What produced a file, and how it was read. -/
structure ExportHeader where
  schemaVersion : Nat
  source : String
  operationsReadOnly : Bool
  live : Bool
deriving DecidableEq, Repr

/-- A holder, and the id the identity plane knows them by. -/
structure UserRef where
  userId : String
  conciergeUserId : Option String
deriving DecidableEq, Repr

/-- A listed holding: the product, the account's kind and holder, and its units, as text. -/
structure ShareHolding where
  service : String
  kind : HoldingKind
  userId : Option String
  units : String
deriving DecidableEq, Repr

/-- The last line: the lines of each kind, the products the cut covers, and the exporter's
verdict. -/
structure ExportTrailer where
  counts : List (String × Nat)
  allocations : List String
  clean : Bool
deriving DecidableEq, Repr

/-- One line of a file; of the kinds nothing here reads, only that they are there. -/
inductive ExportRecord
  | header (header : ExportHeader)
  | user (user : UserRef)
  | shareHolding (holding : ShareHolding)
  | trailer (trailer : ExportTrailer)
  | other
deriving DecidableEq, Repr

/-- The version of the format. -/
def SCHEMA_VERSION : Nat := 1

/-- Code the tool relies on that is not its own: the reader of a line, the digest of a text, the
reader of an id, and lower case. -/
structure WindowLib where
  decodeRecord : String → Option ExportRecord
  sha256Hex : String → String
  parseUuid : String → Option Uuid
  toLowercase : String → String

/-- What the tool takes from a file: its digest, the holders' identity-plane ids, its holdings, and
the products of the cut. -/
structure Export where
  digest : String
  users : List (String × Option String)
  holdings : List ShareHolding
  services : List String
deriving DecidableEq, Repr

/-- Why a file is refused. -/
inductive ExportError
  | notARecord (line : Nat)
  | noHeader
  | foreignSchema (version : Nat) (source : String)
  | live
  | notInMaintenance
  | truncated
  | notClean
  | miscounted (counted present : Nat)
deriving DecidableEq, Repr

/-- The lines of a text: each without its line feed and a carriage return before it, and an empty
last one left out. -/
def textLines (text : String) : List String :=
  let pieces := text.toList.splitOn '\n'
  let ended := pieces.dropLast.map fun line =>
    if line.getLast? = some '\r' then line.dropLast else line
  let last := (pieces.getLast?.filter (· ≠ [])).toList
  (ended ++ last).map String.ofList

/-- The records of the lines numbered from `n` on; a blank line is none. -/
def decodeLines (lib : WindowLib) : Nat → List String → Except ExportError (List ExportRecord)
  | _, [] => .ok []
  | n, line :: lines =>
    if Text.trim line.toList = [] then decodeLines lib (n + 1) lines
    else
      match lib.decodeRecord line with
      | none => .error (.notARecord (n + 1))
      | some record => do
        let records ← decodeLines lib (n + 1) lines
        return record :: records

/-- **A file parsed and vetted**: only a clean cut of a hub in maintenance is taken. -/
def parseExport (lib : WindowLib) (text : String) : Except ExportError Export := do
  let records ← decodeLines lib 0 (textLines text)
  let some (.header header) := records.head? | .error .noHeader
  if header.schemaVersion ≠ SCHEMA_VERSION ∨ header.source ≠ "banking" then
    .error (.foreignSchema header.schemaVersion header.source)
  if header.live then .error .live
  if ¬ header.operationsReadOnly then .error .notInMaintenance
  let some (.trailer trailer) := records.getLast? | .error .truncated
  if ¬ trailer.clean then .error .notClean
  let counted := (trailer.counts.map (·.2)).sum
  if counted ≠ records.length then .error (.miscounted counted records.length)
  return {
    digest := lib.sha256Hex text
    users := records.filterMap fun
      | .user user => some (user.userId, user.conciergeUserId)
      | _ => none
    holdings := records.filterMap fun
      | .shareHolding holding => some holding
      | _ => none
    services := (trailer.allocations.insertionSort (· ≤ ·)).dedup }

/-- Past a refusal its condition does not hold. -/
theorem refuse_ok {ε α : Type} {c : Prop} [Decidable c] {e : ε} {f : Unit → Except ε α} {a : α}
    (h : (if c then Except.error e >>= f else f ()) = .ok a) : ¬ c ∧ f () = .ok a := by
  split_ifs at h with hc
  · cases h
  · exact ⟨hc, h⟩

/-- **What an accepted file is**: a cut of a hub in maintenance, whole and clean by its own count,
whose holdings are the holdings of its lines. -/
theorem parseExport_ok {lib : WindowLib} {text : String} {file : Export}
    (h : parseExport lib text = .ok file) :
    ∃ records header trailer, decodeLines lib 0 (textLines text) = .ok records ∧
      records.head? = some (.header header) ∧ records.getLast? = some (.trailer trailer) ∧
      header.schemaVersion = SCHEMA_VERSION ∧ header.source = "banking" ∧ header.live = false ∧
      header.operationsReadOnly = true ∧ trailer.clean = true ∧
      (trailer.counts.map (·.2)).sum = records.length ∧
      ∀ holding, holding ∈ file.holdings ↔ .shareHolding holding ∈ records := by
  unfold parseExport at h
  obtain ⟨records, hrecords, h⟩ := bind_ok_iff.mp h
  split at h
  case h_2 => cases h
  case h_1 header hhead =>
    obtain ⟨hschema, h⟩ := refuse_ok h
    obtain ⟨hlive, h⟩ := refuse_ok h
    obtain ⟨hmaintenance, h⟩ := refuse_ok h
    split at h
    case h_2 => cases h
    case h_1 trailer hlast =>
      obtain ⟨hclean, h⟩ := refuse_ok h
      obtain ⟨hcounted, h⟩ := refuse_ok h
      obtain rfl := Except.ok.inj h
      rw [not_or, not_not, not_not] at hschema
      refine ⟨records, header, trailer, hrecords, hhead, hlast, hschema.1, hschema.2,
        Bool.not_eq_true _ ▸ hlive, not_not.mp hmaintenance, not_not.mp hclean,
        not_not.mp hcounted, fun holding => ?_⟩
      rw [List.mem_filterMap]
      constructor
      · rintro ⟨record, hmem, hread⟩
        cases record <;> cases hread
        exact hmem
      · exact fun hmem => ⟨_, hmem, rfl⟩

/-- The identity-plane id of a holder; of two records of one user the later counts. -/
def Export.concierge (file : Export) (user : String) : Option String :=
  (file.users.reverse.lookup user).join

/-! ## Refusals -/

/-- Why a run stops, with what its message names. -/
inductive CloseRefusal
  | heldByNobody (units service : String)
  | noConciergeId (user service : String)
  | unreadableUnits (units : String)
  | otherHolders (found expected : List (String × Nat))
  | noImportDigest (digest : String)
  | malformedDigest (given : String)
  | otherDigest (given digest : String)
  | refused (reason : String)
  | unparsedService (raw : String)
  | unparsedHolder (raw : String)
  | restingUnits (units service : String)
  | noSuchAccount (kind : HoldingKind) (service : String)
  | zeroHolding (key : String)
  | listedTwice
  | unknownAccount (key : String)
  | inFlight (key : String)
  | notAsExported (key : String) (listed held : Nat) (closedWith : Option Nat)
  | unlistedHolding (key : String) (held : Nat)
  | supplyDiffers (service : String) (supply stillOpen : Nat)
  | chainTooLong (service : String) (legs : Nat)
  | closingDiffers (key : String) (moved : Option Nat) (listed : Nat)
  | notClosable (key : String)
  | leftOver (service : String) (keys : List String) (supply : Nat)
  | anchorChanged
  | ledger (cause : LedgerError)
deriving DecidableEq, Repr

/-- The units a text writes. -/
def parseUnits (units : String) : Except CloseRefusal Nat :=
  match Text.parseUnsigned (2 ^ 128) units.toList with
  | some n => .ok n
  | none => .error (.unreadableUnits units)

/-! ## The anchor's people -/

/-- Units added to what a person is known to have. -/
def addUnits (person : String) (units : Nat) : List (String × Nat) → List (String × Nat)
  | [] => [(person, units)]
  | (p, u) :: rest =>
    if p = person then (p, u + units) :: rest else (p, u) :: addUnits person units rest

/-- The order people are compared in: by units, then by id. -/
def byUnits (a b : String × Nat) : Prop := a.2 < b.2 ∨ a.2 = b.2 ∧ a.1 ≤ b.1

instance : DecidableRel byUnits := fun _ _ => inferInstanceAs (Decidable (_ ∨ _ ∧ _))

/-- What each person has of some holdings. -/
def perPerson (lib : WindowLib) (file : Export) :
    List ShareHolding → Except CloseRefusal (List (String × Nat))
  | [] => .ok []
  | h :: hs => do
    let some user := h.userId | .error (.heldByNobody h.units h.service)
    let some concierge := file.concierge user | .error (.noConciergeId user h.service)
    let units ← parseUnits h.units
    let rest ← perPerson lib file hs
    return addUnits (lib.toLowercase concierge) units rest

/-- The anchor allocation in the file belongs to the people the operator named, with their units. -/
def Export.checkAnchor (lib : WindowLib) (file : Export) (anchor : Anchor) :
    Except CloseRefusal Unit :=
  if anchor.people.isEmpty then .ok ()
  else do
    let people ← perPerson lib file (file.holdings.filter fun h =>
      h.service = anchor.service.slug && h.kind ≠ .feeShares)
    let found := people.insertionSort byUnits
    let expected := anchor.people.insertionSort byUnits
    if found ≠ expected then .error (.otherHolders found expected)

/-! ## Accounts to close -/

/-- One account to close, as the export names it, and the id of its closing transfer. -/
structure Item where
  service : ServiceId
  user : Option UserId
  key : LedgerAccountKey
  units : Nat
  transferId : Uuid
deriving DecidableEq, Repr

/-- What an account is found as. -/
inductive HoldingState
  /-- On the ledger with the exported units, and no closing transfer. -/
  | open
  /-- Emptied by exactly the closing transfer. -/
  | closed
deriving DecidableEq, Repr

/-- The holder a listed holding names. -/
def parseHolder (lib : WindowLib) : Option String → Except CloseRefusal (Option UserId)
  | none => .ok none
  | some raw =>
    match lib.parseUuid raw with
    | some user => .ok (some user)
    | none => .error (.unparsedHolder raw)

/-- The product a text names. -/
def parseService (raw : String) : Except CloseRefusal ServiceId :=
  match ServiceId.parse raw with
  | .ok service => .ok service
  | .error _ => .error (.unparsedService raw)

/-- The account of a listed holding. -/
def itemOf (lib : WindowLib) (h : ShareHolding) : Except CloseRefusal Item := do
  let service ← parseService h.service
  let user ← parseHolder lib h.userId
  let key ← match h.kind, user with
    | .userShares, some user => .ok (.userShares service user)
    | .feeShares, none => .ok (.feeShares service)
    | .bookShares, _ => .error (.restingUnits h.units h.service)
    | kind, _ => .error (.noSuchAccount kind h.service)
  let units ← parseUnits h.units
  if units = 0 then .error (.zeroHolding key.logicalKey)
  return ⟨service, user, key, units, .nil⟩

/-- The accounts a file lists, by their keys; none twice. -/
def items (lib : WindowLib) (file : Export) : Except CloseRefusal (List Item) := do
  let listed ← file.holdings.mapM (itemOf lib)
  let sorted := listed.insertionSort fun a b => a.key.logicalKey ≤ b.key.logicalKey
  if (sorted.zip sorted.tail).any fun (a, b) => a.key = b.key then .error .listedTwice
  return sorted

/-- The id of an account's closing transfer. -/
def closeId (key : LedgerAccountKey) (account : Nat) : Uuid :=
  toolId ("window:close:" ++ key.logicalKey ++ ":" ++ hexAccount account)

/-- An account's closing transfer. -/
def Item.closing (i : Item) : LedgerTransfer :=
  { id := i.transferId
    debit := .sharesOutstanding i.service
    credit := i.key
    amount := i.units
    tag := ⟨.windowMigration, toolId ("window:close:" ++ i.service.slug)⟩ }

/-- The record of a closed account. -/
structure ClosureRow where
  logicalKey : String
  service : String
  kind : String
  user : Option UserId
  code : Nat
  units : Nat
  transferId : Uuid
deriving DecidableEq, Repr

/-- The kind and the account code a holding is recorded under. -/
def LedgerAccountKey.closable : LedgerAccountKey → Option (String × Nat)
  | .userShares .. => some ("user_shares", 60)
  | .feeShares _ => some ("fee_shares", 62)
  | _ => none

/-! ## What the tool asks -/

/-- The operator's command line: whether the run writes, the import's digest, and the anchor. -/
structure CloseCall where
  mode : Mode
  importDigest : Option String
  anchor : Anchor
deriving DecidableEq, Repr

/-- An operation of the command. -/
inductive CloseOp
  | invoke
  | requireMaintenance
  | requireDrained
  | balancedCash
  | readAnchor
  | tbId (key : LedgerAccountKey)
  | balance (key : LedgerAccountKey)
  | transferAmount (id : Uuid)
  | shareHoldings (service : ServiceId)
  | hasRow (logicalKey : String)
  | insertRow (row : ClosureRow)
  | postLinked (transfers : List LedgerTransfer)
deriving DecidableEq, Repr

/-- What each answers. -/
abbrev CloseOp.Ans : CloseOp → Type
  | .invoke => CloseCall
  | .requireMaintenance | .requireDrained | .balancedCash | .insertRow _ => Except String Unit
  | .readAnchor => Except String AnchorReading
  | .tbId _ => Except String (Option Nat)
  | .balance _ => Except LedgerError LedgerBalance
  | .transferAmount _ => Except LedgerError (Option Nat)
  | .shareHoldings _ => Except LedgerError (List (LedgerAccountKey × Nat))
  | .hasRow _ => Except String Bool
  | .postLinked _ => Except LedgerError Unit

/-- A program of these operations. -/
abbrev CloseProg (α : Type) : Type := Prog CloseOp CloseOp.Ans CloseRefusal α

/-- One operation. -/
def askClose (op : CloseOp) : CloseProg op.Ans := Prog.ask op

/-- A result, or the refusal it is. -/
def orBail {α : Type} : Except CloseRefusal α → CloseProg α
  | .ok a => .ret a
  | .error e => .exit e

/-- An answer, or the refusal its failure is. -/
def orFailed {α : Type} : Except String α → CloseProg α
  | .ok a => .ret a
  | .error reason => .exit (.refused reason)

/-- A ledger's answer, or the refusal its failure is. -/
def orLedger {α : Type} : Except LedgerError α → CloseProg α
  | .ok a => .ret a
  | .error cause => .exit (.ledger cause)

/-! ## The command -/

/-- The accounts with the ids of their closing transfers. -/
def nameTransfers : List Item → CloseProg (List Item)
  | [] => return []
  | item :: rest => do
    let found ← orFailed (← askClose (.tbId item.key))
    let some account := found | .exit (.unknownAccount item.key.logicalKey)
    let named ← nameTransfers rest
    return { item with transferId := closeId item.key account } :: named

/-- Whether an account is still to be closed. -/
def classify (item : Item) : CloseProg HoldingState := do
  let live ← orLedger (← askClose (.balance item.key))
  if live.pending ≠ 0 ∨ live.locked ≠ 0 then .exit (.inFlight item.key.logicalKey)
  let closedWith ← orLedger (← askClose (.transferAmount item.transferId))
  if closedWith = none ∧ live.posted = item.units then return .open
  else if live.posted = 0 ∧ closedWith = some item.units then return .closed
  else .exit (.notAsExported item.key.logicalKey item.units live.posted closedWith)

/-- Every account with what it is found as. -/
def classifyAll : List Item → CloseProg (List (Item × HoldingState))
  | [] => return []
  | item :: rest => do
    let state ← classify item
    let states ← classifyAll rest
    return (item, state) :: states

/-- The accounts still to be closed. -/
def stillOpen (found : List (Item × HoldingState)) : List Item :=
  (found.filter (·.2 = .open)).map (·.1)

/-- A product holds nothing the file does not list, and what is still to be closed is its supply. -/
def checkProduct (found : List (Item × HoldingState)) (slug : String) : CloseProg Unit := do
  let service ← orBail (parseService slug)
  let holdings ← orLedger (← askClose (.shareHoldings service))
  let listed := found.map (·.1.key.logicalKey)
  match holdings.find? fun (key, posted) => posted ≠ 0 ∧ key.logicalKey ∉ listed with
  | some (key, posted) => .exit (.unlistedHolding key.logicalKey posted)
  | none => pure ()
  let sum := (((stillOpen found).filter (·.service = service)).map (·.units)).sum
  let supply ← orLedger (← askClose (.balance (.sharesOutstanding service)))
  if supply.posted ≠ sum then .exit (.supplyDiffers service.slug supply.posted sum)

/-- **A closed account written down**, with the units its transfer moved. -/
def recordClosed (item : Item) : CloseProg Unit := do
  let moved ← orLedger (← askClose (.transferAmount item.transferId))
  if moved ≠ some item.units then
    .exit (.closingDiffers item.key.logicalKey moved item.units)
  let some (kind, code) := item.key.closable | .exit (.notClosable item.key.logicalKey)
  orFailed (← askClose (.insertRow ⟨item.key.logicalKey, item.service.slug, kind, item.user, code,
    item.units, item.transferId⟩))

/-- The rows that closed accounts lack, written by a run that writes; how many there were. -/
def recordMissing (mode : Mode) : List (Item × HoldingState) → CloseProg Nat
  | [] => return 0
  | (item, state) :: rest =>
    if state = .closed then do
      let present ← orFailed (← askClose (.hasRow item.key.logicalKey))
      if present then recordMissing mode rest
      else do
        if mode.applies then recordClosed item
        let missing ← recordMissing mode rest
        return missing + 1
    else recordMissing mode rest

/-- A chain is one batch. -/
def MAX_CHAIN : Nat := 4000

/-- **One product's accounts closed** in one chain. -/
def closeProduct (found : List (Item × HoldingState)) (slug : String) : CloseProg Unit := do
  let service ← orBail (parseService slug)
  let legs := ((stillOpen found).filter (·.service = service)).map Item.closing
  if MAX_CHAIN < legs.length then .exit (.chainTooLong service.slug legs.length)
  orLedger (← askClose (.postLinked legs))

/-- A product is left with no holding and no supply. -/
def verifyProduct (slug : String) : CloseProg Unit := do
  let service ← orBail (parseService slug)
  let holdings ← orLedger (← askClose (.shareHoldings service))
  let left := (holdings.filter (·.2 ≠ 0)).map (·.1.logicalKey)
  let supply ← orLedger (← askClose (.balance (.sharesOutstanding service)))
  if left ≠ [] ∨ supply.posted ≠ 0 then .exit (.leftOver service.slug left supply.posted)

/-- The products that still have accounts to close, in order. -/
def openProducts (found : List (Item × HoldingState)) : List String :=
  (((stillOpen found).map (·.service.slug)).insertionSort (· ≤ ·)).dedup

/-- A file's digest is the one its importer saw. -/
def checkDigest (file : Export) : Option String → Except CloseRefusal Unit
  | none => .error (.noImportDigest file.digest)
  | some given =>
    if given.utf8ByteSize ≠ 64 ∨ ¬ given.toList.all isAsciiHexdigit then
      .error (.malformedDigest given)
    else if given.map Char.toLower ≠ file.digest then .error (.otherDigest given file.digest)
    else .ok ()

/-- The anchor as the run finds it, unless rows it counts are missing. -/
def anchorBefore (unreadable : Bool) : CloseProg (Option AnchorReading) :=
  if unreadable then return none
  else do
    let reading ← orFailed (← askClose .readAnchor)
    return some reading

/-- How a run that was not refused ends. -/
inductive CloseOutcome
  | planned
  | closed
deriving DecidableEq, Repr

/-- **The command.** -/
def closeShareAccounts (lib : WindowLib) (file : Export) : CloseProg CloseOutcome := do
  let call ← askClose .invoke
  orBail (file.checkAnchor lib call.anchor)
  if call.mode.applies then orBail (checkDigest file call.importDigest)
  orFailed (← askClose .requireMaintenance)
  orFailed (← askClose .requireDrained)
  orFailed (← askClose .balancedCash)
  let listed ← orBail (items lib file)
  let named ← nameTransfers listed
  let found ← classifyAll named
  Prog.each (checkProduct found) file.services
  -- The anchor counts closed units through their rows, so the rows come first.
  let missing ← recordMissing call.mode found
  let before ← anchorBefore (0 < missing ∧ ¬ call.mode.applies)
  if ¬ call.mode.applies then return .planned
  Prog.each (closeProduct found) (openProducts found)
  Prog.each recordClosed named
  Prog.each verifyProduct file.services
  orFailed (← askClose .balancedCash)
  let after ← orFailed (← askClose .readAnchor)
  match before with
  | some before => if ¬ after.sameHoldersAs before then .exit .anchorChanged
  | none => pure ()
  return .closed

end Banking
