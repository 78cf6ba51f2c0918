import Banking.Events
import Banking.Lib.Text

/-! # Transaction references

An arrival is keyed by its reference, the trimmed text itself. The rails read the text leniently:
an EVM reference is split into a lower-cased hash and a log index, so several texts name one
transfer. The watcher's own spelling is read back as what it was written from. -/

namespace Banking

/-! ## The key -/

/-- Why a request was refused. -/
inductive DomainError
  | validation (message : String)
  | forbidden (message : String)
  | conflict (message : String)
  | precondition (message : String)
  | notFound (entity id : String)
  | repository (message : String)
deriving DecidableEq, Repr

/-- What follows on a success. -/
theorem bind_ok_iff {ε α β : Type} {x : Except ε α} {f : α → Except ε β} {r : β} :
    (x >>= f) = .ok r ↔ ∃ a, x = .ok a ∧ f a = .ok r := by
  cases x with
  | error e => exact ⟨(fun h => nomatch h), (fun ⟨_, h, _⟩ => nomatch h)⟩
  | ok a => exact ⟨fun h => ⟨a, rfl, h⟩, fun ⟨_, ha, h⟩ => Except.ok.inj ha ▸ h⟩

/-- A success mapped. -/
theorem map_ok_iff {ε α β : Type} {x : Except ε α} {f : α → β} {r : β} :
    x.map f = .ok r ↔ ∃ a, x = .ok a ∧ f a = r := by
  cases x with
  | error e => exact ⟨(fun h => nomatch h), (fun ⟨_, h, _⟩ => nomatch h)⟩
  | ok a => exact ⟨fun h => ⟨a, rfl, Except.ok.inj h⟩, fun ⟨_, ha, h⟩ => Except.ok.inj ha ▸ h ▸ rfl⟩

/-- An on-chain transaction reference, the idempotency key of a deposit. -/
structure TxRef where
  text : String
deriving DecidableEq, Repr

/-- Whether `needle` occurs in `s`. -/
def containsText (needle : String) (s : List Char) : Bool :=
  s.tails.any needle.toList.isPrefixOf

/-- Whether a text carries a link. -/
def containsUrl (s : List Char) : Bool :=
  let lower := s.map Char.toLower
  containsText "://" lower || containsText "www." lower

/-- The length of a text in bytes. -/
def byteLen (s : List Char) : Nat := (s.map Char.utf8Size).sum

/-- A reference: trimmed, neither empty nor long, and no link. -/
def TxRef.parse (raw : String) : Except DomainError TxRef :=
  let trimmed := Text.trim raw.toList
  if trimmed = [] then .error (.validation "tx ref must not be empty")
  else if 128 < byteLen trimmed then .error (.validation "tx ref too long")
  else if containsUrl trimmed then .error (.validation "tx ref must not contain a link")
  else .ok ⟨String.ofList trimmed⟩

/-! ## EVM references -/

/-- An ASCII hexadecimal digit. -/
def isAsciiHexdigit (c : Char) : Bool :=
  c.isDigit || ('a' ≤ c && c ≤ 'f') || ('A' ≤ c && c ≤ 'F')

/-- The shape of a transaction hash: `0x` and 64 hexadecimal digits, of either case. -/
def isTxHash : List Char → Bool
  | '0' :: 'x' :: digits => byteLen ('0' :: 'x' :: digits) = 66 && digits.all isAsciiHexdigit
  | _ => false

/-- An EVM arrival reference as hash and log index: split at the last colon, both sides trimmed,
the hash of either case. -/
def splitEvmTxRef (ref : String) : Option (String × Nat) :=
  match Text.rsplitOnce ':' ref.toList with
  | none => none
  | some (hash, index) =>
    let hash := Text.trim hash
    if isTxHash hash then
      (Text.parseUnsigned (2 ^ 64) (Text.trim index)).map fun index =>
        (String.ofList (hash.map Char.toLower), index)
    else none

/-- A hash in lower case. -/
def lowerHash (hash : String) : String := String.ofList (hash.toList.map Char.toLower)

/-- The reference the watcher writes for a log: the hash as the node answers it, and the index. -/
def evmTxRef (hash : String) (index : Nat) : String := hash ++ ":" ++ toString index

/-- A hexadecimal digit is no white space. -/
theorem isWhitespace_of_isAsciiHexdigit {c : Char} (h : isAsciiHexdigit c = true) :
    Text.isWhitespace c = false := by
  simp only [isAsciiHexdigit, Bool.or_eq_true, Bool.and_eq_true, decide_eq_true_eq] at h
  rcases h with (hdigit | hlower) | hupper
  · exact Text.isWhitespace_of_isDigit hdigit
  · have hlo : 97 ≤ c.toNat := hlower.1
    have hhi : c.toNat ≤ 102 := hlower.2
    simp only [Text.isWhitespace, Bool.or_eq_false_iff, Bool.and_eq_false_iff,
      decide_eq_false_iff_not]
    omega
  · have hlo : 65 ≤ c.toNat := hupper.1
    have hhi : c.toNat ≤ 70 := hupper.2
    simp only [Text.isWhitespace, Bool.or_eq_false_iff, Bool.and_eq_false_iff,
      decide_eq_false_iff_not]
    omega

/-- A hash holds no white space. -/
theorem isWhitespace_of_isTxHash {hash : List Char} (h : isTxHash hash = true) :
    ∀ c ∈ hash, Text.isWhitespace c = false := by
  unfold isTxHash at h
  split at h
  · next digits =>
    rw [Bool.and_eq_true, List.all_eq_true] at h
    intro c hc
    rcases List.mem_cons.mp hc with rfl | hc
    · decide
    · rcases List.mem_cons.mp hc with rfl | hc
      · decide
      · exact isWhitespace_of_isAsciiHexdigit (h.2 c hc)
  · cases h

theorem evmTxRef_toList (hash : String) (index : Nat) :
    (evmTxRef hash index).toList = hash.toList ++ ':' :: Text.decimal index := by
  have hdigits : (toString index).toList = Text.decimal index := by
    rw [Nat.toString_eq_repr, Nat.repr_eq_ofList_toDigits, String.toList_ofList]
    rfl
  unfold evmTxRef
  rw [String.toList_append, String.toList_append, hdigits, List.append_assoc]
  rfl

/-- **The watcher's spelling reads back.** The reference written from a lower-case hash and an
index names that hash and index. -/
theorem splitEvmTxRef_evmTxRef {hash : String} {index : Nat} (hh : isTxHash hash.toList = true)
    (hlower : hash.toList.map Char.toLower = hash.toList) (hi : index < 2 ^ 64) :
    splitEvmTxRef (evmTxRef hash index) = some (hash, index) := by
  have hcolon : ':' ∉ Text.decimal index := by
    intro hmem
    have hdigit := Text.decimal_isDigit hmem
    cases hdigit
  have htrim : Text.trim (Text.decimal index) = Text.decimal index :=
    Text.trim_eq_self fun c hc => Text.isWhitespace_of_isDigit (Text.decimal_isDigit hc)
  unfold splitEvmTxRef
  rw [evmTxRef_toList, Text.rsplitOnce_join _ hcolon]
  simp only [Text.trim_eq_self (isWhitespace_of_isTxHash hh), hh, if_true, htrim,
    Text.parseUnsigned_decimal hi, Option.map_some, hlower, String.ofList_toList]

end Banking
