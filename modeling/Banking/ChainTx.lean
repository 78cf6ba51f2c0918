import Mathlib.Data.Nat.Digits.Lemmas
import Banking.SignerPolicy
import Banking.Lib.Framing

/-! # The transactions the signer signs

A legacy EVM transaction in its RLP bytes, a Tron contract call, a TON wallet message: each is built
from parsed fields and hashed to the digest a key signs. Hashes, curve points, protobuf and the TON
cells are the libraries' (`ChainLib`); the parsing of addresses, the EVM bytes and what goes into
each message are the signer's own. -/

namespace Banking

/-! ## Bytes as text -/

/-- A hexadecimal digit of either case. -/
def hexDigit (c : Char) : Option Nat :=
  if '0' ≤ c ∧ c ≤ '9' then some (c.toNat - '0'.toNat)
  else if 'a' ≤ c ∧ c ≤ 'f' then some (c.toNat - 'a'.toNat + 10)
  else if 'A' ≤ c ∧ c ≤ 'F' then some (c.toNat - 'A'.toNat + 10)
  else none

/-- The bytes of pairs of hexadecimal digits. -/
def hexDecode : List Char → Option (List UInt8)
  | [] => some []
  | [_] => none
  | hi :: lo :: rest => do
    let hi ← hexDigit hi
    let lo ← hexDigit lo
    let bytes ← hexDecode rest
    some (UInt8.ofNat (16 * hi + lo) :: bytes)

/-- Bytes as lower-case hexadecimal digits. -/
def hexEncode (bytes : List UInt8) : String :=
  String.ofList (bytes.flatMap fun b => hexDigits 2 b.toNat)

/-- The 20 bytes of an EVM account. -/
abbrev EvmAddress : Type := { bytes : List UInt8 // bytes.length = 20 }

/-- The 21 bytes of a Tron account. -/
abbrev TronAddress : Type := { bytes : List UInt8 // bytes.length = 21 }

/-- Bytes of a given number, or nothing. -/
def ofLength (n : Nat) (bytes : List UInt8) : Option { bytes : List UInt8 // bytes.length = n } :=
  if h : bytes.length = n then some ⟨bytes, h⟩ else none

/-- Hexadecimal digits without the prefix `0x` they may have. -/
def stripHexPrefix : List Char → List Char
  | '0' :: 'x' :: rest => rest
  | s => s

/-- A 20-byte EVM address; casing is a display checksum. -/
def parseEvmAddress (value : String) : Option EvmAddress :=
  (hexDecode (stripHexPrefix value.toList)).bind (ofLength 20)

/-- The Base58 alphabet. -/
def base58Alphabet : List Char :=
  "123456789ABCDEFGHJKLMNPQRSTUVWXYZabcdefghijkmnopqrstuvwxyz".toList

/-- The digits of a Base58 text, most significant first. -/
def base58Digits (input : List Char) : Option (List Nat) :=
  input.mapM fun c => base58Alphabet.findIdx? (· = c)

/-- The big-endian bytes of a Base58 text; leading `1`s are leading zero bytes. -/
def base58Decode (input : List Char) : Option (List UInt8) :=
  (base58Digits input).map fun digits =>
    List.replicate (input.takeWhile (· = '1')).length 0
      ++ ((Nat.digits 256 (Nat.ofDigits 58 digits.reverse)).map UInt8.ofNat).reverse

/-- The raw form of a Base58Check Tron address, its checksum verified. -/
def tronBase58ToRaw (sha256 : List UInt8 → List UInt8) (address : String) : Option TronAddress := do
  let decoded ← base58Decode address.toList
  if decoded.length = 25 ∧ (sha256 (sha256 (decoded.take 21))).take 4 = decoded.drop 21 then
    ofLength 21 (decoded.take 21)
  else none

/-! ## EVM -/

/-- The selector of an ERC-20 transfer. -/
def ERC20_TRANSFER_SELECTOR : List UInt8 := [0xa9, 0x05, 0x9c, 0xbb]

/-- The calldata of an ERC-20 transfer: the selector, then the recipient and the amount, each
left-padded to 32 bytes. -/
def erc20TransferCalldata (recipient : EvmAddress) (amount : U128) : List UInt8 :=
  ERC20_TRANSFER_SELECTOR ++ List.replicate 12 0 ++ recipient.1 ++ List.replicate 16 0
    ++ Framing.beBytes 16 amount.val

/-- A legacy EVM transaction. -/
structure LegacyTx where
  chainId : U64
  nonce : U64
  gasPrice : U128
  gasLimit : U64
  toAddress : EvmAddress
  value : U128
  data : List UInt8
deriving DecidableEq

/-- Bytes without their leading zeros. -/
def trimLeft (bytes : List UInt8) : List UInt8 := bytes.dropWhile (· = 0)

/-- The RLP length prefix of a payload: strings from `0x80`, lists from `0xc0`. -/
def rlpLenPrefix (len : Nat) (offset : UInt8) : List UInt8 :=
  if len < 56 then [offset + UInt8.ofNat len]
  else
    let lenBytes := trimLeft (Framing.beBytes 8 len)
    (offset + 55 + UInt8.ofNat lenBytes.length) :: lenBytes

/-- A byte string in RLP. -/
def rlpStr (data : List UInt8) : List UInt8 :=
  match data with
  | [b] => if b < 0x80 then [b] else rlpLenPrefix 1 0x80 ++ [b]
  | data => rlpLenPrefix data.length 0x80 ++ data

/-- An RLP list of items already encoded. -/
def rlpList (items : List (List UInt8)) : List UInt8 :=
  rlpLenPrefix items.flatten.length 0xc0 ++ items.flatten

/-- A number in RLP: its big-endian bytes without leading zeros. -/
def rlpUint (n : U128) : List UInt8 := rlpStr (trimLeft (Framing.beBytes 16 n.val))

/-- The items a transaction has in its signing payload and in its signed form. -/
def LegacyTx.fields (tx : LegacyTx) : List (List UInt8) :=
  [rlpUint tx.nonce.toU128, rlpUint tx.gasPrice, rlpUint tx.gasLimit.toU128, rlpStr tx.toAddress.1,
    rlpUint tx.value, rlpStr tx.data]

/-- The payload EIP-155 hashes. -/
def LegacyTx.signingPayload (tx : LegacyTx) : List UInt8 :=
  rlpList (tx.fields ++ [rlpUint tx.chainId.toU128, rlpUint 0, rlpUint 0])

/-! ## Tron -/

/-- The recent block a Tron transaction refers to, and its time window. -/
structure TxRef.Tron where
  refBlockBytes : List UInt8
  refBlockHash : List UInt8
  expiration : I64
  timestamp : I64
deriving DecidableEq

/-- A call of a smart contract. -/
structure TriggerSmartContract where
  ownerAddress : TronAddress
  contractAddress : TronAddress
  callValue : Int
  data : List UInt8
  callTokenValue : Int
  tokenId : Int
deriving DecidableEq

/-- A transfer of TRX. -/
structure TransferContract where
  ownerAddress : TronAddress
  toAddress : TronAddress
  amount : I64
deriving DecidableEq

/-- The one contract of a Tron transaction. -/
inductive TronContract
  | triggerSmartContract (call : TriggerSmartContract)
  | transferContract (transfer : TransferContract)
deriving DecidableEq

/-- The signed part of a Tron transaction. -/
structure TronRaw where
  ref : TxRef.Tron
  contract : TronContract
  feeLimit : I64
deriving DecidableEq

/-- The body of a raw Tron address as an ABI argument takes it: without the version byte. -/
def TronAddress.account (a : TronAddress) : EvmAddress :=
  ⟨a.1.drop 1, by rw [List.length_drop, a.2]⟩

/-- A TRC20 transfer. -/
def buildUnsignedTrc20 (owner token recipient : TronAddress) (amount : U128) (feeLimit : I64)
    (ref : TxRef.Tron) : TronRaw where
  ref
  contract := .triggerSmartContract
    { ownerAddress := owner, contractAddress := token, callValue := 0
      data := erc20TransferCalldata recipient.account amount, callTokenValue := 0, tokenId := 0 }
  feeLimit

/-- A 128-bit number as a signed 64-bit one, if it fits. -/
def U128.toI64 (n : U128) : Option I64 :=
  if h : n.val < 2 ^ 63 then some ⟨n.val, by omega, by exact_mod_cast h⟩ else none

/-- A TRX transfer; it carries no fee limit. -/
def buildUnsignedTrx (owner recipient : TronAddress) (amount : U128) (ref : TxRef.Tron) :
    Option TronRaw :=
  amount.toI64.map fun amount =>
    ⟨ref, .transferContract ⟨owner, recipient, amount⟩, ⟨0, by decide⟩⟩

/-! ## TON -/

/-- A TEP-74 transfer body. -/
structure JettonBody where
  queryId : Nat
  amount : U128
  toOwner : TonAddress
  responseDestination : TonAddress
  forwardTonAmount : U64
deriving DecidableEq

/-- The message a TON wallet sends. -/
structure TonInternal where
  dest : TonAddress
  value : U128
  bounce : Bool
  body : Option JettonBody
deriving DecidableEq

/-- The message a TON wallet is sent to make it send one: `seqno` is carried in 32 bits. -/
structure TonExternal where
  publicKey : List UInt8
  internal : TonInternal
  seqno : U64
  validUntil : Nat
deriving DecidableEq

/-! ## The libraries -/

/-- What the signer calls of others: parsing, hashing, curve points, protobuf, TON cells. -/
structure ChainLib where
  parseUuid : String → Option Uuid
  keccak256 : List UInt8 → List UInt8
  sha256 : List UInt8 → List UInt8
  uncompressed : List UInt8 → Option (List UInt8)
  encodeTronRaw : TronRaw → List UInt8
  encodeTronTransaction : TronRaw → List UInt8 → List UInt8
  parseTonAddress : String → Except String TonAddress
  tonHex : TonAddress → String
  tonAddress : List UInt8 → Option String
  tonBodyHash : TonExternal → Except String (List UInt8)
  tonWrap : TonExternal → List UInt8 → Except String (String × String)

section Building

variable (lib : ChainLib)

/-- A TON address, if its rendering is one. -/
def ChainLib.parseTon (s : String) : Option TonAddress := (lib.parseTonAddress s).toOption

/-- A Tron address. -/
def ChainLib.parseTron (s : String) : Option TronAddress := tronBase58ToRaw lib.sha256 s

/-- The raw Tron address of a secp256k1 key: `0x41` and the account's 20 bytes. -/
def ChainLib.tronRawAddress (publicKey : List UInt8) : Option TronAddress :=
  (lib.uncompressed publicKey).bind fun point =>
    ofLength 21 (0x41 :: (lib.keccak256 (point.drop 1)).drop 12)

/-- The rendering the store looks an address up by. -/
def ChainLib.storedRendering (network : Network) (address : String) : Option String :=
  match network with
  | .bep20 | .polygon => some (asciiLower address)
  | .trc20 => some address
  | .ton => (lib.parseTon address).map lib.tonHex

/-- Whether two renderings mean one address. -/
def ChainLib.agree (network : Network) (ours theirs : String) : Bool :=
  addressesAgree lib.parseTon network ours theirs

/-- A transaction as it is signed. -/
inductive ChainTx
  | evm (tx : LegacyTx)
  | tron (raw : TronRaw)
  | ton (message : TonExternal)
deriving DecidableEq

/-- The digest a key signs for a transaction. -/
def ChainTx.digest : ChainTx → Except String (List UInt8)
  | .evm tx => .ok (lib.keccak256 tx.signingPayload)
  | .tron raw => .ok (lib.sha256 (lib.encodeTronRaw raw))
  | .ton message => lib.tonBodyHash message

/-- A signature as a key backend hands it out. -/
inductive ChainSignature
  | ecdsa (r s : List UInt8) (recoveryId : UInt8)
  | ed25519 (signature : List UInt8)
deriving DecidableEq

/-- What an answered signing request carries. -/
inductive SignedResponse
  | evm (rawTx txHash : String)
  | tron (signedTx txid : String) (expiration : I64)
  | ton (signedBoc msgHash : String) (seqno : U64) (validUntil : Nat)
deriving DecidableEq

/-- The wire's word for whatever failed at signing. -/
def signingFailed : SignerStatus := internalStatus "signing failed"

/-- The EIP-155 `v` of a signature. -/
def eip155V (chainId : U64) (recoveryId : UInt8) : U128 :=
  ⟨recoveryId.toNat + chainId.val * 2 + 35, by
    have hchain := chainId.isLt
    have hrecovery := recoveryId.toNat_lt
    omega⟩

/-- An EVM transaction with its signature. -/
def LegacyTx.assemble (tx : LegacyTx) : ChainSignature → Except SignerStatus SignedResponse
  | .ecdsa r s recoveryId =>
    let raw := rlpList (tx.fields
      ++ [rlpUint (eip155V tx.chainId recoveryId), rlpStr (trimLeft r), rlpStr (trimLeft s)])
    .ok (.evm ("0x" ++ hexEncode raw) ("0x" ++ hexEncode (lib.keccak256 raw)))
  | .ed25519 _ => .error signingFailed

/-- A Tron transaction with its signature. -/
def TronRaw.assemble (raw : TronRaw) : ChainSignature → Except SignerStatus SignedResponse
  | .ecdsa r s recoveryId =>
    .ok (.tron (hexEncode (lib.encodeTronTransaction raw (r ++ s ++ [recoveryId])))
      (hexEncode (lib.sha256 (lib.encodeTronRaw raw))) raw.ref.expiration)
  | .ed25519 _ => .error signingFailed

/-- A TON cell that could not be built or serialized. -/
def tonCell {α : Type} : Except String α → Except SignerStatus α
  | .ok a => .ok a
  | .error detail => .error (internalStatus ("cell build/serialize failed: " ++ detail))

/-- A TON message with its signature. -/
def TonExternal.assemble (message : TonExternal) :
    ChainSignature → Except SignerStatus SignedResponse
  | .ed25519 signature => do
    let (boc, hash) ← tonCell (lib.tonWrap message signature)
    .ok (.ton boc hash message.seqno message.validUntil)
  | .ecdsa .. => .error signingFailed

/-- A transaction with its signature. -/
def ChainTx.assemble : ChainTx → ChainSignature → Except SignerStatus SignedResponse
  | .evm tx => tx.assemble lib
  | .tron raw => raw.assemble lib
  | .ton message => message.assemble lib

/-- The field of a TON address in a request. -/
def ChainLib.tonField (field value : String) : Except SignerStatus TonAddress :=
  match lib.parseTonAddress value with
  | .ok address => .ok address
  | .error detail =>
    .error (invalidArgument ("invalid TON address (" ++ field ++ "): " ++ detail))

/-- A TEP-74 transfer to sign. -/
structure JettonTransferTx where
  ourJettonWallet : String
  toOwner : String
  responseDestination : String
  amount : U128
  forwardTonAmount : U64
  msgValue : U64
  seqno : U64
  validUntil : Nat
deriving DecidableEq, Repr

/-- The message of a jetton transfer: to the wallet's own jetton wallet, bounceable. -/
def buildUnsignedJetton (publicKey : List UInt8) (t : JettonTransferTx) :
    Except SignerStatus TonExternal := do
  let ourJettonWallet ← lib.tonField "our_jetton_wallet" t.ourJettonWallet
  let toOwner ← lib.tonField "to_address" t.toOwner
  let responseDestination ← lib.tonField "response_destination" t.responseDestination
  .ok ⟨publicKey, ⟨ourJettonWallet, t.msgValue.toU128, true,
    some ⟨0, t.amount, toOwner, responseDestination, t.forwardTonAmount⟩⟩, t.seqno, t.validUntil⟩

/-- The message of a plain Toncoin transfer: not bounceable, for its recipient may not be deployed.
-/
def buildUnsignedNative (publicKey : List UInt8) (toAddress : String) (amount : U128)
    (seqno : U64) (validUntil : Nat) : Except SignerStatus TonExternal := do
  let recipient ← lib.tonField "to_address" toAddress
  .ok ⟨publicKey, ⟨recipient, amount, false, none⟩, seqno, validUntil⟩

end Building

end Banking
