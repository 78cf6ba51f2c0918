import Banking.SignerRules
import Banking.Lib.Rlp

/-! # EVM transactions are canonical RLP

The bytes the signer writes of a legacy transaction, against the strict decoder: what it hashes for
the signature and what it hands out decode to exactly their nine items, every integer without
leading zeros, and no two transactions have one signing payload. A byte string in memory is shorter
than `2 ^ 63` bytes, and both halves of a signature have 32. -/

namespace Banking

open Rlp (Item)

/-! ## The signer's encoder -/

/-- The signer's reading of big-endian bytes is the format's. -/
theorem ofBytes_eq_number (bytes : List UInt8) : ofBytes bytes = Rlp.number bytes := by
  induction bytes with
  | nil => rfl
  | cons b bytes ih =>
    rw [Rlp.number_cons, ← ih, ← List.singleton_append, ofBytes_append]
    simp [ofBytes, Nat.add_comm]

/-- Leading zeros count nothing. -/
theorem number_trimLeft (bytes : List UInt8) : Rlp.number (trimLeft bytes) = Rlp.number bytes := by
  induction bytes with
  | nil => rfl
  | cons b bytes ih =>
    by_cases hb : b = 0
    · subst hb
      rw [Rlp.number_cons, trimLeft, List.dropWhile_cons_of_pos (by simp)]
      simpa [trimLeft] using ih
    · rw [trimLeft, List.dropWhile_cons_of_neg (by simpa using hb)]

theorem head_trimLeft (bytes : List UInt8) : (trimLeft bytes).head? ≠ some 0 := by
  intro hzero
  have hnot := List.head?_dropWhile_not (fun b : UInt8 => decide (b = 0)) bytes
  unfold trimLeft at hzero
  rw [hzero] at hnot
  simp at hnot

/-- **Bytes without their leading zeros** are their number's minimal bytes. -/
theorem trimLeft_eq (bytes : List UInt8) :
    trimLeft bytes = Rlp.minimalBytes (Rlp.number bytes) := by
  rw [← number_trimLeft, Rlp.minimalBytes_number (head_trimLeft bytes)]

theorem trimLeft_beBytes {w n : Nat} (hn : n < 256 ^ w) :
    trimLeft (Framing.beBytes w n) = Rlp.minimalBytes n := by
  rw [trimLeft_eq, ← ofBytes_eq_number, ofBytes_beBytes, Nat.mod_eq_of_lt hn]

/-- The prefix of a payload that fits in memory. -/
theorem rlpLenPrefix_eq {len : Nat} (hlen : len < 2 ^ 64) (offset : UInt8) :
    rlpLenPrefix len offset = Rlp.lengthPrefix offset.toNat len := by
  unfold rlpLenPrefix Rlp.lengthPrefix
  split_ifs
  · rw [UInt8.ofNat_add, UInt8.ofNat_toNat]
  · rw [trimLeft_beBytes (w := 8) hlen]
    simp only [UInt8.ofNat_add, UInt8.ofNat_toNat]
    rfl

/-- A byte string's encoding is the canonical one. -/
theorem rlpStr_eq {data : List UInt8} (hlen : data.length < 2 ^ 64) :
    rlpStr data = Rlp.encodeBytes data := by
  unfold rlpStr Rlp.encodeBytes
  split
  case h_1 b =>
    have hnumber : Rlp.number [b] = b.toNat := by simp [Rlp.number]
    simp only [List.length_singleton, true_and, hnumber, UInt8.lt_iff_toNat_lt]
    split_ifs with hsmall hsmall' hsmall'
    · rfl
    · exact absurd hsmall hsmall'
    · exact absurd hsmall' hsmall
    · rw [rlpLenPrefix_eq (by decide)]
      rfl
  case h_2 data hmany =>
    rw [if_neg, rlpLenPrefix_eq hlen]
    · rfl
    · intro hsmall
      obtain ⟨b, rfl⟩ := List.length_eq_one_iff.mp hsmall.1
      exact hmany b rfl

theorem rlpUint_eq (n : U128) : rlpUint n = Rlp.encodeBytes (Rlp.minimalBytes n.val) := by
  have hn : n.val < 256 ^ 16 := n.isLt.trans_le (by decide)
  have hlen : (Rlp.minimalBytes n.val).length ≤ 16 := Rlp.length_minimalBytes_le hn
  rw [rlpUint, trimLeft_beBytes hn, rlpStr_eq (by omega)]

/-! ## The two encodings of a transaction -/

/-- The six byte strings a transaction has in its signing payload and in its signed form. -/
def LegacyTx.chunks (tx : LegacyTx) : List (List UInt8) :=
  [Rlp.minimalBytes tx.nonce.val, Rlp.minimalBytes tx.gasPrice.val,
    Rlp.minimalBytes tx.gasLimit.val, tx.toAddress.1, Rlp.minimalBytes tx.value.val, tx.data]

/-- The same as items. -/
def LegacyTx.items (tx : LegacyTx) : List Item :=
  [.uint tx.nonce.val, .uint tx.gasPrice.val, .uint tx.gasLimit.val, .bytes tx.toAddress.1,
    .uint tx.value.val, .bytes tx.data]

/-- A number of at most 128 bits has at most 16 bytes. -/
theorem length_minimalBytes_u128 (n : U128) : (Rlp.minimalBytes n.val).length ≤ 16 :=
  Rlp.length_minimalBytes_le (n.isLt.trans_le (by decide))

theorem length_minimalBytes_u64 (n : U64) : (Rlp.minimalBytes n.val).length ≤ 16 :=
  length_minimalBytes_u128 n.toU128

section Encoded

variable {tx : LegacyTx}

theorem LegacyTx.fields_eq (hdata : tx.data.length < 2 ^ 63) :
    tx.fields = tx.chunks.map Rlp.encodeBytes := by
  have haddress := tx.toAddress.2
  simp only [LegacyTx.fields, LegacyTx.chunks, List.map_cons, List.map_nil, rlpUint_eq,
    U64.toU128_val]
  rw [rlpStr_eq (by omega), rlpStr_eq (by omega)]

/-- All but the calldata is short. -/
theorem LegacyTx.length_chunks (hdata : tx.data.length < 2 ^ 63) :
    ∀ bytes ∈ tx.chunks, bytes.length < 2 ^ 63 := by
  have haddress := tx.toAddress.2
  have hnonce := length_minimalBytes_u64 tx.nonce
  have hprice := length_minimalBytes_u128 tx.gasPrice
  have hlimit := length_minimalBytes_u64 tx.gasLimit
  have hvalue := length_minimalBytes_u128 tx.value
  simp only [LegacyTx.chunks, List.forall_mem_cons, List.not_mem_nil, false_imp_iff, implies_true,
    and_true]
  omega

theorem LegacyTx.length_flatMap_chunks (hdata : tx.data.length < 2 ^ 63) :
    (tx.chunks.flatMap Rlp.encodeBytes).length ≤ tx.data.length + 138 := by
  have haddress := tx.toAddress.2
  have hnonce := length_minimalBytes_u64 tx.nonce
  have hprice := length_minimalBytes_u128 tx.gasPrice
  have hlimit := length_minimalBytes_u64 tx.gasLimit
  have hvalue := length_minimalBytes_u128 tx.value
  have hshort : ∀ bytes : List UInt8, bytes.length < 2 ^ 63 →
      (Rlp.encodeBytes bytes).length ≤ bytes.length + 9 := fun bytes hbytes =>
    Rlp.length_encodeBytes_le (hbytes.trans (by decide))
  have h₁ := hshort (Rlp.minimalBytes tx.nonce.val) (by omega)
  have h₂ := hshort (Rlp.minimalBytes tx.gasPrice.val) (by omega)
  have h₃ := hshort (Rlp.minimalBytes tx.gasLimit.val) (by omega)
  have h₄ := hshort tx.toAddress.1 (by omega)
  have h₅ := hshort (Rlp.minimalBytes tx.value.val) (by omega)
  have h₆ := hshort tx.data hdata
  simp only [LegacyTx.chunks, List.flatMap_cons, List.flatMap_nil, List.length_append,
    List.length_nil]
  omega

/-- **The fields and three short integers more**, encoded as one list, are decoded. -/
theorem LegacyTx.decode_rlpList (hdata : tx.data.length < 2 ^ 63) {a b c : Nat}
    (ha : (Rlp.minimalBytes a).length ≤ 32) (hb : (Rlp.minimalBytes b).length ≤ 32)
    (hc : (Rlp.minimalBytes c).length ≤ 32) :
    Rlp.decode (rlpList (tx.fields ++ [Rlp.encodeBytes (Rlp.minimalBytes a),
      Rlp.encodeBytes (Rlp.minimalBytes b), Rlp.encodeBytes (Rlp.minimalBytes c)])) =
        some (.list (tx.items ++ [.uint a, .uint b, .uint c])) := by
  have hchunks : tx.fields ++ [Rlp.encodeBytes (Rlp.minimalBytes a),
      Rlp.encodeBytes (Rlp.minimalBytes b), Rlp.encodeBytes (Rlp.minimalBytes c)] =
      (tx.chunks ++ [Rlp.minimalBytes a, Rlp.minimalBytes b, Rlp.minimalBytes c]).map
        Rlp.encodeBytes := by
    rw [LegacyTx.fields_eq hdata, List.map_append]
    rfl
  have hlength : ∀ bytes ∈
      tx.chunks ++ [Rlp.minimalBytes a, Rlp.minimalBytes b, Rlp.minimalBytes c],
      bytes.length < 2 ^ 64 := by
    intro bytes hbytes
    rcases List.mem_append.mp hbytes with hfield | hmore
    · exact (LegacyTx.length_chunks hdata bytes hfield).trans (by decide)
    · simp only [List.mem_cons, List.not_mem_nil, or_false] at hmore
      rcases hmore with rfl | rfl | rfl <;> omega
  have htotal : ((tx.chunks ++ [Rlp.minimalBytes a, Rlp.minimalBytes b, Rlp.minimalBytes c]).flatMap
      Rlp.encodeBytes).length < 2 ^ 64 := by
    have hfields := LegacyTx.length_flatMap_chunks hdata
    have hmore : ∀ n, (Rlp.minimalBytes n).length ≤ 32 →
        (Rlp.encodeBytes (Rlp.minimalBytes n)).length ≤ 41 := fun n hn =>
      (Rlp.length_encodeBytes_le (by omega)).trans (by omega)
    have ha' := hmore a ha
    have hb' := hmore b hb
    have hc' := hmore c hc
    simp only [List.flatMap_append, List.flatMap_cons, List.flatMap_nil, List.length_append,
      List.length_nil]
    omega
  rw [hchunks, rlpList, ← List.flatMap_def, rlpLenPrefix_eq htotal]
  exact Rlp.decode_encodeList hlength htotal

end Encoded

/-- What the signing payload decodes to. -/
theorem LegacyTx.decode_signingPayload {tx : LegacyTx} (hdata : tx.data.length < 2 ^ 63) :
    Rlp.decode tx.signingPayload =
      some (.list (tx.items ++ [.uint tx.chainId.val, .uint 0, .uint 0])) := by
  have hchain := length_minimalBytes_u128 tx.chainId.toU128
  have hzero : (Rlp.minimalBytes 0).length ≤ 32 := by simp [Rlp.minimalBytes]
  rw [LegacyTx.signingPayload, rlpUint_eq, rlpUint_eq]
  exact LegacyTx.decode_rlpList hdata (by omega) hzero hzero

/-- An integer's item tells it. -/
theorem uint_inj {m n : Nat} (h : Item.uint m = Item.uint n) : m = n := by
  rw [← Rlp.number_minimalBytes m, ← Rlp.number_minimalBytes n, Item.bytes.inj h]

/-- **EVM transactions are canonical RLP**: the signed bytes decode to the nine items, the payload
that is hashed for the signature to its nine, and no two transactions have one payload. -/
theorem evm_transactions_canonical (lib : ChainLib) (tx : LegacyTx)
    (hdata : tx.data.length < 2 ^ 63) :
    (∀ (r s : List UInt8) (recoveryId : UInt8), r.length = 32 → s.length = 32 → ∃ raw,
      tx.assemble lib (.ecdsa r s recoveryId) =
        .ok (.evm ("0x" ++ hexEncode raw) ("0x" ++ hexEncode (lib.keccak256 raw))) ∧
      Rlp.decode raw = some (.list (tx.items ++
        [.uint (recoveryId.toNat + 2 * tx.chainId.val + 35), .uint (Rlp.number r),
          .uint (Rlp.number s)]))) ∧
    (ChainTx.evm tx).digest lib = .ok (lib.keccak256 tx.signingPayload) ∧
    Rlp.decode tx.signingPayload =
      some (.list (tx.items ++ [.uint tx.chainId.val, .uint 0, .uint 0])) ∧
    ∀ tx' : LegacyTx, tx'.data.length < 2 ^ 63 → tx'.signingPayload = tx.signingPayload →
      tx' = tx := by
  refine ⟨fun r s recoveryId hr hs => ⟨_, rfl, ?_⟩, rfl, LegacyTx.decode_signingPayload hdata,
    fun tx' hdata' hpayload => ?_⟩
  · have hv := length_minimalBytes_u128 (eip155V tx.chainId recoveryId)
    have hr' : (trimLeft r).length ≤ 32 := hr ▸ (List.dropWhile_suffix _).length_le
    have hs' : (trimLeft s).length ≤ 32 := hs ▸ (List.dropWhile_suffix _).length_le
    rw [rlpUint_eq, rlpStr_eq (by omega), rlpStr_eq (by omega), trimLeft_eq r, trimLeft_eq s]
    rw [trimLeft_eq] at hr' hs'
    rw [Nat.mul_comm 2]
    exact LegacyTx.decode_rlpList hdata (by omega) hr' hs'
  · -- both payloads decode to the items of their own transaction
    have hitems := LegacyTx.decode_signingPayload hdata'
    rw [hpayload, LegacyTx.decode_signingPayload hdata, Option.some.injEq, Item.list.injEq] at hitems
    simp only [LegacyTx.items, List.cons_append, List.nil_append, List.cons.injEq] at hitems
    obtain ⟨hnonce, hprice, hlimit, haddress, hvalue, hbytes, hchain, -⟩ := hitems
    cases tx
    cases tx'
    simp only [LegacyTx.mk.injEq]
    exact ⟨(Fin.ext (uint_inj hchain)).symm, (Fin.ext (uint_inj hnonce)).symm,
      (Fin.ext (uint_inj hprice)).symm, (Fin.ext (uint_inj hlimit)).symm,
      (Subtype.ext (Item.bytes.inj haddress)).symm, (Fin.ext (uint_inj hvalue)).symm,
      (Item.bytes.inj hbytes).symm⟩

/-! ## The worked example of EIP-155 -/

/-- A transfer of one ether, signed for chain 1. -/
def eip155Sample : LegacyTx where
  chainId := 1
  nonce := 9
  gasPrice := 20000000000
  gasLimit := 21000
  toAddress := ⟨List.replicate 20 0x35, rfl⟩
  value := 1000000000000000000
  data := []

/-- Bytes written in hexadecimal. -/
def hexBytes (digits : String) : List UInt8 := (hexDecode digits.toList).getD []

/-- Its signature. -/
def eip155R : List UInt8 :=
  hexBytes "28ef61340bd939bc2195fe537567866003e1a15d3c71ff63e1590620aa636276"

def eip155S : List UInt8 :=
  hexBytes "67cbe9d8997f761aecb703304b3800ccf555c9f3dc64214b297fb1966a3b6d83"

/-- Its signing payload, and the transaction signed. -/
def eip155Payload : List UInt8 := hexBytes
  "ec098504a817c800825208943535353535353535353535353535353535353535880de0b6b3a764000080018080"

def eip155Signed : List UInt8 := hexBytes
  ("f86c098504a817c800825208943535353535353535353535353535353535353535880de0b6b3a764000080" ++
    "25a028ef61340bd939bc2195fe537567866003e1a15d3c71ff63e1590620aa636276" ++
    "a067cbe9d8997f761aecb703304b3800ccf555c9f3dc64214b297fb1966a3b6d83")

/-- Libraries that hash its two encodings. -/
def eip155Lib : ChainLib where
  parseUuid _ := none
  keccak256 bytes :=
    if bytes = eip155Payload then
      hexBytes "daf5a779ae972f972197303d7b574746c7ef83eadac0f2791ad23db92e4c8e53"
    else if bytes = eip155Signed then
      hexBytes "33469b22e9f636356c4160a87eb19df52b7412e8eac32a4a55ffe88ea8350788"
    else []
  sha256 _ := []
  uncompressed _ := none
  encodeTronRaw _ := []
  encodeTronTransaction _ _ := []
  parseTonAddress _ := .error "not an address"
  tonHex _ := ""
  tonAddress _ := none
  tonBodyHash _ := .error "no cell"
  tonWrap _ _ := .error "no cell"

theorem evm_transactions_canonical_eip155 :
    ∃ raw, eip155Sample.assemble eip155Lib (.ecdsa eip155R eip155S 0) =
      .ok (.evm ("0x" ++ hexEncode raw) ("0x" ++ hexEncode (eip155Lib.keccak256 raw))) ∧
    Rlp.decode raw = some (.list (eip155Sample.items ++
      [.uint 37, .uint (Rlp.number eip155R), .uint (Rlp.number eip155S)])) :=
  (evm_transactions_canonical eip155Lib eip155Sample (by decide)).1 eip155R eip155S 0
    (by decide +kernel) (by decide +kernel)

example : eip155Sample.signingPayload = eip155Payload := by decide +kernel

end Banking
