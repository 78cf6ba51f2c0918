import Mathlib.Data.Nat.Digits.Lemmas

/-! # Canonical RLP

The recursive length prefix encoding of byte strings and lists, and the strict decoder of it: a
single small byte stands for itself, a string or a list of fewer than 56 bytes follows one byte that
holds its length, a longer one a byte that holds the length of its length and then the length; an
integer is its big-endian bytes without leading zeros. The decoder refuses every other spelling. A
list of byte strings is read back as it was written (`decode_encodeList`). -/

namespace Rlp

/-! ## Integers -/

/-- The number of big-endian bytes. -/
def number (bytes : List UInt8) : Nat := Nat.ofDigits 256 (bytes.reverse.map UInt8.toNat)

/-- The big-endian bytes of a number, without leading zeros. -/
def minimalBytes (n : Nat) : List UInt8 := ((Nat.digits 256 n).map UInt8.ofNat).reverse

theorem number_cons (b : UInt8) (bytes : List UInt8) :
    number (b :: bytes) = number bytes + 256 ^ bytes.length * b.toNat := by
  rw [number, List.reverse_cons, List.map_append, Nat.ofDigits_append, List.length_map,
    List.length_reverse]
  simp [number]

/-- **A number is read back** from its minimal bytes. -/
@[simp] theorem number_minimalBytes (n : Nat) : number (minimalBytes n) = n := by
  have hdigits : ((Nat.digits 256 n).map UInt8.ofNat).map UInt8.toNat = Nat.digits 256 n := by
    rw [List.map_map]
    refine (List.map_congr_left fun d hd => ?_).trans (List.map_id _)
    rw [Function.comp_apply, UInt8.toNat_ofNat',
      Nat.mod_eq_of_lt (Nat.digits_lt_base (by decide) hd)]
    rfl
  rw [number, minimalBytes, List.reverse_reverse, hdigits, Nat.ofDigits_digits]

/-- Bytes that do not begin with a zero are the minimal bytes of their number. -/
theorem minimalBytes_number {bytes : List UInt8} (h : bytes.head? ≠ some 0) :
    minimalBytes (number bytes) = bytes := by
  have hlow : ∀ d ∈ bytes.reverse.map UInt8.toNat, d < 256 := by
    intro d hd
    obtain ⟨b, -, rfl⟩ := List.mem_map.mp hd
    exact b.toNat_lt
  have hlast : ∀ hne : bytes.reverse.map UInt8.toNat ≠ [],
      (bytes.reverse.map UInt8.toNat).getLast hne ≠ 0 := by
    intro hne hzero
    rw [List.getLast_map, List.getLast_reverse] at hzero
    have hhead := List.head?_eq_some_head (l := bytes) (by simpa using hne)
    exact h (hhead.trans (congrArg some (UInt8.toNat_inj.mp hzero)))
  rw [minimalBytes, number, Nat.digits_ofDigits 256 (by decide) _ hlow hlast, List.map_map]
  have hid : UInt8.ofNat ∘ UInt8.toNat = id := by
    funext b
    exact UInt8.ofNat_toNat
  rw [hid, List.map_id, List.reverse_reverse]

/-- Minimal bytes do not begin with a zero. -/
theorem head_minimalBytes (n : Nat) : (minimalBytes n).head? ≠ some 0 := by
  rw [minimalBytes, List.head?_reverse, List.getLast?_map]
  intro hzero
  by_cases hne : Nat.digits 256 n = []
  · simp [hne] at hzero
  rw [List.getLast?_eq_some_getLast hne, Option.map_some, Option.some.injEq] at hzero
  have hn : n ≠ 0 := Nat.digits_ne_nil_iff_ne_zero.mp hne
  have hlt : (Nat.digits 256 n).getLast hne < 256 :=
    Nat.digits_lt_base (by decide) (List.getLast_mem hne)
  have hmod := congrArg UInt8.toNat hzero
  rw [UInt8.toNat_ofNat', Nat.mod_eq_of_lt hlt] at hmod
  exact Nat.getLast_digit_ne_zero 256 hn hmod

theorem length_minimalBytes_le {n k : Nat} (h : n < 256 ^ k) : (minimalBytes n).length ≤ k := by
  rw [minimalBytes, List.length_reverse, List.length_map]
  exact (Nat.digits_length_le_iff (by decide) n).mpr h

theorem length_minimalBytes_pos {n : Nat} (h : n ≠ 0) : 0 < (minimalBytes n).length := by
  rw [minimalBytes, List.length_reverse, List.length_map]
  exact List.length_pos_iff.mpr (Nat.digits_ne_nil_iff_ne_zero.mpr h)

/-! ## Decoding -/

/-- What RLP writes. -/
inductive Item
  | bytes (bytes : List UInt8)
  | list (items : List Item)

/-- An integer's item. -/
def Item.uint (n : Nat) : Item := .bytes (minimalBytes n)

/-- So many bytes off the front. -/
def takeExactly (n : Nat) (bytes : List UInt8) : Option (List UInt8 × List UInt8) :=
  if n ≤ bytes.length then some (bytes.take n, bytes.drop n) else none

/-- The payload that follows a prefix of a size below 64: from 56 on the size counts the bytes of
the length, which has no leading zero and is no smaller than 56. -/
def payloadOf (size : Nat) (bytes : List UInt8) : Option (List UInt8 × List UInt8) :=
  if size < 56 then takeExactly size bytes
  else do
    let (lenBytes, rest) ← takeExactly (size - 55) bytes
    if lenBytes.head? = some 0 ∨ number lenBytes < 56 then none
    else takeExactly (number lenBytes) rest

/-- The first item's payload, whether it is a list's, and what follows; a single small byte does not
stand behind a prefix. -/
def split : List UInt8 → Option (Bool × List UInt8 × List UInt8)
  | [] => none
  | b :: bytes =>
    if b.toNat < 0x80 then some (false, [b], bytes)
    else if b.toNat < 0xc0 then do
      let (payload, rest) ← payloadOf (b.toNat - 0x80) bytes
      if payload.length = 1 ∧ number payload < 0x80 then none else some (false, payload, rest)
    else do
      let (payload, rest) ← payloadOf (b.toNat - 0xc0) bytes
      some (true, payload, rest)

/-- The items of a payload, one after another; every item is at least a byte. -/
def decodeItems : Nat → List UInt8 → Option (List Item)
  | _, [] => some []
  | 0, _ :: _ => none
  | fuel + 1, b :: bytes => do
    let (isList, payload, rest) ← split (b :: bytes)
    let item ← if isList then (decodeItems fuel payload).map .list else some (.bytes payload)
    let items ← decodeItems fuel rest
    some (item :: items)

/-- **The one item bytes are the canonical encoding of.** -/
def decode (bytes : List UInt8) : Option Item :=
  match decodeItems bytes.length bytes with
  | some [item] => some item
  | _ => none

/-! ## Encoding -/

/-- The prefix of a payload: strings from `0x80`, lists from `0xc0`. -/
def lengthPrefix (offset len : Nat) : List UInt8 :=
  if len < 56 then [UInt8.ofNat (offset + len)]
  else UInt8.ofNat (offset + 55 + (minimalBytes len).length) :: minimalBytes len

/-- A byte string encoded. -/
def encodeBytes (bytes : List UInt8) : List UInt8 :=
  if bytes.length = 1 ∧ number bytes < 0x80 then bytes
  else lengthPrefix 0x80 bytes.length ++ bytes

/-- A list of byte strings encoded. -/
def encodeList (chunks : List (List UInt8)) : List UInt8 :=
  lengthPrefix 0xc0 (chunks.flatMap encodeBytes).length ++ chunks.flatMap encodeBytes

theorem takeExactly_append (a b : List UInt8) : takeExactly a.length (a ++ b) = some (a, b) := by
  rw [takeExactly, if_pos (by simp), List.take_left, List.drop_left]

/-- **A prefix and its payload** are taken off the front again. -/
theorem payloadOf_lengthPrefix {payload : List UInt8} (hlen : payload.length < 2 ^ 64)
    (offset : Nat) (rest : List UInt8) :
    ∃ size bytes, size < 64 ∧
      lengthPrefix offset payload.length ++ payload ++ rest = UInt8.ofNat (offset + size) :: bytes ∧
      payloadOf size bytes = some (payload, rest) := by
  by_cases hshort : payload.length < 56
  · refine ⟨payload.length, payload ++ rest, by omega, ?_, ?_⟩
    · rw [lengthPrefix, if_pos hshort]
      simp
    · rw [payloadOf, if_pos hshort, takeExactly_append]
  · have hmany : (minimalBytes payload.length).length ≤ 8 := length_minimalBytes_le hlen
    have hsome : 0 < (minimalBytes payload.length).length := length_minimalBytes_pos (by omega)
    refine ⟨55 + (minimalBytes payload.length).length,
      minimalBytes payload.length ++ (payload ++ rest), by omega, ?_, ?_⟩
    · rw [lengthPrefix, if_neg hshort, Nat.add_assoc]
      simp
    · rw [payloadOf, if_neg (by omega), Nat.add_sub_cancel_left, takeExactly_append]
      simp only [Option.bind_eq_bind, Option.bind_some, number_minimalBytes]
      rw [if_neg (not_or.mpr ⟨head_minimalBytes _, hshort⟩), takeExactly_append]

/-- A byte string is taken off the front again. -/
theorem split_encodeBytes {bytes : List UInt8} (hlen : bytes.length < 2 ^ 64) (rest : List UInt8) :
    split (encodeBytes bytes ++ rest) = some (false, bytes, rest) := by
  unfold encodeBytes
  split_ifs with hsmall
  · obtain ⟨b, rfl⟩ := List.length_eq_one_iff.mp hsmall.1
    have hb : b.toNat < 0x80 := by simpa [number_cons, number] using hsmall.2
    rw [List.singleton_append, split, if_pos hb]
  · obtain ⟨size, tail, hsize, happend, hpayload⟩ := payloadOf_lengthPrefix hlen 0x80 rest
    have hfirst : (UInt8.ofNat (0x80 + size)).toNat = 0x80 + size := by
      rw [UInt8.toNat_ofNat', Nat.mod_eq_of_lt (by omega)]
    rw [happend, split, hfirst, if_neg (by omega), if_pos (by omega), Nat.add_sub_cancel_left,
      hpayload]
    exact if_neg hsmall

/-- So is a list's payload. -/
theorem split_list {payload : List UInt8} (hlen : payload.length < 2 ^ 64) (rest : List UInt8) :
    split (lengthPrefix 0xc0 payload.length ++ payload ++ rest) = some (true, payload, rest) := by
  obtain ⟨size, tail, hsize, happend, hpayload⟩ := payloadOf_lengthPrefix hlen 0xc0 rest
  have hfirst : (UInt8.ofNat (0xc0 + size)).toNat = 0xc0 + size := by
    rw [UInt8.toNat_ofNat', Nat.mod_eq_of_lt (by omega)]
  rw [happend, split, hfirst, if_neg (by omega), if_neg (by omega), Nat.add_sub_cancel_left,
    hpayload]
  rfl

theorem lengthPrefix_ne_nil (offset len : Nat) : lengthPrefix offset len ≠ [] := by
  unfold lengthPrefix
  split_ifs <;> exact List.cons_ne_nil _ _

theorem encodeBytes_ne_nil (bytes : List UInt8) : encodeBytes bytes ≠ [] := by
  unfold encodeBytes
  split_ifs with hsmall
  · exact List.ne_nil_of_length_pos (by omega)
  · exact List.append_ne_nil_of_left_ne_nil (lengthPrefix_ne_nil _ _) _

theorem length_encodeBytes_le {bytes : List UInt8} (hlen : bytes.length < 2 ^ 64) :
    (encodeBytes bytes).length ≤ bytes.length + 9 := by
  have hmany : (minimalBytes bytes.length).length ≤ 8 := length_minimalBytes_le hlen
  unfold encodeBytes
  split_ifs
  · omega
  · unfold lengthPrefix
    split_ifs <;> simp only [List.length_append, List.length_cons, List.length_nil] <;> omega

theorem length_le_flatMap (chunks : List (List UInt8)) :
    chunks.length ≤ (chunks.flatMap encodeBytes).length := by
  induction chunks with
  | nil => exact Nat.zero_le _
  | cons bytes chunks ih =>
    have hpos := List.length_pos_iff.mpr (encodeBytes_ne_nil bytes)
    rw [List.flatMap_cons, List.length_append, List.length_cons]
    omega

/-- Byte strings one after another are read back. -/
theorem decodeItems_flatMap {chunks : List (List UInt8)}
    (hlen : ∀ bytes ∈ chunks, bytes.length < 2 ^ 64) {fuel : Nat} (hfuel : chunks.length ≤ fuel) :
    decodeItems fuel (chunks.flatMap encodeBytes) = some (chunks.map .bytes) := by
  induction chunks generalizing fuel with
  | nil => cases fuel <;> rfl
  | cons bytes chunks ih =>
    obtain ⟨fuel, rfl⟩ : ∃ n, fuel = n + 1 := ⟨fuel - 1, by simp at hfuel; omega⟩
    have hsplit := split_encodeBytes (hlen bytes List.mem_cons_self) (chunks.flatMap encodeBytes)
    have hrest := ih (fun b hb => hlen b (List.mem_cons_of_mem _ hb))
      (Nat.le_of_succ_le_succ hfuel)
    rw [List.flatMap_cons]
    obtain ⟨b, tail, hcons⟩ := List.exists_cons_of_ne_nil (encodeBytes_ne_nil bytes)
    rw [hcons, List.cons_append] at hsplit ⊢
    rw [decodeItems, hsplit]
    simp [hrest]

/-- **A list of byte strings is read back as it was written.** -/
theorem decode_encodeList {chunks : List (List UInt8)}
    (hlen : ∀ bytes ∈ chunks, bytes.length < 2 ^ 64)
    (htotal : (chunks.flatMap encodeBytes).length < 2 ^ 64) :
    decode (encodeList chunks) = some (.list (chunks.map .bytes)) := by
  obtain ⟨b, tail, hcons⟩ := List.exists_cons_of_ne_nil
    (List.append_ne_nil_of_left_ne_nil (lengthPrefix_ne_nil 0xc0 (chunks.flatMap encodeBytes).length)
      (chunks.flatMap encodeBytes))
  have hsplit := split_list htotal []
  have hlong : (chunks.flatMap encodeBytes).length ≤ tail.length := by
    have := congrArg List.length hcons
    have hpos := List.length_pos_iff.mpr
      (lengthPrefix_ne_nil 0xc0 (chunks.flatMap encodeBytes).length)
    rw [List.length_append, List.length_cons] at this
    omega
  rw [List.append_nil, hcons] at hsplit
  rw [decode, encodeList, hcons, List.length_cons, decodeItems, hsplit]
  simp only [Option.bind_eq_bind, Option.bind_some, if_true]
  rw [decodeItems_flatMap hlen ((length_le_flatMap chunks).trans hlong)]
  cases tail <;> rfl

end Rlp
