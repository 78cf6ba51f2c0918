import Banking.ChainTx
import Banking.Lib.Radix

/-! # Base58Check addresses

The signer's own two conversions between bytes and Base58 text, each a buffer of digits that is
multiplied and carried through for every digit read, and the Tron addresses made with them. The
conversions are exact inverses of each other for every length and every leading zero; an address is
accepted just when it is the Base58Check encoding of 21 bytes, whatever the first of these is. -/

namespace Banking

namespace KeyVault

/-! ## Base58 -/

/-- The Base58 alphabet, in bytes. -/
def ALPHABET : List UInt8 := base58Alphabet.map fun c => UInt8.ofNat c.toNat

/-- The bytes of a text. -/
def textBytes (s : String) : List UInt8 := s.toList.flatMap String.utf8EncodeChar

/-- A carry that is left. -/
theorem carry_pos {carry : UInt32} : 0 < carry ↔ 0 < carry.toNat := by
  rw [UInt32.lt_iff_toNat_lt]
  rfl

/-- What is left of a carry, in digits of base 58. -/
def pushDigits (carry : UInt32) : List (Fin 58) :=
  if 0 < carry then Fin.ofNat 58 (carry % 58).toNat :: pushDigits (carry / 58) else []
termination_by carry.toNat
decreasing_by
  rw [UInt32.toNat_div]
  exact Nat.div_lt_self (carry_pos.mp ‹_›) (by decide)

/-- A byte taken into the digits, least significant first. -/
def takeByte : List (Fin 58) → UInt32 → List (Fin 58)
  | [], carry => pushDigits carry
  | digit :: digits, carry =>
    let carry := carry + (UInt32.ofNat digit.val <<< 8)
    Fin.ofNat 58 (carry % 58).toNat :: takeByte digits (carry / 58)

/-- The character of a digit. -/
def digitChar (digit : Fin 58) : Char := base58Alphabet.get (digit.cast (by decide))

/-- **Bytes in Base58.** Leading zero bytes are leading `1`s. -/
def base58Encode (input : List UInt8) : String :=
  let zeros := (input.takeWhile (· = 0)).length
  let digits := input.foldl (fun digits byte => takeByte digits byte.toUInt32) []
  String.ofList (List.replicate zeros '1' ++ digits.reverse.map digitChar)

/-- What is left of a carry, in bytes. -/
def pushBytes (carry : UInt32) : List UInt8 :=
  if 0 < carry then (carry &&& 0xff).toUInt8 :: pushBytes (carry >>> 8) else []
termination_by carry.toNat
decreasing_by
  rw [UInt32.toNat_shiftRight]
  have hpos := carry_pos.mp ‹_›
  simp only [UInt32.reduceToNat, Nat.reduceMod, Nat.shiftRight_eq_div_pow]
  omega

/-- A digit taken into the bytes, least significant first. -/
def takeDigit : List UInt8 → UInt32 → List UInt8
  | [], carry => pushBytes carry
  | byte :: bytes, carry =>
    let carry := carry + byte.toUInt32 * 58
    (carry &&& 0xff).toUInt8 :: takeDigit bytes (carry >>> 8)

/-- **The bytes of a Base58 text.** Leading `1`s are leading zero bytes; a byte outside the alphabet
is refused. -/
def base58Decode (input : String) : Option (List UInt8) := do
  let zeros := ((textBytes input).takeWhile (· = 0x31)).length
  let bytes ← (textBytes input).foldlM (fun bytes ch => do
    let carry ← ALPHABET.findIdx? (· = ch)
    return takeDigit bytes (UInt32.ofNat carry)) []
  return List.replicate zeros 0 ++ bytes.reverse

/-! ## Addresses -/

/-- The 32 bytes of a digest. -/
abbrev Digest : Type := { bytes : List UInt8 // bytes.length = 32 }

section Addresses

variable (sha256 : List UInt8 → Digest)

/-- The checksum of a payload. -/
def checksum (payload : List UInt8) : List UInt8 := (sha256 (sha256 payload).1).1.take 4

/-- Base58Check: the payload and its checksum in Base58. -/
def base58check (payload : List UInt8) : String := base58Encode (payload ++ checksum sha256 payload)

/-- The Tron address of a secp256k1 key. -/
def tronAddress (lib : ChainLib) (publicKey : List UInt8) : Option String :=
  (lib.tronRawAddress publicKey).map fun raw => base58check sha256 raw.1

/-- The raw form of a Tron address: its alphabet, length and checksum verified. -/
def tronBase58ToRaw (address : String) : Option TronAddress := do
  let decoded ← base58Decode address
  if decoded.length ≠ 25 then none
  else
    let (payload, check) := decoded.splitAt 21
    if checksum sha256 payload ≠ check then none else ofLength 21 payload

end Addresses

/-! ## What the conversions compute -/

/-- A carry of base 58 is that number's digits. -/
theorem pushDigits_val (carry : UInt32) :
    (pushDigits carry).map Fin.val = Nat.digits 58 carry.toNat := by
  induction hn : carry.toNat using Nat.strongRecOn generalizing carry with
  | _ n ih =>
    subst hn
    rw [pushDigits]
    split
    case isTrue hpos =>
      have hpos := carry_pos.mp hpos
      have hdiv : (carry / 58).toNat = carry.toNat / 58 := UInt32.toNat_div carry 58
      have hmod : (carry % 58).toNat = carry.toNat % 58 := UInt32.toNat_mod carry 58
      rw [Nat.digits_def' (by decide) hpos, List.map_cons,
        ih _ (hdiv ▸ Nat.div_lt_self hpos (by decide)) _ rfl, hdiv, Fin.val_ofNat, hmod,
        Nat.mod_mod]
    case isFalse hzero =>
      have hzero : carry.toNat = 0 := Nat.eq_zero_of_not_pos (mt carry_pos.mpr hzero)
      rw [hzero, Nat.digits_zero]
      rfl

/-- **Taking a byte in** is a pass of base 58; the carry stays within a byte, so that its 32 bits
are never exceeded. -/
theorem takeByte_val {digits : List (Fin 58)} {carry : UInt32} (hcarry : carry.toNat < 256) :
    (takeByte digits carry).map Fin.val = Radix.pass 58 256 (digits.map Fin.val) carry.toNat := by
  induction digits generalizing carry with
  | nil => exact pushDigits_val carry
  | cons digit digits ih =>
    have hdigit := digit.isLt
    have hsum : (carry + (UInt32.ofNat digit.val <<< 8)).toNat = carry.toNat + digit.val * 256 := by
      rw [UInt32.toNat_add, UInt32.toNat_shiftLeft, UInt32.toNat_ofNat']
      simp only [UInt32.reduceToNat, Nat.reduceMod, Nat.shiftLeft_eq]
      omega
    have hdiv : ((carry + (UInt32.ofNat digit.val <<< 8)) / 58).toNat =
        (carry.toNat + digit.val * 256) / 58 := by
      rw [UInt32.toNat_div, hsum]
      rfl
    have hmod : ((carry + (UInt32.ofNat digit.val <<< 8)) % 58).toNat =
        (carry.toNat + digit.val * 256) % 58 := by
      rw [UInt32.toNat_mod, hsum]
      rfl
    rw [takeByte, List.map_cons, List.map_cons, Radix.pass, ih (by rw [hdiv]; omega), hdiv,
      Fin.val_ofNat, hmod, Nat.mod_mod]

/-- The low byte of a carry. -/
theorem toNat_low (carry : UInt32) : (carry &&& 0xff).toUInt8.toNat = carry.toNat % 256 := by
  have hmask : (0xff : UInt32).toNat = 2 ^ 8 - 1 := rfl
  rw [UInt32.toNat_toUInt8, UInt32.toNat_and, hmask, Nat.and_two_pow_sub_one_eq_mod, Nat.mod_mod]

/-- The rest of it. -/
theorem toNat_high (carry : UInt32) : (carry >>> 8).toNat = carry.toNat / 256 := by
  rw [UInt32.toNat_shiftRight]
  simp only [UInt32.reduceToNat, Nat.reduceMod, Nat.shiftRight_eq_div_pow, Nat.reducePow]

/-- A carry in bytes is that number's digits. -/
theorem pushBytes_toNat (carry : UInt32) :
    (pushBytes carry).map UInt8.toNat = Nat.digits 256 carry.toNat := by
  induction hn : carry.toNat using Nat.strongRecOn generalizing carry with
  | _ n ih =>
    subst hn
    rw [pushBytes]
    split
    case isTrue hpos =>
      have hpos := carry_pos.mp hpos
      rw [Nat.digits_def' (by decide) hpos, List.map_cons, toNat_low, ← toNat_high,
        ih _ (toNat_high carry ▸ Nat.div_lt_self hpos (by decide)) _ rfl]
    case isFalse hzero =>
      have hzero : carry.toNat = 0 := Nat.eq_zero_of_not_pos (mt carry_pos.mpr hzero)
      rw [hzero, Nat.digits_zero]
      rfl

/-- **Taking a digit in** is a pass of base 256; the carry stays below 58. -/
theorem takeDigit_toNat {bytes : List UInt8} {carry : UInt32} (hcarry : carry.toNat < 58) :
    (takeDigit bytes carry).map UInt8.toNat =
      Radix.pass 256 58 (bytes.map UInt8.toNat) carry.toNat := by
  induction bytes generalizing carry with
  | nil => exact pushBytes_toNat carry
  | cons byte bytes ih =>
    have hbyte := byte.toNat_lt
    have hsum : (carry + byte.toUInt32 * 58).toNat = carry.toNat + byte.toNat * 58 := by
      rw [UInt32.toNat_add, UInt32.toNat_mul, UInt8.toNat_toUInt32]
      simp only [UInt32.reduceToNat]
      omega
    have hhigh : ((carry + byte.toUInt32 * 58) >>> 8).toNat =
        (carry.toNat + byte.toNat * 58) / 256 := by rw [toNat_high, hsum]
    rw [takeDigit, List.map_cons, List.map_cons, Radix.pass, toNat_low, hsum,
      ih (by rw [hhigh]; omega), hhigh]

/-- The bytes of a number of digits. -/
theorem foldl_takeByte (input : List UInt8) :
    (input.foldl (fun digits byte => takeByte digits byte.toUInt32) []).map Fin.val =
      Nat.digits 58 (Radix.value 256 (input.map UInt8.toNat)) := by
  rw [← Radix.foldl_pass (by decide) (by decide), List.foldl_map]
  refine (List.foldl_hom (List.map Fin.val) fun digits byte => ?_).symm
  rw [takeByte_val (by rw [UInt8.toNat_toUInt32]; exact byte.toNat_lt), UInt8.toNat_toUInt32]

/-- And the digits of a number of bytes. -/
theorem foldl_takeDigit (digits : List (Fin 58)) :
    (digits.foldl (fun bytes digit => takeDigit bytes (UInt32.ofNat digit.val)) []).map
        UInt8.toNat = Nat.digits 256 (Radix.value 58 (digits.map Fin.val)) := by
  rw [← Radix.foldl_pass (by decide) (by decide), List.foldl_map]
  refine (List.foldl_hom (List.map UInt8.toNat) fun bytes digit => ?_).symm
  have hdigit : (UInt32.ofNat digit.val).toNat = digit.val := by
    rw [UInt32.toNat_ofNat']
    omega
  rw [takeDigit_toNat (hdigit.symm ▸ digit.isLt), hdigit]

/-! ## The alphabet in a text -/

/-- A character is one byte of ASCII, or several bytes none of which is. -/
theorem utf8EncodeChar_cases (c : Char) :
    (c.toNat < 128 ∧ String.utf8EncodeChar c = [UInt8.ofNat c.toNat]) ∨
      (128 ≤ c.toNat ∧ ∃ b rest, String.utf8EncodeChar c = b :: rest ∧ 128 ≤ b.toNat) := by
  have hval : c.val.toNat = c.toNat := rfl
  unfold String.utf8EncodeChar
  simp only [hval]
  split
  · exact .inl ⟨by omega, rfl⟩
  refine .inr ⟨by omega, ?_⟩
  split
  · refine ⟨_, _, rfl, ?_⟩
    rw [UInt8.toNat_ofNat']
    omega
  split
  · refine ⟨_, _, rfl, ?_⟩
    rw [UInt8.toNat_ofNat']
    omega
  · refine ⟨_, _, rfl, ?_⟩
    rw [UInt8.toNat_ofNat']
    omega

/-- The alphabet is ASCII. -/
theorem base58Alphabet_ascii (c : Char) (h : c ∈ base58Alphabet) : c.toNat < 128 := by
  have hall : base58Alphabet.all (fun c => decide (c.toNat < 128)) = true := by decide +kernel
  exact of_decide_eq_true (List.all_eq_true.mp hall c h)

/-- A place depends on the elements alone. -/
theorem findIdx?_congr {α : Type} {p p' : α → Bool} {xs : List α} (h : ∀ x ∈ xs, p x = p' x) :
    xs.findIdx? p = xs.findIdx? p' := by
  induction xs with
  | nil => rfl
  | cons x xs ih =>
    rw [List.findIdx?_cons, List.findIdx?_cons, h x List.mem_cons_self,
      ih fun y hy => h y (List.mem_cons_of_mem x hy)]

/-- The place of a byte in the alphabet is that of the character. -/
theorem findIdx_ofNat {c : Char} (hc : c.toNat < 128) :
    ALPHABET.findIdx? (· = UInt8.ofNat c.toNat) = base58Alphabet.findIdx? (· = c) := by
  unfold ALPHABET
  rw [List.findIdx?_map]
  refine findIdx?_congr fun d hd => ?_
  have hlt := base58Alphabet_ascii d hd
  refine decide_eq_decide.mpr ⟨fun h => ?_, fun h => h ▸ rfl⟩
  have hnat := congrArg UInt8.toNat h
  rw [UInt8.toNat_ofNat', UInt8.toNat_ofNat'] at hnat
  exact Char.toNat_inj.mp (by omega)

/-- A byte outside ASCII is not in the alphabet. -/
theorem findIdx_large {b : UInt8} (hb : 128 ≤ b.toNat) : ALPHABET.findIdx? (· = b) = none := by
  rw [List.findIdx?_eq_none_iff]
  intro d hd
  obtain ⟨c, hc, rfl⟩ := List.mem_map.mp hd
  have hlt := base58Alphabet_ascii c hc
  refine decide_eq_false fun h => ?_
  rw [← h, UInt8.toNat_ofNat'] at hb
  omega

/-- Nor is a character. -/
theorem findIdx_char_large {c : Char} (hc : 128 ≤ c.toNat) :
    base58Alphabet.findIdx? (· = c) = none := by
  rw [List.findIdx?_eq_none_iff]
  intro d hd
  have hlt := base58Alphabet_ascii d hd
  refine decide_eq_false fun h => ?_
  subst h
  omega

/-- **A text's bytes have the digits its characters have.** -/
theorem mapM_textBytes (s : List Char) :
    (s.flatMap String.utf8EncodeChar).mapM (fun ch => ALPHABET.findIdx? (· = ch)) =
      base58Digits s := by
  unfold base58Digits
  induction s with
  | nil => rfl
  | cons c s ih =>
    rw [List.flatMap_cons, List.mapM_append, ih, List.mapM_cons]
    rcases utf8EncodeChar_cases c with ⟨hc, hone⟩ | ⟨hc, b, rest, hmany, hb⟩
    · rw [hone, List.mapM_cons, List.mapM_nil, findIdx_ofNat hc]
      cases base58Alphabet.findIdx? (· = c) <;> rfl
    · rw [hmany, List.mapM_cons, findIdx_large hb, findIdx_char_large hc]
      rfl

/-- And as many leading `1`s. -/
theorem takeWhile_textBytes (s : List Char) :
    ((s.flatMap String.utf8EncodeChar).takeWhile (· = 0x31)).length =
      (s.takeWhile (· = '1')).length := by
  induction s with
  | nil => rfl
  | cons c s ih =>
    rw [List.flatMap_cons]
    rcases utf8EncodeChar_cases c with ⟨hc, hone⟩ | ⟨hc, b, rest, hmany, hb⟩
    · have hsame : UInt8.ofNat c.toNat = 0x31 ↔ c = '1' := by
        refine ⟨fun h => ?_, fun h => h ▸ rfl⟩
        have hnat := congrArg UInt8.toNat h
        rw [UInt8.toNat_ofNat', Nat.mod_eq_of_lt (by omega)] at hnat
        exact Char.toNat_inj.mp hnat
      rw [hone, List.singleton_append, List.takeWhile_cons, List.takeWhile_cons]
      by_cases hc1 : c = '1'
      · rw [decide_eq_true (hsame.mpr hc1), decide_eq_true hc1]
        simp only [if_true, List.length_cons, ih]
      · rw [decide_eq_false (mt hsame.mp hc1), decide_eq_false hc1]
        rfl
    · have hne : c ≠ '1' := fun h => by
        subst h
        exact absurd hc (by decide)
      have hbne : b ≠ 0x31 := fun h => by
        subst h
        exact absurd hb (by decide)
      rw [hmany, List.cons_append, List.takeWhile_cons_of_neg (by simpa using hbne),
        List.takeWhile_cons_of_neg (by simpa using hne)]
      rfl

/-- The digit of a character, and the character of a digit. -/
theorem findIdx_digitChar : ∀ digit : Fin 58,
    base58Alphabet.findIdx? (· = digitChar digit) = some digit.val := by decide +kernel

/-- A character with a place in the alphabet is that digit's. -/
theorem findIdx_eq_some {c : Char} {i : ℕ} (h : base58Alphabet.findIdx? (· = c) = some i) :
    ∃ digit : Fin 58, c = digitChar digit ∧ i = digit.val := by
  obtain ⟨hi, hc, -⟩ := List.findIdx?_eq_some_iff_getElem.mp h
  exact ⟨⟨i, hi⟩, (of_decide_eq_true hc).symm, rfl⟩

/-- **The texts with digits** are those of the alphabet. -/
theorem base58Digits_eq_some {s : List Char} {ds : List ℕ} :
    base58Digits s = some ds ↔
      ∃ digits : List (Fin 58), s = digits.map digitChar ∧ ds = digits.map Fin.val := by
  unfold base58Digits
  induction s generalizing ds with
  | nil =>
    constructor
    · intro h
      exact ⟨[], rfl, (Option.some.inj h).symm⟩
    · rintro ⟨digits, hs, rfl⟩
      rw [List.map_eq_nil_iff.mp hs.symm]
      rfl
  | cons c s ih =>
    rw [List.mapM_cons]
    constructor
    · intro h
      obtain ⟨i, hi, h⟩ := Option.bind_eq_some_iff.mp h
      obtain ⟨rest, hrest, h⟩ := Option.bind_eq_some_iff.mp h
      obtain ⟨digit, rfl, rfl⟩ := findIdx_eq_some hi
      obtain ⟨digits, rfl, rfl⟩ := ih.mp hrest
      exact ⟨digit :: digits, rfl, (Option.some.inj h).symm⟩
    · rintro ⟨digits, hs, rfl⟩
      obtain ⟨digit, digits, rfl, rfl, rfl⟩ := List.map_eq_cons_iff.mp hs.symm
      rw [findIdx_digitChar, ih.mpr ⟨digits, rfl, rfl⟩]
      rfl

/-! ## The conversions as numerals -/

/-- Elements read one by one, and what they are read as taken in together. -/
theorem foldlM_read {α β γ : Type} (f : α → Option β) (g : γ → β → γ) (xs : List α) (c : γ) :
    (xs.foldlM (fun c x => do
      let b ← f x
      return g c b) c) = (xs.mapM f).map (List.foldl g c) := by
  induction xs generalizing c with
  | nil => rfl
  | cons x xs ih =>
    rw [List.foldlM_cons, List.mapM_cons]
    cases f x with
    | none => rfl
    | some b =>
      refine (ih (g c b)).trans ?_
      cases xs.mapM f <;> rfl

/-- **Decoding** reads the digits of a text, and takes them in. -/
theorem base58Decode_eq_map (input : String) :
    base58Decode input = (base58Digits input.toList).map fun digits =>
      List.replicate (input.toList.takeWhile (· = '1')).length 0 ++
        (digits.foldl (fun bytes digit => takeDigit bytes (UInt32.ofNat digit)) []).reverse := by
  unfold base58Decode textBytes
  rw [takeWhile_textBytes]
  simp only [foldlM_read (fun ch => ALPHABET.findIdx? (· = ch))
    (fun bytes carry => takeDigit bytes (UInt32.ofNat carry)), mapM_textBytes]
  cases base58Digits input.toList <;> rfl

/-- The leading `1`s of a text are the leading zeros of its digits. -/
theorem takeWhile_digitChar (digits : List (Fin 58)) :
    ((digits.map digitChar).takeWhile (· = '1')).length = Radix.zeros (digits.map Fin.val) := by
  have hone : ∀ digit : Fin 58, decide (digitChar digit = '1') = decide (digit.val = 0) := by
    decide +kernel
  unfold Radix.zeros
  rw [List.takeWhile_map, List.takeWhile_map, List.length_map, List.length_map]
  exact congrArg (fun p => (digits.takeWhile p).length) (funext hone)

/-- The leading zero bytes are the leading zeros of the numeral they are. -/
theorem takeWhile_zero (bytes : List UInt8) :
    (bytes.takeWhile (· = 0)).length = Radix.zeros (bytes.map UInt8.toNat) := by
  have hzero : ∀ byte : UInt8, decide (byte = 0) = decide (byte.toNat = 0) := fun byte =>
    decide_eq_decide.mpr UInt8.toNat_inj.symm
  unfold Radix.zeros
  rw [List.takeWhile_map, List.length_map]
  exact congrArg (fun p => (bytes.takeWhile p).length) (funext hzero)

/-- Bytes are what their numbers are bytes of. -/
theorem map_ofNat_toNat (bytes : List UInt8) : (bytes.map UInt8.toNat).map UInt8.ofNat = bytes := by
  rw [List.map_map]
  exact (List.map_congr_left fun byte _ => UInt8.ofNat_toNat).trans (List.map_id bytes)

/-- **Encoding** turns the bytes to base 58. -/
theorem base58Encode_digits (input : List UInt8) :
    ∃ digits : List (Fin 58), base58Encode input = String.ofList (digits.map digitChar) ∧
      digits.map Fin.val = Radix.recode 256 58 (input.map UInt8.toNat) := by
  refine ⟨List.replicate (Radix.zeros (input.map UInt8.toNat)) 0 ++
    (input.foldl (fun digits byte => takeByte digits byte.toUInt32) []).reverse, ?_, ?_⟩
  · unfold base58Encode
    rw [takeWhile_zero, List.map_append, List.map_replicate]
    rfl
  · rw [Radix.recode, List.map_append, List.map_replicate, List.map_reverse, foldl_takeByte]
    rfl

/-- **Decoding** turns the digits to base 256. -/
theorem base58Decode_digits (digits : List (Fin 58)) :
    base58Decode (String.ofList (digits.map digitChar)) =
      some ((Radix.recode 58 256 (digits.map Fin.val)).map UInt8.ofNat) := by
  rw [base58Decode_eq_map, String.toList_ofList, base58Digits_eq_some.mpr ⟨digits, rfl, rfl⟩,
    Option.map_some, takeWhile_digitChar, Radix.recode, List.map_append, List.map_replicate,
    List.map_reverse, ← foldl_takeDigit, map_ofNat_toNat, List.foldl_map]
  rfl

/-- A text that decodes is one of the alphabet. -/
theorem digits_of_base58Decode {input : String} {bytes : List UInt8}
    (h : base58Decode input = some bytes) :
    ∃ digits : List (Fin 58), input = String.ofList (digits.map digitChar) := by
  rw [base58Decode_eq_map] at h
  obtain ⟨ds, hds, -⟩ := Option.map_eq_some_iff.mp h
  obtain ⟨digits, hinput, -⟩ := base58Digits_eq_some.mp hds
  exact ⟨digits, by rw [← hinput, String.ofList_toList]⟩

/-- The signer's decoding is the one the chains' transactions were modelled with. -/
theorem base58Decode_eq (input : String) :
    base58Decode input = Banking.base58Decode input.toList := by
  unfold Banking.base58Decode
  cases hds : base58Digits input.toList with
  | none => rw [base58Decode_eq_map, hds, Option.map_none, Option.map_none]
  | some ds =>
    obtain ⟨digits, hinput, rfl⟩ := base58Digits_eq_some.mp hds
    obtain rfl : input = String.ofList (digits.map digitChar) := by
      rw [← hinput, String.ofList_toList]
    rw [base58Decode_digits, hinput, takeWhile_digitChar, Option.map_some, Radix.recode,
      Radix.value_eq_ofDigits, List.map_append, List.map_replicate, List.map_reverse]
    rfl

/-! ## One the inverse of the other -/

/-- The bytes of a numeral of base 256. -/
theorem map_toNat_ofNat {numeral : List ℕ} (h : ∀ d ∈ numeral, d < 256) :
    (numeral.map UInt8.ofNat).map UInt8.toNat = numeral := by
  rw [List.map_map]
  refine (List.map_congr_left fun d hd => ?_).trans (List.map_id numeral)
  exact (UInt8.toNat_ofNat').trans (Nat.mod_eq_of_lt (h d hd))

/-- **What is encoded decodes** to what it was. -/
theorem base58Decode_base58Encode (x : List UInt8) : base58Decode (base58Encode x) = some x := by
  obtain ⟨digits, htext, hdigits⟩ := base58Encode_digits x
  have hlt : ∀ d ∈ x.map UInt8.toNat, d < 256 := by
    intro d hd
    obtain ⟨byte, -, rfl⟩ := List.mem_map.mp hd
    exact byte.toNat_lt
  rw [htext, base58Decode_digits, hdigits, Radix.recode_recode (by decide) hlt, map_ofNat_toNat]

/-- **What decodes is encoded** back as it was. -/
theorem base58Encode_of_base58Decode {s : String} {x : List UInt8}
    (h : base58Decode s = some x) : base58Encode x = s := by
  obtain ⟨digits, rfl⟩ := digits_of_base58Decode h
  obtain rfl := Option.some.inj ((base58Decode_digits digits).symm.trans h)
  obtain ⟨digits', htext, hdigits'⟩ := base58Encode_digits
    ((Radix.recode 58 256 (digits.map Fin.val)).map UInt8.ofNat)
  have hlt : ∀ d ∈ digits.map Fin.val, d < 58 := by
    intro d hd
    obtain ⟨digit, -, rfl⟩ := List.mem_map.mp hd
    exact digit.isLt
  rw [map_toNat_ofNat fun d hd => Radix.lt_of_mem_recode (by decide) hd,
    Radix.recode_recode (by decide) hlt] at hdigits'
  rw [htext, List.map_injective_iff.mpr Fin.val_injective hdigits']

/-! ## Tron addresses -/

section Inverse

variable {sha256 : List UInt8 → Digest}

/-- A checksum has four bytes. -/
theorem length_checksum (payload : List UInt8) : (checksum sha256 payload).length = 4 := by
  rw [checksum, List.length_take, (sha256 _).2]
  rfl

/-- **An address is accepted** just when it is the encoding of 21 bytes, and these it is read as. -/
theorem tronBase58ToRaw_eq_some {s : String} {raw : TronAddress} :
    tronBase58ToRaw sha256 s = some raw ↔ s = base58check sha256 raw.1 := by
  unfold tronBase58ToRaw base58check
  constructor
  · intro h
    obtain ⟨decoded, hdecoded, h⟩ := Option.bind_eq_some_iff.mp h
    rw [List.splitAt_eq] at h
    dsimp only at h
    split at h
    · cases h
    split at h
    · cases h
    case isFalse hcheck =>
      have hraw : decoded.take 21 = raw.1 := by
        unfold ofLength at h
        split at h
        · exact congrArg Subtype.val (Option.some.inj h)
        · cases h
      rw [← base58Encode_of_base58Decode hdecoded, ← hraw, not_ne_iff.mp hcheck,
        List.take_append_drop]
  · rintro rfl
    have hlen : (checksum sha256 raw.1).length = 4 := length_checksum raw.1
    have htake : (raw.1 ++ checksum sha256 raw.1).take 21 = raw.1 := List.take_left' raw.2
    have hdrop : (raw.1 ++ checksum sha256 raw.1).drop 21 = checksum sha256 raw.1 :=
      List.drop_left' raw.2
    rw [base58Decode_base58Encode, Option.bind_eq_bind, Option.bind_some, List.splitAt_eq, htake,
      hdrop, if_neg (by rw [List.length_append, raw.2, hlen]; decide)]
    dsimp only
    rw [if_neg (not_not_intro rfl)]
    exact dif_pos raw.2

end Inverse

/-- The signer's reading of an address is the one its requests were modelled with. -/
theorem tronBase58ToRaw_eq (sha256 : List UInt8 → Digest) (address : String) :
    tronBase58ToRaw sha256 address =
      Banking.tronBase58ToRaw (fun bytes => (sha256 bytes).1) address := by
  unfold tronBase58ToRaw Banking.tronBase58ToRaw checksum
  rw [base58Decode_eq]
  refine Option.bind_congr fun decoded _ => ?_
  rw [List.splitAt_eq]
  dsimp only
  by_cases hlen : decoded.length = 25
  · rw [if_neg (not_not_intro hlen)]
    by_cases hcheck : (sha256 (sha256 (decoded.take 21)).1).1.take 4 = decoded.drop 21
    · rw [if_neg (not_not_intro hcheck), if_pos ⟨hlen, hcheck⟩]
    · rw [if_pos hcheck, if_neg fun h => hcheck h.2]
  · rw [if_pos hlen, if_neg fun h => hlen h.1]

/-- A text that is read just when it is the encoding of a Tron address, and then as that. -/
def ReadAsTron (sha256 : List UInt8 → Digest) (s : String) : Prop :=
  ∀ raw : TronAddress, tronBase58ToRaw sha256 s = some raw ↔
    s = base58check sha256 raw.1 ∧ raw.1.head? = some 0x41

/-- **Base58Check on Tron addresses.** Bytes of every length encode to a text that decodes to them,
and every text that decodes is the one its bytes encode to. Whatever the hash function, a text is
read just when it is the encoding of a Tron address if and only if it is not the encoding of 21
bytes that begin with another byte than `0x41`; and the address of a key is read as its raw form. -/
theorem base58check_inverts (sha256 : List UInt8 → Digest) (lib : ChainLib) :
    (∀ x, base58Decode (base58Encode x) = some x) ∧
    (∀ s x, base58Decode s = some x → base58Encode x = s) ∧
    (∀ s, ReadAsTron sha256 s ↔
      ∀ raw : TronAddress, s = base58check sha256 raw.1 → raw.1.head? = some 0x41) ∧
    (∀ publicKey address, tronAddress sha256 lib publicKey = some address →
      tronBase58ToRaw sha256 address = lib.tronRawAddress publicKey) := by
  refine ⟨base58Decode_base58Encode, fun s x => base58Encode_of_base58Decode, fun s => ?_,
    fun publicKey address h => ?_⟩
  · constructor
    · intro h raw hs
      exact ((h raw).mp (tronBase58ToRaw_eq_some.mpr hs)).2
    · intro h raw
      rw [tronBase58ToRaw_eq_some]
      exact ⟨fun hs => ⟨hs, h raw hs⟩, fun hs => hs.1⟩
  · obtain ⟨raw, hraw, rfl⟩ := Option.map_eq_some_iff.mp h
    rw [hraw]
    exact tronBase58ToRaw_eq_some.mpr rfl

/-- A payload of version 0, as another chain has it. -/
def foreignRaw : TronAddress :=
  ⟨[0x00, 0x62, 0xe9, 0x07, 0xb1, 0x5c, 0xbf, 0x27, 0xd5, 0x42, 0x53, 0x99, 0xeb, 0xf6, 0xf0,
    0xfb, 0x50, 0xeb, 0xb8, 0x8f, 0x18], rfl⟩

/-- Its text. -/
def foreignAddress : String := "1A1zP1eP5QGefi2DMPTfTL5SLmv7DivfNa"

/-- The digest of the payload, and the digest of that. -/
def sampleSha256 (bytes : List UInt8) : Digest :=
  if bytes = foreignRaw.1 then
    ⟨[0x9b, 0x90, 0xf1, 0x6d, 0xe7, 0xf0, 0xe5, 0x80, 0xc0, 0x77, 0x35, 0xda, 0xc1, 0x5f, 0xfe,
      0x23, 0xe2, 0xf8, 0xf8, 0xe1, 0x03, 0x91, 0x4e, 0x50, 0x9a, 0xa9, 0x19, 0x13, 0xff, 0xdb,
      0x9f, 0xb6], rfl⟩
  else
    ⟨[0xc2, 0x9b, 0x7d, 0x93, 0x7e, 0x30, 0x49, 0xe2, 0x79, 0x39, 0x1e, 0x62, 0xfd, 0xf0, 0x0c,
      0x12, 0xde, 0xf7, 0x44, 0x40, 0x13, 0xdd, 0xf6, 0x21, 0x58, 0x08, 0xd1, 0x0e, 0x9f, 0x2d,
      0x59, 0x96], rfl⟩

theorem foreign_address_read : ¬ ReadAsTron sampleSha256 foreignAddress := by
  intro h
  have hread : tronBase58ToRaw sampleSha256 foreignAddress = some foreignRaw := by decide +kernel
  have hversion := ((h foreignRaw).mp hread).2
  exact absurd hversion (by decide)

end KeyVault

end Banking
