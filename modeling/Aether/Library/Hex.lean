import Aether.Library.Octets

/-! Hexadecimal text: octets as two digits each, and text read back as octets.

Digits are written in lower case and read in either. Reading goes by the octets of
the text, so a character beyond ASCII is refused like any other that is no digit.
Text that is read from elsewhere may have blanks around it (`trim`); hexadecimal text
has none of its own. -/
namespace Octets

/-! ### Text -/

/-- The octets of a text, in UTF-8. -/
def utf8 (s : String) : Bytes := s.toUTF8.data.toList

/-- Characters with the property White_Space. -/
def isWhiteSpace (c : Char) : Bool :=
  let n := c.toNat
  (0x09 ≤ n && n ≤ 0x0D) || n == 0x20 || n == 0x85 || n == 0xA0 || n == 0x1680 || (0x2000 ≤ n && n ≤ 0x200A) ||
    n == 0x2028 || n == 0x2029 || n == 0x202F || n == 0x205F || n == 0x3000

/-- Without the white space around it. -/
def trim (s : String) : String :=
  String.ofList ((s.toList.dropWhile isWhiteSpace).reverse.dropWhile isWhiteSpace).reverse

theorem dropWhile_none {α : Type} {p : α → Bool} {xs : List α} (h : ∀ x ∈ xs, p x = false) : xs.dropWhile p = xs := by
  cases xs with
  | nil => rfl
  | cons x xs =>
    rw [List.dropWhile_cons, h x List.mem_cons_self]
    rfl

theorem trim_none {cs : List Char} (h : ∀ c ∈ cs, isWhiteSpace c = false) : trim (String.ofList cs) = String.ofList cs := by
  rw [trim, String.toList_ofList, dropWhile_none h,
    dropWhile_none fun c hc => h c (List.mem_reverse.mp hc), List.reverse_reverse]

theorem utf8_length (s : String) : (utf8 s).length = s.utf8ByteSize := by
  rw [utf8, Array.length_toList]
  rfl

/-- A character of seven bits is one octet. -/
theorem utf8EncodeChar_ascii {c : Char} (h : c.toNat < 128) : String.utf8EncodeChar c = [UInt8.ofNat c.toNat] := by
  have hsmall : c.val.toNat ≤ 0x7f := Nat.le_of_lt_succ h
  rw [String.utf8EncodeChar, if_pos hsmall]
  rfl

theorem utf8_ascii {cs : List Char} (h : ∀ c ∈ cs, c.toNat < 128) : utf8 (String.ofList cs) = ascii cs := by
  have hflat : cs.flatMap String.utf8EncodeChar = ascii cs := by
    induction cs with
    | nil => rfl
    | cons c cs ih =>
      rw [List.flatMap_cons, utf8EncodeChar_ascii (h c List.mem_cons_self),
        ih fun d hd => h d (List.mem_cons_of_mem _ hd)]
      rfl
  rw [utf8, String.toUTF8, String.toByteArray_ofList, List.utf8Encode, List.toList_data_toByteArray, hflat]

namespace Hex

/-! ### Writing -/

/-- A digit, `0` to `9` and `a` to `f`. -/
def digit (n : UInt8) : Char := Char.ofNat (if n < 10 then 0x30 + n.toNat else 0x57 + n.toNat)

def pair (b : UInt8) : List Char := [digit (b >>> 4), digit (b &&& 0xF)]

def encode (bs : Bytes) : String := String.ofList (bs.flatMap pair)

/-! ### Reading -/

inductive FromHexError where
  | invalidHexCharacter (c : UInt8) (index : Nat)
  | oddLength
  | invalidStringLength
  deriving DecidableEq

/-- What a digit of either case stands for. -/
def value (c : UInt8) : Option UInt8 :=
  if 0x41 ≤ c ∧ c ≤ 0x46 then some (c - 0x41 + 10)
  else if 0x61 ≤ c ∧ c ≤ 0x66 then some (c - 0x61 + 10)
  else if 0x30 ≤ c ∧ c ≤ 0x39 then some (c - 0x30)
  else none

/-- A digit at its place in the text. -/
def val (c : UInt8) (index : Nat) : Except FromHexError UInt8 :=
  match value c with
  | some v => .ok v
  | none => .error (.invalidHexCharacter c index)

/-- Two digits at a time, the first of them at `index`. -/
def pairs : Nat → Bytes → Except FromHexError Bytes
  | index, c :: d :: rest => do
    let high ← val c index
    let low ← val d (index + 1)
    let bs ← pairs (index + 2) rest
    return ((high <<< 4) ||| low) :: bs
  | _, _ => .ok []

def decode (text : Bytes) : Except FromHexError Bytes :=
  if text.length % 2 ≠ 0 then .error .oddLength else pairs 0 text

/-- Into `n` octets. -/
def decodeToSlice (text : Bytes) (n : Nat) : Except FromHexError Bytes :=
  if text.length % 2 ≠ 0 then .error .oddLength
  else if text.length / 2 ≠ n then .error .invalidStringLength
  else pairs 0 text

/-- A character of Latin-1 between quotes, escaped where it cannot be shown. -/
def quoted (c : UInt8) : String :=
  if c = 0 then "'\\0'"
  else if c = 9 then "'\\t'"
  else if c = 10 then "'\\n'"
  else if c = 13 then "'\\r'"
  else if c = 0x27 then "'\\''"
  else if c = 0x5C then "'\\\\'"
  else if c < 0x20 ∨ (0x7F ≤ c ∧ c ≤ 0xA0) ∨ c = 0xAD then
    "'\\u\x7b" ++ String.ofList (Nat.toDigits 16 c.toNat) ++ "\x7d'"
  else "'" ++ String.ofList [Char.ofNat c.toNat] ++ "'"

def FromHexError.text : FromHexError → String
  | invalidHexCharacter c index => s!"Invalid character {quoted c} at position {index}"
  | oddLength => "Odd number of digits"
  | invalidStringLength => "Invalid string length"

/-! ### What is written is read -/

theorem digit_spec {n : UInt8} (h : n.toNat < 16) : (digit n).toNat < 128 ∧ isWhiteSpace (digit n) = false ∧
    value (UInt8.ofNat (digit n).toNat) = some n := by
  refine forall_octet_lt n h ?_
  decide

theorem toNat_high (b : UInt8) : (b >>> 4).toNat = b.toNat / 16 := by
  rw [UInt8.toNat_shiftRight]
  exact Nat.shiftRight_eq_div_pow _ _

theorem toNat_low (b : UInt8) : (b &&& 0xF).toNat = b.toNat % 16 := by
  rw [UInt8.toNat_and]
  exact Nat.and_two_pow_sub_one_eq_mod b.toNat 4

/-- An octet is its two halves put together. -/
theorem high_or_low (b : UInt8) : ((b >>> 4) <<< 4) ||| (b &&& 0xF) = b := by
  have hlt := b.toNat_lt
  have hhigh : ((b >>> 4) <<< 4).toNat = (b.toNat / 16) <<< 4 := by
    have hmod : (b.toNat / 16) <<< 4 < 2 ^ 8 := by
      rw [Nat.shiftLeft_eq]
      omega
    rw [UInt8.toNat_shiftLeft, toNat_high]
    exact Nat.mod_eq_of_lt hmod
  have hlow : b.toNat % 16 < 2 ^ 4 := Nat.mod_lt _ (by decide)
  apply UInt8.toNat_inj.mp
  rw [UInt8.toNat_or, hhigh, toNat_low, ← Nat.shiftLeft_add_eq_or_of_lt hlow, Nat.shiftLeft_eq]
  omega

theorem pair_spec (b : UInt8) :
    (∀ c ∈ pair b, c.toNat < 128 ∧ isWhiteSpace c = false) ∧
      value (UInt8.ofNat (digit (b >>> 4)).toNat) = some (b >>> 4) ∧
        value (UInt8.ofNat (digit (b &&& 0xF)).toNat) = some (b &&& 0xF) := by
  have hlt := b.toNat_lt
  have hhighLt : (b >>> 4).toNat < 16 := by
    rw [toNat_high]
    omega
  have hlowLt : (b &&& 0xF).toNat < 16 := Nat.lt_succ_of_le (toNat_and_le b 0xF)
  obtain ⟨hhigh, hhighBlank, hhighValue⟩ := digit_spec hhighLt
  obtain ⟨hlow, hlowBlank, hlowValue⟩ := digit_spec hlowLt
  refine ⟨fun c hc => ?_, hhighValue, hlowValue⟩
  rcases List.mem_pair.mp hc with rfl | rfl
  · exact ⟨hhigh, hhighBlank⟩
  · exact ⟨hlow, hlowBlank⟩

theorem pairs_ascii (bs : Bytes) (index : Nat) : pairs index (ascii (bs.flatMap pair)) = .ok bs := by
  induction bs generalizing index with
  | nil => rfl
  | cons b bs ih =>
    obtain ⟨_, hhigh, hlow⟩ := pair_spec b
    have hsplit : ascii ((b :: bs).flatMap pair) =
        UInt8.ofNat (digit (b >>> 4)).toNat :: UInt8.ofNat (digit (b &&& 0xF)).toNat :: ascii (bs.flatMap pair) := rfl
    rw [hsplit, pairs, val, val, hhigh, hlow, ih (index + 2)]
    exact congrArg (fun c => Except.ok (c :: bs)) (high_or_low b)

theorem plain {bs : Bytes} : ∀ c ∈ bs.flatMap pair, c.toNat < 128 ∧ isWhiteSpace c = false := by
  intro c hc
  obtain ⟨b, _, hcb⟩ := List.mem_flatMap.mp hc
  exact (pair_spec b).1 c hcb

/-- Hexadecimal text has no blanks. -/
@[simp] theorem trim_encode (bs : Bytes) : trim (encode bs) = encode bs := trim_none fun c hc => (plain c hc).2

theorem utf8_encode (bs : Bytes) : utf8 (encode bs) = ascii (bs.flatMap pair) := utf8_ascii fun c hc => (plain c hc).1

theorem pairs_length (bs : Bytes) : (ascii (bs.flatMap pair)).length = 2 * bs.length := by
  induction bs with
  | nil => rfl
  | cons b bs ih =>
    have hsplit : (ascii ((b :: bs).flatMap pair)).length = (ascii (bs.flatMap pair)).length + 2 := rfl
    rw [hsplit, ih, List.length_cons]
    omega

@[simp] theorem encode_length (bs : Bytes) : (utf8 (encode bs)).length = 2 * bs.length := by
  rw [utf8_encode, pairs_length]

/-- **What is written is read.** -/
theorem decode_encode (bs : Bytes) : decode (utf8 (encode bs)) = .ok bs := by
  have heven : (utf8 (encode bs)).length % 2 = 0 := by
    rw [encode_length]
    omega
  rw [decode, if_neg (not_not.mpr heven), utf8_encode, pairs_ascii]

theorem decodeToSlice_encode (bs : Bytes) : decodeToSlice (utf8 (encode bs)) bs.length = .ok bs := by
  have heven : (utf8 (encode bs)).length % 2 = 0 := by
    rw [encode_length]
    omega
  have hhalf : (utf8 (encode bs)).length / 2 = bs.length := by
    rw [encode_length]
    omega
  rw [decodeToSlice, if_neg (not_not.mpr heven), if_neg (not_not.mpr hhalf), utf8_encode, pairs_ascii]

theorem encode_inj {a b : Bytes} (h : encode a = encode b) : a = b := by
  have ha := decode_encode a
  rw [h, decode_encode b] at ha
  exact (Except.ok.inj ha).symm

end Hex

end Octets
