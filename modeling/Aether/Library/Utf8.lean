import Aether.Library.Hex

/-! Text in octets that may not be text.

A reader that never fails copies what is well formed and writes the replacement character
for the rest: one for each longest run of octets that begins some character and does not
finish it, or else for each single octet. Text comes out as it went in
(`fromUtf8Lossy_utf8`). -/
namespace Octets

/-- The bounds of an octet that goes on with a character, where nothing more is known. -/
def anyFollowing : UInt8 × UInt8 := (0x80, 0xBF)

/-- The bounds of each octet after the first one of a character, if a character begins so.
The second octet rules out long forms, surrogates and what is beyond the last character. -/
def followers (first : UInt8) : Option (List (UInt8 × UInt8)) :=
  let n := first.toNat
  if n < 0x80 then some []
  else if n < 0xC2 then none
  else if n < 0xE0 then some [anyFollowing]
  else if n = 0xE0 then some [(0xA0, 0xBF), anyFollowing]
  else if n = 0xED then some [(0x80, 0x9F), anyFollowing]
  else if n < 0xF0 then some [anyFollowing, anyFollowing]
  else if n = 0xF0 then some [(0x90, 0xBF), anyFollowing, anyFollowing]
  else if n < 0xF4 then some [anyFollowing, anyFollowing, anyFollowing]
  else if n = 0xF4 then some [(0x80, 0x8F), anyFollowing, anyFollowing]
  else none

/-- How many of the bounds the first octets are within. -/
def within : List (UInt8 × UInt8) → Bytes → Nat
  | (low, high) :: bounds, b :: rest => if low ≤ b ∧ b ≤ high then within bounds rest + 1 else 0
  | _, _ => 0

/-- `U+FFFD` -/
def replacement : Bytes := [0xEF, 0xBF, 0xBD]

/-- `String::from_utf8_lossy`, as octets. -/
def fromUtf8Lossy : Bytes → Bytes
  | [] => []
  | first :: rest =>
    match followers first with
    | none => replacement ++ fromUtf8Lossy rest
    | some bounds =>
      let n := within bounds rest
      (if n = bounds.length then first :: rest.take n else replacement) ++ fromUtf8Lossy (rest.drop n)
termination_by data => data.length
decreasing_by
  · exact Nat.lt_succ_self _
  · exact Nat.lt_succ_of_le (by rw [List.length_drop]; exact Nat.sub_le _ _)

/-- A first octet with its followers, whatever comes after. -/
theorem fromUtf8Lossy_whole {first : UInt8} {bounds : List (UInt8 × UInt8)} (h : followers first = some bounds)
    {octets : Bytes} (rest : Bytes) (hlength : octets.length = bounds.length)
    (hwithin : within bounds (octets ++ rest) = bounds.length) :
    fromUtf8Lossy (first :: octets ++ rest) = first :: octets ++ fromUtf8Lossy rest := by
  rw [List.cons_append, fromUtf8Lossy, h]
  show (if within bounds (octets ++ rest) = bounds.length then _ else _) ++ _ = _
  rw [if_pos hwithin, hwithin, ← hlength, List.take_left, List.drop_left]

theorem within_cons {bound : UInt8 × UInt8} {bounds : List (UInt8 × UInt8)} {n : Nat} {rest : Bytes}
    (hlow : bound.1.toNat ≤ n) (hhigh : n ≤ bound.2.toNat) :
    within (bound :: bounds) (UInt8.ofNat n :: rest) = within bounds rest + 1 := by
  have hn : n < 256 := Nat.lt_of_le_of_lt hhigh bound.2.toNat_lt
  have hbetween : bound.1 ≤ UInt8.ofNat n ∧ UInt8.ofNat n ≤ bound.2 := by
    rw [UInt8.le_iff_toNat_le, UInt8.le_iff_toNat_le, UInt8.toNat_ofNat_of_lt' hn]
    exact ⟨hlow, hhigh⟩
  rw [within, if_pos hbetween]

/-- Six bits after the mark of an octet that goes on are within its bounds. -/
theorem within_any {bounds : List (UInt8 × UInt8)} (v : Nat) (rest : Bytes) :
    within (anyFollowing :: bounds) (UInt8.ofNat (v % 0x40 + 0x80) :: rest) = within bounds rest + 1 :=
  within_cons (Nat.le_add_left ..) (Nat.add_le_add_right (Nat.le_of_lt_succ (Nat.mod_lt _ (by decide))) _)

theorem followers_three (n second : Nat) (hlow : 0xE0 ≤ n) (hhigh : n < 0xF0) (hsecond : 0x80 ≤ second)
    (hsecond' : second ≤ 0xBF) (hlong : n = 0xE0 → 0xA0 ≤ second) (hsurrogate : n = 0xED → second ≤ 0x9F) :
    ∃ bound, followers (UInt8.ofNat n) = some [bound, anyFollowing] ∧
      bound.1.toNat ≤ second ∧ second ≤ bound.2.toNat := by
  have hn : (UInt8.ofNat n).toNat = n := UInt8.toNat_ofNat_of_lt' (Nat.lt_trans hhigh (by decide))
  simp only [followers, hn]
  rw [if_neg (by omega), if_neg (by omega), if_neg (by omega)]
  split
  case isTrue h => exact ⟨_, rfl, hlong h, hsecond'⟩
  split
  case isTrue h => exact ⟨_, rfl, hsecond, hsurrogate h⟩
  case isFalse => exact ⟨anyFollowing, rfl, hsecond, hsecond'⟩

theorem followers_four (n second : Nat) (hlow : 0xF0 ≤ n) (hhigh : n ≤ 0xF4) (hsecond : 0x80 ≤ second)
    (hsecond' : second ≤ 0xBF) (hlong : n = 0xF0 → 0x90 ≤ second) (hlast : n = 0xF4 → second ≤ 0x8F) :
    ∃ bound, followers (UInt8.ofNat n) = some [bound, anyFollowing, anyFollowing] ∧
      bound.1.toNat ≤ second ∧ second ≤ bound.2.toNat := by
  have hn : (UInt8.ofNat n).toNat = n := UInt8.toNat_ofNat_of_lt' (Nat.lt_of_le_of_lt hhigh (by decide))
  simp only [followers, hn]
  rw [if_neg (by omega), if_neg (by omega), if_neg (by omega), if_neg (by omega), if_neg (by omega),
    if_neg (by omega)]
  split
  case isTrue h => exact ⟨_, rfl, hlong h, hsecond'⟩
  split
  case isTrue h => exact ⟨anyFollowing, rfl, hsecond, hsecond'⟩
  case isFalse h =>
    have hn : n = 0xF4 := by omega
    exact ⟨_, if_pos hn, hsecond, hlast hn⟩

theorem fromUtf8Lossy_char (c : Char) (rest : Bytes) :
    fromUtf8Lossy (String.utf8EncodeChar c ++ rest) = String.utf8EncodeChar c ++ fromUtf8Lossy rest := by
  have hvalid : c.val.toNat < 0xd800 ∨ 0xdfff < c.val.toNat ∧ c.val.toNat < 0x110000 := c.valid
  rw [String.utf8EncodeChar]
  generalize c.val.toNat = v at hvalid
  show fromUtf8Lossy ((if v ≤ 0x7f then _ else if v ≤ 0x7ff then _ else if v ≤ 0xffff then _ else _) ++ _) =
    (if v ≤ 0x7f then _ else if v ≤ 0x7ff then _ else if v ≤ 0xffff then _ else _) ++ _
  split
  case isTrue hone =>
    have hfirst : followers (UInt8.ofNat v) = some [] := by
      have hv : v < 256 := by omega
      rw [followers, UInt8.toNat_ofNat_of_lt' hv]
      exact if_pos (Nat.lt_succ_of_le hone)
    exact fromUtf8Lossy_whole hfirst rest rfl rfl
  split
  case isTrue htwo =>
    have hfirst : followers (UInt8.ofNat (v / 64 % 0x20 + 0xc0)) = some [anyFollowing] := by
      have hv : v / 64 % 0x20 + 0xc0 < 256 := by omega
      simp only [followers, UInt8.toNat_ofNat_of_lt' hv]
      rw [if_neg (by omega), if_neg (by omega), if_pos (by omega)]
    exact fromUtf8Lossy_whole hfirst rest rfl (within_any v rest)
  split
  case isTrue hthree =>
    obtain ⟨bound, hfirst, hlow, hhigh⟩ := followers_three (v / 4096 % 0x10 + 0xe0) (v / 64 % 0x40 + 0x80)
      (by omega) (by omega) (by omega) (by omega) (by omega) (by omega)
    refine fromUtf8Lossy_whole hfirst rest rfl ?_
    rw [List.cons_append, within_cons hlow hhigh, List.cons_append, within_any]
    rfl
  case isFalse hfour =>
    obtain ⟨bound, hfirst, hlow, hhigh⟩ := followers_four (v / 262144 % 0x08 + 0xf0) (v / 4096 % 0x40 + 0x80)
      (by omega) (by omega) (by omega) (by omega) (by omega) (by omega)
    refine fromUtf8Lossy_whole hfirst rest rfl ?_
    rw [List.cons_append, within_cons hlow hhigh, List.cons_append, within_any, List.cons_append, within_any]
    rfl

theorem fromUtf8Lossy_chars (cs : List Char) :
    fromUtf8Lossy (cs.flatMap String.utf8EncodeChar) = cs.flatMap String.utf8EncodeChar := by
  induction cs with
  | nil => rw [List.flatMap_nil, fromUtf8Lossy]
  | cons c cs ih => rw [List.flatMap_cons, fromUtf8Lossy_char, ih]

/-- **Text comes out as it went in.** -/
theorem fromUtf8Lossy_utf8 (text : String) : fromUtf8Lossy (utf8 text) = utf8 text := by
  have hchars : utf8 text = text.toList.flatMap String.utf8EncodeChar := by
    conv_lhs => rw [← String.ofList_toList (s := text)]
    rw [utf8, String.toUTF8, String.toByteArray_ofList, List.utf8Encode, List.toList_data_toByteArray]
  rw [hchars, fromUtf8Lossy_chars]

/-- A character cut short is one replacement, and the octets of a surrogate are one each. -/
example : fromUtf8Lossy [0xF0, 0x9F, 0x98, 0x41, 0xED, 0xA0, 0x80] =
    replacement ++ [0x41] ++ replacement ++ replacement ++ replacement := by
  simp [fromUtf8Lossy, followers, within, anyFollowing]

end Octets
