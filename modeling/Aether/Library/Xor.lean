import Mathlib.Data.Nat.Bitwise
import Aether.Library.Octets

/-! Exclusive or of octet strings.

Octet by octet it is the exclusive or of the numbers that the strings spell, which is
no more than their sum: no bit is carried (`xor_le_add`). -/
namespace Octets

/-! ### Numbers -/

/-- A sum has the bits in which its parts differ, and what is carried besides. -/
theorem xor_le_add (a b : Nat) : a ^^^ b ≤ a + b := by
  induction a using Nat.strongRecOn generalizing b with
  | _ a ih =>
    by_cases hzero : a = 0
    · rw [hzero, Nat.zero_xor, Nat.zero_add]
    · have hhalf := ih (a / 2) (Nat.div_lt_self (Nat.pos_of_ne_zero hzero) (by decide)) (b / 2)
      have hdiv : (a ^^^ b) / 2 = a / 2 ^^^ b / 2 := Nat.xor_div_two
      have hmod : (a ^^^ b) % 2 = (a + b) % 2 := Nat.xor_mod_two_eq
      omega

/-- A digit above what is below it. -/
theorem xor_digits {k x y a b : Nat} (ha : a < 2 ^ k) (hb : b < 2 ^ k) :
    (x * 2 ^ k + a) ^^^ (y * 2 ^ k + b) = (x ^^^ y) * 2 ^ k + (a ^^^ b) := by
  have hdiv (x : Nat) {a : Nat} (ha : a < 2 ^ k) : (x * 2 ^ k + a) / 2 ^ k = x := by
    rw [Nat.mul_comm, Nat.mul_add_div (Nat.two_pow_pos k), Nat.div_eq_of_lt ha, Nat.add_zero]
  have hmod (x : Nat) {a : Nat} (ha : a < 2 ^ k) : (x * 2 ^ k + a) % 2 ^ k = a := by
    rw [Nat.mul_comm, Nat.mul_add_mod, Nat.mod_eq_of_lt ha]
  have hsplit := Nat.div_add_mod ((x * 2 ^ k + a) ^^^ (y * 2 ^ k + b)) (2 ^ k)
  rw [Nat.xor_div_two_pow, Nat.xor_mod_two_pow, hdiv x ha, hdiv y hb, hmod x ha, hmod y hb] at hsplit
  rw [← hsplit, Nat.mul_comm]

/-! ### Big-endian numbers -/

theorem ofBe_append (a b : Bytes) : ofBe (a ++ b) = ofBe a * 256 ^ b.length + ofBe b := by
  induction a with
  | nil => rw [List.nil_append, ofBe, Nat.zero_mul, Nat.zero_add]
  | cons x a ih =>
    rw [List.cons_append, ofBe, ofBe, ih, List.length_append, Nat.pow_add, Nat.add_mul, Nat.mul_assoc, Nat.add_assoc]

/-- The number that the first octets spell. -/
theorem ofBe_take (bs : Bytes) (n : Nat) : ofBe (bs.take n) = ofBe bs / 256 ^ (bs.length - n) := by
  have hrest : (bs.drop n).length = bs.length - n := List.length_drop
  have hlt := ofBe_lt (bs.drop n)
  have hsplit := ofBe_append (bs.take n) (bs.drop n)
  rw [List.take_append_drop, hrest] at hsplit
  rw [hrest] at hlt
  rw [hsplit, Nat.mul_comm, Nat.mul_add_div (Nat.pow_pos (by decide)), Nat.div_eq_of_lt hlt, Nat.add_zero]

theorem ofBe_replicate_zero (n : Nat) : ofBe (List.replicate n 0) = 0 := by
  induction n with
  | zero => rfl
  | succ n ih =>
    rw [List.replicate_succ, ofBe, ih]
    exact Nat.zero_mul _

theorem two_pow_octets (n : Nat) : 256 ^ n = 2 ^ (8 * n) := by
  rw [Nat.pow_mul]

theorem ofBe_xor {a b : Bytes} (h : a.length = b.length) : ofBe (List.zipWith (· ^^^ ·) a b) = ofBe a ^^^ ofBe b := by
  induction a generalizing b with
  | nil =>
    cases List.eq_nil_of_length_eq_zero h.symm
    rfl
  | cons x a ih =>
    cases b with
    | nil => cases h
    | cons y b =>
      have hlength : a.length = b.length := Nat.succ.inj h
      have hzip : (List.zipWith (· ^^^ ·) a b).length = a.length := by
        rw [List.length_zipWith, ← hlength, Nat.min_self]
      have ha := ofBe_lt a
      have hb := ofBe_lt b
      rw [two_pow_octets] at ha
      rw [two_pow_octets, ← hlength] at hb
      rw [List.zipWith_cons_cons, ofBe, ofBe, ofBe, hzip, ih hlength, ← hlength, two_pow_octets, xor_digits ha hb,
        UInt8.toNat_xor]

theorem zipWith_xor_zero (bs : Bytes) : List.zipWith (· ^^^ ·) bs (List.replicate bs.length 0) = bs := by
  induction bs with
  | nil => rfl
  | cons b bs ih => rw [List.length_cons, List.replicate_succ, List.zipWith_cons_cons, ih, UInt8.xor_zero]

/-! ### Blocks -/

section
variable {n : Nat}

/-- Octet by octet. -/
theorem toList_xor (a b : Block n) :
    (List.Vector.map₂ (· ^^^ ·) a b).toList = List.zipWith (· ^^^ ·) a.toList b.toList := by
  obtain ⟨a, _⟩ := a
  obtain ⟨b, _⟩ := b
  rfl

theorem ofBe_xor_block (a b : Block n) :
    ofBe (List.Vector.map₂ (· ^^^ ·) a b).toList = ofBe a.toList ^^^ ofBe b.toList := by
  rw [toList_xor, ofBe_xor (a.toList_length.trans b.toList_length.symm)]

theorem block_eq_of_ofBe {a b : Block n} (h : ofBe a.toList = ofBe b.toList) : a = b :=
  List.Vector.toList_injective (ofBe_inj (a.toList_length.trans b.toList_length.symm) h)

theorem xor_block_comm (a b : Block n) :
    List.Vector.map₂ (· ^^^ ·) a b = List.Vector.map₂ (· ^^^ ·) b a := by
  apply block_eq_of_ofBe
  rw [ofBe_xor_block, ofBe_xor_block, Nat.xor_comm]

/-- What was added is taken away again. -/
theorem xor_block_eq_iff {a b d : Block n} :
    List.Vector.map₂ (· ^^^ ·) a b = d ↔ b = List.Vector.map₂ (· ^^^ ·) a d := by
  constructor
  · intro h
    apply block_eq_of_ofBe
    rw [ofBe_xor_block, ← h, ofBe_xor_block, ← Nat.xor_assoc, Nat.xor_self, Nat.zero_xor]
  · intro h
    apply block_eq_of_ofBe
    rw [ofBe_xor_block, h, ofBe_xor_block, ← Nat.xor_assoc, Nat.xor_self, Nat.zero_xor]

theorem xor_block_inj {a b c : Block n}
    (h : List.Vector.map₂ (· ^^^ ·) a b = List.Vector.map₂ (· ^^^ ·) a c) : b = c :=
  (xor_block_eq_iff.mp h).trans (xor_block_eq_iff.mp rfl).symm

/-- Blocks that differ nowhere. -/
theorem xor_block_eq_zero {a b : Block n} :
    (List.Vector.map₂ (· ^^^ ·) a b).toList = List.replicate n 0 ↔ a = b := by
  constructor
  · intro h
    apply block_eq_of_ofBe
    apply Nat.xor_eq_zero_iff.mp
    rw [← ofBe_xor_block, h, ofBe_replicate_zero]
  · intro h
    apply ofBe_inj (by simp)
    rw [ofBe_xor_block, h, Nat.xor_self, ofBe_replicate_zero]

end

end Octets
