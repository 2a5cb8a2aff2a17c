import Aether.Library.Bounds

/-! Words of 64 bits, in a build that checks them or one that does not.

A sum or a product that does not fit in a word aborts the program in a `checked`
build and wraps around in a `wrapping` one; a division by zero aborts it in both. A
computation that the checked build does not abort overflows nowhere, and is the same
in every build (`mul_of_lt`, `add_of_lt`). -/
namespace Octets
variable {ε : Type}

/-- Whether arithmetic that overflows aborts the program. -/
inductive Build where
  | checked
  | wrapping
  deriving DecidableEq

namespace Build

/-- A word, unless it is a wrong one in a build that checks. -/
def guard (b : Build) (fits : Bool) (x : UInt64) : Outcome ε UInt64 :=
  if b = .checked ∧ fits = false then .error .panic else .ok x

/-- `x + y` -/
def add (b : Build) (x y : UInt64) : Outcome ε UInt64 := b.guard (x.toNat + y.toNat < 2 ^ 64) (x + y)

/-- `x * y` -/
def mul (b : Build) (x y : UInt64) : Outcome ε UInt64 := b.guard (x.toNat * y.toNat < 2 ^ 64) (x * y)

@[simp] theorem guard_true (b : Build) (x : UInt64) : b.guard (ε := ε) true x = .ok x := if_neg nofun

@[simp] theorem guard_checked_false (x : UInt64) : guard (ε := ε) .checked false x = .error .panic := if_pos ⟨rfl, rfl⟩

theorem safe_guard {fits : Bool} {x : UInt64} : Safe (guard (ε := ε) .checked fits x) ↔ fits = true := by
  cases fits <;> simp

theorem add_of_lt (b : Build) {x y : UInt64} (h : x.toNat + y.toNat < 2 ^ 64) : b.add (ε := ε) x y = .ok (x + y) := by
  rw [add, decide_eq_true h, guard_true]

theorem mul_of_lt (b : Build) {x y : UInt64} (h : x.toNat * y.toNat < 2 ^ 64) : b.mul (ε := ε) x y = .ok (x * y) := by
  rw [mul, decide_eq_true h, guard_true]

theorem safe_mul {x y : UInt64} : Safe (mul (ε := ε) .checked x y) ↔ x.toNat * y.toNat < 2 ^ 64 :=
  safe_guard.trans decide_eq_true_iff

end Build

/-- `x / y` -/
def divide (x y : UInt64) : Outcome ε UInt64 := if y = 0 then .error .panic else .ok (x / y)

theorem divide_of_ne {x y : UInt64} (h : y ≠ 0) : divide (ε := ε) x y = .ok (x / y) := if_neg h

/-! ### Words and numbers -/

theorem toNat_mul_of_lt {x y : UInt64} (h : x.toNat * y.toNat < 2 ^ 64) : (x * y).toNat = x.toNat * y.toNat := by
  rw [UInt64.toNat_mul, Nat.mod_eq_of_lt h]

theorem toNat_add_of_lt {x y : UInt64} (h : x.toNat + y.toNat < 2 ^ 64) : (x + y).toNat = x.toNat + y.toNat := by
  rw [UInt64.toNat_add, Nat.mod_eq_of_lt h]

end Octets
