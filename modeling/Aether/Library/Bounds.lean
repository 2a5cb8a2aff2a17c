import Aether.Library.Method

/-! Computations that stay inside their data.

A computation is `Safe` when it is not aborted. A sequence is safe if what it runs
is (`safe_bind`), and a read at a position is safe where the data reaches that far.
Of a cursor more can be said: one that reads fields of fixed widths and refuses
none of them `Takes` the sum of the widths, whatever the octets are, so that it is
safe on exactly the data that is as long. Where an octet decides how far reading
goes, `safe_byte_bind` and `safe_word_bind` hand its value to what follows. A method
is `Total` when it is safe in every state. -/
namespace Octets

section Outcomes
variable {ε α β : Type}

/-- Not aborted: there is a value or an error. -/
def Safe (o : Outcome ε α) : Prop := o ≠ .error .panic

@[simp] theorem safe_ok (a : α) : Safe (.ok a : Outcome ε α) := nofun

@[simp] theorem safe_pure (a : α) : Safe (pure a : Outcome ε α) := nofun

@[simp] theorem safe_err (e : ε) : Safe (.error (.err e) : Outcome ε α) := nofun

@[simp] theorem not_safe_panic : ¬ Safe (.error .panic : Outcome ε α) := fun h => h rfl

/-- A sequence is safe where its beginning is and, should it have a value, the rest. -/
theorem safe_bind_iff {o : Outcome ε α} {f : α → Outcome ε β} :
    Safe (o >>= f) ↔ Safe o ∧ ∀ a, o = .ok a → Safe (f a) := by
  cases o with
  | ok a => simp
  | error e => cases e <;> simp

theorem safe_bind {o : Outcome ε α} {f : α → Outcome ε β} (ho : Safe o) (hf : ∀ a, o = .ok a → Safe (f a)) :
    Safe (o >>= f) :=
  safe_bind_iff.mpr ⟨ho, hf⟩

theorem index_of_lt {data : Bytes} {i : Nat} (h : i < data.length) : index (ε := ε) data i = .ok data[i] := by
  rw [index, List.getElem?_eq_getElem h]

theorem safe_index {data : Bytes} {i : Nat} (h : i < data.length) : Safe (index (ε := ε) data i) := by
  rw [index_of_lt h]
  exact safe_ok _

theorem safe_slice {data : Bytes} {a b : Nat} (hab : a ≤ b) (hb : b ≤ data.length) :
    Safe (slice (ε := ε) data a b) := by
  rw [slice, if_pos ⟨hab, hb⟩]
  exact safe_ok _

theorem safe_sliceFrom {data : Bytes} {a : Nat} (h : a ≤ data.length) : Safe (sliceFrom (ε := ε) data a) := by
  rw [sliceFrom, if_pos h]
  exact safe_ok _

theorem safe_word {n i : Nat} {data : Bytes} (h : i + n ≤ data.length) : Safe (word (ε := ε) n data i) := by
  rw [word, if_pos h]
  exact safe_ok _

/-- A sum in `w` bits; the program is aborted where it does not fit. -/
def checkedAdd (w a b : Nat) : Outcome ε Nat := if a + b < 2 ^ w then .ok (a + b) else .error .panic

theorem checkedAdd_of_lt {w a b : Nat} (h : a + b < 2 ^ w) : checkedAdd (ε := ε) w a b = .ok (a + b) := if_pos h

end Outcomes

namespace Cursor
variable {ε α β : Type}

theorem safe_run' {m : Cursor ε α} {data : Bytes} : Safe (m.run' data) ↔ Safe (m data) := by
  show Safe ((m data).map Prod.fst) ↔ _
  cases m data with
  | ok p => simp [Except.map]
  | error e => cases e <;> simp [Except.map]

/-! ### Reading a fixed number of octets -/

/-- The next `n` octets are read, whatever they are. -/
structure Takes (n : Nat) (m : Cursor ε α) : Prop where
  short : ∀ {data : Bytes}, data.length < n → m data = .error .panic
  long : ∀ {data : Bytes}, n ≤ data.length → ∃ a, m data = .ok (a, data.drop n)

theorem Takes.safe {n : Nat} {m : Cursor ε α} (h : Takes n m) (data : Bytes) : Safe (m data) ↔ n ≤ data.length := by
  by_cases hn : n ≤ data.length
  · obtain ⟨a, ha⟩ := h.long hn
    simp [ha, hn]
  · simp [h.short (Nat.lt_of_not_le hn), hn]

/-- The cursor is safe on the data that have `n` octets and, behind them, what `S` asks for. -/
def SafeAfter (n : Nat) (S : Bytes → Prop) (m : Cursor ε α) : Prop :=
  ∀ data, Safe (m data) ↔ n ≤ data.length ∧ S (data.drop n)

theorem safeAfter_zero {S : Bytes → Prop} {m : Cursor ε α} (h : ∀ data, Safe (m data) ↔ S data) : SafeAfter 0 S m :=
  fun data => (h data).trans (and_iff_right (Nat.zero_le _)).symm

/-- Fields of fixed widths move what is asked for further back. -/
theorem Takes.safeAfter_bind {n k : Nat} {x : Cursor ε α} {f : α → Cursor ε β} {S : Bytes → Prop} (hx : Takes n x)
    (hf : ∀ a, SafeAfter k S (f a)) : SafeAfter (n + k) S (x >>= f) := by
  intro data
  rw [run_bind]
  by_cases hn : n ≤ data.length
  · obtain ⟨a, ha⟩ := hx.long hn
    have hlength : k ≤ (data.drop n).length ↔ n + k ≤ data.length := by
      rw [List.length_drop]
      omega
    rw [ha, ← hlength, ← List.drop_drop]
    exact hf a _
  · rw [hx.short (Nat.lt_of_not_le hn)]
    exact iff_of_false not_safe_panic fun h => hn (Nat.le_of_add_right_le h.1)

theorem Takes.bind {n k : Nat} {x : Cursor ε α} {f : α → Cursor ε β} (hx : Takes n x) (hf : ∀ a, Takes k (f a)) :
    Takes (n + k) (x >>= f) where
  short := by
    intro data hdata
    rw [run_bind]
    by_cases hn : n ≤ data.length
    · obtain ⟨a, ha⟩ := hx.long hn
      rw [ha]
      exact (hf a).short (by rw [List.length_drop]; omega)
    · rw [hx.short (Nat.lt_of_not_le hn)]
      rfl
  long := by
    intro data hdata
    obtain ⟨a, ha⟩ := hx.long (Nat.le_of_add_right_le hdata)
    have hrest : k ≤ (data.drop n).length := by
      rw [List.length_drop]
      omega
    obtain ⟨b, hb⟩ := (hf a).long hrest
    refine ⟨b, ?_⟩
    rw [run_bind, ha, ← List.drop_drop]
    exact hb

theorem takes_pure (a : α) : Takes 0 (pure a : Cursor ε α) where
  short := by
    intro data hdata
    cases hdata
  long _ := ⟨a, rfl⟩

theorem takes_byte : Takes 1 (byte (ε := ε)) where
  short := by
    intro data hdata
    cases List.eq_nil_of_length_eq_zero (Nat.lt_one_iff.mp hdata)
    rfl
  long := by
    intro data hdata
    cases data with
    | nil => cases hdata
    | cons b rest => exact ⟨b, rfl⟩

theorem takes_octets (n : Nat) : Takes n (octets (ε := ε) n) where
  short hdata := if_neg (Nat.not_le_of_lt hdata)
  long hdata := ⟨_, if_pos hdata⟩

theorem takes_word (n : Nat) : Takes n (word (ε := ε) n) := (takes_octets n).bind fun _ => takes_pure _

theorem takes_block (n : Nat) : Takes n (block (ε := ε) n) where
  short hdata := dif_neg (Nat.not_le_of_lt hdata)
  long hdata := ⟨_, dif_pos hdata⟩

/-! ### Octets that decide what is read next -/

theorem safe_byte_bind {f : UInt8 → Cursor ε β} {data : Bytes} :
    Safe ((byte >>= f) data) ↔ ∃ b, data.head? = some b ∧ Safe (f b data.tail) := by
  cases data with
  | nil => exact iff_of_false not_safe_panic (by simp)
  | cons b rest => simp [run_bind, Except.bind]

theorem safe_word_bind {n : Nat} {f : Nat → Cursor ε β} {data : Bytes} :
    Safe ((word n >>= f) data) ↔ n ≤ data.length ∧ Safe (f (ofBe (data.take n)) (data.drop n)) := by
  by_cases hn : n ≤ data.length
  · have hword : word (ε := ε) n data = .ok (ofBe (data.take n), data.drop n) := by
      rw [word, run_bind, octets, if_pos hn]
      rfl
    rw [run_bind, hword]
    exact (and_iff_right hn).symm
  · rw [run_bind, (takes_word n).short (Nat.lt_of_not_le hn)]
    exact iff_of_false not_safe_panic fun h => hn h.1

end Cursor

/-! ### Methods -/

namespace Method
variable {ε σ α β : Type}

/-- The method is aborted in no state. -/
def Total (m : Method ε σ α) : Prop := ∀ s, Safe (exec m s).1

theorem safe_exec_bind {x : Method ε σ α} {f : α → Method ε σ β} {s : σ} :
    Safe (exec (x >>= f) s).1 ↔ Safe (exec x s).1 ∧ ∀ a t, exec x s = (.ok a, t) → Safe (exec (f a) t).1 := by
  rw [exec_bind]
  rcases exec x s with ⟨r, t⟩
  cases r with
  | ok a => simp
  | error e => cases e <;> simp

theorem safe_exec_lift_bind {o : Outcome ε α} {f : α → Method ε σ β} {s : σ} :
    Safe (exec (liftM o >>= f) s).1 ↔ Safe o ∧ ∀ a, o = .ok a → Safe (exec (f a) s).1 := by
  rw [safe_exec_bind, exec_lift]
  refine and_congr_right fun _ => ⟨fun h a ha => h a s (by rw [ha]), fun h a t ha => ?_⟩
  obtain ⟨hvalue, rfl⟩ := Prod.mk.inj ha
  exact h a hvalue

theorem total_bind {x : Method ε σ α} {f : α → Method ε σ β} (hx : Total x) (hf : ∀ a, Total (f a)) :
    Total (x >>= f) := fun s => safe_exec_bind.mpr ⟨hx s, fun a t _ => hf a t⟩

theorem total_pure (a : α) : Total (pure a : Method ε σ α) := fun _ => safe_ok a

theorem total_get : Total (get : Method ε σ σ) := fun s => safe_ok s

theorem total_set (t : σ) : Total (set t : Method ε σ PUnit) := fun _ => safe_ok (ε := ε) PUnit.unit

theorem total_modify (f : σ → σ) : Total (modify f : Method ε σ PUnit) := fun _ => safe_ok (ε := ε) PUnit.unit

theorem total_err (e : ε) : Total (throw (.err e) : Method ε σ α) := fun _ => safe_err e

theorem total_lift {o : Outcome ε α} (h : Safe o) : Total (liftM o : Method ε σ α) := fun _ => h

end Method

end Octets
