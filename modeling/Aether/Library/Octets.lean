import Mathlib.Data.Vector.Basic

/-! Octet strings: big-endian numbers, and reads that may run off the end.

A message format is written as a concatenation of fields and read back field by
field. Writing never fails. Reading has two ways to stop: the reader reports an
error of its own, or an index falls outside the data and the program is aborted;
`Stop` keeps the two apart, so that "never aborts" is a statement about a model
and not a property of its types.

Two readers are offered. `index`, `slice` and `word` read at a given position.
`Cursor` reads from the front of what is left, for code that advances an offset
past each field; a field's write and its read cancel (`byte_cons`, `word_toBe`,
`octets_append`), which is all a round trip needs. -/
namespace Octets

abbrev Bytes := List UInt8

/-- An octet string of a fixed length. -/
abbrev Block (n : Nat) := List.Vector UInt8 n

/-- How a computation ends without a value: it reports an error, or it is aborted. -/
inductive Stop (ε : Type) where
  | err (e : ε)
  | panic
  deriving DecidableEq

abbrev Outcome (ε α : Type) := Except (Stop ε) α

@[simp] theorem ok_bind {ε α β : Type} (a : α) (f : α → Outcome ε β) : (Except.ok a >>= f) = f a := rfl

@[simp] theorem error_bind {ε α β : Type} (e : Stop ε) (f : α → Outcome ε β) :
    ((Except.error e : Outcome ε α) >>= f) = .error e := rfl

theorem bind_eq_ok {ε α β : Type} {o : Outcome ε α} {f : α → Outcome ε β} {b : β} :
    (o >>= f) = .ok b ↔ ∃ a, o = .ok a ∧ f a = .ok b := by
  cases o with
  | ok a => simp
  | error e => simp

/-! ### Single octets -/

/-- What holds of each number below `n` holds of each octet below it. -/
@[elab_as_elim]
theorem forall_octet_lt {n : Nat} {motive : UInt8 → Prop} (b : UInt8) (hb : b.toNat < n)
    (h : ∀ i : Fin n, motive (UInt8.ofNat i.val)) : motive b := by
  have hi := h ⟨b.toNat, hb⟩
  rwa [UInt8.ofNat_toNat] at hi

/-- A masked octet is no more than the mask. -/
theorem toNat_and_le (b mask : UInt8) : (b &&& mask).toNat ≤ mask.toNat := by
  rw [UInt8.toNat_and]
  exact Nat.and_le_right

/-! ### Big-endian numbers -/

/-- The low `n` octets of a number, most significant first. -/
def toBe : Nat → Nat → Bytes
  | 0, _ => []
  | n + 1, v => UInt8.ofNat (v / 256 ^ n) :: toBe n v

/-- The number an octet string spells. -/
def ofBe : Bytes → Nat
  | [] => 0
  | b :: rest => b.toNat * 256 ^ rest.length + ofBe rest

@[simp] theorem toBe_length (n v : Nat) : (toBe n v).length = n := by
  induction n with
  | zero => rfl
  | succ n ih => simp [toBe, ih]

theorem ofBe_lt (bs : Bytes) : ofBe bs < 256 ^ bs.length := by
  induction bs with
  | nil => simp [ofBe]
  | cons b rest ih =>
    have hb : b.toNat < 256 := b.toNat_lt
    calc b.toNat * 256 ^ rest.length + ofBe rest
        < b.toNat * 256 ^ rest.length + 256 ^ rest.length := Nat.add_lt_add_left ih _
      _ = (b.toNat + 1) * 256 ^ rest.length := by rw [Nat.succ_mul]
      _ ≤ 256 * 256 ^ rest.length := Nat.mul_le_mul_right _ hb
      _ = 256 ^ (b :: rest).length := by rw [List.length_cons, Nat.pow_succ, Nat.mul_comm]

/-- Reading back what was written, reduced to the width it was written in. -/
theorem ofBe_toBe (n v : Nat) : ofBe (toBe n v) = v % 256 ^ n := by
  induction n with
  | zero => simp [toBe, ofBe, Nat.mod_one]
  | succ n ih =>
    have hdigit : (UInt8.ofNat (v / 256 ^ n)).toNat = v / 256 ^ n % 256 := by
      simp [UInt8.toNat_ofNat']
    rw [toBe, ofBe, toBe_length, ih, hdigit, Nat.pow_succ, Nat.mod_mul, Nat.mul_comm, Nat.add_comm]

theorem ofBe_toBe_of_lt {n v : Nat} (h : v < 256 ^ n) : ofBe (toBe n v) = v := by
  rw [ofBe_toBe, Nat.mod_eq_of_lt h]

theorem toBe_inj {n v w : Nat} (hv : v < 256 ^ n) (hw : w < 256 ^ n) (h : toBe n v = toBe n w) : v = w := by
  rw [← ofBe_toBe_of_lt hv, h, ofBe_toBe_of_lt hw]

/-- Octet strings of one length that spell the same number are the same. -/
theorem ofBe_inj {a b : Bytes} (hlen : a.length = b.length) (h : ofBe a = ofBe b) : a = b := by
  induction a generalizing b with
  | nil => exact (List.eq_nil_of_length_eq_zero hlen.symm).symm
  | cons x a ih =>
    cases b with
    | nil => cases hlen
    | cons y b =>
      have hlen' : a.length = b.length := Nat.succ.inj hlen
      have ha := ofBe_lt a
      have hb := ofBe_lt b
      rw [ofBe, ofBe, ← hlen'] at h
      rw [← hlen'] at hb
      have hpos : 0 < 256 ^ a.length := Nat.pow_pos (by decide)
      have hx : x.toNat = y.toNat := by
        have hdiv := congrArg (· / 256 ^ a.length) h
        simpa [Nat.mul_comm _ (256 ^ a.length), Nat.mul_add_div hpos, Nat.div_eq_of_lt ha,
          Nat.div_eq_of_lt hb] using hdiv
      rw [UInt8.toNat_inj.mp hx, ih hlen' (by rw [hx] at h; exact Nat.add_left_cancel h)]

theorem toBe_ofBe (bs : Bytes) : toBe bs.length (ofBe bs) = bs :=
  ofBe_inj (toBe_length _ _) (ofBe_toBe_of_lt (ofBe_lt bs))

/-- The same octets, least significant first. -/
def toLe (n v : Nat) : Bytes := (toBe n v).reverse

@[simp] theorem toLe_length (n v : Nat) : (toLe n v).length = n := by
  simp [toLe]

theorem toLe_inj {n v w : Nat} (hv : v < 256 ^ n) (hw : w < 256 ^ n) (h : toLe n v = toLe n w) : v = w :=
  toBe_inj hv hw (List.reverse_injective h)

/-- The octets of characters below 256, such as an ASCII literal's. -/
def ascii (cs : List Char) : Bytes := cs.map fun c => UInt8.ofNat c.toNat

/-! ### Reads at a position -/

section Reads
variable {ε : Type}

/-- `data[i]` -/
def index (data : Bytes) (i : Nat) : Outcome ε UInt8 :=
  match data[i]? with
  | some b => .ok b
  | none => .error .panic

/-- `data[a..b]` -/
def slice (data : Bytes) (a b : Nat) : Outcome ε Bytes :=
  if a ≤ b ∧ b ≤ data.length then .ok ((data.drop a).take (b - a)) else .error .panic

/-- `data[a..]` -/
def sliceFrom (data : Bytes) (a : Nat) : Outcome ε Bytes :=
  if a ≤ data.length then .ok (data.drop a) else .error .panic

/-- The big-endian number in `data[i]`, …, `data[i + n - 1]`. -/
def word (n : Nat) (data : Bytes) (i : Nat) : Outcome ε Nat :=
  if i + n ≤ data.length then .ok (ofBe ((data.drop i).take n)) else .error .panic

@[simp] theorem index_zero (b : UInt8) (rest : Bytes) : index (ε := ε) (b :: rest) 0 = .ok b := rfl

@[simp] theorem index_succ (b : UInt8) (rest : Bytes) (i : Nat) :
    index (ε := ε) (b :: rest) (i + 1) = index rest i := by
  simp [index]

theorem slice_append (a bs rest : Bytes) (i j : Nat) (hi : a.length = i) (hj : i + bs.length = j) :
    slice (ε := ε) (a ++ (bs ++ rest)) i j = .ok bs := by
  subst hi hj
  simp [slice]

theorem sliceFrom_append (a rest : Bytes) (i : Nat) (h : a.length = i) :
    sliceFrom (ε := ε) (a ++ rest) i = .ok rest := by
  subst h
  simp [sliceFrom]

theorem word_append (a rest : Bytes) (n v i : Nat) (h : a.length = i) (hv : v < 256 ^ n) :
    word (ε := ε) n (a ++ (toBe n v ++ rest)) i = .ok v := by
  subst h
  simp [word, ofBe_toBe_of_lt hv]

/-! What a read that succeeds has read. -/

theorem index_eq_ok {data : Bytes} {i : Nat} {b : UInt8} : index (ε := ε) data i = .ok b ↔ data[i]? = some b := by
  rw [index]
  cases data[i]? with
  | none => simp
  | some c => simp

theorem slice_eq_ok {data bs : Bytes} {i j : Nat} :
    slice (ε := ε) data i j = .ok bs ↔ (i ≤ j ∧ j ≤ data.length) ∧ bs = (data.drop i).take (j - i) := by
  rw [slice]
  by_cases h : i ≤ j ∧ j ≤ data.length
  · rw [if_pos h]
    simp [h, eq_comm]
  · rw [if_neg h]
    simp [h]

theorem sliceFrom_eq_ok {data bs : Bytes} {i : Nat} :
    sliceFrom (ε := ε) data i = .ok bs ↔ i ≤ data.length ∧ bs = data.drop i := by
  rw [sliceFrom]
  by_cases h : i ≤ data.length
  · rw [if_pos h]
    simp [h, eq_comm]
  · rw [if_neg h]
    simp [h]

/-- A number that was read is written as the octets it was read from. -/
theorem toBe_word {n : Nat} {data : Bytes} {i v : Nat} (h : word (ε := ε) n data i = .ok v) :
    v < 256 ^ n ∧ toBe n v = (data.drop i).take n := by
  rw [word] at h
  split at h
  · rename_i hlength
    cases h
    have hn : ((data.drop i).take n).length = n := by
      rw [List.length_take, List.length_drop]
      omega
    have hlt := ofBe_lt ((data.drop i).take n)
    have hback := toBe_ofBe ((data.drop i).take n)
    rw [hn] at hlt hback
    exact ⟨hlt, hback⟩
  · cases h

/-- Octets next to each other. -/
theorem take_drop_append (data : Bytes) (i n m : Nat) :
    (data.drop i).take n ++ (data.drop (i + n)).take m = (data.drop i).take (n + m) := by
  rw [List.take_add, List.drop_drop]

/-! What is read where the data reaches far enough is read with octets behind it. -/

theorem index_append_of_lt {p : Bytes} (t : Bytes) {i : Nat} (h : i < p.length) :
    index (ε := ε) (p ++ t) i = index p i := by
  rw [index, index, List.getElem?_append_left h]

theorem word_append_of_le {p : Bytes} (t : Bytes) {n i : Nat} (h : i + n ≤ p.length) :
    word (ε := ε) n (p ++ t) i = word n p i := by
  have hlong : i + n ≤ (p ++ t).length := by
    rw [List.length_append]
    exact Nat.le_add_right_of_le h
  have hleft : n ≤ (p.drop i).length := by
    rw [List.length_drop]
    omega
  rw [word, word, if_pos hlong, if_pos h, List.drop_append_of_le_length (Nat.le_of_add_right_le h),
    List.take_append_of_le_length hleft]

theorem slice_append_of_le {p : Bytes} (t : Bytes) {a b : Nat} (hab : a ≤ b) (h : b ≤ p.length) :
    slice (ε := ε) (p ++ t) a b = slice p a b := by
  have hlong : b ≤ (p ++ t).length := by
    rw [List.length_append]
    exact Nat.le_add_right_of_le h
  have hleft : b - a ≤ (p.drop a).length := by
    rw [List.length_drop]
    omega
  rw [slice, slice, if_pos ⟨hab, hlong⟩, if_pos ⟨hab, h⟩, List.drop_append_of_le_length (hab.trans h),
    List.take_append_of_le_length hleft]

end Reads

/-! ### Reads from the front -/

/-- Reads that consume what is left of the data: state `data[offset..]`, so that
advancing the offset drops octets. -/
abbrev Cursor (ε α : Type) := StateT Bytes (Except (Stop ε)) α

namespace Cursor
variable {ε : Type}

/-- `data[offset]; offset += 1` -/
def byte : Cursor ε UInt8 := fun
  | [] => .error .panic
  | b :: rest => .ok (b, rest)

/-- `data[offset..offset + n]; offset += n` -/
def octets (n : Nat) : Cursor ε Bytes := fun data =>
  if n ≤ data.length then .ok (data.take n, data.drop n) else .error .panic

/-- The next `n` octets as a big-endian number. -/
def word (n : Nat) : Cursor ε Nat := do
  return ofBe (← octets n)

/-- The next `n` octets as an array of that length. -/
def block (n : Nat) : Cursor ε (Block n) := fun data =>
  if h : n ≤ data.length then
    .ok (⟨data.take n, by rw [List.length_take, Nat.min_eq_left h]⟩, data.drop n)
  else .error .panic

theorem run_bind {α β : Type} (x : Cursor ε α) (f : α → Cursor ε β) (data : Bytes) :
    (x >>= f) data = (x data).bind fun p => f p.1 p.2 := rfl

theorem run_pure {α : Type} (a : α) (data : Bytes) :
    (pure a : Cursor ε α) data = .ok (a, data) := rfl

@[simp] theorem byte_cons (b : UInt8) (rest : Bytes) : byte (ε := ε) (b :: rest) = .ok (b, rest) := rfl

@[simp] theorem octets_append (bs rest : Bytes) (n : Nat) (h : bs.length = n) :
    octets (ε := ε) n (bs ++ rest) = .ok (bs, rest) := by
  subst h
  simp [octets]

@[simp] theorem word_toBe (n v : Nat) (rest : Bytes) :
    word (ε := ε) n (toBe n v ++ rest) = .ok (v % 256 ^ n, rest) := by
  simp [word, run_bind, octets_append, Except.bind, run_pure, ofBe_toBe]

@[simp] theorem block_append {n : Nat} (b : Block n) (rest : Bytes) :
    block (ε := ε) n (b.toList ++ rest) = .ok (b, rest) := by
  obtain ⟨bs, rfl⟩ := b
  simp [block, List.Vector.toList]

/-! ### Octets behind what is read -/

variable {α β : Type}

/-- What is read is read the same with octets behind it, which are left. -/
def Extends (m : Cursor ε α) : Prop :=
  ∀ {data rest : Bytes} {a : α} (t : Bytes), m data = .ok (a, rest) → m (data ++ t) = .ok (a, rest ++ t)

theorem extends_pure (a : α) : Extends (pure a : Cursor ε α) := by
  intro data rest b t h
  cases h
  rfl

theorem extends_throw (e : Stop ε) : Extends (throw e : Cursor ε α) := by
  intro data rest a t h
  cases h

theorem extends_bind {m : Cursor ε α} {f : α → Cursor ε β} (hm : Extends m) (hf : ∀ a, Extends (f a)) :
    Extends (m >>= f) := by
  intro data rest b t h
  rw [run_bind] at h ⊢
  cases hread : m data with
  | error e =>
    rw [hread] at h
    cases h
  | ok p =>
    rw [hread] at h
    rw [hm t hread]
    exact hf p.1 t h

theorem extends_byte : Extends (byte (ε := ε)) := by
  intro data rest b t h
  cases data with
  | nil => cases h
  | cons x data =>
    cases h
    rfl

theorem extends_octets (n : Nat) : Extends (octets (ε := ε) n) := by
  intro data rest bs t h
  by_cases hn : n ≤ data.length
  · have hlong : n ≤ (data ++ t).length := by
      rw [List.length_append]
      exact Nat.le_add_right_of_le hn
    rw [octets, if_pos hn] at h
    rw [octets, if_pos hlong]
    cases h
    rw [List.take_append_of_le_length hn, List.drop_append_of_le_length hn]
  · rw [octets, if_neg hn] at h
    cases h

theorem extends_word (n : Nat) : Extends (word (ε := ε) n) := extends_bind (extends_octets n) fun _ => extends_pure _

theorem extends_block (n : Nat) : Extends (block (ε := ε) n) := by
  intro data rest b t h
  by_cases hn : n ≤ data.length
  · have hlong : n ≤ (data ++ t).length := by
      rw [List.length_append]
      exact Nat.le_add_right_of_le hn
    rw [block, dif_pos hn] at h
    rw [block, dif_pos hlong]
    cases h
    simp only [List.take_append_of_le_length hn, List.drop_append_of_le_length hn]
  · rw [block, dif_neg hn] at h
    cases h

end Cursor

end Octets
