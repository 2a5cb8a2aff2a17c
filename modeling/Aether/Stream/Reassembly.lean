import Aether.Library.Cut
import Aether.Stream.Operations

/-! What a reader gets of a sequence that arrives in fragments.

A sequence is cut into fragments, and the fragments are delivered to a stream in
any order, with reads in between. Offsets increase with the fragment's number, so
a buffer is a list of numbers (`Holds`) and a read is a step on such a list
(`exec_read`): it takes the run 0, 1, 2, … as far as the buffer and the limit go,
and always from 0. `served` follows the numbers over a whole schedule, up to a read
that asks for more than a vector can hold, and what the reads return is the
beginnings of the sequence it names, one behind the other (`returned_eq`). -/
namespace Aether.Stream
open Octets Octets.Method

/-! ### Schedules -/

/-- A call a stream receives. -/
inductive Call where
  | receiveData (offset : UInt32) (data : Bytes)
  | read (maxLen : Nat)

def Call.run : Call → Action Stream Bytes
  | .receiveData offset data => do
    modify fun s => s.receiveData offset data
    return []
  | .read maxLen => Stream.read maxLen

/-- Calls in turn, and what the reads among them return put together. -/
def runAll : List Call → Action Stream Bytes
  | [] => return []
  | call :: calls => do
    let out ← call.run
    let rest ← runAll calls
    return out ++ rest

/-- What the reads among the calls return, up to the first call that fails. -/
def returned : List Call → Stream → Bytes
  | [], _ => []
  | call :: calls, s =>
    match call.run.exec s with
    | (.ok out, s') => out ++ returned calls s'
    | (.error _, _) => []

/-- What happens at a receiver of `n` fragments. -/
inductive Event (n : Nat) where
  | deliver (i : Fin n)
  | read (maxLen : Nat)

def Event.delivered? {n : Nat} : Event n → Option (Fin n)
  | .deliver i => some i
  | .read _ => none

/-- Fragment `i` as a `Data` frame carries it. -/
def fragment (c : Cut) (xs : Bytes) (i : Nat) : UInt32 × Bytes := (UInt32.ofNat (c.start i), c.piece xs i)

def Event.call (c : Cut) (xs : Bytes) : Event c.count → Call
  | .deliver i => .receiveData (fragment c xs i).1 (fragment c xs i).2
  | .read maxLen => .read maxLen

/-- A cut whose fragments fit the 32-bit offset and length fields of a frame. -/
structure OnWire (c : Cut) : Prop where
  start_lt : ∀ i < c.count, c.start i < 2 ^ 32
  size_lt : ∀ i < c.count, c.start (i + 1) - c.start i < 2 ^ 32

/-! ### Buffers of numbers -/

/-- How many numbers of `ids` a read takes that expects `k` first: those of the
run `k`, `k + 1`, …, and no more once `maxLen` octets are together. -/
def takes (c : Cut) (maxLen : Nat) : List Nat → Nat → Nat
  | [], _ => 0
  | i :: rest, k =>
    if i ≠ k then 0
    else if c.start (k + 1) ≥ maxLen then 1
    else takes c maxLen rest (k + 1) + 1

def sorted (ids : List Nat) : List Nat := ids.insertionSort (· ≤ ·)

/-- A read of the buffer would reserve more than a vector can hold. -/
def Overflows (ids : List Nat) (maxLen : Nat) : Prop := 0 ∈ ids ∧ isizeMax < maxLen

instance (ids : List Nat) (maxLen : Nat) : Decidable (Overflows ids maxLen) :=
  inferInstanceAs (Decidable (_ ∧ _))

/-- How much each read of a schedule takes, and so the whole run on numbers. -/
def served (c : Cut) : List Nat → List (Event c.count) → List Nat
  | _, [] => []
  | ids, .deliver i :: events => served c (ids ++ [i.val]) events
  | ids, .read maxLen :: events =>
    if Overflows ids maxLen then []
    else
      let t := takes c maxLen (sorted ids) 0
      t :: served c ((sorted ids).drop t) events

/-- No read of a schedule asks for more than a vector can hold while the first fragment is there. -/
def Survives (c : Cut) : List Nat → List (Event c.count) → Prop
  | _, [] => True
  | ids, .deliver i :: events => Survives c (ids ++ [i.val]) events
  | ids, .read maxLen :: events =>
    ¬ Overflows ids maxLen ∧ Survives c ((sorted ids).drop (takes c maxLen (sorted ids) 0)) events

/-- The stream is open and buffers the fragments numbered `ids`. -/
structure Holds (c : Cut) (xs : Bytes) (ids : List Nat) (s : Stream) : Prop where
  state : s.state = .open
  buffer : s.receiveBuffer = ids.map (fragment c xs)
  known : ∀ i ∈ ids, i < c.count

theorem sorted_perm (ids : List Nat) : (sorted ids).Perm ids := List.perm_insertionSort _ ids

theorem mem_sorted {ids : List Nat} {i : Nat} : i ∈ sorted ids ↔ i ∈ ids := (sorted_perm ids).mem_iff

theorem sorted_pairwise (ids : List Nat) : (sorted ids).Pairwise (· ≤ ·) := List.pairwise_insertionSort _ ids

/-- Below the end of a run, offsets tell the fragments apart. At the end of the
last one the offset expected next may have wrapped, but then to an offset in front
of everything not taken yet. -/
theorem offset_eq_iff {c : Cut} (hc : OnWire c) {i k : Nat} (hi : i < c.count) (hk : k ≤ c.count)
    (hik : k ≤ i + 1) : UInt32.ofNat (c.start i) = UInt32.ofNat (c.start k) ↔ i = k := by
  constructor
  · intro h
    have hmod : c.start i % 2 ^ 32 = c.start k % 2 ^ 32 := by
      simpa using congrArg UInt32.toNat h
    have hi32 := hc.start_lt i hi
    rcases Nat.lt_or_eq_of_le hk with hlt | rfl
    · have hk32 := hc.start_lt k hlt
      rw [Nat.mod_eq_of_lt hi32, Nat.mod_eq_of_lt hk32] at hmod
      exact c.start_inj (Nat.le_of_lt hi) hk hmod
    · have hlast : c.count = i + 1 := by omega
      have hsize := hc.size_lt i hi
      have hgrow := c.start_lt_succ hi
      rw [hlast] at hmod
      omega
  · intro h
    subst h
    rfl

/-- The sort of a buffer is the sort of its numbers. -/
theorem sortByOffset_map {c : Cut} (hc : OnWire c) (xs : Bytes) {ids : List Nat} (hids : ∀ i ∈ ids, i < c.count) :
    sortByOffset (ids.map (fragment c xs)) = (sorted ids).map (fragment c xs) := by
  refine (List.map_insertionSort (r := (· ≤ ·)) (s := fun a b => a.1 ≤ b.1) (fragment c xs) ids ?_).symm
  intro i hi j hj
  have hi32 := hc.start_lt i (hids i hi)
  have hj32 := hc.start_lt j (hids j hj)
  show i ≤ j ↔ UInt32.ofNat (c.start i) ≤ UInt32.ofNat (c.start j)
  rw [UInt32.le_iff_toNat_le, UInt32.toNat_ofNat', UInt32.toNat_ofNat', Nat.mod_eq_of_lt hi32, Nat.mod_eq_of_lt hj32]
  constructor
  · intro h
    exact c.start_le h (Nat.le_of_lt (hids j hj))
  · intro h
    by_contra hlt
    exact absurd (c.start_lt (Nat.lt_of_not_le hlt) (Nat.le_of_lt (hids i hi))) (Nat.not_lt_of_le h)

/-- The loop of `read` at fragments in order, expecting fragment `k` after
everything before it. -/
theorem collect_map {c : Cut} (hc : OnWire c) (xs : Bytes) (hxs : xs.length = c.total) (maxLen : Nat)
    {ids : List Nat} (hids : ∀ i ∈ ids, i < c.count) (hsorted : ids.Pairwise (· ≤ ·)) {k : Nat}
    (hk : k ≤ c.count) (hfrom : ∀ i ∈ ids, k ≤ i + 1) (consumed : Nat) :
    collect maxLen (ids.map (fragment c xs)) (xs.take (c.start k)) (UInt32.ofNat (c.start k)) consumed =
      (xs.take (c.start (k + takes c maxLen ids k)), consumed + takes c maxLen ids k) := by
  induction ids generalizing k consumed with
  | nil => rfl
  | cons i ids ih =>
    have hi : i < c.count := hids i (List.mem_cons_self ..)
    have hoffset := offset_eq_iff hc hi hk (hfrom i (List.mem_cons_self ..))
    by_cases hik : i = k
    · subst hik
      have hlength : (xs.take (c.start (i + 1))).length = c.start (i + 1) := by
        rw [List.length_take, hxs]
        exact Nat.min_eq_left (c.start_le_total (Nat.succ_le_of_lt hi))
      have hnext : UInt32.ofNat (c.start i) + UInt32.ofNat (c.piece xs i).length = UInt32.ofNat (c.start (i + 1)) := by
        rw [c.piece_length hxs hi, ← UInt32.ofNat_add, Nat.add_sub_cancel' (Nat.le_of_lt (c.start_lt_succ hi))]
      have hrest := ih (fun j hj => hids j (List.mem_cons_of_mem i hj)) hsorted.tail
        (Nat.succ_le_of_lt hi) (fun j hj => Nat.succ_le_succ ((List.pairwise_cons.mp hsorted).1 j hj)) (consumed + 1)
      rw [List.map_cons, fragment, collect, takes, if_neg (not_not_intro rfl), if_neg (not_not_intro rfl),
        c.take_append_piece xs hi, hlength, hnext]
      by_cases hstop : c.start (i + 1) ≥ maxLen
      · rw [if_pos hstop, if_pos hstop]
      · rw [if_neg hstop, if_neg hstop, hrest, Nat.succ_eq_add_one, Nat.add_right_comm i, Nat.add_assoc i,
          Nat.add_right_comm consumed, Nat.add_assoc consumed]
    · rw [List.map_cons, fragment, collect, takes, if_pos hik, if_pos (mt hoffset.mp hik)]
      rfl

/-! ### A read, a run -/

theorem takes_sorted_eq_zero_iff (c : Cut) (maxLen : Nat) (ids : List Nat) :
    takes c maxLen (sorted ids) 0 = 0 ↔ 0 ∉ ids := by
  rw [← mem_sorted]
  cases h : sorted ids with
  | nil => simp [takes]
  | cons i rest =>
    have hle := sorted_pairwise ids
    rw [h] at hle
    by_cases hi : i = 0
    · subst hi
      rw [takes, if_neg (not_not_intro rfl)]
      split <;> simp
    · rw [takes, if_pos hi]
      have hrest : 0 ∉ rest := fun hmem => hi (Nat.le_zero.mp ((List.pairwise_cons.mp hle).1 0 hmem))
      simp [hrest, Ne.symm hi]

/-- The first fragment is the one at offset 0. -/
theorem Holds.atStart_iff {c : Cut} (hc : OnWire c) {xs : Bytes} {ids : List Nat} {s : Stream} (hs : Holds c xs ids s) :
    s.AtStart ↔ 0 ∈ ids := by
  rw [AtStart, hs.buffer]
  constructor
  · intro h
    obtain ⟨f, hf, hoffset⟩ := h
    obtain ⟨i, hi, rfl⟩ := List.mem_map.mp hf
    have hzero : UInt32.ofNat (c.start i) = UInt32.ofNat (c.start 0) := by
      rw [c.start_zero]
      exact hoffset
    rwa [← (offset_eq_iff hc (hs.known i hi) (Nat.zero_le _) (Nat.zero_le _)).mp hzero]
  · intro h
    refine ⟨fragment c xs 0, List.mem_map_of_mem h, ?_⟩
    rw [fragment, c.start_zero]
    rfl

/-- One read is one step on the numbers. -/
theorem exec_read {c : Cut} (hc : OnWire c) {xs : Bytes} (hxs : xs.length = c.total) {ids : List Nat}
    {s : Stream} (hs : Holds c xs ids s) {maxLen : Nat} (hroom : ¬ Overflows ids maxLen) :
    ∃ s', (read maxLen).exec s = (.ok (xs.take (c.start (takes c maxLen (sorted ids) 0))), s') ∧
      Holds c xs ((sorted ids).drop (takes c maxLen (sorted ids) 0)) s' := by
  have hknown : ∀ i ∈ sorted ids, i < c.count := fun i hi => hs.known i (mem_sorted.mp hi)
  have hcollect := collect_map hc xs hxs maxLen hknown (sorted_pairwise ids) (Nat.zero_le _)
    (fun i _ => Nat.zero_le _) 0
  rw [Nat.zero_add] at hcollect
  have hread := exec_read_collect (s := s) (by rw [hs.state]; rfl)
    (fun hstart => Nat.le_of_not_lt fun hlarge => hroom ⟨(hs.atStart_iff hc).mp hstart, hlarge⟩)
  rw [hs.buffer, sortByOffset_map hc xs hs.known, show collect maxLen _ [] 0 0 = _ from hcollect] at hread
  refine ⟨_, hread, hs.state, (List.map_drop).symm, ?_⟩
  exact fun i hi => hknown i (List.mem_of_mem_drop hi)

/-- A read that is given no room is the end. -/
theorem exec_read_overflows {c : Cut} (hc : OnWire c) {xs : Bytes} {ids : List Nat} {s : Stream} (hs : Holds c xs ids s)
    {maxLen : Nat} (h : Overflows ids maxLen) : ∃ s', (read maxLen).exec s = (.error .panic, s') :=
  ⟨_, exec_read_panic ((hs.atStart_iff hc).mpr h.1) h.2⟩

theorem exec_receiveData {c : Cut} {xs : Bytes} {ids : List Nat} {s : Stream} (hs : Holds c xs ids s)
    (i : Fin c.count) :
    Holds c xs (ids ++ [i.val]) (s.receiveData (fragment c xs i).1 (fragment c xs i).2) where
  state := hs.state
  buffer := by rw [receiveData, hs.buffer, List.map_append]; rfl
  known := by
    intro j hj
    rcases List.mem_append.mp hj with hj | hj
    · exact hs.known j hj
    · rw [List.mem_singleton.mp hj]
      exact i.isLt

theorem runAll_cons {call : Call} {calls : List Call} {s s' : Stream} {out : Bytes}
    (hcall : call.run.exec s = (.ok out, s')) :
    ((runAll (call :: calls)).exec s).1 = ((runAll calls).exec s').1.map (out ++ ·) := by
  rw [runAll, exec_bind_ok hcall, exec_bind_pure]

theorem returned_cons {call : Call} {calls : List Call} {s s' : Stream} {out : Bytes}
    (hcall : call.run.exec s = (.ok out, s')) : returned (call :: calls) s = out ++ returned calls s' := by
  rw [returned, hcall]

/-- **What the reads of a schedule return**: the beginnings of the sequence that
`served` names, one behind the other. -/
theorem returned_eq {c : Cut} (hc : OnWire c) {xs : Bytes} (hxs : xs.length = c.total)
    (events : List (Event c.count)) {ids : List Nat} {s : Stream} (hs : Holds c xs ids s) :
    returned (events.map (Event.call c xs)) s = ((served c ids events).map fun t => xs.take (c.start t)).flatten := by
  induction events generalizing ids s with
  | nil => rfl
  | cons event events ih =>
    cases event with
    | deliver i =>
      have hcall : (Event.call c xs (.deliver i)).run.exec s =
        (.ok [], s.receiveData (fragment c xs i).1 (fragment c xs i).2) := rfl
      exact (returned_cons hcall).trans (ih (exec_receiveData hs i))
    | read maxLen =>
      rw [served]
      by_cases hoverflow : Overflows ids maxLen
      · obtain ⟨s', hread⟩ := exec_read_overflows hc hs hoverflow
        have hcall : (Event.call c xs (.read maxLen)).run.exec s = (.error .panic, s') := hread
        rw [if_pos hoverflow, List.map_cons, returned, hcall]
        rfl
      · obtain ⟨s', hread, hs'⟩ := exec_read hc hxs hs hoverflow
        have hcall : (Event.call c xs (.read maxLen)).run.exec s =
          (.ok (xs.take (c.start (takes c maxLen (sorted ids) 0))), s') := hread
        rw [if_neg hoverflow, List.map_cons, returned_cons hcall, ih hs']
        rfl

/-- A schedule that survives returns what its reads return. -/
theorem runAll_of_survives {c : Cut} (hc : OnWire c) {xs : Bytes} (hxs : xs.length = c.total)
    (events : List (Event c.count)) {ids : List Nat} {s : Stream} (hs : Holds c xs ids s) (h : Survives c ids events) :
    ((runAll (events.map (Event.call c xs))).exec s).1 = .ok (returned (events.map (Event.call c xs)) s) := by
  induction events generalizing ids s with
  | nil => rfl
  | cons event events ih =>
    cases event with
    | deliver i =>
      have hcall : (Event.call c xs (.deliver i)).run.exec s =
        (.ok [], s.receiveData (fragment c xs i).1 (fragment c xs i).2) := rfl
      rw [List.map_cons, runAll_cons hcall, returned_cons hcall, ih (exec_receiveData hs i) h]
      rfl
    | read maxLen =>
      obtain ⟨hroom, hrest⟩ := h
      obtain ⟨s', hread, hs'⟩ := exec_read hc hxs hs hroom
      have hcall : (Event.call c xs (.read maxLen)).run.exec s =
        (.ok (xs.take (c.start (takes c maxLen (sorted ids) 0))), s') := hread
      rw [List.map_cons, runAll_cons hcall, returned_cons hcall, ih hs' hrest]
      rfl

/-- One that does not survive panics. -/
theorem runAll_of_not_survives {c : Cut} (hc : OnWire c) {xs : Bytes} (hxs : xs.length = c.total)
    (events : List (Event c.count)) {ids : List Nat} {s : Stream} (hs : Holds c xs ids s) (h : ¬ Survives c ids events) :
    ((runAll (events.map (Event.call c xs))).exec s).1 = .error .panic := by
  induction events generalizing ids s with
  | nil => exact absurd trivial h
  | cons event events ih =>
    cases event with
    | deliver i =>
      have hcall : (Event.call c xs (.deliver i)).run.exec s =
        (.ok [], s.receiveData (fragment c xs i).1 (fragment c xs i).2) := rfl
      rw [List.map_cons, runAll_cons hcall, ih (exec_receiveData hs i) h]
      rfl
    | read maxLen =>
      by_cases hoverflow : Overflows ids maxLen
      · obtain ⟨s', hread⟩ := exec_read_overflows hc hs hoverflow
        have hcall : (Event.call c xs (.read maxLen)).run.exec s = (.error .panic, s') := hread
        rw [List.map_cons, runAll, exec_bind_error hcall]
      · obtain ⟨s', hread, hs'⟩ := exec_read hc hxs hs hoverflow
        have hcall : (Event.call c xs (.read maxLen)).run.exec s =
          (.ok (xs.take (c.start (takes c maxLen (sorted ids) 0))), s') := hread
        rw [List.map_cons, runAll_cons hcall, ih hs' fun hrest => h ⟨hoverflow, hrest⟩]
        rfl

end Aether.Stream
