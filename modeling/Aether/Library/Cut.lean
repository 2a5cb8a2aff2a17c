import Mathlib.Algebra.GroupWithZero.Nat
import Mathlib.Data.List.Basic

/-! Cuts: a sequence in consecutive pieces.

A `Cut` is the sizes of the pieces, none of them empty; piece `i` starts at
`start i` and ends where piece `i + 1` starts. Nothing is said of what the
sequence contains, so a property of a cut holds whatever is sent through it.
Pieces put one behind the other in order give the sequence back a piece at a time
(`take_append_piece`). -/
namespace Octets

structure Cut where
  sizes : List Nat
  positive : ∀ n ∈ sizes, 0 < n

namespace Cut
variable {α : Type} (c : Cut)

def count : Nat := c.sizes.length

def total : Nat := c.sizes.sum

/-- Where piece `i` starts. -/
def start (i : Nat) : Nat := (c.sizes.take i).sum

/-- Piece `i` of a sequence. -/
def piece (xs : List α) (i : Nat) : List α := (xs.drop (c.start i)).take (c.start (i + 1) - c.start i)

@[simp] theorem start_zero : c.start 0 = 0 := rfl

theorem start_count : c.start c.count = c.total := by
  simp [start, count, total]

theorem start_succ {i : Nat} (h : i < c.count) : c.start (i + 1) = c.start i + c.sizes.get ⟨i, h⟩ := by
  rw [start, List.take_succ_eq_append_getElem h, List.sum_append, List.sum_singleton]
  rfl

theorem start_lt_succ {i : Nat} (h : i < c.count) : c.start i < c.start (i + 1) := by
  rw [c.start_succ h]
  exact Nat.lt_add_of_pos_right (c.positive _ (List.getElem_mem h))

theorem start_lt {i j : Nat} (h : i < j) (hj : j ≤ c.count) : c.start i < c.start j := by
  induction j with
  | zero => exact absurd h (Nat.not_lt_zero i)
  | succ j ih =>
    have hlast := c.start_lt_succ (Nat.lt_of_succ_le hj)
    rcases Nat.lt_succ_iff_lt_or_eq.mp h with hij | rfl
    · exact Nat.lt_trans (ih hij (Nat.le_of_succ_le hj)) hlast
    · exact hlast

theorem start_le {i j : Nat} (h : i ≤ j) (hj : j ≤ c.count) : c.start i ≤ c.start j := by
  rcases Nat.lt_or_eq_of_le h with hlt | rfl
  · exact Nat.le_of_lt (c.start_lt hlt hj)
  · exact Nat.le_refl _

theorem start_inj {i j : Nat} (hi : i ≤ c.count) (hj : j ≤ c.count) (h : c.start i = c.start j) : i = j := by
  rcases Nat.lt_trichotomy i j with hlt | heq | hgt
  · exact absurd h (Nat.ne_of_lt (c.start_lt hlt hj))
  · exact heq
  · exact absurd h.symm (Nat.ne_of_lt (c.start_lt hgt hi))

theorem start_le_total {i : Nat} (h : i ≤ c.count) : c.start i ≤ c.total := by
  rw [← c.start_count]
  exact c.start_le h (Nat.le_refl _)

/-- Only behind the last piece is everything. -/
theorem total_le_start_iff {i : Nat} (h : i ≤ c.count) : c.total ≤ c.start i ↔ i = c.count := by
  constructor
  · intro hle
    have heq := Nat.le_antisymm (c.start_le_total h) hle
    exact c.start_inj h (Nat.le_refl _) (heq.trans c.start_count.symm)
  · intro heq
    exact Nat.le_of_eq (by rw [heq, c.start_count])

theorem count_pos {n : Nat} (h : n < c.total) : 0 < c.count := by
  by_contra hzero
  have htotal := c.start_count
  rw [Nat.le_zero.mp (Nat.le_of_not_lt hzero), c.start_zero] at htotal
  rw [← htotal] at h
  exact absurd h (Nat.not_lt_zero n)

theorem take_append_piece (xs : List α) {i : Nat} (h : i < c.count) :
    xs.take (c.start i) ++ c.piece xs i = xs.take (c.start (i + 1)) := by
  have hadd : c.start i + (c.start (i + 1) - c.start i) = c.start (i + 1) :=
    Nat.add_sub_cancel' (Nat.le_of_lt (c.start_lt_succ h))
  rw [piece, ← List.take_add, hadd]

theorem piece_length {xs : List α} (hxs : xs.length = c.total) {i : Nat} (h : i < c.count) :
    (c.piece xs i).length = c.start (i + 1) - c.start i := by
  have hend := c.start_le_total (Nat.succ_le_of_lt h)
  rw [piece, List.length_take, List.length_drop, hxs]
  exact Nat.min_eq_left (Nat.sub_le_sub_right hend _)

/-! ### Pieces that are given -/

/-- The cut between pieces that are put one behind the other. -/
def ofPieces (pieces : List (List α)) (h : ∀ piece ∈ pieces, piece ≠ []) : Cut where
  sizes := pieces.map List.length
  positive n hn := by
    obtain ⟨piece, hpiece, rfl⟩ := List.mem_map.mp hn
    exact List.length_pos_iff.mpr (h piece hpiece)

section
variable {pieces : List (List α)} {h : ∀ piece ∈ pieces, piece ≠ []}

@[simp] theorem count_ofPieces : (ofPieces pieces h).count = pieces.length := List.length_map _

theorem start_ofPieces (i : Nat) : (ofPieces pieces h).start i = (pieces.take i).flatten.length := by
  rw [start, ofPieces, ← List.map_take, List.length_flatten]

theorem total_ofPieces : (ofPieces pieces h).total = pieces.flatten.length := by
  rw [total, ofPieces, List.length_flatten]

theorem take_start_ofPieces (i : Nat) : pieces.flatten.take ((ofPieces pieces h).start i) = (pieces.take i).flatten := by
  have hsplit : pieces.flatten = (pieces.take i).flatten ++ (pieces.drop i).flatten := by
    rw [← List.flatten_append, List.take_append_drop]
  rw [start_ofPieces, hsplit, List.take_left]

theorem piece_ofPieces {i : Nat} (hi : i < pieces.length) : (ofPieces pieces h).piece pieces.flatten i = pieces[i] := by
  have hcount : i < (ofPieces pieces h).count := by
    rw [count_ofPieces]
    exact hi
  have happend := take_append_piece (ofPieces pieces h) pieces.flatten hcount
  rw [take_start_ofPieces, take_start_ofPieces, List.take_succ_eq_append_getElem hi, List.flatten_append,
    List.flatten_singleton] at happend
  exact List.append_cancel_left happend

end

end Cut

end Octets
