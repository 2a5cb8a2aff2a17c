import Mathlib.Algebra.GroupWithZero.Nat
import Aether.Library.Octets

/-! Sequences sent in pieces, each with the offset it belongs at.

`chunks` cuts a sequence into pieces of one size. Pieces with offsets `Tiles` when
each begins where those before it end; then placing each at its offset gives the
sequence back (`placeAll_of_tiles`). -/
namespace Octets
variable {α : Type}

/-- Pieces of `size` elements, the last one perhaps shorter. -/
def chunks (size : Nat) (xs : List α) : List (List α) :=
  (List.range ((xs.length + size - 1) / size)).map fun i => (xs.drop (i * size)).take size

/-- How many elements the pieces have together. -/
def extent (pieces : List (Nat × List α)) : Nat := (pieces.map fun p => p.2.length).sum

/-- From `start` on, each piece begins where those before it end. -/
def TilesFrom (start : Nat) (pieces : List (Nat × List α)) : Prop :=
  ∀ before offset piece after, pieces = before ++ (offset, piece) :: after → offset = start + extent before

/-- Each piece begins where those before it end. -/
def Tiles (pieces : List (Nat × List α)) : Prop := TilesFrom 0 pieces

/-- Write a piece at its offset, with `default` in a gap before it. -/
def place [Inhabited α] (buffer : List α) (p : Nat × List α) : List α :=
  buffer.take p.1 ++ List.replicate (p.1 - buffer.length) default ++ p.2 ++ buffer.drop (p.1 + p.2.length)

def placeAll [Inhabited α] (pieces : List (Nat × List α)) : List α := pieces.foldl place []

/-! ### Tiles -/

@[simp] theorem extent_nil : extent ([] : List (Nat × List α)) = 0 := rfl

@[simp] theorem extent_cons (p : Nat × List α) (pieces : List (Nat × List α)) :
    extent (p :: pieces) = p.2.length + extent pieces := by
  simp [extent]

@[simp] theorem extent_append (ps qs : List (Nat × List α)) : extent (ps ++ qs) = extent ps + extent qs := by
  simp [extent]

theorem extent_eq_length (pieces : List (Nat × List α)) : extent pieces = (pieces.map Prod.snd).flatten.length := by
  simp [extent, List.length_flatten, Function.comp_def]

theorem tilesFrom_nil (start : Nat) : TilesFrom start ([] : List (Nat × List α)) := by
  intro before offset piece after h
  cases before <;> cases h

theorem tilesFrom_cons {start : Nat} {p : Nat × List α} {pieces : List (Nat × List α)} :
    TilesFrom start (p :: pieces) ↔ p.1 = start ∧ TilesFrom (start + p.2.length) pieces := by
  constructor
  · intro h
    refine ⟨h [] p.1 p.2 pieces rfl, fun before offset piece after hsplit => ?_⟩
    rw [h (p :: before) offset piece after (by rw [hsplit]; rfl), extent_cons, Nat.add_assoc]
  · intro h before offset piece after hsplit
    cases before with
    | nil =>
      cases hsplit
      exact h.1
    | cons q before =>
      obtain ⟨rfl, hrest⟩ := List.cons.inj hsplit
      rw [h.2 before offset piece after hrest, extent_cons, Nat.add_assoc]

theorem tilesFrom_append {start : Nat} {ps qs : List (Nat × List α)} :
    TilesFrom start (ps ++ qs) ↔ TilesFrom start ps ∧ TilesFrom (start + extent ps) qs := by
  induction ps generalizing start with
  | nil => simp [tilesFrom_nil]
  | cons p ps ih => simp only [List.cons_append, tilesFrom_cons, ih, extent_cons, and_assoc, Nat.add_assoc]

theorem place_length [Inhabited α] (buffer piece : List α) : place buffer (buffer.length, piece) = buffer ++ piece := by
  simp [place]

theorem foldl_place [Inhabited α] {buffer : List α} {pieces : List (Nat × List α)}
    (h : TilesFrom buffer.length pieces) : pieces.foldl place buffer = buffer ++ (pieces.map Prod.snd).flatten := by
  induction pieces generalizing buffer with
  | nil => simp
  | cons p pieces ih =>
    obtain ⟨hoffset, hrest⟩ := tilesFrom_cons.mp h
    have hplace : place buffer p = buffer ++ p.2 := by
      rw [← place_length, ← hoffset]
    rw [List.foldl_cons, hplace, ih (by rw [List.length_append]; exact hrest)]
    simp

/-- **Pieces that tile, each placed at its offset, are their concatenation.** -/
theorem placeAll_of_tiles [Inhabited α] {pieces : List (Nat × List α)} (h : Tiles pieces) :
    placeAll pieces = (pieces.map Prod.snd).flatten := by
  have hnil : TilesFrom ([] : List α).length pieces := h
  rw [placeAll, foldl_place hnil, List.nil_append]

/-! ### Chunks -/

theorem chunks_nil (size : Nat) (h : 0 < size) : chunks size ([] : List α) = [] := by
  have hcount : (0 + size - 1) / size = 0 := Nat.div_eq_of_lt (by omega)
  rw [chunks, List.length_nil, hcount]
  rfl

theorem mem_chunks {size : Nat} {xs chunk : List α} (h : chunk ∈ chunks size xs) : chunk.length ≤ size := by
  obtain ⟨i, _, rfl⟩ := List.mem_map.mp h
  exact List.length_take_le _ _

/-- The chunks of a sequence that is not empty: a first one, and those of the rest. -/
theorem chunks_of_ne_nil {size : Nat} (h : 0 < size) {xs : List α} (hxs : xs ≠ []) :
    chunks size xs = xs.take size :: chunks size (xs.drop size) := by
  have hlen : 0 < xs.length := List.length_pos_iff.mpr hxs
  have hcount : (xs.length + size - 1) / size = ((xs.drop size).length + size - 1) / size + 1 := by
    rw [List.length_drop]
    rcases Nat.lt_or_ge size xs.length with hlt | hge
    · have hsplit : xs.length + size - 1 = xs.length - size + size - 1 + size := by omega
      rw [hsplit, Nat.add_div_right _ h]
    · have hzero : xs.length - size + size - 1 = size - 1 := by omega
      have hone : xs.length + size - 1 = xs.length - 1 + size := by omega
      rw [hzero, hone, Nat.add_div_right _ h, Nat.div_eq_of_lt (by omega), Nat.div_eq_of_lt (by omega)]
  rw [chunks, hcount, List.range_succ_eq_map, List.map_cons, List.map_map, chunks]
  congr 1
  · simp
  · apply List.map_congr_left
    intro i _
    simp only [Function.comp_apply, List.drop_drop]
    rw [Nat.succ_mul, Nat.add_comm]

/-- Induction on a sequence a chunk at a time. -/
theorem chunk_induction {motive : List α → Prop} (size : Nat) (h : 0 < size) (hnil : motive [])
    (hchunk : ∀ xs, xs ≠ [] → motive (xs.drop size) → motive xs) (xs : List α) : motive xs := by
  induction hlen : xs.length using Nat.strong_induction_on generalizing xs with
  | h n ih =>
    by_cases hxs : xs = []
    · rw [hxs]
      exact hnil
    · have hpos : 0 < xs.length := List.length_pos_iff.mpr hxs
      exact hchunk xs hxs (ih (xs.drop size).length (by rw [List.length_drop]; omega) _ rfl)

theorem ne_nil_of_mem_chunks {size : Nat} (h : 0 < size) {xs chunk : List α} (hchunk : chunk ∈ chunks size xs) :
    chunk ≠ [] := by
  induction xs using chunk_induction size h with
  | hnil =>
    rw [chunks_nil size h] at hchunk
    exact absurd hchunk List.not_mem_nil
  | hchunk xs hxs ih =>
    rw [chunks_of_ne_nil h hxs] at hchunk
    rcases List.mem_cons.mp hchunk with rfl | hrest
    · rw [ne_eq, List.take_eq_nil_iff, not_or]
      exact ⟨Nat.ne_of_gt h, hxs⟩
    · exact ih hrest

theorem flatten_chunks {size : Nat} (h : 0 < size) (xs : List α) : (chunks size xs).flatten = xs := by
  induction xs using chunk_induction size h with
  | hnil => rw [chunks_nil size h, List.flatten_nil]
  | hchunk xs hxs ih => rw [chunks_of_ne_nil h hxs, List.flatten_cons, ih, List.take_append_drop]

/-- Chunks with the offsets of those numbered from `i` on. -/
def numbered (size : Nat) : Nat → List (List α) → List (Nat × List α)
  | _, [] => []
  | i, chunk :: chunks => (i * size, chunk) :: numbered size (i + 1) chunks

theorem numbered_snd (size i : Nat) (pieces : List (List α)) : (numbered size i pieces).map Prod.snd = pieces := by
  induction pieces generalizing i with
  | nil => rfl
  | cons piece pieces ih => rw [numbered, List.map_cons, ih]

/-- **The chunks of one sequence tile.** -/
theorem numbered_tiles {size : Nat} (h : 0 < size) (i : Nat) (xs : List α) :
    TilesFrom (i * size) (numbered size i (chunks size xs)) := by
  induction xs using chunk_induction size h generalizing i with
  | hnil =>
    rw [chunks_nil size h]
    exact tilesFrom_nil _
  | hchunk xs hxs ih =>
    rw [chunks_of_ne_nil h hxs, numbered, tilesFrom_cons]
    refine ⟨rfl, ?_⟩
    by_cases hrest : xs.drop size = []
    · rw [hrest, chunks_nil size h]
      exact tilesFrom_nil _
    · have hfull : (xs.take size).length = size := by
        rw [List.length_take]
        have hlt := List.length_pos_iff.mpr hrest
        rw [List.length_drop] at hlt
        omega
      have hnext : i * size + (xs.take size).length = (i + 1) * size := by rw [hfull, Nat.succ_mul]
      rw [hnext]
      exact ih (i + 1)

theorem numbered_chunks_snd {size : Nat} (h : 0 < size) (i : Nat) (xs : List α) :
    ((numbered size i (chunks size xs)).map Prod.snd).flatten = xs := by
  rw [numbered_snd, flatten_chunks h]

theorem restarted_snd {size : Nat} (h : 0 < size) (xss : List (List α)) :
    ((xss.flatMap fun xs => numbered size 0 (chunks size xs)).map Prod.snd).flatten = xss.flatten := by
  induction xss with
  | nil => rfl
  | cons xs xss ih =>
    rw [List.flatMap_cons, List.map_append, List.flatten_append, numbered_chunks_snd h, ih, List.flatten_cons]

/-- **Sequences that are each numbered from the start tile where there is one at most.** -/
theorem restarted_tiles_iff {size : Nat} (h : 0 < size) {xss : List (List α)} (hxss : ∀ xs ∈ xss, xs ≠ []) :
    Tiles (xss.flatMap fun xs => numbered size 0 (chunks size xs)) ↔ xss.length ≤ 1 := by
  cases xss with
  | nil => simp [Tiles, tilesFrom_nil]
  | cons xs xss =>
    have hfirst : TilesFrom 0 (numbered size 0 (chunks size xs)) := by
      have htiles := numbered_tiles h 0 xs
      rwa [Nat.zero_mul] at htiles
    rw [Tiles, List.flatMap_cons, tilesFrom_append]
    cases xss with
    | nil => simp [hfirst, tilesFrom_nil]
    | cons ys xss =>
      have hxs : 0 < xs.length := List.length_pos_iff.mpr (hxss xs List.mem_cons_self)
      have hextent : extent (numbered size 0 (chunks size xs)) = xs.length := by
        rw [extent_eq_length, numbered_chunks_snd h]
      have hys : ys ≠ [] := hxss ys (List.mem_cons_of_mem _ List.mem_cons_self)
      rw [hextent, List.flatMap_cons, chunks_of_ne_nil h hys, numbered, List.cons_append, tilesFrom_cons]
      constructor
      · intro htiles
        have hzero : 0 * size = 0 + xs.length := htiles.2.1
        omega
      · intro hlen
        simp only [List.length_cons] at hlen
        omega

end Octets
