import Aether.Path.Operations

/-! How many paths there are.

`create_path_challenge` refuses where the table has as many paths as there may be.
The other two calls that put a path in do not look: a path that is not in the table
is one more, whoever asks for it. The bound holds as long as these two come while
there is room, or name a path that is there (`count_iff`). -/
namespace Aether.PathManager
open Octets Octets.Method
variable {Addr : Type}

/-- A call that puts a path in comes where it is there already, or there is room. -/
def Fits (m : PathManager Addr) : Operation Addr → Prop
  | .registerPrimary _ _ _ => 0 ∈ m.paths ∨ m.full = false
  | .handlePathChallenge frame _ _ _ => ∀ pathId nonce, Carries frame pathId nonce → pathId ∈ m.paths ∨ m.full = false
  | _ => True

/-- Putting a path in keeps the bound where the path is there, or there is room. -/
theorem size_insert_le_iff {m : PathManager Addr} (h : size m.paths ≤ m.maxPaths) (pathId : PathId)
    (path : PathState Addr) :
    size (m.paths.insert pathId path) ≤ m.maxPaths ↔ pathId ∈ m.paths ∨ m.full = false := by
  by_cases hmem : pathId ∈ m.paths
  · rw [size_insert_of_mem hmem]
    exact iff_of_true h (.inl hmem)
  · rw [size_insert_of_notMem hmem, or_iff_right hmem, full, decide_eq_false_iff_not, not_le]
    exact Nat.succ_le_iff

/-- **One call keeps the bound where it fits, and only there.** -/
theorem size_next_le_iff {m : PathManager Addr} (h : size m.paths ≤ m.maxPaths) (operation : Operation Addr) :
    size (m.next operation).paths ≤ m.maxPaths ↔ Fits m operation := by
  have hchanges := changes m operation
  generalize m.next operation = m' at hchanges ⊢
  cases hchanges with
  | registered localAddr remoteAddr now => exact size_insert_le_iff h 0 _
  | refused => exact iff_of_true h trivial
  | created localAddr remoteAddr nonce now room =>
    exact iff_of_true ((size_insert_le_iff h m.nextPathId _).mpr (.inr room)) trivial
  | unanswered => exact iff_of_true h trivial
  | answered => exact iff_of_true ((size_replace _ _ _).trans_le h) trivial
  | malformed frame remoteAddr localAddr now empty =>
    exact iff_of_true h fun pathId nonce hcarries => absurd hcarries (empty pathId nonce)
  | challenged frame remoteAddr localAddr now pathId nonce carries =>
    rw [size_insert_le_iff h pathId]
    refine ⟨fun hfits other nonce' hcarries => ?_, fun hfits => hfits pathId nonce carries⟩
    rw [(carries.eq hcarries).1]
    exact hfits
  | noted operation change paths notes count =>
    refine iff_of_true (count.trans_le h) ?_
    cases operation with
    | registerPrimary => cases notes
    | handlePathChallenge => cases notes
    | _ => trivial

/-- **The table holds no more than `max_paths` paths as long as every call fits, and no longer.** -/
theorem count_iff (connectionId : UInt64) (maxPaths : Nat) (operations : List (Operation Addr)) :
    Throughout step (fun m operation => ∀ m', step m operation = some m' → size m'.paths ≤ maxPaths)
        (new connectionId maxPaths) operations ↔
      Throughout step Fits (new connectionId maxPaths) operations := by
  refine throughout_iff (I := fun m => m.maxPaths = maxPaths ∧ size m.paths ≤ m.maxPaths) ?_ ?_
    ⟨rfl, Nat.zero_le _⟩ operations
  · rintro m operation ⟨rfl, hcount⟩
    rw [← size_next_le_iff hcount]
    constructor
    · exact fun h => h _ rfl
    · intro h m' hstep
      cases hstep
      exact h
  · rintro m operation m' ⟨rfl, _⟩ hkept hstep
    have hcount := hkept m' hstep
    cases hstep
    have hcap := (changes m operation).maxPaths
    exact ⟨hcap, hcap.symm ▸ hcount⟩

/-- One path is allowed and there; the peer challenges us on another. And a challenge of
ours, then the primary path. -/
theorem count_overrun :
    ¬ Throughout step (fun m operation => ∀ m', step m operation = some m' → size m'.paths ≤ 1)
        (new 0xABCD 1 : PathManager Nat)
        [.registerPrimary 9000 9001 0, .handlePathChallenge (Frame.pathChallenge 0 1 5) 20001 20000 0] ∧
    ¬ Throughout step (fun m operation => ∀ m', step m operation = some m' → size m'.paths ≤ 1)
        (new 0xABCD 1 : PathManager Nat)
        [.createPathChallenge 10000 10001 5 0, .registerPrimary 9000 9001 0] := by
  constructor
  · exact fun h => absurd ((h.2 _ rfl).1 _ rfl) (by decide)
  · exact fun h => absurd ((h.2 _ rfl).1 _ rfl) (by decide)

end Aether.PathManager
