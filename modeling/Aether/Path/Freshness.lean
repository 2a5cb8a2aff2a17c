import Aether.Path.Operations

/-! Which path IDs are new.

The counter of `create_path_challenge` starts at 1 and comes to 0 after 255 paths, and
the path it makes is put in whatever the table holds. As long as the peer names no ID
the counter has yet to give, the IDs in the table other than 0 are those it has given
(`Allocated`), so what it gives next is new until all 256 are in use. -/
namespace Aether.PathManager
open Octets Octets.Method
variable {Addr : Type}

/-- If the call succeeds, it returns an ID that is not in the table and leaves every path as it is. -/
def CreatesFresh (m : PathManager Addr) (localAddr remoteAddr : Addr) (nonce : UInt64) (now : Instant) : Prop :=
  ∀ frame pathId m', (createPathChallenge localAddr remoteAddr nonce now).exec m = (.ok (frame, pathId), m') →
    pathId ∉ m.paths ∧ ∀ other path, m.paths.lookup other = some path → m'.paths.lookup other = some path

/-- A call that leaves it to the counter to give out IDs, and does not ask it for more
than there are. -/
def Careful (m : PathManager Addr) : Operation Addr → Prop
  | .handlePathChallenge frame _ _ _ => ∀ pathId nonce, Carries frame pathId nonce → pathId ∈ m.paths ∨ pathId = 0
  | .createPathChallenge _ _ _ _ => m.full = true ∨ size m.paths < 256
  | _ => True

/-- The counter has given out the ID: it is behind it, or the counter has come to 0. -/
def Given (m : PathManager Addr) (pathId : PathId) : Prop := m.nextPathId = 0 ∨ pathId < m.nextPathId

/-- All IDs are in use, or those that the counter has given, 0 apart. -/
def Allocated (m : PathManager Addr) : Prop :=
  (∀ pathId, pathId ∈ m.paths) ∨ ∀ pathId, pathId ≠ 0 → (pathId ∈ m.paths ↔ m.Given pathId)

theorem allocated_new (connectionId : UInt64) (maxPaths : Nat) :
    Allocated (new connectionId maxPaths : PathManager Addr) := by
  refine .inr fun pathId hpathId => iff_of_false (AList.notMem_empty pathId) fun hgiven => ?_
  rcases hgiven with hzero | hlt
  · cases hzero
  · exact hpathId (UInt8.lt_one_iff.mp hlt)

theorem ofNat_nodup : ((List.range 256).map UInt8.ofNat).Nodup := by
  refine List.Nodup.map_on (fun i hi j hj hij => ?_) List.nodup_range
  rw [List.mem_range] at hi hj
  have hmod := congrArg UInt8.toNat hij
  rwa [UInt8.toNat_ofNat', UInt8.toNat_ofNat', Nat.mod_eq_of_lt hi, Nat.mod_eq_of_lt hj] at hmod

/-- There are 256 IDs. -/
theorem le_size_of_all {paths : AList fun _ : PathId => PathState Addr} (h : ∀ pathId, pathId ∈ paths) :
    256 ≤ size paths := by
  have hsubset : (List.range 256).map UInt8.ofNat ⊆ paths.keys := fun pathId _ => AList.mem_keys.mp (h pathId)
  have hle := (List.subperm_of_subset ofNat_nodup hsubset).length_le
  rwa [List.length_map, List.length_range, ← size_eq_keys] at hle

theorem mem_of_le_size {paths : AList fun _ : PathId => PathState Addr} (h : 256 ≤ size paths) (pathId : PathId) :
    pathId ∈ paths := by
  by_contra hmem
  have hnodup : (pathId :: paths.keys).Nodup :=
    List.nodup_cons.mpr ⟨fun hkey => hmem (AList.mem_keys.mpr hkey), AList.keys_nodup paths⟩
  have hsubset : pathId :: paths.keys ⊆ (List.range 256).map UInt8.ofNat := fun other _ =>
    List.mem_map.mpr ⟨other.toNat, List.mem_range.mpr other.toNat_lt, UInt8.ofNat_toNat⟩
  have hle := (List.subperm_of_subset hnodup hsubset).length_le
  rw [List.length_cons, List.length_map, List.length_range, ← size_eq_keys] at hle
  omega

/-- What the counter gives is new while an ID is left. -/
theorem Allocated.fresh {m : PathManager Addr} (h : Allocated m) (hsize : size m.paths < 256) :
    m.nextPathId ∉ m.paths := by
  intro hmem
  rcases h with hall | hgiven
  · exact absurd (le_size_of_all hall) (Nat.not_le.mpr hsize)
  · by_cases hzero : m.nextPathId = 0
    · have hall : ∀ pathId, pathId ∈ m.paths := by
        intro pathId
        by_cases hpathId : pathId = 0
        · rwa [hpathId, ← hzero]
        · exact (hgiven pathId hpathId).mpr (.inl hzero)
      exact absurd (le_size_of_all hall) (Nat.not_le.mpr hsize)
    · rcases (hgiven m.nextPathId hzero).mp hmem with hwrapped | hlt
      · exact hzero hwrapped
      · exact UInt8.lt_irrefl _ hlt

/-- Moving on gives out the ID the counter stands at. -/
theorem given_succ {pathId next : PathId} (hnext : next ≠ 0) :
    (next + 1 = 0 ∨ pathId < next + 1) ↔ (pathId = next ∨ pathId < next) := by
  have hpos : next.toNat ≠ 0 := fun h => hnext (UInt8.toNat_inj.mp h)
  have hp := pathId.toNat_lt
  have hn := next.toNat_lt
  rw [← UInt8.toNat_inj, ← UInt8.toNat_inj, UInt8.lt_iff_toNat_lt, UInt8.lt_iff_toNat_lt, UInt8.toNat_add]
  show ((next.toNat + 1) % 256 = 0 ∨ pathId.toNat < (next.toNat + 1) % 256) ↔ _
  omega

theorem allocated_step {m m' : PathManager Addr} {operation : Operation Addr} (h : Allocated m)
    (hcareful : Careful m operation) (hchanges : Changes m operation m') : Allocated m' := by
  -- Where the counter stays, what is put in may be 0 or something that is there.
  have hinsert : ∀ (pathId : PathId) (path : PathState Addr) (primaryPathId : PathId), pathId ∈ m.paths ∨ pathId = 0 →
      Allocated { m with paths := m.paths.insert pathId path, primaryPathId } := by
    intro pathId path primaryPathId hpathId
    rcases h with hall | hgiven
    · exact .inl fun other => (AList.mem_insert _).mpr (.inr (hall other))
    · refine .inr fun other hother => (AList.mem_insert _).trans ?_
      show _ ↔ m.Given other
      rw [← hgiven other hother]
      constructor
      · rintro (rfl | hold)
        · exact hpathId.resolve_right hother
        · exact hold
      · exact .inr
  have hsame : ∀ paths : AList fun _ : PathId => PathState Addr, (∀ pathId, pathId ∈ paths ↔ pathId ∈ m.paths) →
      Allocated { m with paths } := by
    intro paths hpaths
    rcases h with hall | hgiven
    · exact .inl fun pathId => (hpaths pathId).mpr (hall pathId)
    · exact .inr fun pathId hpathId => (hpaths pathId).trans (hgiven pathId hpathId)
  cases hchanges with
  | refused => exact h
  | unanswered => exact h
  | malformed => exact h
  | registered => exact hinsert 0 _ 0 (.inr rfl)
  | challenged frame remoteAddr localAddr now pathId nonce carries =>
    exact hinsert pathId _ m.primaryPathId (hcareful pathId nonce carries)
  | answered => exact hsame _ fun pathId => AList.mem_replace
  | noted _ change paths _ _ lookup => exact hsame paths fun pathId => mem_noted lookup
  | created localAddr remoteAddr nonce now room =>
    have hsize : size m.paths < 256 := hcareful.resolve_left (by rw [room]; exact Bool.false_ne_true)
    rcases h with hall | hgiven
    · exact absurd (le_size_of_all hall) (Nat.not_le.mpr hsize)
    · by_cases hzero : m.nextPathId = 0
      · refine .inl fun pathId => (AList.mem_insert _).mpr ?_
        by_cases hpathId : pathId = 0
        · exact .inl (hpathId.trans hzero.symm)
        · exact .inr ((hgiven pathId hpathId).mpr (.inl hzero))
      · refine .inr fun pathId hpathId => (AList.mem_insert _).trans ?_
        rw [hgiven pathId hpathId, Given, Given, given_succ hzero]
        exact or_congr_right (or_iff_right hzero)

theorem createsFresh_iff {m : PathManager Addr} (localAddr remoteAddr : Addr) (nonce : UInt64) (now : Instant) :
    CreatesFresh m localAddr remoteAddr nonce now ↔ m.full = true ∨ m.nextPathId ∉ m.paths := by
  cases hfull : m.full with
  | true =>
    refine iff_of_true (fun frame pathId m' hexec => ?_) (.inl rfl)
    rw [exec_createPathChallenge_full hfull] at hexec
    cases hexec
  | false =>
    have hexec := exec_createPathChallenge_room hfull localAddr remoteAddr nonce now
    constructor
    · exact fun hfresh => .inr (hfresh _ _ _ hexec).1
    · intro h frame pathId m' hexec'
      cases hexec.symm.trans hexec'
      have hfresh := h.resolve_left nofun
      refine ⟨hfresh, fun other path hother => (AList.lookup_insert_ne ?_).trans hother⟩
      rintro rfl
      exact hfresh (mem_of_lookup hother)

/-- **After careful calls, a path that is created is new and leaves the others alone,
unless the IDs are used up.** -/
theorem creates_fresh_iff (connectionId : UInt64) (maxPaths : Nat) {m : PathManager Addr}
    (h : Reached step Careful (new connectionId maxPaths) m) (localAddr remoteAddr : Addr) (nonce : UInt64)
    (now : Instant) :
    CreatesFresh m localAddr remoteAddr nonce now ↔
      Careful m (.createPathChallenge localAddr remoteAddr nonce now) := by
  have hallocated : Allocated m := by
    refine h.invariant (I := Allocated) (allocated_new connectionId maxPaths) ?_
    intro m operation m' hm hcareful hstep
    cases hstep
    exact allocated_step hm hcareful (changes m operation)
  rw [createsFresh_iff]
  refine or_congr_right ⟨fun hfresh => ?_, hallocated.fresh⟩
  by_contra hsize
  exact hfresh (mem_of_le_size (Nat.not_lt.mp hsize) _)

/-- The primary path, and one that was created and that the peer has challenged in its turn. -/
def challengedPaths : PathManager Nat :=
  (((new 0xABCD 4).next (.registerPrimary 9000 9001 0)).next (.createPathChallenge 10000 10001 7 0)).next
    (.handlePathChallenge (Frame.pathChallenge 0 1 5) 10001 10000 3)

/-- What is created next is a third path. -/
theorem creates_fresh_iff_third : CreatesFresh challengedPaths 11000 11001 9 4 := by
  have hregistered : Reached step Careful (new 0xABCD 4) ((new 0xABCD 4 : PathManager Nat).next
      (.registerPrimary 9000 9001 0)) :=
    .next (.registerPrimary 9000 9001 0) .start trivial rfl
  have hcreated : Reached step Careful (new 0xABCD 4) (((new 0xABCD 4 : PathManager Nat).next
      (.registerPrimary 9000 9001 0)).next (.createPathChallenge 10000 10001 7 0)) :=
    .next (.createPathChallenge 10000 10001 7 0) hregistered (Or.inr (by decide)) rfl
  have hchallenged : Reached step Careful (new 0xABCD 4) challengedPaths := by
    refine .next (.handlePathChallenge (Frame.pathChallenge 0 1 5) 10001 10000 3) hcreated ?_ rfl
    intro pathId nonce hcarries
    obtain ⟨rfl, -⟩ := (carries_pathChallenge 0 1 5).eq hcarries
    exact .inl (by decide)
  exact (creates_fresh_iff 0xABCD 4 hchallenged 11000 11001 9 4).mpr (.inr (by decide))

/-- The peer challenges us on path 1 before we have created one: the first path we
create is path 1 again, and takes its place. -/
theorem create_overwrites :
    ∃ m : PathManager Nat, Reached step (fun _ _ => True) (new 0xABCD 4) m ∧ ¬ CreatesFresh m 10000 10001 7 0 := by
  refine ⟨(new 0xABCD 4).next (.handlePathChallenge (Frame.pathChallenge 0 1 5) 20001 20000 0),
    .next _ .start trivial rfl, fun h => ?_⟩
  exact (h _ 1 _ rfl).1 (by decide)

end Aether.PathManager
