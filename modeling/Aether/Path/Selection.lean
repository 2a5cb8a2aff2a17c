import Mathlib.Data.List.MinMax
import Mathlib.Data.Rat.Defs
import Mathlib.Algebra.Order.Ring.Rat
import Mathlib.Tactic.NormNum
import Aether.Path.Operations

/-! Which path is taken (`quality_score`, `best_path` and `active_paths` of `multipath.rs`).

Paths are compared by a score in doubles, whose arithmetic is a parameter: only the last
section depends on how it rounds. The path that is taken has the least score of those that
are active (`bestPath_spec`). It leads to an address that was registered, that has
challenged us, or that a challenge was sent to whose nonce has come back
(`bestPath_vouched`). A path whose RTT is 0, as it is before any is recorded, has the best
score there is (`bestPath_unmeasured`). -/
namespace Aether
open Octets Octets.Method

/-- Arithmetic on doubles that are not NaN. -/
structure Doubles (D : Type) where
  /-- `as f64` -/
  ofU64 : UInt64 → D
  lit : ℚ → D
  add : D → D → D
  mul : D → D → D
  div : D → D → D
  /-- `f64::MAX` -/
  max : D
  /-- Neither of the infinities. -/
  finite : D → Prop

/-- Doubles without rounding. -/
def exactDoubles : Doubles ℚ where
  ofU64 n := n.toNat
  lit q := q
  add := (· + ·)
  mul := (· * ·)
  div := (· / ·)
  max := (2 ^ 53 - 1) * 2 ^ 971
  finite _ := True

/-- What rounding leaves of the arithmetic of numbers that are not negative: quotients of words are
finite and do not vanish, and finite numbers do not shrink by factors of one or more. -/
structure Doubles.Monotone {D : Type} [LinearOrder D] (F : Doubles D) : Prop where
  zero_div : F.div (F.ofU64 0) (F.lit 1000) = F.lit 0
  zero_mul : ∀ x, F.finite x → F.mul (F.lit 0) x = F.lit 0
  ms_pos : ∀ n, n ≠ 0 → F.lit 0 < F.div (F.ofU64 n) (F.lit 1000)
  ms_finite : ∀ n, F.finite (F.div (F.ofU64 n) (F.lit 1000))
  rate_nonneg : ∀ n k, 0 < k → F.lit 0 ≤ F.div (F.ofU64 n) (F.ofU64 k)
  rate_finite : ∀ n k, 0 < k → F.finite (F.add (F.lit 1) (F.mul (F.div (F.ofU64 n) (F.ofU64 k)) (F.lit 10)))
  zero_finite : F.finite (F.add (F.lit 1) (F.mul (F.lit 0) (F.lit 10)))
  ten_nonneg : ∀ x, F.lit 0 ≤ x → F.lit 0 ≤ F.mul x (F.lit 10)
  one_le : ∀ x, F.lit 0 ≤ x → F.lit 1 ≤ F.add (F.lit 1) x
  le_mul : ∀ x y, F.finite x → F.finite y → F.lit 0 ≤ x → F.lit 1 ≤ y → x ≤ F.mul x y

theorem exactDoubles_monotone : exactDoubles.Monotone where
  zero_div := zero_div _
  zero_mul x _ := MulZeroClass.zero_mul x
  ms_pos n hn :=
    div_pos (Nat.cast_pos.mpr (Nat.pos_of_ne_zero fun h => hn (UInt64.toNat_inj.mp h))) (show (0 : ℚ) < 1000 by norm_num)
  ms_finite _ := trivial
  rate_nonneg n k _ := div_nonneg (Nat.cast_nonneg _) (Nat.cast_nonneg _)
  rate_finite _ _ _ := trivial
  zero_finite := trivial
  ten_nonneg x hx := mul_nonneg hx (show (0 : ℚ) ≤ 10 by norm_num)
  one_le x hx := le_add_of_nonneg_right hx
  le_mul x y _ _ hx hy := le_mul_of_one_le_right hx hy

section
variable {D Addr : Type} (F : Doubles D)

/-- The RTT in milliseconds with a penalty for losses; less is better. -/
def PathState.qualityScore (path : PathState Addr) : D :=
  if !path.active then F.max
  else
    let rttMs := F.div (F.ofU64 path.rttUs) (F.lit 1000)
    let lossRate :=
      if path.packetsSent > 0 then F.div (F.ofU64 path.packetsLost) (F.ofU64 path.packetsSent) else F.lit 0
    F.mul rttMs (F.add (F.lit 1) (F.mul lossRate (F.lit 10)))

end

namespace PathManager
variable {D Addr : Type} [LinearOrder D]

def activePaths (m : PathManager Addr) : List (PathId × PathState Addr) :=
  (m.paths.entries.filter fun entry => entry.2.active).map fun entry => (entry.1, entry.2)

/-- `min_by`: the first of those with the least score, in whatever order the table has. -/
def bestPath (F : Doubles D) (m : PathManager Addr) : Option (PathId × PathState Addr) :=
  m.activePaths.argmin fun x => x.2.qualityScore F

/-! ### The least score -/

theorem mem_activePaths {m : PathManager Addr} {pathId : PathId} {path : PathState Addr} :
    (pathId, path) ∈ m.activePaths ↔ m.paths.lookup pathId = some path ∧ path.active = true := by
  rw [activePaths, List.mem_map]
  constructor
  · intro h
    obtain ⟨⟨pathId', path'⟩, hentry, heq⟩ := h
    cases heq
    obtain ⟨hmem, hactive⟩ := List.mem_filter.mp hentry
    exact ⟨AList.mem_lookup_iff.mpr hmem, hactive⟩
  · intro h
    exact ⟨⟨pathId, path⟩, List.mem_filter.mpr ⟨AList.mem_lookup_iff.mp h.1, h.2⟩, rfl⟩

/-- **The path that is taken is an active one of the least score**, and there is one if there
is an active one at all. -/
theorem bestPath_spec (F : Doubles D) (m : PathManager Addr) :
    (∀ pathId path, bestPath F m = some (pathId, path) →
      m.paths.lookup pathId = some path ∧ path.active = true ∧
        ∀ otherId other, m.paths.lookup otherId = some other → other.active = true →
          path.qualityScore F ≤ other.qualityScore F) ∧
    (bestPath F m = none ↔ ∀ pathId path, m.paths.lookup pathId = some path → path.active = false) := by
  constructor
  · intro pathId path h
    obtain ⟨hlookup, hactive⟩ := mem_activePaths.mp (List.argmin_mem h)
    refine ⟨hlookup, hactive, fun otherId other hother hactive' => ?_⟩
    exact List.le_of_mem_argmin (f := fun x => x.2.qualityScore F) (mem_activePaths.mpr ⟨hother, hactive'⟩) h
  · rw [bestPath, List.argmin_eq_none, List.eq_nil_iff_forall_not_mem]
    constructor
    · intro h pathId path hlookup
      cases hactive : path.active with
      | false => rfl
      | true => exact absurd (mem_activePaths.mpr ⟨hlookup, hactive⟩) (h (pathId, path))
    · intro h x hx
      obtain ⟨hlookup, hactive⟩ := mem_activePaths.mp hx
      rw [h x.1 x.2 hlookup] at hactive
      cases hactive

/-! ### Where it leads -/

/-- We challenged the path at this address with this nonce. -/
def Challenged (past : List (PathManager Addr × Operation Addr)) (pathId : PathId) (addr : Addr) (nonce : UInt64) : Prop :=
  ∃ m localAddr now, (m, .createPathChallenge localAddr addr nonce now) ∈ past ∧ m.full = false ∧ m.nextPathId = pathId

/-- Why traffic of a path may go to an address. -/
inductive Vouched (past : List (PathManager Addr × Operation Addr)) (pathId : PathId) (addr : Addr) : Prop where
  | registered {m : PathManager Addr} {localAddr : Addr} {now : Instant}
      (primary : (m, .registerPrimary localAddr addr now) ∈ past) (zero : pathId = 0)
  | challenges {m : PathManager Addr} {frame : Frame} {localAddr : Addr} {now : Instant} {nonce : UInt64}
      (challenge : (m, .handlePathChallenge frame addr localAddr now) ∈ past) (carries : Carries frame pathId nonce)
  /-- Its nonce has come back, after it was sent. -/
  | answers {m : PathManager Addr} {before after : List (PathManager Addr × Operation Addr)} {frame : Frame} {now : Instant}
      {nonce : UInt64} (response : past = before ++ (m, .handlePathResponse frame now) :: after)
      (carries : Carries frame pathId nonce) (challenged : Challenged before pathId addr nonce)

/-- What holds of a path that is found. -/
structure Accounted (past : List (PathManager Addr × Operation Addr)) (pathId : PathId) (path : PathState Addr) : Prop where
  active : path.active = true → Vouched past pathId path.remoteAddr
  outstanding : ∀ nonce, path.challengeNonce = some nonce →
    Challenged past pathId path.remoteAddr nonce ∨ Vouched past pathId path.remoteAddr

section
variable {past : List (PathManager Addr × Operation Addr)} {pathId : PathId} {addr : Addr} {path : PathState Addr}

theorem Challenged.later {nonce : UInt64} (h : Challenged past pathId addr nonce) (x : PathManager Addr × Operation Addr) :
    Challenged (past ++ [x]) pathId addr nonce := by
  obtain ⟨m, localAddr, now, hmem, hroom⟩ := h
  exact ⟨m, localAddr, now, List.mem_append_left _ hmem, hroom⟩

theorem Vouched.later (h : Vouched past pathId addr) (x : PathManager Addr × Operation Addr) :
    Vouched (past ++ [x]) pathId addr := by
  cases h with
  | registered primary zero => exact .registered (List.mem_append_left _ primary) zero
  | challenges challenge carries => exact .challenges (List.mem_append_left _ challenge) carries
  | answers response carries challenged =>
    subst response
    exact .answers (List.append_assoc ..) carries challenged

theorem Accounted.later (h : Accounted past pathId path) (x : PathManager Addr × Operation Addr) :
    Accounted (past ++ [x]) pathId path where
  active hactive := (h.active hactive).later x
  outstanding nonce hnonce := (h.outstanding nonce hnonce).imp (·.later x) (·.later x)

/-- A path that waits for nothing and may be sent to. -/
theorem accounted_settled (hvouched : Vouched past pathId path.remoteAddr) : Accounted past pathId path :=
  ⟨fun _ => hvouched, fun _ _ => .inr hvouched⟩

theorem Accounted.noted (h : Accounted past pathId path) {path' : PathState Addr} (hnoted : Noted path path') :
    Accounted past pathId path' := by
  obtain ⟨_, hremote, hnonce, hactive⟩ := hnoted
  constructor
  · rw [hremote]
    exact fun hactive' => h.active (hactive hactive')
  · rw [hremote, hnonce]
    exact h.outstanding

end

/-- Every path that is in the table. -/
def AllAccounted (r : Recorded (PathManager Addr) (Operation Addr)) : Prop :=
  ∀ pathId path, r.now.paths.lookup pathId = some path → Accounted r.past pathId path

theorem accounted_insert {paths : AList fun _ : PathId => PathState Addr} {past : List (PathManager Addr × Operation Addr)}
    {new : PathId} {path : PathState Addr} (h : ∀ pathId path, paths.lookup pathId = some path → Accounted past pathId path)
    (hnew : Accounted past new path) :
    ∀ pathId path', (paths.insert new path).lookup pathId = some path' → Accounted past pathId path' := by
  intro pathId path' hlookup
  by_cases hsame : pathId = new
  · subst hsame
    cases (AList.lookup_insert _).symm.trans hlookup
    exact hnew
  · exact h pathId path' ((AList.lookup_insert_ne hsame).symm.trans hlookup)

/-- **Every operation leaves the paths accounted for.** -/
theorem accounted_step {r : Recorded (PathManager Addr) (Operation Addr)} (h : AllAccounted r) (operation : Operation Addr) :
    AllAccounted ⟨r.now.next operation, r.past ++ [(r.now, operation)]⟩ := by
  have hchanges := changes r.now operation
  have hlater : ∀ pathId path, r.now.paths.lookup pathId = some path →
      Accounted (r.past ++ [(r.now, operation)]) pathId path := fun pathId path hlookup => (h pathId path hlookup).later _
  rw [AllAccounted]
  generalize r.now.next operation = m' at hchanges
  cases hchanges with
  | registered localAddr remoteAddr now =>
    exact accounted_insert hlater (accounted_settled (.registered List.mem_concat_self rfl))
  | refused => exact hlater
  | created localAddr remoteAddr nonce now room =>
    refine accounted_insert hlater ⟨nofun, fun nonce' hnonce => .inl ?_⟩
    cases hnonce
    exact ⟨r.now, localAddr, now, List.mem_concat_self, room, rfl⟩
  | unanswered => exact hlater
  | answered frame now other nonce path carries present outstanding =>
    intro pathId path' hlookup
    rcases lookup_replace_eq_some hlookup with ⟨rfl, rfl⟩ | hold
    · refine accounted_settled ?_
      rcases (h pathId path present).outstanding nonce outstanding with hchallenged | hvouched
      · exact .answers rfl carries hchallenged
      · exact hvouched.later _
    · exact hlater pathId path' hold
  | malformed => exact hlater
  | challenged frame remoteAddr localAddr now other nonce carries =>
    exact accounted_insert hlater (accounted_settled (.challenges List.mem_concat_self carries))
  | noted _ change paths _ _ lookup keeps =>
    intro pathId path' hlookup
    obtain ⟨path, hpath, rfl⟩ := Option.map_eq_some_iff.mp ((lookup pathId).symm.trans hlookup)
    exact (hlater pathId path hpath).noted (keeps pathId path)

theorem accounted_after (connectionId : UInt64) (maxPaths : Nat) (operations : List (Operation Addr)) :
    AllAccounted (Recorded.after next (new connectionId maxPaths) operations) := by
  have hreached : Reached (Recorded.step step) (fun _ _ => True) (Recorded.fresh (new connectionId maxPaths))
      (Recorded.after next (new connectionId maxPaths : PathManager Addr) operations) :=
    Recorded.reached_after step_eq (new connectionId maxPaths) operations
  refine hreached.invariant (I := AllAccounted) ?_ ?_
  · intro pathId path hlookup
    cases hlookup
  · intro r operation r' hr _ hstep
    obtain ⟨m, hm, rfl⟩ := Recorded.step_eq_some.mp hstep
    cases hm
    exact accounted_step hr operation

/-- **Traffic is steered to no address that nobody has vouched for**: after any operations, the
path that is taken leads to an address that was registered, that has challenged us under its
ID, or that we challenged with a nonce which has since come back. -/
theorem bestPath_vouched (F : Doubles D) (connectionId : UInt64) (maxPaths : Nat) (operations : List (Operation Addr)) :
    ∀ pathId path, bestPath F (Recorded.after next (new connectionId maxPaths) operations).now = some (pathId, path) →
      Vouched (Recorded.after next (new connectionId maxPaths) operations).past pathId path.remoteAddr := by
  intro pathId path h
  obtain ⟨hlookup, hactive, _⟩ := (bestPath_spec F _).1 pathId path h
  exact (accounted_after connectionId maxPaths operations pathId path hlookup).active hactive

/-- A primary path of five milliseconds, and a path that was challenged and has answered. -/
def answeredPath : List (Operation Nat) :=
  [.registerPrimary 1 2 0, .recordRtt 0 5000, .createPathChallenge 3 4 9 0,
    .handlePathResponse (Frame.pathResponse 0 1 9) 5]

theorem bestPath_vouched_answered : Vouched (Recorded.after next (new 7 4) answeredPath).past 1 4 := by
  let answered : PathState Nat := { PathState.new 1 3 4 0 with active := true, lastActive := 5 }
  let primary : PathState Nat := { PathState.new 0 1 2 0 with active := true, rttUs := 5000 }
  have hpaths : (Recorded.after next (new 7 4) answeredPath).now.activePaths = [(1, answered), (0, primary)] := rfl
  have hbetter : answered.qualityScore exactDoubles ≤ primary.qualityScore exactDoubles := by
    norm_num [answered, primary, PathState.qualityScore, PathState.new, exactDoubles]
    exact div_nonneg (Nat.cast_nonneg _) (by norm_num)
  refine bestPath_vouched exactDoubles 7 4 answeredPath 1 answered ?_
  rw [bestPath, hpaths, List.argmin_cons, List.argmin_singleton]
  exact if_neg (not_lt_of_ge hbetter)

/-! ### Paths that have not been measured -/

section
variable {F : Doubles D}

/-- The factor by which losses on a path make it worse. -/
def penalty (F : Doubles D) (path : PathState Addr) : D :=
  F.add (F.lit 1) (F.mul
    (if path.packetsSent > 0 then F.div (F.ofU64 path.packetsLost) (F.ofU64 path.packetsSent) else F.lit 0) (F.lit 10))

omit [LinearOrder D] in
theorem qualityScore_active (F : Doubles D) {path : PathState Addr} (h : path.active = true) :
    path.qualityScore F = F.mul (F.div (F.ofU64 path.rttUs) (F.lit 1000)) (penalty F path) := by
  rw [PathState.qualityScore, h]
  rfl

theorem finite_penalty (hF : F.Monotone) (path : PathState Addr) : F.finite (penalty F path) := by
  rw [penalty]
  split
  · exact hF.rate_finite _ _ ‹_›
  · exact hF.zero_finite

theorem one_le_penalty (hF : F.Monotone) (path : PathState Addr) : F.lit 1 ≤ penalty F path := by
  refine hF.one_le _ (hF.ten_nonneg _ ?_)
  split
  · exact hF.rate_nonneg _ _ ‹_›
  · exact le_refl _

theorem qualityScore_unmeasured (hF : F.Monotone) {path : PathState Addr} (h : path.active = true)
    (hrtt : path.rttUs = 0) : path.qualityScore F = F.lit 0 := by
  rw [qualityScore_active F h, hrtt, hF.zero_div]
  exact hF.zero_mul _ (finite_penalty hF path)

theorem qualityScore_measured (hF : F.Monotone) {path : PathState Addr} (h : path.active = true)
    (hrtt : path.rttUs ≠ 0) : F.lit 0 < path.qualityScore F := by
  have hms := hF.ms_pos _ hrtt
  rw [qualityScore_active F h]
  exact hms.trans_le
    (hF.le_mul _ _ (hF.ms_finite _) (finite_penalty hF path) (le_of_lt hms) (one_le_penalty hF path))

/-- **A path whose RTT is 0 is taken before any other**, whatever has been lost on it. -/
theorem bestPath_unmeasured (hF : F.Monotone) (m : PathManager Addr) {freshId : PathId} {fresh : PathState Addr}
    (hfresh : m.paths.lookup freshId = some fresh) (hactive : fresh.active = true) (hrtt : fresh.rttUs = 0) :
    ∃ pathId path, bestPath F m = some (pathId, path) ∧ path.rttUs = 0 := by
  obtain ⟨hbests, hnone⟩ := bestPath_spec F m
  cases hbest : bestPath F m with
  | none =>
    have hinactive := hnone.mp hbest freshId fresh hfresh
    exact absurd (hactive.symm.trans hinactive) (by decide)
  | some best =>
    obtain ⟨_, hbestActive, hleast⟩ := hbests best.1 best.2 hbest
    have hle := hleast freshId fresh hfresh hactive
    refine ⟨best.1, best.2, rfl, ?_⟩
    by_contra hmeasured
    have hlt := qualityScore_measured hF hbestActive hmeasured
    rw [← qualityScore_unmeasured hF hactive hrtt] at hlt
    exact absurd hle (not_le_of_gt hlt)

end

/-- A primary path of five milliseconds, and one the peer has opened. -/
def samplePaths : PathManager Nat :=
  (((new 7 4).next (.registerPrimary 1 2 0)).next (.recordRtt 0 5000)).next
    (.handlePathChallenge (Frame.pathChallenge 0 3 9) 4 5 0)

theorem bestPath_unmeasured_peer :
    ∃ pathId path, bestPath exactDoubles samplePaths = some (pathId, path) ∧ path.rttUs = 0 := by
  have hpeer : samplePaths.paths.lookup 3 = some { PathState.new 3 5 4 0 with active := true } := rfl
  exact bestPath_unmeasured exactDoubles_monotone samplePaths hpeer rfl rfl

end PathManager

end Aether
