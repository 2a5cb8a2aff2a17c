import Aether.Library.Tiling
import Aether.Stream.Reassembly

/-! What a read with a limit returns, and what it leaves to later reads.

The loop of `read` takes whole fragments until it has as many octets as were asked for,
and the next read begins at offset 0 again. So a limit is kept to only where everything
is taken, or where nothing was asked for and nothing is taken; and what one read
leaves behind a fragment it took, no later read finds (`read_part_iff`). Fragments
without octets can be anywhere between the others, and the loop does not pass one that
comes behind a fragment of the same offset. A limit that no vector can hold is a panic. -/
namespace Aether.Stream
open Octets Octets.Method

/-! ### Fragments one behind the other -/

/-- What fragments hold, in their order. -/
def contents (fragments : List (UInt32 × Bytes)) : Bytes := (fragments.map Prod.snd).flatten

/-- A fragment as a piece of what it belongs to. -/
def located (f : UInt32 × Bytes) : Nat × Bytes := (f.1.toNat, f.2)

/-- The fragment holds something. -/
def carries (f : UInt32 × Bytes) : Bool := !f.2.isEmpty

/-- Each fragment, as long as it holds something or one behind it does, begins where those
before it end. -/
def FollowsFrom : Nat → List (UInt32 × Bytes) → Prop
  | _, [] => True
  | start, f :: rest => (contents (f :: rest) ≠ [] → f.1.toNat = start) ∧ FollowsFrom (start + f.2.length) rest

/-- Each fragment that holds something begins where those before it end. -/
def SpacedFrom : Nat → List (UInt32 × Bytes) → Prop
  | _, [] => True
  | start, f :: rest => (f.2 ≠ [] → f.1.toNat = start) ∧ SpacedFrom (start + f.2.length) rest

@[simp] theorem contents_nil : contents [] = [] := rfl

@[simp] theorem contents_cons (f : UInt32 × Bytes) (rest : List (UInt32 × Bytes)) :
    contents (f :: rest) = f.2 ++ contents rest := rfl

theorem contents_append (fs gs : List (UInt32 × Bytes)) : contents (fs ++ gs) = contents fs ++ contents gs := by
  rw [contents, List.map_append, List.flatten_append]
  rfl

theorem contents_filter (fs : List (UInt32 × Bytes)) : contents (fs.filter carries) = contents fs := by
  induction fs with
  | nil => rfl
  | cons f rest ih =>
    cases hf : carries f with
    | true => rw [List.filter_cons_of_pos hf, contents_cons, contents_cons, ih]
    | false =>
      have hempty : f.2 = [] := by simpa [carries] using hf
      rw [List.filter_cons_of_neg (by rw [hf]; exact Bool.false_ne_true), contents_cons, ih, hempty, List.nil_append]

theorem eq_nil_of_contents {fs : List (UInt32 × Bytes)} (h : contents fs = []) : ∀ f ∈ fs, f.2 = [] := by
  intro f hf
  exact List.flatten_eq_nil_iff.mp h f.2 (List.mem_map_of_mem hf)

theorem followsFrom_of_contents {fs : List (UInt32 × Bytes)} (h : contents fs = []) (start : Nat) :
    FollowsFrom start fs := by
  induction fs generalizing start with
  | nil => trivial
  | cons f rest ih => exact ⟨fun hne => absurd h hne, ih (List.append_eq_nil_iff.mp h).2 _⟩

section
variable {start : Nat} {fs gs : List (UInt32 × Bytes)}

theorem spacedFrom_of_tiles (h : TilesFrom start (fs.map located)) : SpacedFrom start fs := by
  induction fs generalizing start with
  | nil => trivial
  | cons f rest ih =>
    obtain ⟨hoffset, hrest⟩ := tilesFrom_cons.mp h
    exact ⟨fun _ => hoffset, ih hrest⟩

/-- Fragments that hold nothing do not count. -/
theorem spacedFrom_filter : SpacedFrom start (fs.filter carries) ↔ SpacedFrom start fs := by
  induction fs generalizing start with
  | nil => exact Iff.rfl
  | cons f rest ih =>
    cases hf : carries f with
    | true => rw [List.filter_cons_of_pos hf, SpacedFrom, SpacedFrom, ih]
    | false =>
      have hempty : f.2 = [] := by simpa [carries] using hf
      rw [List.filter_cons_of_neg (by rw [hf]; exact Bool.false_ne_true), SpacedFrom, ih, hempty, List.length_nil,
        Nat.add_zero]
      simp

theorem SpacedFrom.append (h : SpacedFrom start (fs ++ gs)) : SpacedFrom (start + (contents fs).length) gs := by
  induction fs generalizing start with
  | nil => exact h
  | cons f rest ih =>
    have hrest := ih h.2
    rw [contents_cons, List.length_append, ← Nat.add_assoc]
    exact hrest

/-- What holds something does not begin before the start. -/
theorem SpacedFrom.le (h : SpacedFrom start fs) {f : UInt32 × Bytes} (hf : f ∈ fs) (hne : f.2 ≠ []) :
    start ≤ f.1.toNat := by
  induction fs generalizing start with
  | nil => exact absurd hf List.not_mem_nil
  | cons g rest ih =>
    rcases List.mem_cons.mp hf with rfl | hrest
    · exact (h.1 hne).ge
    · exact Nat.le_of_add_right_le (ih h.2 hrest)

theorem SpacedFrom.pairwise (h : SpacedFrom start fs) (hfilled : ∀ f ∈ fs, f.2 ≠ []) :
    fs.Pairwise fun f g => f.1 < g.1 := by
  induction fs generalizing start with
  | nil => exact .nil
  | cons f rest ih =>
    have hne : f.2 ≠ [] := hfilled f List.mem_cons_self
    have hpos := List.length_pos_iff.mpr hne
    refine List.pairwise_cons.mpr ⟨fun g hg => ?_, ih h.2 fun g hg => hfilled g (List.mem_cons_of_mem f hg)⟩
    have hle := h.2.le hg (hfilled g (List.mem_cons_of_mem f hg))
    rw [UInt32.lt_iff_toNat_lt, h.1 hne]
    omega

theorem ne_nil_of_carries {f : UInt32 × Bytes} (h : f ∈ fs.filter carries) : f.2 ≠ [] := by
  simpa [carries] using (List.mem_filter.mp h).2

/-- Fragments in the order of their offsets that are one behind the other in another order
are so in this one, and hold the same. -/
theorem spacedFrom_sorted (hperm : fs.Perm gs) (hsorted : gs.Pairwise fun f g => f.1 ≤ g.1)
    (h : SpacedFrom start fs) : SpacedFrom start gs ∧ contents gs = contents fs := by
  have hstrict := (spacedFrom_filter.mpr h).pairwise fun f hf => ne_nil_of_carries hf
  -- No two of the fragments that hold something have the same offset.
  have hoffsets : ((fs.filter carries).map Prod.fst).Nodup :=
    (List.pairwise_map.mpr hstrict).imp fun hlt => (UInt32.lt_iff_le_and_ne.mp hlt).2
  have hsame : fs.filter carries = gs.filter carries := by
    refine List.Perm.eq_of_pairwise (fun f g hf hg hfg hgf => ?_) (hstrict.imp fun hlt => UInt32.le_of_lt hlt)
      (hsorted.sublist List.filter_sublist) (hperm.filter carries)
    exact List.inj_on_of_nodup_map hoffsets hf ((hperm.filter carries).mem_iff.mpr hg) (UInt32.le_antisymm hfg hgf)
  rw [← spacedFrom_filter, ← hsame, spacedFrom_filter, ← contents_filter gs, ← hsame, contents_filter]
  exact ⟨h, rfl⟩

end

/-! ### The loop -/

/-- What holds something has an offset below 2^32, so what stands before it is shorter. -/
theorem FollowsFrom.start_lt {start : Nat} {fs : List (UInt32 × Bytes)} (h : FollowsFrom start fs)
    (hne : contents fs ≠ []) : start < 2 ^ 32 := by
  cases fs with
  | nil => exact absurd rfl hne
  | cons f rest =>
    rw [← h.1 hne]
    exact f.1.toNat_lt

/-- Fragments that follow one another are all taken where the limit allows it, and also where
it lies behind every offset. -/
theorem collect_of_follows {maxLen start : Nat} {fs : List (UInt32 × Bytes)} (h : FollowsFrom start fs) {result : Bytes}
    (hstart : result.length = start) (hmax : (result ++ contents fs).length ≤ maxLen ∨ 2 ^ 32 ≤ maxLen) (consumed : Nat) :
    (collect maxLen fs result (UInt32.ofNat start) consumed).1 = result ++ contents fs := by
  induction fs generalizing start result consumed with
  | nil => exact (List.append_nil result).symm
  | cons f rest ih =>
    by_cases hcontents : contents (f :: rest) = []
    · -- Nothing is left to be taken.
      obtain ⟨n, _, hcollect⟩ := collect_takes maxLen (f :: rest) result (UInt32.ofNat start) consumed
      have htaken : contents ((f :: rest).take n) = [] := by
        have hsplit := congrArg contents (List.take_append_drop n (f :: rest))
        rw [contents_append, hcontents] at hsplit
        exact (List.append_eq_nil_iff.mp hsplit).1
      rw [hcollect, hcontents]
      exact congrArg (result ++ ·) htaken
    · have hoffset : f.1 = UInt32.ofNat start := by rw [← h.1 hcontents, UInt32.ofNat_toNat]
      rw [contents_cons, ← List.append_assoc] at hmax ⊢
      rw [collect, if_neg (not_not_intro hoffset)]
      split
      · rename_i hstop
        have hnil : contents rest = [] := by
          by_contra hne
          have hlt := h.2.start_lt hne
          have hpos := List.length_pos_iff.mpr hne
          simp only [List.length_append] at hmax hstop
          omega
        rw [hnil, List.append_nil]
      · rw [← UInt32.ofNat_add]
        exact ih h.2 (by rw [List.length_append, hstart]) hmax (consumed + 1)

/-- Where all is taken, the fragments follow one another. -/
theorem follows_of_collect {maxLen start : Nat} {fs : List (UInt32 × Bytes)} (hspaced : SpacedFrom start fs)
    {result : Bytes} {consumed : Nat}
    (h : (collect maxLen fs result (UInt32.ofNat start) consumed).1 = result ++ contents fs) : FollowsFrom start fs := by
  induction fs generalizing start result consumed with
  | nil => trivial
  | cons f rest ih =>
    by_cases hcontents : contents (f :: rest) = []
    · exact followsFrom_of_contents hcontents start
    · rw [contents_cons, ← List.append_assoc, collect] at h
      split at h
      · rw [List.append_assoc] at h
        exact absurd (List.self_eq_append_right.mp h) hcontents
      · rename_i hoffset
        refine ⟨fun _ => ?_, ?_⟩
        · by_cases hf : f.2 = []
          · -- What it holds, one behind it begins no further on than here.
            obtain ⟨g, hg, hne⟩ : ∃ g ∈ rest, g.2 ≠ [] := by
              by_contra hnone
              push Not at hnone
              refine hcontents (List.append_eq_nil_iff.mpr ⟨hf, List.flatten_eq_nil_iff.mpr fun data hdata => ?_⟩)
              obtain ⟨g, hg, rfl⟩ := List.mem_map.mp hdata
              exact hnone g hg
            have hle := hspaced.2.le hg hne
            have hlt := g.1.toNat_lt
            rw [not_not.mp hoffset, UInt32.toNat_ofNat']
            exact Nat.mod_eq_of_lt (by omega)
          · exact hspaced.1 hf
        · split at h
          · have hrest : contents rest = [] := List.self_eq_append_right.mp h
            exact followsFrom_of_contents hrest _
          · rw [← UInt32.ofNat_add] at h
            exact ih hspaced.2 h

/-! ### Reads -/

theorem runAll_read_eq_ok {s : Stream} {maxLen : Nat} {calls : List Call} {out : Bytes} :
    ((runAll (.read maxLen :: calls)).exec s).1 = .ok out ↔ ∃ data rest, ((read maxLen).exec s).1 = .ok data ∧
      ((runAll calls).exec ((read maxLen).exec s).2).1 = .ok rest ∧ out = data ++ rest := by
  rw [runAll, Call.run, exec_bind]
  rcases (read maxLen).exec s with ⟨r, s'⟩
  cases r with
  | error e => simp
  | ok data =>
    simp only [exec_bind]
    rcases (runAll calls).exec s' with ⟨r', s''⟩
    cases r' with
    | error e => simp
    | ok rest => simp [eq_comm]

/-- A read takes a beginning of the sorted buffer, as the loop does. -/
theorem exec_read_take {s : Stream} (h : s.receiveBuffer ≠ []) {maxLen : Nat} (hroom : s.AtStart → maxLen ≤ isizeMax) :
    ∃ n, (read maxLen).exec s = (.ok (contents ((sortByOffset s.receiveBuffer).take n)),
        { s with receiveBuffer := (sortByOffset s.receiveBuffer).drop n }) ∧
      collect maxLen (sortByOffset s.receiveBuffer) [] 0 0 = (contents ((sortByOffset s.receiveBuffer).take n), n) := by
  obtain ⟨n, _, hcollect⟩ := collect_takes maxLen (sortByOffset s.receiveBuffer) [] 0 0
  rw [List.nil_append, Nat.zero_add] at hcollect
  refine ⟨n, ?_, hcollect⟩
  rw [exec_read_collect (by rw [List.isEmpty_eq_false_iff.mpr h, Bool.and_false]) hroom, hcollect]
  rfl

/-- What is at offset 0 holds nothing. -/
def Blocked (s : Stream) : Prop := ∀ f ∈ s.receiveBuffer, f.1 = 0 → f.2 = []

theorem collect_blocked (maxLen : Nat) {fs : List (UInt32 × Bytes)} (h : ∀ f ∈ fs, f.1 = 0 → f.2 = []) (consumed : Nat) :
    (collect maxLen fs [] 0 consumed).1 = [] := by
  induction fs generalizing consumed with
  | nil => rfl
  | cons f rest ih =>
    rw [collect]
    split
    · rfl
    · rename_i hoffset
      have hempty : f.2 = [] := h f List.mem_cons_self (not_not.mp hoffset)
      rw [hempty, List.append_nil]
      split
      · rfl
      · exact ih (fun g hg => h g (List.mem_cons_of_mem f hg)) (consumed + 1)

/-- Nothing is read of a blocked stream, however often. -/
theorem Blocked.read {s : Stream} (h : Blocked s) (maxLen : Nat) :
    Blocked ((read maxLen).exec s).2 ∧ ∀ data, ((read maxLen).exec s).1 = .ok data → data = [] := by
  obtain ⟨taken, left, hperm, hleft, hdata, _⟩ := exec_read_takes s maxLen
  constructor
  · rw [hleft]
    exact fun f hf => h f (hperm.subset (List.mem_append_right taken hf))
  · intro data hok
    by_cases hbuffer : s.receiveBuffer = []
    · rw [hbuffer] at hperm
      obtain ⟨rfl, rfl⟩ := List.append_eq_nil_iff.mp hperm.eq_nil
      exact hdata data hok
    · obtain ⟨n, hread, hcollect⟩ := exec_read_take hbuffer (room_of_read hok)
      have hsorted : ∀ f ∈ sortByOffset s.receiveBuffer, f.1 = 0 → f.2 = [] :=
        fun f hf => h f ((sortByOffset_perm _).mem_iff.mp hf)
      have hnothing := collect_blocked maxLen hsorted 0
      rw [hcollect] at hnothing
      rw [hread] at hok
      exact (Except.ok.inj hok).symm.trans hnothing

theorem Blocked.runAll {s : Stream} (h : Blocked s) {maxLens : List Nat} {out : Bytes}
    (hrun : ((runAll (maxLens.map Call.read)).exec s).1 = .ok out) : out = [] := by
  induction maxLens generalizing s out with
  | nil => exact (Except.ok.inj hrun).symm
  | cons maxLen maxLens ih =>
    obtain ⟨data, rest, hdata, hrest, rfl⟩ := runAll_read_eq_ok.mp hrun
    obtain ⟨hblocked, hnothing⟩ := h.read maxLen
    rw [hnothing data hdata, ih hblocked hrest]
    rfl

/-- Behind a fragment that was taken, nothing is at offset 0. -/
theorem blocked_of_taken {s : Stream} {taken left : List (UInt32 × Bytes)} (hspaced : SpacedFrom 0 (taken ++ left))
    (htaken : contents taken ≠ []) (hbuffer : s.receiveBuffer = left) : Blocked s := by
  intro f hf hoffset
  by_contra hne
  rw [hbuffer] at hf
  have hle := hspaced.append.le hf hne
  have hpos := List.length_pos_iff.mpr htaken
  rw [hoffset] at hle
  exact absurd hle (by rw [Nat.zero_add]; exact Nat.not_le_of_lt hpos)

/-- Fragments at offset 0 that hold nothing can stand in front. -/
theorem FollowsFrom.behind {fs gs : List (UInt32 × Bytes)} (hfs : ∀ f ∈ fs, f.2 = [] ∧ f.1 = 0) (h : FollowsFrom 0 gs) :
    FollowsFrom 0 (fs ++ gs) := by
  induction fs with
  | nil => exact h
  | cons f rest ih =>
    obtain ⟨hempty, hoffset⟩ := hfs f List.mem_cons_self
    refine ⟨fun _ => by rw [hoffset]; rfl, ?_⟩
    rw [hempty]
    exact ih fun g hg => hfs g (List.mem_cons_of_mem f hg)

theorem SpacedFrom.first {start : Nat} {fs : List (UInt32 × Bytes)} (h : SpacedFrom start fs) (hne : contents fs ≠ []) :
    ∃ f ∈ fs, f.1.toNat = start := by
  induction fs generalizing start with
  | nil => exact absurd rfl hne
  | cons f rest ih =>
    by_cases hf : f.2 = []
    · rw [contents_cons, hf, List.nil_append] at hne
      obtain ⟨g, hg, hoffset⟩ := ih h.2 hne
      rw [hf] at hoffset
      exact ⟨g, List.mem_cons_of_mem f hg, hoffset⟩
    · exact ⟨f, List.mem_cons_self, h.1 hf⟩

/-- In the order of their offsets, what stands in front of something at offset 0 is there too. -/
theorem offset_zero_of_sorted {fs gs : List (UInt32 × Bytes)} (hsorted : (fs ++ gs).Pairwise fun f g => f.1 ≤ g.1)
    (hspaced : SpacedFrom 0 gs) (hne : contents gs ≠ []) : ∀ f ∈ fs, f.1 = 0 := by
  intro f hf
  obtain ⟨g, hg, hoffset⟩ := hspaced.first hne
  have hle := UInt32.le_iff_toNat_le.mp ((List.pairwise_append.mp hsorted).2.2 f hf g hg)
  exact UInt32.toNat_inj.mp (Nat.le_zero.mp (hoffset ▸ hle))

/-- What is left where nothing was taken that holds anything is sorted and holds all there is. -/
theorem left_of_untaken {buffer taken left : List (UInt32 × Bytes)} (hsplit : taken ++ left = sortByOffset buffer)
    (hspaced : SpacedFrom 0 (sortByOffset buffer)) (htaken : contents taken = []) :
    sortByOffset left = left ∧ SpacedFrom 0 left ∧ contents left = contents (sortByOffset buffer) := by
  have hsorted := sortByOffset_pairwise buffer
  rw [← hsplit] at hspaced hsorted ⊢
  have hspacedLeft := hspaced.append
  rw [htaken, List.length_nil] at hspacedLeft
  refine ⟨sortByOffset_of_sorted (hsorted.sublist (List.sublist_append_right taken left)), hspacedLeft, ?_⟩
  rw [contents_append, htaken, List.nil_append]

/-- Where what is left follows one another, so does all there was. -/
theorem follows_of_untaken {buffer taken left : List (UInt32 × Bytes)} (hsplit : taken ++ left = sortByOffset buffer)
    (hspaced : SpacedFrom 0 left) (htaken : contents taken = []) (hleft : contents left ≠ []) (h : FollowsFrom 0 left) :
    FollowsFrom 0 (sortByOffset buffer) := by
  have hsorted := sortByOffset_pairwise buffer
  rw [← hsplit] at hsorted ⊢
  exact h.behind fun f hf => ⟨eq_nil_of_contents htaken f hf, offset_zero_of_sorted hsorted hspaced hleft f hf⟩

/-- What reads give out whole follows one another. -/
theorem follows_of_runAll {s : Stream} (hspaced : SpacedFrom 0 (sortByOffset s.receiveBuffer)) (maxLens : List Nat)
    (hrun : ((runAll (maxLens.map Call.read)).exec s).1 = .ok (contents (sortByOffset s.receiveBuffer))) :
    FollowsFrom 0 (sortByOffset s.receiveBuffer) := by
  induction maxLens generalizing s with
  | nil => exact followsFrom_of_contents (Except.ok.inj hrun).symm 0
  | cons maxLen maxLens ih =>
    by_cases hcontents : contents (sortByOffset s.receiveBuffer) = []
    · exact followsFrom_of_contents hcontents 0
    · obtain ⟨data, rest, hdata, hrest, hall⟩ := runAll_read_eq_ok.mp hrun
      have hbuffer : s.receiveBuffer ≠ [] := by
        intro hnil
        exact hcontents (by rw [hnil]; rfl)
      obtain ⟨n, hread, hcollect⟩ := exec_read_take hbuffer (room_of_read hdata)
      rw [hread] at hdata hrest
      cases hdata
      have hsplit := List.take_append_drop n (sortByOffset s.receiveBuffer)
      by_cases htaken : contents ((sortByOffset s.receiveBuffer).take n) = []
      · obtain ⟨hsorted, hspacedLeft, hleft⟩ := left_of_untaken hsplit hspaced htaken
        rw [htaken, List.nil_append] at hall
        have hfollows := ih (s := { s with receiveBuffer := (sortByOffset s.receiveBuffer).drop n })
          (by rw [hsorted]; exact hspacedLeft) (by rw [hsorted, hleft, hall]; exact hrest)
        rw [hsorted] at hfollows
        exact follows_of_untaken hsplit hspacedLeft htaken (by rw [hleft]; exact hcontents) hfollows
      · -- Later reads find nothing, so this one has given out everything.
        rw [← hsplit] at hspaced
        have hblocked := blocked_of_taken (s := { s with receiveBuffer := (sortByOffset s.receiveBuffer).drop n }) hspaced
          htaken rfl
        rw [hsplit] at hspaced
        rw [hblocked.runAll hrest, List.append_nil] at hall
        have hwhole : (collect maxLen (sortByOffset s.receiveBuffer) [] (UInt32.ofNat 0) 0).1 =
            [] ++ contents (sortByOffset s.receiveBuffer) := by
          rw [List.nil_append, hall]
          exact congrArg Prod.fst hcollect
        exact follows_of_collect hspaced hwhole

/-- A read with a limit returns the octets it is asked for, and later reads the others. -/
structure ReadsPart (s : Stream) (maxLen : Nat) (octets : Bytes) : Prop where
  now : ((read maxLen).exec s).1 = .ok (octets.take maxLen)
  later : ∃ maxLens : List Nat,
    ((runAll (maxLens.map Call.read)).exec ((read maxLen).exec s).2).1 = .ok (octets.drop maxLen)

/-- The first fragment in the order of offsets holds nothing. -/
def BeginsEmpty (s : Stream) : Prop := ∃ f rest, sortByOffset s.receiveBuffer = f :: rest ∧ f.2 = []

section
variable {s : Stream} {octets : Bytes}

/-- All that follows one another is read where the limit allows it. -/
theorem exec_read_whole (hbuffer : s.receiveBuffer ≠ []) (hfollows : FollowsFrom 0 (sortByOffset s.receiveBuffer))
    {maxLen : Nat} (hroom : maxLen ≤ isizeMax)
    (hmax : (contents (sortByOffset s.receiveBuffer)).length ≤ maxLen ∨ 2 ^ 32 ≤ maxLen) :
    ((read maxLen).exec s).1 = .ok (contents (sortByOffset s.receiveBuffer)) := by
  obtain ⟨n, hread, hcollect⟩ := exec_read_take hbuffer fun _ => hroom
  have hall : (collect maxLen (sortByOffset s.receiveBuffer) [] 0 0).1 = [] ++ contents (sortByOffset s.receiveBuffer) :=
    collect_of_follows hfollows rfl hmax 0
  rw [List.nil_append] at hall
  rw [hread, ← hall]
  exact congrArg Except.ok (congrArg Prod.fst hcollect).symm

/-- Where the limit is below what there is, something was asked for and nothing taken, or nothing
was asked for. -/
theorem limit_of_readsPart (hbuffer : s.receiveBuffer ≠ []) (hspaced : SpacedFrom 0 (sortByOffset s.receiveBuffer))
    {maxLen : Nat} (h : ReadsPart s maxLen (contents (sortByOffset s.receiveBuffer))) :
    (contents (sortByOffset s.receiveBuffer)).length ≤ maxLen ∨ maxLen = 0 ∧ BeginsEmpty s := by
  obtain ⟨n, hread, hcollect⟩ := exec_read_take hbuffer (room_of_read h.now)
  have hnow := h.now
  obtain ⟨maxLens, hlater⟩ := h.later
  rw [hread] at hnow hlater
  have htake := Except.ok.inj hnow
  by_cases htaken : contents ((sortByOffset s.receiveBuffer).take n) = []
  · rw [htaken] at htake
    rcases List.take_eq_nil_iff.mp htake.symm with hzero | hcontents
    · by_cases hcontents : contents (sortByOffset s.receiveBuffer) = []
      · exact .inl (by rw [hcontents]; exact Nat.zero_le _)
      · refine .inr ⟨hzero, ?_⟩
        -- The loop has looked at the first fragment, which is at offset 0, and taken it.
        cases hsorted : sortByOffset s.receiveBuffer with
        | nil => exact absurd (by rw [hsorted]; rfl) hcontents
        | cons f rest =>
          refine ⟨f, rest, hsorted, ?_⟩
          by_contra hf
          rw [hsorted] at hspaced hcollect htaken
          have hoffset : f.1 = 0 := UInt32.toNat_inj.mp (hspaced.1 hf)
          rw [collect, if_neg (not_not_intro hoffset), if_pos (by rw [hzero]; exact Nat.zero_le _)] at hcollect
          obtain ⟨hdata, _⟩ := Prod.mk.inj hcollect
          rw [htaken] at hdata
          exact hf hdata
    · exact .inl (by rw [hcontents]; exact Nat.zero_le _)
  · have hsplit := List.take_append_drop n (sortByOffset s.receiveBuffer)
    rw [← hsplit] at hspaced
    have hblocked := blocked_of_taken (s := { s with receiveBuffer := (sortByOffset s.receiveBuffer).drop n }) hspaced
      htaken rfl
    exact .inl (List.drop_eq_nil_iff.mp (hblocked.runAll hlater))

theorem readsPart_of_le (hbuffer : s.receiveBuffer ≠ []) (hfollows : FollowsFrom 0 (sortByOffset s.receiveBuffer))
    {maxLen : Nat} (hroom : maxLen ≤ isizeMax) (hmax : (contents (sortByOffset s.receiveBuffer)).length ≤ maxLen) :
    ReadsPart s maxLen (contents (sortByOffset s.receiveBuffer)) := by
  refine ⟨?_, [], ?_⟩
  · rw [List.take_of_length_le hmax]
    exact exec_read_whole hbuffer hfollows hroom (.inl hmax)
  · rw [List.drop_eq_nil_of_le hmax]
    rfl

/-- An empty first fragment is all that is taken where nothing is asked for. -/
theorem exec_read_zero {f : UInt32 × Bytes} {rest : List (UInt32 × Bytes)} (hsorted : sortByOffset s.receiveBuffer = f :: rest)
    (hempty : f.2 = []) (hoffset : f.1 = 0) :
    (read 0).exec s = (.ok [], { s with receiveBuffer := rest }) := by
  have hbuffer : s.receiveBuffer ≠ [] := by
    intro hnil
    rw [hnil] at hsorted
    cases hsorted
  rw [exec_read_collect (by rw [List.isEmpty_eq_false_iff.mpr hbuffer, Bool.and_false]) fun _ => Nat.zero_le _,
    hsorted, collect, if_neg (not_not_intro hoffset), if_pos (Nat.zero_le _), hempty]
  rfl

/-- The read after it takes the rest. -/
theorem readsPart_zero (hfollows : FollowsFrom 0 (sortByOffset s.receiveBuffer))
    (hne : contents (sortByOffset s.receiveBuffer) ≠ []) (h : BeginsEmpty s) :
    ReadsPart s 0 (contents (sortByOffset s.receiveBuffer)) := by
  obtain ⟨f, rest, hsorted, hempty⟩ := h
  have hrest : sortByOffset rest = rest := by
    have hpairwise := sortByOffset_pairwise s.receiveBuffer
    rw [hsorted] at hpairwise
    exact sortByOffset_of_sorted hpairwise.tail
  rw [hsorted] at hfollows hne ⊢
  have hoffset : f.1 = 0 := UInt32.toNat_inj.mp (hfollows.1 hne)
  have hfollowsRest := hfollows.2
  rw [contents_cons, hempty, List.nil_append] at hne ⊢
  rw [hempty, List.length_nil, ← hrest] at hfollowsRest
  have hbuffer : rest ≠ [] := by
    intro hnil
    exact hne (by rw [hnil]; rfl)
  -- There can be more than the limit of this read, but it lies behind every offset.
  have hwhole := exec_read_whole (s := { s with receiveBuffer := rest }) hbuffer hfollowsRest (Nat.le_refl isizeMax)
    (.inr (by decide))
  refine ⟨by rw [exec_read_zero hsorted hempty hoffset]; rfl, [isizeMax], ?_⟩
  rw [exec_read_zero hsorted hempty hoffset]
  exact runAll_read_eq_ok.mpr ⟨_, [], hwhole, rfl, by rw [hrest, List.append_nil]; rfl⟩

/-- Fragments one behind the other have one for the beginning. -/
theorem atStart_of_tiles {fragments : List (UInt32 × Bytes)} (hbuffer : s.receiveBuffer ≠ [])
    (hperm : fragments.Perm s.receiveBuffer) (htiles : Tiles (fragments.map located)) : s.AtStart := by
  cases fragments with
  | nil => exact absurd hperm.nil_eq.symm hbuffer
  | cons f rest => exact ⟨f, hperm.subset List.mem_cons_self, UInt32.toNat_inj.mp (tilesFrom_cons.mp htiles).1⟩

end

/-- **A read keeps its limit without losing anything** exactly where a vector can hold as much,
where the limit is no limit, or it takes an empty fragment and nothing was asked for; and
where no empty fragment stands behind another of its offset. -/
theorem read_part_iff (s : Stream) (hbuffer : s.receiveBuffer ≠ []) (fragments : List (UInt32 × Bytes))
    (hperm : fragments.Perm s.receiveBuffer) (htiles : Tiles (fragments.map located)) (maxLen : Nat) :
    ReadsPart s maxLen (contents fragments) ↔
      maxLen ≤ isizeMax ∧ FollowsFrom 0 (sortByOffset s.receiveBuffer) ∧
        ((contents fragments).length ≤ maxLen ∨ maxLen = 0 ∧ BeginsEmpty s) := by
  obtain ⟨hspaced, hcontents⟩ := spacedFrom_sorted (hperm.trans (sortByOffset_perm _).symm)
    (sortByOffset_pairwise s.receiveBuffer) (spacedFrom_of_tiles htiles)
  rw [← hcontents]
  constructor
  · intro h
    obtain ⟨maxLens, hlater⟩ := h.later
    refine ⟨room_of_read h.now (atStart_of_tiles hbuffer hperm htiles), ?_, limit_of_readsPart hbuffer hspaced h⟩
    apply follows_of_runAll hspaced (maxLen :: maxLens)
    exact runAll_read_eq_ok.mpr ⟨_, _, h.now, hlater, (List.take_append_drop _ _).symm⟩
  · intro h
    obtain ⟨hroom, hfollows, hlimit⟩ := h
    by_cases hmax : (contents (sortByOffset s.receiveBuffer)).length ≤ maxLen
    · exact readsPart_of_le hbuffer hfollows hroom hmax
    · obtain ⟨rfl, hempty⟩ := hlimit.resolve_left hmax
      refine readsPart_zero hfollows (fun hnil => hmax ?_) hempty
      rw [hnil]
      exact Nat.le_refl 0

/-- Three octets, in two fragments that have come in the wrong order. -/
def threeOctets : Stream := { Stream.init 2 true 10 with receiveBuffer := [(2, [9]), (0, [7, 8])] }

theorem threeOctets_tiles : Tiles ([((0 : UInt32), ([7, 8] : Bytes)), (2, [9])].map located) :=
  tilesFrom_cons.mpr ⟨rfl, tilesFrom_cons.mpr ⟨rfl, tilesFrom_nil _⟩⟩

theorem read_part_iff_threeOctets :
    ReadsPart threeOctets 5 (contents [(0, [7, 8]), (2, [9])]) ↔
      5 ≤ isizeMax ∧ FollowsFrom 0 (sortByOffset threeOctets.receiveBuffer) ∧
        ((contents [(0, [7, 8]), (2, [9])]).length ≤ 5 ∨ 5 = 0 ∧ BeginsEmpty threeOctets) :=
  read_part_iff threeOctets (List.cons_ne_nil _ _) [(0, [7, 8]), (2, [9])] (List.Perm.swap _ _ _) threeOctets_tiles 5

/-- One octet is asked for and two are returned. -/
theorem read_beyond_limit :
    [((0 : UInt32), ([7, 8] : Bytes)), (2, [9])].Perm threeOctets.receiveBuffer ∧
      Tiles ([((0 : UInt32), ([7, 8] : Bytes)), (2, [9])].map located) ∧
      ¬ ReadsPart threeOctets 1 (contents [(0, [7, 8]), (2, [9])]) := by
  refine ⟨List.Perm.swap _ _ _, threeOctets_tiles, fun h => ?_⟩
  have hnow := h.now
  have hread : ((read 1).exec threeOctets).1 = .ok [7, 8] := by decide
  rw [hread] at hnow
  exact absurd hnow (by decide)

end Aether.Stream
