import Aether.Stream.Reassembly

/-! Which schedules a stream survives.

A read expects offset 0, whatever earlier reads returned: there is no cursor. So
every read that finds a copy of the first fragment starts the sequence again, and
every other read returns nothing. `starts` counts the former, up to one that asks for
more than a vector can hold: that one panics. A schedule is safe
against duplicates exactly when there is at most one of them
(`reads_prefix_iff`), and complete exactly when the one there is comes last and
takes everything (`reads_complete_iff`). -/
namespace Aether.Stream
open Octets Octets.Method

/-! ### What a read takes -/

/-- A read takes a run of numbers. -/
theorem take_takes (c : Cut) (maxLen : Nat) (ids : List Nat) (k : Nat) :
    ids.take (takes c maxLen ids k) = List.range' k (takes c maxLen ids k) := by
  induction ids generalizing k with
  | nil => rfl
  | cons i rest ih =>
    rw [takes]
    by_cases hik : i = k
    · subst hik
      rw [if_neg (not_not_intro rfl)]
      by_cases hstop : c.start (i + 1) ≥ maxLen
      · rw [if_pos hstop]
        rfl
      · rw [if_neg hstop, List.take_succ_cons, ih, List.range'_succ]
    · rw [if_pos hik]
      rfl

theorem takes_le {c : Cut} (maxLen : Nat) {ids : List Nat} (hids : ∀ i ∈ ids, i < c.count) (k : Nat) (hk : k ≤ c.count) :
    k + takes c maxLen ids k ≤ c.count := by
  induction ids generalizing k with
  | nil => exact hk
  | cons i rest ih =>
    rw [takes]
    by_cases hik : i = k
    · subst hik
      have hi : i < c.count := hids i (List.mem_cons_self ..)
      have hrest := ih (fun j hj => hids j (List.mem_cons_of_mem i hj)) (i + 1) hi
      rw [if_neg (not_not_intro rfl)]
      by_cases hstop : c.start (i + 1) ≥ maxLen
      · rw [if_pos hstop]
        exact hi
      · rw [if_neg hstop]
        omega
    · rw [if_pos hik]
      exact hk

theorem takes_sorted_pos_iff (c : Cut) (maxLen : Nat) (ids : List Nat) :
    0 < takes c maxLen (sorted ids) 0 ↔ 0 ∈ ids := by
  rw [Nat.pos_iff_ne_zero, ne_eq, takes_sorted_eq_zero_iff, not_not]

/-- A read that finds copies of the first fragment uses one up. -/
theorem count_zero_drop (c : Cut) (maxLen : Nat) (ids : List Nat) :
    ((sorted ids).drop (takes c maxLen (sorted ids) 0)).count 0 = ids.count 0 - 1 := by
  have hcount : (sorted ids).count 0 = ids.count 0 := (sorted_perm ids).count_eq 0
  have hsplit := List.take_append_drop (takes c maxLen (sorted ids) 0) (sorted ids)
  rw [take_takes] at hsplit
  have hsum := congrArg (List.count 0) hsplit
  rw [List.count_append, hcount] at hsum
  by_cases h0 : 0 ∈ ids
  · obtain ⟨t, ht⟩ := Nat.exists_eq_add_one.mpr ((takes_sorted_pos_iff c maxLen ids).mpr h0)
    have hone : (List.range' 0 (t + 1)).count 0 = 1 :=
      List.count_eq_one_of_mem List.nodup_range' (by simp)
    rw [ht, hone] at hsum
    rw [ht]
    omega
  · rw [(takes_sorted_eq_zero_iff c maxLen ids).mpr h0, List.drop_zero, hcount, List.count_eq_zero_of_not_mem h0]

theorem served_le {c : Cut} (events : List (Event c.count)) {ids : List Nat} (hids : ∀ i ∈ ids, i < c.count) :
    ∀ t ∈ served c ids events, t ≤ c.count := by
  induction events generalizing ids with
  | nil => exact fun t ht => absurd ht List.not_mem_nil
  | cons event events ih =>
    cases event with
    | deliver i =>
      refine ih (fun j hj => ?_)
      rcases List.mem_append.mp hj with hj | hj
      · exact hids j hj
      · rw [List.mem_singleton.mp hj]
        exact i.isLt
    | read maxLen =>
      have hsorted : ∀ i ∈ sorted ids, i < c.count := fun i hi => hids i (mem_sorted.mp hi)
      intro t ht
      rw [served] at ht
      split at ht
      · cases ht
      · rcases List.mem_cons.mp ht with rfl | ht
        · have hle := takes_le maxLen hsorted 0 (Nat.zero_le _)
          omega
        · exact ih (fun i hi => hsorted i (List.mem_of_mem_drop hi)) t ht

/-! ### Starts -/

/-- How many reads find a copy of the first fragment, from `pending` copies on, up to one
that asks for more than a vector can hold. -/
def starts {n : Nat} : Nat → List (Event n) → Nat
  | _, [] => 0
  | pending, .deliver i :: events => starts (if i.val = 0 then pending + 1 else pending) events
  | 0, .read _ :: events => starts 0 events
  | pending + 1, .read maxLen :: events => if maxLen ≤ isizeMax then starts pending events + 1 else 0

theorem starts_take_le {n : Nat} (events : List (Event n)) (pending m : Nat) :
    starts pending (events.take m) ≤ starts pending events := by
  induction events generalizing pending m with
  | nil => rw [List.take_nil]
  | cons event events ih =>
    cases m with
    | zero => exact Nat.zero_le _
    | succ m =>
      rw [List.take_succ_cons]
      cases event with
      | deliver i => exact ih _ m
      | read maxLen =>
        cases pending with
        | zero => exact ih 0 m
        | succ pending =>
          rw [starts, starts]
          split
          · exact Nat.succ_le_succ (ih pending m)
          · exact Nat.le_refl 0

/-- The reads that return something are those counted by `starts`. -/
theorem length_served_pos (c : Cut) (events : List (Event c.count)) (ids : List Nat) :
    ((served c ids events).filter (0 < ·)).length = starts (ids.count 0) events := by
  induction events generalizing ids with
  | nil => rfl
  | cons event events ih =>
    cases event with
    | deliver i =>
      rw [served, ih, List.count_append, List.count_singleton, starts]
      by_cases hi : i.val = 0 <;> simp [hi]
    | read maxLen =>
      have hrest := ih ((sorted ids).drop (takes c maxLen (sorted ids) 0))
      rw [count_zero_drop] at hrest
      rw [served]
      by_cases h0 : 0 ∈ ids
      · obtain ⟨p, hp⟩ := Nat.exists_eq_add_one.mpr (List.count_pos_iff.mpr h0)
        have hpos := (takes_sorted_pos_iff c maxLen ids).mpr h0
        rw [hp, Nat.add_sub_cancel] at hrest
        rw [hp, starts]
        by_cases hroom : maxLen ≤ isizeMax
        · rw [if_neg (fun hoverflow => Nat.not_lt_of_le hroom hoverflow.2), if_pos hroom,
            List.filter_cons_of_pos (by simpa using hpos), List.length_cons, hrest]
        · rw [if_pos ⟨h0, Nat.lt_of_not_le hroom⟩, if_neg hroom]
          rfl
      · have hzero := (takes_sorted_eq_zero_iff c maxLen ids).mpr h0
        rw [List.count_eq_zero_of_not_mem h0] at hrest ⊢
        rw [if_neg (fun hoverflow => h0 hoverflow.1), List.filter_cons_of_neg (by simp [hzero]), hrest]
        rfl

/-- Reads that take nothing return nothing. -/
theorem flatten_served (c : Cut) (xs : Bytes) (ts : List Nat) :
    (ts.map fun t => xs.take (c.start t)).flatten =
      ((ts.filter (0 < ·)).map fun t => xs.take (c.start t)).flatten := by
  induction ts with
  | nil => rfl
  | cons t ts ih =>
    cases t with
    | zero => simpa using ih
    | succ t => simpa using ih

theorem holds_nil {c : Cut} {xs : Bytes} {s : Stream} (hopen : s.state = .open) (hempty : s.receiveBuffer = []) :
    Holds c xs [] s :=
  ⟨hopen, hempty, fun _ hi => absurd hi List.not_mem_nil⟩

/-! ### Duplicates -/

/-- A sequence whose first octet does not come again. -/
def marked (n : Nat) : Bytes := (1 :: List.replicate n 0).take n

@[simp] theorem marked_length (n : Nat) : (marked n).length = n := by
  simp [marked]

/-- Where the mark stands shows how much is there: behind a proper beginning of it
a marked sequence does not start again. -/
theorem not_marked_again {n a b : Nat} (ha : 0 < a) (hb : 0 < b) (hn : 0 < n) (rest : Bytes) :
    ¬ ((marked n).take a ++ ((marked n).take b ++ rest)) <+: marked n := by
  obtain ⟨n, rfl⟩ := Nat.exists_eq_add_one.mpr hn
  obtain ⟨a, rfl⟩ := Nat.exists_eq_add_one.mpr ha
  obtain ⟨b, rfl⟩ := Nat.exists_eq_add_one.mpr hb
  intro h
  have hmarked : marked (n + 1) = 1 :: List.replicate n 0 := by
    simp [marked]
  rw [hmarked, List.take_succ_cons, List.take_succ_cons, List.cons_append, List.cons_append,
    List.cons_prefix_cons] at h
  have hmem : (1 : UInt8) ∈ List.replicate n 0 :=
    h.2.subset (List.mem_append_right _ (List.mem_cons_self ..))
  exact absurd (List.eq_of_mem_replicate hmem) (by decide)

/-- **A schedule survives duplicates exactly when the sequence is started once.**
Whatever the octets are, everything the reads have returned is at all times a
beginning of the sequence, if and only if at most one read finds a copy of the
first fragment, not counting what comes behind a read that panics. -/
theorem reads_prefix_iff {c : Cut} (hc : OnWire c) (events : List (Event c.count)) {s : Stream}
    (hopen : s.state = .open) (hempty : s.receiveBuffer = []) :
    (∀ xs : Bytes, xs.length = c.total → ∀ n, returned ((events.take n).map (Event.call c xs)) s <+: xs) ↔
      starts 0 events ≤ 1 := by
  constructor
  · intro h
    by_contra hmany
    have hbegins := h (marked c.total) (marked_length _) events.length
    rw [List.take_length, returned_eq hc (marked_length _) events (holds_nil hopen hempty), flatten_served] at hbegins
    have hlen := length_served_pos c events []
    have hle : ∀ t ∈ (served c [] events).filter (0 < ·), 0 < t ∧ t ≤ c.count := by
      intro t ht
      obtain ⟨hmem, hpos⟩ := List.mem_filter.mp ht
      exact ⟨by simpa using hpos, served_le events (fun _ hi => absurd hi List.not_mem_nil) t hmem⟩
    rw [List.count_nil] at hlen
    rcases hts : (served c [] events).filter (0 < ·) with _ | ⟨t, _ | ⟨u, rest⟩⟩
    · rw [← hlen, hts] at hmany
      exact hmany (Nat.zero_le 1)
    · rw [← hlen, hts] at hmany
      exact hmany (Nat.le_refl 1)
    · rw [hts] at hbegins hle
      obtain ⟨ht, htc⟩ := hle t (by simp)
      obtain ⟨hu, huc⟩ := hle u (by simp)
      have hn : 0 < c.total := Nat.lt_of_lt_of_le (c.start_lt ht htc) (c.start_le_total htc)
      exact not_marked_again (c.start_lt ht htc) (c.start_lt hu huc) hn _ hbegins
  · intro hone xs hxs n
    have hlen := length_served_pos c (events.take n) []
    have hle := Nat.le_trans (starts_take_le events 0 n) hone
    rw [List.count_nil] at hlen
    rw [returned_eq hc hxs _ (holds_nil hopen hempty), flatten_served]
    rcases hts : (served c [] (events.take n)).filter (0 < ·) with _ | ⟨t, _ | ⟨u, rest⟩⟩
    · rw [hts]
      exact List.nil_prefix
    · rw [hts]
      simpa using List.take_prefix _ _
    · rw [hts, List.length_cons, List.length_cons] at hlen
      omega

/-- Two fragments of one octet each. -/
def halves : Cut := ⟨[1, 1], by decide⟩

theorem halves_onWire : OnWire halves := ⟨by decide, by decide⟩

/-- The second fragment twice. -/
def secondAgain : List (Event 2) := [.deliver 1, .deliver 0, .read 9, .deliver 1]

/-- The first fragment again after it was read. -/
def firstAgain : List (Event 2) := [.deliver 0, .deliver 1, .read 9, .deliver 0, .read 9]

theorem reads_prefix_iff_secondAgain :
    (∀ xs : Bytes, xs.length = halves.total → ∀ n,
      returned ((secondAgain.take n).map (Event.call halves xs)) (Stream.init 2 true 1024) <+: xs) ↔
      starts 0 secondAgain ≤ 1 :=
  reads_prefix_iff halves_onWire secondAgain rfl rfl

/-- A retransmission of the first fragment is read again. -/
theorem reads_firstAgain :
    returned (firstAgain.map (Event.call halves [7, 8])) (Stream.init 2 true 1024) = [7, 8, 7] ∧
      ¬ [7, 8, 7] <+: [7, 8] :=
  ⟨by decide, by decide⟩

/-! ### Completeness -/

/-- What had been delivered at the first read that follows the first fragment, and
the limit of that read. -/
def firstRead {n : Nat} : List Nat → List (Event n) → Option (List Nat × Nat)
  | _, [] => none
  | arrived, .deliver i :: events => firstRead (arrived ++ [i.val]) events
  | arrived, .read maxLen :: events =>
    if 0 ∈ arrived then some (arrived, maxLen) else firstRead arrived events

/-- The schedules that read a sequence at once: the first read that follows the
first fragment comes when every fragment has arrived, and its limit lies beyond the
start of the last, but not beyond what a vector can hold. -/
def ReadAtOnce (c : Cut) (events : List (Event c.count)) : Prop :=
  match firstRead [] events with
  | none => False
  | some (arrived, maxLen) =>
    (arrived.length = c.count ∧ c.start (c.count - 1) < maxLen) ∧ maxLen ≤ isizeMax

theorem sorted_eq_of_perm {ids ids' : List Nat} (h : ids.Perm ids') : sorted ids = sorted ids' :=
  List.Perm.eq_of_pairwise' (sorted_pairwise ids) (sorted_pairwise ids')
    ((sorted_perm ids).trans (h.trans (sorted_perm ids').symm))

/-- The numbers a schedule delivers, in order. -/
def delivered {n : Nat} (events : List (Event n)) : List Nat :=
  (events.filterMap Event.delivered?).map Fin.val

/-- A schedule that never has the first fragment survives. -/
theorem survives_of_notMem (c : Cut) (events : List (Event c.count)) {ids : List Nat}
    (h : 0 ∉ ids ++ delivered events) : Survives c ids events := by
  induction events generalizing ids with
  | nil => trivial
  | cons event events ih =>
    cases event with
    | deliver i =>
      refine ih ?_
      rw [List.append_assoc]
      exact h
    | read maxLen =>
      refine ⟨fun hoverflow => h (List.mem_append_left _ hoverflow.1), ih fun hmem => h ?_⟩
      rcases List.mem_append.mp hmem with hleft | hlater
      · exact List.mem_append_left _ (mem_sorted.mp (List.mem_of_mem_drop hleft))
      · exact List.mem_append_right _ hlater

/-- Where the first fragment comes at most once, only the first read that finds it can panic. -/
theorem survives_iff (c : Cut) (events : List (Event c.count)) {ids arrived : List Nat} (hperm : ids.Perm arrived)
    (hone : (ids ++ delivered events).count 0 ≤ 1) :
    Survives c ids events ↔ ∀ found ∈ firstRead arrived events, found.2 ≤ isizeMax := by
  induction events generalizing ids arrived with
  | nil => exact iff_of_true trivial fun found hfound => by cases hfound
  | cons event events ih =>
    cases event with
    | deliver i =>
      refine ih (hperm.append_right _) ?_
      rw [List.append_assoc]
      exact hone
    | read maxLen =>
      have hcount := count_zero_drop c maxLen ids
      have hdelivered : (ids ++ delivered events).count 0 ≤ 1 := hone
      rw [List.count_append] at hdelivered
      rw [Survives, firstRead]
      by_cases h0 : 0 ∈ ids
      · have hpos := List.count_pos_iff.mpr h0
        have hrest : Survives c ((sorted ids).drop (takes c maxLen (sorted ids) 0)) events := by
          refine survives_of_notMem c events (List.count_eq_zero.mp ?_)
          rw [List.count_append, hcount]
          omega
        rw [if_pos (hperm.mem_iff.mp h0)]
        constructor
        · intro h found hfound
          cases hfound
          exact Nat.le_of_not_lt fun hlarge => h.1 ⟨h0, hlarge⟩
        · intro h
          exact ⟨fun hoverflow => absurd hoverflow.2 (Nat.not_lt_of_le (h _ rfl)), hrest⟩
      · have hzero := (takes_sorted_eq_zero_iff c maxLen ids).mpr h0
        have hrest := ih ((sorted_perm ids).trans hperm) (by
          rw [List.count_append, (sorted_perm ids).count_eq]
          exact hdelivered)
        rw [if_neg (mt hperm.mem_iff.mpr h0), hzero, List.drop_zero, hrest]
        exact and_iff_right fun hoverflow => h0 hoverflow.1

/-- Where the sequence is started at most once, the first read that finds the
first fragment is the only one that returns anything. -/
theorem served_once (c : Cut) (events : List (Event c.count)) {ids arrived : List Nat}
    (hperm : ids.Perm arrived) (hone : starts (ids.count 0) events ≤ 1) :
    (served c ids events).filter (0 < ·) =
      match firstRead arrived events with
      | none => []
      | some (arrived, maxLen) => if maxLen ≤ isizeMax then [takes c maxLen (sorted arrived) 0] else [] := by
  induction events generalizing ids arrived with
  | nil => rfl
  | cons event events ih =>
    cases event with
    | deliver i =>
      refine ih (hperm.append_right _) ?_
      have hcount : (ids ++ [i.val]).count 0 = if i.val = 0 then ids.count 0 + 1 else ids.count 0 := by
        rw [List.count_append, List.count_singleton]
        by_cases hi : i.val = 0 <;> simp [hi]
      rw [hcount]
      exact hone
    | read maxLen =>
      have hcount := count_zero_drop c maxLen ids
      have hlen := length_served_pos c events ((sorted ids).drop (takes c maxLen (sorted ids) 0))
      rw [hcount] at hlen
      rw [served, firstRead]
      by_cases h0 : 0 ∈ ids
      · obtain ⟨p, hp⟩ := Nat.exists_eq_add_one.mpr (List.count_pos_iff.mpr h0)
        have hpos := (takes_sorted_pos_iff c maxLen ids).mpr h0
        rw [hp] at hone hlen
        rw [starts] at hone
        rw [if_pos (hperm.mem_iff.mp h0)]
        by_cases hroom : maxLen ≤ isizeMax
        · rw [if_pos hroom] at hone
          have hnone : starts p events = 0 := Nat.le_zero.mp (Nat.le_of_succ_le_succ hone)
          rw [Nat.add_sub_cancel, hnone] at hlen
          rw [if_neg (fun hoverflow => Nat.not_lt_of_le hroom hoverflow.2),
            List.filter_cons_of_pos (by simpa using hpos), List.eq_nil_of_length_eq_zero hlen, sorted_eq_of_perm hperm]
          exact (if_pos hroom).symm
        · rw [if_pos ⟨h0, Nat.lt_of_not_le hroom⟩]
          exact (if_neg hroom).symm
      · have hzero := (takes_sorted_eq_zero_iff c maxLen ids).mpr h0
        have hcount0 : ids.count 0 = 0 := List.count_eq_zero_of_not_mem h0
        rw [hcount0] at hone hcount
        rw [if_neg (mt hperm.mem_iff.mpr h0), if_neg (fun hoverflow => h0 hoverflow.1),
          List.filter_cons_of_neg (by simp [hzero])]
        refine ih ?_ (by rw [hcount]; exact hone)
        rw [hzero, List.drop_zero]
        exact (sorted_perm ids).trans hperm

/-- A read that finds fragments `k` to `k + j` in order takes them all if its limit
lies beyond the start of the last. -/
theorem takes_range' {c : Cut} (maxLen k j : Nat) (h : k + j < c.count) :
    takes c maxLen (List.range' k (j + 1)) k = j + 1 ↔ j = 0 ∨ c.start (k + j) < maxLen := by
  induction j generalizing k with
  | zero => simp [takes]
  | succ j ih =>
    have hrest := ih (k + 1) (by omega)
    rw [List.range'_succ, takes, if_neg (not_not_intro rfl)]
    by_cases hstop : c.start (k + 1) ≥ maxLen
    · have hle : c.start (k + 1) ≤ c.start (k + (j + 1)) := c.start_le (by omega) (by omega)
      rw [if_pos hstop]
      omega
    · rw [if_neg hstop, Nat.add_right_cancel_iff, hrest, Nat.add_right_comm, Nat.add_assoc]
      constructor
      · intro h
        rcases h with rfl | hlt
        · exact .inr (Nat.lt_of_not_le hstop)
        · exact .inr hlt
      · intro h
        rcases h with hj | hlt
        · exact absurd hj (Nat.succ_ne_zero j)
        · exact .inr hlt

/-- A read takes every fragment exactly if every fragment is there and the limit
lies beyond the start of the last. -/
theorem takes_sorted_eq_count {c : Cut} {maxLen : Nat} (hmax : 1 ≤ maxLen) (hcount : 0 < c.count)
    {arrived : List Nat} (hnodup : arrived.Nodup) (hknown : ∀ i ∈ arrived, i < c.count) :
    takes c maxLen (sorted arrived) 0 = c.count ↔
      arrived.length = c.count ∧ c.start (c.count - 1) < maxLen := by
  obtain ⟨j, hj⟩ := Nat.exists_eq_add_one.mpr hcount
  have hall : arrived.length = c.count → sorted arrived = List.range' 0 (j + 1) := by
    intro hlen
    have hsub : arrived ⊆ List.range' 0 (j + 1) := by
      intro i hi
      have := hknown i hi
      simp
      omega
    have hperm : arrived.Perm (List.range' 0 (j + 1)) :=
      (List.subperm_of_subset hnodup hsub).perm_of_length_le (by simp; omega)
    exact List.Perm.eq_of_pairwise' (sorted_pairwise arrived) List.pairwise_le_range'
      ((sorted_perm arrived).trans hperm)
  have hrange := takes_range' (c := c) maxLen 0 j (by omega)
  have hstart : (j = 0 ∨ c.start (0 + j) < maxLen) ↔ c.start (c.count - 1) < maxLen := by
    have hpred : c.count - 1 = 0 + j := by omega
    rw [hpred]
    constructor
    · intro h
      rcases h with rfl | hlt
      · exact hmax
      · exact hlt
    · exact .inr
  constructor
  · intro htakes
    have hlen : arrived.length = c.count := by
      have hle : arrived.length ≤ c.count := by
        have hsub := List.subperm_of_subset hnodup (fun i hi => List.mem_range.mpr (hknown i hi))
        simpa using hsub.length_le
      have htake := congrArg List.length (take_takes c maxLen (sorted arrived) 0)
      rw [htakes, List.length_take, (sorted_perm arrived).length_eq, List.length_range'] at htake
      omega
    rw [hall hlen, hj] at htakes
    exact ⟨hlen, hstart.mp (hrange.mp htakes)⟩
  · intro h
    obtain ⟨hlen, hlt⟩ := h
    rw [hall hlen, hj]
    exact hrange.mpr (hstart.mpr hlt)

theorem firstRead_prefix {n : Nat} (events : List (Event n)) {arrived arrived' : List Nat} {maxLen : Nat}
    (h : firstRead arrived events = some (arrived', maxLen)) :
    arrived' <+: arrived ++ delivered events ∧ .read maxLen ∈ events ∧ 0 ∈ arrived' := by
  induction events generalizing arrived with
  | nil => cases h
  | cons event events ih =>
    cases event with
    | deliver i =>
      obtain ⟨hbegins, hmem, hfirst⟩ := ih h
      rw [List.append_assoc] at hbegins
      exact ⟨hbegins, List.mem_cons_of_mem _ hmem, hfirst⟩
    | read m =>
      rw [firstRead] at h
      by_cases h0 : 0 ∈ arrived
      · rw [if_pos h0] at h
        cases h
        exact ⟨List.prefix_append _ _, List.mem_cons_self .., h0⟩
      · rw [if_neg h0] at h
        obtain ⟨hbegins, hmem, hfirst⟩ := ih h
        exact ⟨hbegins, List.mem_cons_of_mem _ hmem, hfirst⟩

theorem starts_le {n : Nat} (events : List (Event n)) (pending : Nat) :
    starts pending events ≤ pending + (delivered events).count 0 := by
  induction events generalizing pending with
  | nil => exact Nat.zero_le _
  | cons event events ih =>
    cases event with
    | deliver i =>
      have hrest := ih (if i.val = 0 then pending + 1 else pending)
      have hcount : (delivered (.deliver i :: events)).count 0 =
          (delivered events).count 0 + if i.val = 0 then 1 else 0 := by
        show ((i.val :: delivered events).count 0 = _)
        rw [List.count_cons]
        simp
      rw [starts, hcount]
      split at hrest <;> rename_i hi <;> simp only [hi, if_true, if_false] <;> omega
    | read m =>
      cases pending with
      | zero => exact ih 0
      | succ pending =>
        have hrest := ih pending
        show starts (pending + 1) (.read m :: events) ≤ pending + 1 + (delivered events).count 0
        rw [starts]
        split <;> omega

/-- **A schedule delivers a sequence exactly when it reads it at once.** Every
fragment is delivered once, in any order, with reads in between and after; then
what the reads return together is the sequence if and only if it is empty or the
schedule reads it at once. -/
theorem reads_complete_iff {c : Cut} (hc : OnWire c) {xs : Bytes} (hxs : xs.length = c.total)
    (events : List (Event c.count)) (honce : (events.filterMap Event.delivered?).Perm (List.finRange c.count))
    (hmax : ∀ maxLen, .read maxLen ∈ events → 1 ≤ maxLen) {s : Stream}
    (hopen : s.state = .open) (hempty : s.receiveBuffer = []) :
    ((runAll (events.map (Event.call c xs))).exec s).1 = .ok xs ↔ xs = [] ∨ ReadAtOnce c events := by
  have hdelivered : (delivered events).Perm (List.range' 0 c.count) := by
    have hval : (List.finRange c.count).map Fin.val = List.range' 0 c.count := by
      rw [List.map_coe_finRange_eq_range, List.range_eq_range']
    exact hval ▸ honce.map Fin.val
  have hnodup : (delivered events).Nodup := hdelivered.nodup_iff.mpr List.nodup_range'
  have hstarts : starts 0 events ≤ 1 := by
    have hle := starts_le events 0
    have hcount := List.nodup_iff_count_le_one.mp hnodup 0
    omega
  have hserved := served_once c events (List.Perm.refl []) hstarts
  have hsurvives := survives_iff c events (List.Perm.refl []) (List.nodup_iff_count_le_one.mp hnodup 0)
  have hholds : Holds c xs [] s := holds_nil hopen hempty
  rw [ReadAtOnce]
  cases hread : firstRead [] events with
  | none =>
    rw [hread] at hserved hsurvives
    rw [runAll_of_survives hc hxs events hholds (hsurvives.mpr fun found hfound => by cases hfound),
      returned_eq hc hxs events hholds, flatten_served, hserved]
    constructor
    · intro h
      injection h with h
      exact .inl h.symm
    · intro h
      rcases h with rfl | h
      · rfl
      · exact h.elim
  | some p =>
    obtain ⟨arrived, maxLen⟩ := p
    obtain ⟨hbegins, hmem, hfirst⟩ := firstRead_prefix events hread
    rw [hread] at hserved hsurvives
    have hknown : ∀ i ∈ arrived, i < c.count := by
      intro i hi
      have := hdelivered.mem_iff.mp (hbegins.subset hi)
      simpa using this
    have hcount : 0 < c.count := hknown 0 hfirst
    have hle : takes c maxLen (sorted arrived) 0 ≤ c.count := by
      have := takes_le maxLen (fun i hi => hknown i (mem_sorted.mp hi)) 0 (Nat.zero_le _)
      omega
    have hsome : xs ≠ [] := by
      rintro rfl
      have hgrow := c.start_lt_succ hcount
      have htotal : c.start (0 + 1) ≤ c.total := c.start_le_total hcount
      rw [← hxs, List.length_nil] at htotal
      exact absurd (Nat.lt_of_lt_of_le hgrow htotal) (Nat.not_lt_zero _)
    rw [or_iff_right hsome]
    by_cases hroom : maxLen ≤ isizeMax
    · rw [runAll_of_survives hc hxs events hholds (hsurvives.mpr fun found hfound => by cases hfound; exact hroom),
        returned_eq hc hxs events hholds, flatten_served, hserved]
      simp only [hroom, if_true, List.map_cons, List.map_nil, List.flatten_cons, List.flatten_nil, List.append_nil,
        Except.ok.injEq, and_true]
      rw [List.take_eq_self_iff, hxs, c.total_le_start_iff hle,
        takes_sorted_eq_count (hmax maxLen hmem) hcount (hbegins.sublist.nodup hnodup) hknown]
    · rw [runAll_of_not_survives hc hxs events hholds fun h => hroom (hsurvives.mp h _ rfl)]
      exact iff_of_false nofun fun h => hroom h.2

/-- Both fragments, then reads until one returns nothing. -/
def readLate : List (Event 2) := [.deliver 1, .read 5, .deliver 0, .read 9, .read 9]

/-- A read between the two fragments. -/
def readEarly : List (Event 2) := [.deliver 0, .read 9, .deliver 1, .read 9]

theorem reads_complete_iff_readLate :
    ((runAll (readLate.map (Event.call halves [7, 8]))).exec (Stream.init 2 true 1024)).1 = .ok [7, 8] ↔
      ([7, 8] : Bytes) = [] ∨ ReadAtOnce halves readLate :=
  reads_complete_iff halves_onWire rfl readLate (by decide)
    (by
      intro maxLen h
      have h : (.read maxLen : Event 2) ∈ readLate := h
      simp [readLate] at h
      omega)
    rfl rfl

/-- The second fragment stays in the buffer: the last read returns nothing and so
would every further one. -/
theorem reads_readEarly :
    ((runAll (readEarly.map (Event.call halves [7, 8]))).exec (Stream.init 2 true 1024)).1 = .ok [7] ∧
      ∀ maxLen, ((read maxLen).exec
        ((runAll (readEarly.map (Event.call halves [7, 8]))).exec (Stream.init 2 true 1024)).2).1 = .ok [] :=
  ⟨rfl, fun _ => rfl⟩

end Aether.Stream
