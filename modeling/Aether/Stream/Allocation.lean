import Aether.Stream.Freshness

/-! The order in which IDs are given out.

`open_stream` moves its counter by two whenever there is room, also where the ID it
then has is out of range, and what it sees at the k-th such call is the first ID of
the role plus 2k, modulo 2^32 (`counted_step`). The IDs given out are in order, and
exhaustion is final, until the counter has come round; the first call after that
gives out 0 to a client, and 1 once more to a server (`allocates_iff`). -/
namespace Aether.StreamManager
open Octets Octets.Method

/-! ### What was given out -/

/-- The ID a call has given out. -/
def given : StreamManager × Operation → Option StreamId
  | (m, .openStream) => (openStream.exec m).1.toOption
  | _ => none

/-- The call fails since the IDs are used up. -/
def Exhausts : StreamManager × Operation → Prop
  | (m, .openStream) => (openStream.exec m).1 = fail (.flowControl "Stream ID exhausted")
  | _ => False

/-- IDs of the role are given out in order, and none is after they were used up. -/
structure AllocatesInOrder (isClient : Bool) (past : List (StreamManager × Operation)) : Prop where
  increasing : (past.filterMap given).Pairwise (· < ·)
  range : ∀ streamId ∈ past.filterMap given, IsLocal isClient streamId ∧ streamId ≠ 0 ∧ streamId ≤ maxStreamId
  final : past.Pairwise fun x y => Exhausts x → given y = none

/-- The call finds room, so that the counter moves. -/
def advances : StreamManager × Operation → Bool
  | (m, .openStream) => !m.full
  | _ => false

/-- How many calls have moved the counter. -/
def moved (past : List (StreamManager × Operation)) : Nat := past.countP advances

def firstId (isClient : Bool) : Nat := if isClient then 2 else 1

/-- How many IDs the counter gives before it has come round: a client's starts at 2
and comes to 0. -/
def movesToWrap (isClient : Bool) : Nat := if isClient then 2 ^ 31 - 1 else 2 ^ 31

theorem allocatesInOrder_append {isClient : Bool} {past : List (StreamManager × Operation)}
    {x : StreamManager × Operation} :
    AllocatesInOrder isClient (past ++ [x]) ↔ AllocatesInOrder isClient past ∧
      ∀ streamId, given x = some streamId → (∀ other ∈ past.filterMap given, other < streamId) ∧
        (IsLocal isClient streamId ∧ streamId ≠ 0 ∧ streamId ≤ maxStreamId) ∧ ∀ y ∈ past, ¬ Exhausts y := by
  have hgiven : (past ++ [x]).filterMap given = past.filterMap given ++ (given x).toList := by
    rw [List.filterMap_append]
    cases h : given x with
    | none => rw [List.filterMap_cons_none h]; rfl
    | some streamId => rw [List.filterMap_cons_some h]; rfl
  constructor
  · intro h
    obtain ⟨hincreasing, hrange, hfinal⟩ := h
    rw [hgiven] at hincreasing hrange
    obtain ⟨hincreasing, _, hlast⟩ := List.pairwise_append.mp hincreasing
    obtain ⟨hfinal, _, hno⟩ := List.pairwise_append.mp hfinal
    refine ⟨⟨hincreasing, fun streamId hmem => hrange streamId (List.mem_append_left _ hmem), hfinal⟩, ?_⟩
    intro streamId hx
    have hmem : streamId ∈ (given x).toList := by
      rw [hx]
      exact List.mem_singleton_self _
    refine ⟨fun other hother => hlast other hother streamId hmem, hrange streamId (List.mem_append_right _ hmem), ?_⟩
    intro y hy hexhausts
    cases hx.symm.trans (hno y hy x (List.mem_singleton_self _) hexhausts)
  · intro h
    obtain ⟨hpast, hx⟩ := h
    refine ⟨?_, ?_, ?_⟩
    · rw [hgiven]
      refine List.pairwise_append.mpr ⟨hpast.increasing, ?_, fun other hother streamId hmem => ?_⟩
      · cases given x with
        | none => exact .nil
        | some streamId => exact List.pairwise_singleton _ _
      · exact (hx streamId (Option.mem_toList.mp hmem)).1 other hother
    · rw [hgiven]
      intro streamId hmem
      rcases List.mem_append.mp hmem with hold | hnew
      · exact hpast.range streamId hold
      · exact (hx streamId (Option.mem_toList.mp hnew)).2.1
    · refine List.pairwise_append.mpr ⟨hpast.final, List.pairwise_singleton _ _, fun y hy z hz hexhausts => ?_⟩
      cases List.mem_singleton.mp hz
      cases h : given x with
      | none => rfl
      | some streamId => exact absurd hexhausts ((hx streamId h).2.2 y hy)

/-! ### One call -/

theorem moved_append (past : List (StreamManager × Operation)) (x : StreamManager × Operation) :
    moved (past ++ [x]) = moved past + (if advances x then 1 else 0) := by
  rw [moved, List.countP_append, List.countP_singleton, moved]

/-- The two errors of `open_stream` differ. -/
theorem maximum_ne_exhausted (maxStreams : UInt32) :
    s!"Maximum streams reached: {maxStreams}" ≠ "Stream ID exhausted" := by
  intro h
  have hlist : "Maximum streams reached: ".toList ++ (toString maxStreams).toList = "Stream ID exhausted".toList := by
    rw [← String.toList_append]
    exact congrArg String.toList h
  exact absurd (congrArg List.head? hlist) (by simp)

theorem Changes.nextId_of_ne {m m' : StreamManager} {operation : Operation} (h : Changes m operation m')
    (hne : operation ≠ .openStream) : m'.nextId = m.nextId := by
  cases h with
  | exhausted => exact absurd rfl hne
  | opened => exact absurd rfl hne
  | _ => rfl

/-- A call that does not move the counter gives nothing out. -/
theorem quiet_of_not_advances {m : StreamManager} {operation : Operation} (h : advances (m, operation) = false) :
    given (m, operation) = none ∧ ¬ Exhausts (m, operation) ∧ (m.next operation).nextId = m.nextId := by
  cases operation with
  | openStream =>
    have hfull : m.full = true := by simpa [advances] using h
    rw [given, Exhausts, next, Operation.perform, exec_bind_pure, exec_openStream_full hfull]
    refine ⟨rfl, fun hfail => maximum_ne_exhausted m.maxStreams ?_, rfl⟩
    exact Error.flowControl.inj (Stop.err.inj (Except.error.inj hfail))
  | _ => exact ⟨rfl, id, (changes m _).nextId_of_ne fun h => by cases h⟩

/-- A call that moves it gives out the ID it had, or finds it out of range. -/
theorem opens_of_advances {m : StreamManager} {operation : Operation} (h : advances (m, operation) = true) :
    given (m, operation) = (if m.nextId > maxStreamId then none else some m.nextId) ∧
      (Exhausts (m, operation) ↔ m.nextId > maxStreamId) ∧ (m.next operation).nextId = m.nextId + 2 := by
  cases operation with
  | openStream =>
    have hroom : m.full = false := by simpa [advances] using h
    rw [given, Exhausts, next, Operation.perform, exec_bind_pure, exec_openStream_room hroom]
    by_cases hlarge : m.nextId > maxStreamId
    · rw [if_pos hlarge, if_pos hlarge]
      exact ⟨rfl, iff_of_true rfl hlarge, m.advance_nextId⟩
    · rw [if_neg hlarge, if_neg hlarge]
      exact ⟨rfl, iff_of_false (fun h => by cases h) hlarge, m.advance_nextId⟩
  | _ => cases h

/-! ### A run -/

/-- The counter is what it was at first and twice as many calls as have moved it. -/
structure Counted (isClient : Bool) (r : Recorded StreamManager Operation) : Prop where
  role : r.now.isClient = isClient
  nextId : r.now.nextId.toNat = (firstId isClient + 2 * moved r.past) % 2 ^ 32

theorem counted_init (isClient : Bool) (maxStreams : UInt32) (window flowWindow : UInt64) :
    Counted isClient (.fresh (init isClient maxStreams window flowWindow)) := by
  cases isClient with
  | true => exact ⟨rfl, rfl⟩
  | false => exact ⟨rfl, rfl⟩

theorem counted_step {isClient : Bool} {r : Recorded StreamManager Operation} (h : Counted isClient r)
    (operation : Operation) : Counted isClient ⟨r.now.next operation, r.past ++ [(r.now, operation)]⟩ := by
  refine ⟨(changes r.now operation).isClient.trans h.role, ?_⟩
  show (r.now.next operation).nextId.toNat = (firstId isClient + 2 * moved (r.past ++ [(r.now, operation)])) % 2 ^ 32
  rw [moved_append]
  cases hadvances : advances (r.now, operation) with
  | false =>
    rw [(quiet_of_not_advances hadvances).2.2, h.nextId]
    rfl
  | true =>
    rw [(opens_of_advances hadvances).2.2, UInt32.toNat_add, h.nextId, if_pos rfl, Nat.mul_add, ← Nat.add_assoc]
    exact Nat.mod_add_mod _ _ _

/-- As long as the counter has not come round, what was given out is behind it, and it
is out of range once a call has found it so. -/
structure Behindhand (isClient : Bool) (past : List (StreamManager × Operation)) : Prop where
  given : ∀ streamId ∈ past.filterMap given, streamId.toNat < firstId isClient + 2 * moved past
  exhausted : ∀ x ∈ past, Exhausts x → maxStreamId.toNat < firstId isClient + 2 * moved past

theorem lt_of_moved_lt {isClient : Bool} {n : Nat} (h : n < movesToWrap isClient) : firstId isClient + 2 * n < 2 ^ 32 := by
  cases isClient with
  | true =>
    simp only [movesToWrap, firstId, if_true] at h ⊢
    omega
  | false =>
    simp only [movesToWrap, firstId, Bool.false_eq_true, if_false] at h ⊢
    omega

/-- The counter does not go back, so only the last call is to be looked at. -/
theorem Behindhand.append {isClient : Bool} {past : List (StreamManager × Operation)} (h : Behindhand isClient past)
    {x : StreamManager × Operation}
    (hgiven : ∀ streamId, StreamManager.given x = some streamId →
      streamId.toNat < firstId isClient + 2 * moved (past ++ [x]))
    (hexhausted : Exhausts x → maxStreamId.toNat < firstId isClient + 2 * moved (past ++ [x])) :
    Behindhand isClient (past ++ [x]) := by
  have hmoved : firstId isClient + 2 * moved past ≤ firstId isClient + 2 * moved (past ++ [x]) := by
    rw [moved_append]
    omega
  constructor
  · intro streamId hmem
    obtain ⟨y, hy, hstream⟩ := List.mem_filterMap.mp hmem
    rcases List.mem_append.mp hy with hold | hnew
    · exact Nat.lt_of_lt_of_le (h.given streamId (List.mem_filterMap.mpr ⟨y, hold, hstream⟩)) hmoved
    · rw [List.mem_singleton.mp hnew] at hstream
      exact hgiven streamId hstream
  · intro y hy hexhausts
    rcases List.mem_append.mp hy with hold | hnew
    · exact Nat.lt_of_lt_of_le (h.exhausted y hold hexhausts) hmoved
    · rw [List.mem_singleton.mp hnew] at hexhausts
      exact hexhausted hexhausts

/-- What a call gives out that moves the counter, where that has not come round. -/
theorem allocates_advance {isClient : Bool} {r : Recorded StreamManager Operation} {operation : Operation}
    (hnext : r.now.nextId.toNat = firstId isClient + 2 * moved r.past) (hlocal : IsLocal isClient r.now.nextId)
    (hbehind : Behindhand isClient r.past) (hadvances : advances (r.now, operation) = true) (streamId : StreamId)
    (hgiven : given (r.now, operation) = some streamId) :
    (∀ other ∈ r.past.filterMap given, other < streamId) ∧
      (IsLocal isClient streamId ∧ streamId ≠ 0 ∧ streamId ≤ maxStreamId) ∧ ∀ y ∈ r.past, ¬ Exhausts y := by
  rw [(opens_of_advances hadvances).1] at hgiven
  split at hgiven
  · cases hgiven
  · rename_i hsmall
    cases hgiven
    refine ⟨fun other hother => ?_, ⟨hlocal, fun hzero => ?_, UInt32.not_lt.mp hsmall⟩, fun y hy hexhausted => ?_⟩
    · rw [UInt32.lt_iff_toNat_lt, hnext]
      exact hbehind.given other hother
    · have hpos : 0 < firstId isClient := by cases isClient <;> decide
      rw [hzero] at hnext
      exact absurd hnext (Nat.ne_of_lt (Nat.add_pos_left hpos _))
    · have hlt := hbehind.exhausted y hy hexhausted
      rw [← hnext] at hlt
      exact hsmall (UInt32.lt_iff_toNat_lt.mpr hlt)

/-- One call, where the counter has not come round. -/
theorem allocates_step {isClient : Bool} {r : Recorded StreamManager Operation} {operation : Operation}
    (hcounted : Counted isClient r) (hlocal : IsLocal isClient r.now.nextId)
    (horder : AllocatesInOrder isClient r.past) (hbehind : Behindhand isClient r.past)
    (hfew : moved (r.past ++ [(r.now, operation)]) ≤ movesToWrap isClient) :
    AllocatesInOrder isClient (r.past ++ [(r.now, operation)]) ∧
      Behindhand isClient (r.past ++ [(r.now, operation)]) := by
  cases hadvances : advances (r.now, operation) with
  | false =>
    obtain ⟨hgiven, hexhausts, _⟩ := quiet_of_not_advances hadvances
    refine ⟨allocatesInOrder_append.mpr ⟨horder, fun streamId hx => by cases hgiven.symm.trans hx⟩, hbehind.append ?_ ?_⟩
    · exact fun streamId hx => by cases hgiven.symm.trans hx
    · exact fun hx => absurd hx hexhausts
  | true =>
    have hmoved : moved (r.past ++ [(r.now, operation)]) = moved r.past + 1 := by
      rw [moved_append, hadvances, if_pos rfl]
    have hnext : r.now.nextId.toNat = firstId isClient + 2 * moved r.past := by
      rw [hcounted.nextId]
      rw [hmoved] at hfew
      exact Nat.mod_eq_of_lt (lt_of_moved_lt hfew)
    refine ⟨allocatesInOrder_append.mpr ⟨horder, allocates_advance hnext hlocal hbehind hadvances⟩,
      hbehind.append (fun streamId hx => ?_) fun hx => ?_⟩
    · rw [(opens_of_advances hadvances).1] at hx
      split at hx
      · cases hx
      · cases hx
        omega
    · have hlarge := UInt32.lt_iff_toNat_lt.mp ((opens_of_advances hadvances).2.1.mp hx)
      omega

theorem inOrder_of_few {isClient : Bool} {maxStreams : UInt32} {window flowWindow : UInt64}
    {r : Recorded StreamManager Operation}
    (h : Reached (Recorded.step step) (fun _ _ => True) (.fresh (init isClient maxStreams window flowWindow)) r)
    (hfew : moved r.past ≤ movesToWrap isClient) : AllocatesInOrder isClient r.past := by
  refine (h.invariant (I := fun r => Counted isClient r ∧ IsLocal isClient r.now.nextId ∧
    (moved r.past ≤ movesToWrap isClient → AllocatesInOrder isClient r.past ∧ Behindhand isClient r.past)) ?_ ?_).2.2
    hfew |>.1
  · refine ⟨counted_init isClient maxStreams window flowWindow,
      isLocal_nextId_init isClient maxStreams window flowWindow, fun _ => ⟨⟨.nil, ?_, .nil⟩, ?_, ?_⟩⟩
    all_goals
      intro x hmem
      cases hmem
  · rintro r operation r' ⟨hcounted, hlocal, ih⟩ _ hstep
    obtain ⟨m, hm, rfl⟩ := Recorded.step_eq_some.mp hstep
    cases hm
    have hnext := (changes r.now operation).isLocal_nextId (hcounted.role.symm ▸ hlocal)
    rw [hcounted.role] at hnext
    refine ⟨counted_step hcounted operation, hnext, fun hfew => ?_⟩
    have hbefore : moved r.past ≤ movesToWrap isClient := by
      refine Nat.le_trans ?_ hfew
      rw [moved_append]
      exact Nat.le_add_right _ _
    exact allocates_step hcounted hlocal (ih hbefore).1 (ih hbefore).2 hfew

/-! ### Where the counter has come round -/

/-- What the first call gives out that finds the counter come round. -/
theorem given_of_wrapped {isClient : Bool} {r : Recorded StreamManager Operation} {operation : Operation}
    (h : Counted isClient r) (hadvances : advances (r.now, operation) = true)
    (hwrapped : moved r.past = movesToWrap isClient) :
    given (r.now, operation) = some (if isClient then 0 else 1) := by
  have hnext : r.now.nextId = if isClient then 0 else 1 := by
    apply UInt32.toNat_inj.mp
    rw [h.nextId, hwrapped]
    cases isClient <;> rfl
  rw [(opens_of_advances hadvances).1, hnext]
  cases isClient <;> rfl

/-- The first ID of the role was given out, if any call has moved the counter. -/
def GivesFirst (isClient : Bool) (past : List (StreamManager × Operation)) : Prop :=
  0 < moved past → UInt32.ofNat (firstId isClient) ∈ past.filterMap given

theorem givesFirst_step {isClient : Bool} {r : Recorded StreamManager Operation} (hcounted : Counted isClient r)
    (h : GivesFirst isClient r.past) (operation : Operation) : GivesFirst isClient (r.past ++ [(r.now, operation)]) := by
  intro hmoved
  rw [moved_append] at hmoved
  rw [List.filterMap_append]
  by_cases hfirst : 0 < moved r.past
  · exact List.mem_append_left _ (h hfirst)
  · have hzero : moved r.past = 0 := Nat.eq_zero_of_not_pos hfirst
    cases hadvances : advances (r.now, operation) with
    | false =>
      rw [hzero, hadvances] at hmoved
      exact absurd hmoved (by decide)
    | true =>
      have hnext : r.now.nextId = UInt32.ofNat (firstId isClient) := by
        apply UInt32.toNat_inj.mp
        rw [hcounted.nextId, hzero]
        cases isClient <;> rfl
      have hgiven : given (r.now, operation) = some (UInt32.ofNat (firstId isClient)) := by
        rw [(opens_of_advances hadvances).1, hnext]
        cases isClient <;> rfl
      rw [List.filterMap_cons_some hgiven]
      exact List.mem_append_right _ List.mem_cons_self

theorem few_of_inOrder {isClient : Bool} {maxStreams : UInt32} {window flowWindow : UInt64}
    {r : Recorded StreamManager Operation}
    (h : Reached (Recorded.step step) (fun _ _ => True) (.fresh (init isClient maxStreams window flowWindow)) r)
    (horder : AllocatesInOrder isClient r.past) : moved r.past ≤ movesToWrap isClient := by
  refine (h.invariant (I := fun r => Counted isClient r ∧ GivesFirst isClient r.past ∧
    (AllocatesInOrder isClient r.past → moved r.past ≤ movesToWrap isClient)) ?_ ?_).2.2 horder
  · exact ⟨counted_init isClient maxStreams window flowWindow, fun hmoved => absurd hmoved (Nat.lt_irrefl 0),
      fun _ => Nat.zero_le _⟩
  · rintro r operation r' ⟨hcounted, hgives, ih⟩ _ hstep
    obtain ⟨m, hm, rfl⟩ := Recorded.step_eq_some.mp hstep
    cases hm
    refine ⟨counted_step hcounted operation, givesFirst_step hcounted hgives operation, fun horder => ?_⟩
    obtain ⟨hpast, hlast⟩ := allocatesInOrder_append.mp horder
    have hbefore := ih hpast
    rw [moved_append]
    cases hadvances : advances (r.now, operation) with
    | false => exact hbefore
    | true =>
      rw [if_pos rfl]
      by_contra hmany
      have hwrapped : moved r.past = movesToWrap isClient := by omega
      obtain ⟨hincreasing, ⟨_, hzero, _⟩, _⟩ := hlast _ (given_of_wrapped hcounted hadvances hwrapped)
      -- A client gives out 0; what a server gives out is what it gave out first.
      cases isClient with
      | true => exact hzero rfl
      | false =>
        have hfirst := hincreasing 1 (hgives (by rw [hwrapped]; decide))
        exact absurd hfirst (by decide)

/-- **IDs are given out in order exactly as long as the counter does not come round.** -/
theorem allocates_iff (isClient : Bool) (maxStreams : UInt32) (window flowWindow : UInt64)
    {r : Recorded StreamManager Operation}
    (h : Reached (Recorded.step step) (fun _ _ => True) (.fresh (init isClient maxStreams window flowWindow)) r) :
    AllocatesInOrder isClient r.past ↔ moved r.past ≤ movesToWrap isClient :=
  ⟨few_of_inOrder h, inOrder_of_few h⟩

theorem allocates_iff_sample :
    AllocatesInOrder false [(init false 1 10 10, .openStream), ((init false 1 10 10).next .openStream, .openStream)] ↔
      moved [(init false 1 10 10, .openStream), ((init false 1 10 10).next .openStream, .openStream)] ≤ 2 ^ 31 :=
  allocates_iff false 1 10 10 (r := ⟨_, [_, _]⟩)
    (.next .openStream (.next .openStream .start trivial rfl) trivial rfl)

/-- A client that opens a stream `n` times and has room all the time. -/
theorem exists_opens (n : Nat) (hn : n < 2 ^ 32) :
    ∃ r, Reached (Recorded.step step) (fun _ _ => True) (.fresh (init true 0xFFFFFFFF 10 10)) r ∧
      (∀ x ∈ r.past, x.2 = .openStream) ∧ moved r.past = n ∧ r.now.maxStreams = 0xFFFFFFFF ∧ r.now.streamCount ≤ n := by
  induction n with
  | zero =>
    refine ⟨_, .start, fun x hmem => ?_, rfl, rfl, Nat.le_refl _⟩
    cases hmem
  | succ n ih =>
    obtain ⟨r, hr, hopens, hmoved, hmax, hcount⟩ := ih (Nat.lt_of_succ_lt hn)
    have hchanges := changes r.now .openStream
    have hroom : r.now.full = false := by
      refine decide_eq_false (Nat.not_le.mpr ?_)
      rw [hmax]
      show r.now.streamCount < 4294967295
      omega
    have hadvances : advances (r.now, .openStream) = true := congrArg (! ·) hroom
    refine ⟨_, .next .openStream hr trivial rfl, fun x hmem => ?_, ?_, hchanges.maxStreams.trans hmax,
      Nat.le_trans hchanges.streamCount_le (Nat.succ_le_succ hcount)⟩
    · rcases List.mem_append.mp hmem with hold | hnew
      · exact hopens x hold
      · rw [List.mem_singleton.mp hnew]
    · show moved (r.past ++ [(r.now, .openStream)]) = n + 1
      rw [moved_append, hadvances, hmoved, if_pos rfl]

/-- The run of 2^31 calls: the last of them gives out 0. -/
theorem allocates_wrapped :
    ∃ r, Reached (Recorded.step step) (fun _ _ => True) (.fresh (init true 0xFFFFFFFF 10 10)) r ∧
      (∀ x ∈ r.past, x.2 = .openStream) ∧ ¬ AllocatesInOrder true r.past := by
  obtain ⟨r, hr, hopens, hmoved, _⟩ := exists_opens (2 ^ 31) (by decide)
  refine ⟨r, hr, hopens, fun horder => ?_⟩
  have hfew := few_of_inOrder hr horder
  rw [hmoved] at hfew
  exact absurd hfew (by decide)

end Aether.StreamManager
