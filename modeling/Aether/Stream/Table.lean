import Aether.Stream.Freshness

/-! The stream table.

`open_stream` checks that there is room and gives out IDs of its own parity;
`accept_stream` checks only that the ID is not in the table, so what the table
promises (`TableInvariant`) is up to the caller there. A call is `Orderly` where the
caller has made the checks, and where `open_stream` is not called with a counter that
has come round to 0; those are exactly the calls after which the promise holds
(`table_iff`). -/
namespace Aether.StreamManager
open Octets Octets.Method

/-- The call puts the stream in the table. -/
def Creates (x : StreamManager × Operation) (streamId : StreamId) : Prop :=
  streamId ∉ x.1.streams ∧ streamId ∈ (x.1.next x.2).streams

/-- What the table of a role and a cap promises. -/
structure TableInvariant (isClient : Bool) (maxStreams : UInt32) (r : Recorded StreamManager Operation) : Prop where
  count : r.now.streamCount ≤ maxStreams.toNat
  keys : ∀ streamId stream, r.now.streams.lookup streamId = some stream → stream.id = streamId
  range : ∀ streamId ∈ r.now.streams, 0 < streamId ∧ streamId ≤ maxStreamId
  creators : ∀ x ∈ r.past, ∀ streamId, Creates x streamId →
    x.2 = if IsLocal isClient streamId then .openStream else .acceptStream streamId

/-- A call whose caller has made the checks of the other way to put a stream in. -/
def Orderly (m : StreamManager) : Operation → Prop
  | .acceptStream streamId =>
    streamId ∈ m.streams ∨
      (m.full = false ∧ 0 < streamId ∧ streamId ≤ maxStreamId ∧ ¬ IsLocal m.isClient streamId)
  | .openStream => m.full = true ∨ m.nextId ≠ 0
  | _ => True

/-! ### One call -/

theorem Operation.target_id {operation : Operation} {streamId : StreamId} {change : Stream → Stream}
    (h : operation.target = some (streamId, change)) (stream : Stream) : (change stream).id = stream.id := by
  cases operation with
  | closeStream =>
    cases h
    exact stream.closeRead_id
  | shutdownStream =>
    cases h
    exact (Stream.closeRead_id _).trans stream.closeWrite_id
  | onStream _ operation =>
    cases h
    exact stream.next_id operation
  | _ => cases h

/-- A stream under its own ID stays there, and a new one is put there. -/
theorem Changes.keys {m m' : StreamManager} {operation : Operation} (h : Changes m operation m')
    (hkeys : ∀ streamId stream, m.streams.lookup streamId = some stream → stream.id = streamId)
    (streamId : StreamId) (stream : Stream) (hstream : m'.streams.lookup streamId = some stream) :
    stream.id = streamId := by
  cases h.found hstream with
  | kept _ _ present => exact hkeys streamId stream present
  | changed change before target present eq =>
    rw [eq, Operation.target_id target]
    exact hkeys streamId before present
  | made _ _ eq => rw [eq, Stream.init]

/-- A call puts in no more than one stream, and none where there are as many as there may be. -/
theorem Changes.count {m m' : StreamManager} {operation : Operation} (h : Changes m operation m')
    (hcount : m.streamCount ≤ m.maxStreams.toNat) (horderly : Orderly m operation) :
    m'.streamCount ≤ m.maxStreams.toNat := by
  have hroom : m.full = false → m'.streamCount ≤ m.maxStreams.toNat := fun hroom =>
    Nat.le_trans h.streamCount_le (Nat.not_le.mp (of_decide_eq_false hroom))
  cases h with
  | unchanged => exact hcount
  | exhausted => exact (congrArg size m.advance_streams).trans_le hcount
  | opened room => exact hroom room
  | accepted streamId absent => exact hroom (horderly.resolve_left absent).1
  | updated _ streamId change stream => exact (size_replace m.streams streamId (change stream)).trans_le hcount
  | removed _ streamId => exact Nat.le_trans (size_erase_le m.streams streamId) hcount

/-! ### A run -/

/-- The promise, and a counter of our parity. -/
structure InOrder (isClient : Bool) (maxStreams : UInt32) (r : Recorded StreamManager Operation) : Prop where
  role : r.now.isClient = isClient
  cap : r.now.maxStreams = maxStreams
  nextId : IsLocal isClient r.now.nextId
  table : TableInvariant isClient maxStreams r

theorem inOrder_init (isClient : Bool) (maxStreams : UInt32) (window flowWindow : UInt64) :
    InOrder isClient maxStreams (.fresh (init isClient maxStreams window flowWindow)) where
  role := rfl
  cap := rfl
  nextId := isLocal_nextId_init isClient maxStreams window flowWindow
  table := by
    refine ⟨Nat.zero_le _, ?_, ?_, ?_⟩
    · intro streamId stream hstream
      cases hstream
    · exact fun streamId hmem => absurd hmem (AList.notMem_empty streamId)
    · intro x hmem
      cases hmem

variable {isClient : Bool} {maxStreams : UInt32} {r : Recorded StreamManager Operation} {operation : Operation}

theorem table_of_orderly (h : InOrder isClient maxStreams r) (horderly : Orderly r.now operation) :
    TableInvariant isClient maxStreams ⟨r.now.next operation, r.past ++ [(r.now, operation)]⟩ := by
  obtain ⟨hrole, hcap, hlocal, htable⟩ := h
  have hchanges := changes r.now operation
  refine ⟨?_, hchanges.keys htable.keys, fun streamId hmem => ?_, fun x hx streamId hcreates => ?_⟩
  · have hcount := htable.count
    rw [← hcap] at hcount ⊢
    exact hchanges.count hcount horderly
  · by_cases hlive : streamId ∈ r.now.streams
    · exact htable.range streamId hlive
    · rcases created_eq_some ((hchanges.mem hmem).resolve_left hlive) with ⟨rfl, _⟩ | ⟨rfl, rfl, hroom, hsmall⟩
      · obtain ⟨_, hpos, hsmall, _⟩ := horderly.resolve_left hlive
        exact ⟨hpos, hsmall⟩
      · have hne : r.now.nextId ≠ 0 := horderly.resolve_left (by rw [hroom]; exact Bool.false_ne_true)
        exact ⟨UInt32.pos_iff_ne_zero.mpr hne, hsmall⟩
  · rcases List.mem_append.mp hx with hold | hnew
    · exact htable.creators x hold streamId hcreates
    · cases List.mem_singleton.mp hnew
      rcases created_eq_some ((hchanges.mem hcreates.2).resolve_left hcreates.1) with ⟨rfl, _⟩ | ⟨rfl, rfl, _⟩
      · rw [if_neg (hrole ▸ (horderly.resolve_left hcreates.1).2.2.2)]
      · rw [if_pos hlocal]

theorem orderly_of_table (h : InOrder isClient maxStreams r)
    (htable : TableInvariant isClient maxStreams ⟨r.now.next operation, r.past ++ [(r.now, operation)]⟩) :
    Orderly r.now operation := by
  obtain ⟨hrole, hcap, hlocal, _⟩ := h
  cases operation with
  | acceptStream streamId =>
    by_cases hlive : streamId ∈ r.now.streams
    · exact .inl hlive
    · have hnext : (r.now.next (.acceptStream streamId)).streams =
          r.now.streams.insert streamId (Stream.init streamId (streamId % 2 == 0) r.now.initialStreamWindow) := by
        rw [next, Operation.perform, exec_bind_pure, exec_acceptStream_absent hlive]
      have hmem : streamId ∈ (r.now.next (.acceptStream streamId)).streams := by
        rw [hnext]
        exact (AList.mem_insert _).mpr (.inl rfl)
      refine .inr ⟨decide_eq_false ?_, htable.range streamId hmem |>.1, htable.range streamId hmem |>.2, ?_⟩
      · have hcount : size (r.now.next (.acceptStream streamId)).streams ≤ maxStreams.toNat := htable.count
        rw [hnext, size_insert_of_notMem hlive, ← hcap] at hcount
        exact Nat.not_le.mpr hcount
      · intro hforeign
        have hcreator := htable.creators _ (List.mem_append_right _ (List.mem_singleton_self _)) streamId ⟨hlive, hmem⟩
        rw [if_pos (hrole ▸ hforeign)] at hcreator
        cases hcreator
  | openStream =>
    cases hfull : r.now.full with
    | true => exact .inl hfull
    | false =>
      refine .inr fun hzero => ?_
      have hmem : (0 : StreamId) ∈ (r.now.next .openStream).streams := by
        rw [next, Operation.perform, exec_bind_pure, exec_openStream_room hfull, hzero, if_neg (by decide)]
        exact (AList.mem_insert _).mpr (.inl rfl)
      exact absurd (htable.range 0 hmem).1 (by decide)
  | _ => trivial

/-- **The table keeps its promise as long as the calls are orderly, and no longer.** -/
theorem table_iff (isClient : Bool) (maxStreams : UInt32) (window flowWindow : UInt64) (operations : List Operation) :
    Throughout (Recorded.step step)
        (fun r operation => ∀ r', Recorded.step step r operation = some r' → TableInvariant isClient maxStreams r')
        (.fresh (init isClient maxStreams window flowWindow)) operations ↔
      Throughout (Recorded.step step) (fun r operation => Orderly r.now operation)
        (.fresh (init isClient maxStreams window flowWindow)) operations := by
  refine throughout_iff (I := InOrder isClient maxStreams) ?_ ?_
    (inOrder_init isClient maxStreams window flowWindow) operations
  · intro r operation h
    constructor
    · exact fun htable => orderly_of_table h (htable _ rfl)
    · intro horderly r' hstep
      cases hstep
      exact table_of_orderly h horderly
  · intro r operation r' h htable hstep
    obtain ⟨m, hm, rfl⟩ := Recorded.step_eq_some.mp hstep
    cases hm
    have hchanges := changes r.now operation
    refine ⟨hchanges.isClient.trans h.role, hchanges.maxStreams.trans h.cap, ?_, htable _ hstep⟩
    have hlocal := hchanges.isLocal_nextId (h.role ▸ h.nextId)
    rwa [h.role] at hlocal

/-- A server that may have one stream accepts two, an ID of its own parity, and 0. -/
theorem table_overrun :
    ¬ Throughout (Recorded.step step)
        (fun r operation => ∀ r', Recorded.step step r operation = some r' → TableInvariant false 1 r')
        (.fresh (init false 1 10 10)) [.acceptStream 2, .acceptStream 4] ∧
    ¬ Throughout (Recorded.step step)
        (fun r operation => ∀ r', Recorded.step step r operation = some r' → TableInvariant false 1 r')
        (.fresh (init false 1 10 10)) [.acceptStream 1] ∧
    ¬ Throughout (Recorded.step step)
        (fun r operation => ∀ r', Recorded.step step r operation = some r' → TableInvariant false 1 r')
        (.fresh (init false 1 10 10)) [.acceptStream 0] := by
  refine ⟨fun h => ?_, fun h => ?_, fun h => ?_⟩
  · exact absurd ((h.2 _ rfl).1 _ rfl).count (by decide)
  · have hcreator := (h.1 _ rfl).creators _ (List.mem_singleton_self _) 1 ⟨by decide, by decide⟩
    cases hcreator
  · exact absurd ((h.1 _ rfl).range 0 (by decide)).1 (by decide)

end Aether.StreamManager
