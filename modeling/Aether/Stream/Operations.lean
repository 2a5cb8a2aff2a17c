import Aether.Library.Runs
import Aether.Stream.Windows

/-! What is called of a stream and of the stream table.

`Stream.Operation` and `StreamManager.Operation` are the public methods that change
something, each with its arguments; `get_stream_mut` and a method of the stream are
one operation of the table. What an operation can do to the table is said once
(`StreamManager.Changes`); writes and reads of a stream have their own rules. -/
namespace Aether
open Octets Octets.Method

/-! ### A stream -/

namespace Stream

inductive Operation where
  | write (data : Bytes)
  | read (maxLen : Nat)
  | receiveData (offset : UInt32) (data : Bytes)
  | closeWrite
  | closeRead
  | updateWindow (newMax : UInt64)

/-- What an operation returns. -/
inductive Output where
  | offset (offset : UInt32)
  | data (data : Bytes)
  | done
  deriving DecidableEq

def Operation.perform : Operation → Action Stream Output
  | .write data => do return .offset (← Stream.write data)
  | .read maxLen => do return .data (← Stream.read maxLen)
  | .receiveData offset data => do
    modify fun s => s.receiveData offset data
    return .done
  | .closeWrite => do
    modify Stream.closeWrite
    return .done
  | .closeRead => do
    modify Stream.closeRead
    return .done
  | .updateWindow newMax => do
    modify fun s => { s with flowControl := s.flowControl.updateWindow newMax }
    return .done

/-- The stream an operation leaves, whether it succeeds or not. -/
def next (s : Stream) (operation : Operation) : Stream := (operation.perform.exec s).2

/-- Streams refuse no operation. -/
def step (s : Stream) (operation : Operation) : Option Stream := some (s.next operation)

/-- The checks of `write`. -/
def accepts (s : Stream) (data : Bytes) : Bool := s.state.canWrite && s.flowControl.canSend data.length

theorem exec_write_accepted {s : Stream} {data : Bytes} (h : s.accepts data = true) :
    (write data).exec s = (.ok s.flowControl.sentOffset.toUInt32,
      { s with flowControl := (s.flowControl.reserveSend data.length).2 }) := by
  obtain ⟨hstate, hwindow⟩ := Bool.and_eq_true_iff.mp h
  rw [write, exec_get_bind, hstate, hwindow]
  rfl

theorem exec_write_refused {s : Stream} {data : Bytes} (h : s.accepts data = false) :
    ∃ e, (write data).exec s = (.error e, s) := by
  rw [write, exec_get_bind]
  cases hstate : s.state.canWrite with
  | false => exact ⟨_, rfl⟩
  | true =>
    have hwindow : s.flowControl.canSend data.length = false := by
      rw [accepts, hstate, Bool.true_and] at h
      exact h
    rw [hwindow]
    exact ⟨_, rfl⟩

/-- Sorting loses nothing. -/
theorem sortByOffset_perm (buffer : List (UInt32 × Bytes)) : (sortByOffset buffer).Perm buffer :=
  List.perm_insertionSort _ _

theorem sortByOffset_pairwise (buffer : List (UInt32 × Bytes)) : (sortByOffset buffer).Pairwise fun f g => f.1 ≤ g.1 :=
  List.pairwise_insertionSort _ _

theorem sortByOffset_of_sorted {buffer : List (UInt32 × Bytes)} (h : buffer.Pairwise fun f g => f.1 ≤ g.1) :
    sortByOffset buffer = buffer :=
  h.insertionSort_eq

/-- A fragment for the beginning is buffered. -/
def AtStart (s : Stream) : Prop := ∃ f ∈ s.receiveBuffer, f.1 = 0

/-- In the order of offsets, what is at offset 0 comes first. -/
theorem sorted_first {s : Stream} (h : s.AtStart) : ∃ f rest, sortByOffset s.receiveBuffer = f :: rest ∧ f.1 = 0 := by
  obtain ⟨g, hg, hoffset⟩ := h
  have hmem : g ∈ sortByOffset s.receiveBuffer := (sortByOffset_perm _).mem_iff.mpr hg
  have hpairwise := sortByOffset_pairwise s.receiveBuffer
  cases hsorted : sortByOffset s.receiveBuffer with
  | nil =>
    rw [hsorted] at hmem
    cases hmem
  | cons f rest =>
    refine ⟨f, rest, rfl, ?_⟩
    rw [hsorted] at hmem hpairwise
    rcases List.mem_cons.mp hmem with rfl | hrest
    · exact hoffset
    · have hle := UInt32.le_iff_toNat_le.mp ((List.pairwise_cons.mp hpairwise).1 g hrest)
      rw [hoffset] at hle
      exact UInt32.toNat_inj.mp (Nat.le_zero.mp hle)

/-- A read of a stream that can be read, or has something buffered: the loop over the
sorted buffer, which takes nothing where the first fragment is not at offset 0. Room is
reserved only where it is. -/
theorem exec_read_collect {s : Stream} (h : (!s.state.canRead && s.receiveBuffer.isEmpty) = false) {maxLen : Nat}
    (hroom : s.AtStart → maxLen ≤ isizeMax) :
    (read maxLen).exec s =
      (.ok (collect maxLen (sortByOffset s.receiveBuffer) [] 0 0).1,
        { s with receiveBuffer := List.drop (collect maxLen (sortByOffset s.receiveBuffer) [] 0 0).2
                  (sortByOffset s.receiveBuffer) }) := by
  rw [read, exec_get_bind, h, if_neg Bool.false_ne_true]
  cases hbuffer : s.receiveBuffer with
  | nil =>
    rw [List.isEmpty_nil, if_pos rfl, exec_pure]
    cases s
    cases hbuffer
    rfl
  | cons f rest =>
    rw [List.isEmpty_cons, if_neg Bool.false_ne_true]
    have hperm := sortByOffset_perm (f :: rest)
    cases hsorted : sortByOffset (f :: rest) with
    | nil =>
      rw [hsorted] at hperm
      exact absurd hperm.symm.eq_nil (List.cons_ne_nil f rest)
    | cons first others =>
      obtain ⟨offset, data⟩ := first
      rw [exec_set_bind]
      by_cases hfirst : offset = 0
      · subst hfirst
        have hstart : s.AtStart := by
          refine ⟨(0, data), ?_, rfl⟩
          rw [hbuffer]
          exact hperm.subset (by rw [hsorted]; exact List.mem_cons_self)
        dsimp only
        rw [if_neg (not_not_intro rfl), if_neg (Nat.not_lt_of_le (hroom hstart))]
        rfl
      · simp only [ne_eq, hfirst, not_false_eq_true, if_true, collect]
        rfl

/-- No vector has room for that much; the buffer has been sorted by then. -/
theorem exec_read_panic {s : Stream} (hstart : s.AtStart) {maxLen : Nat} (h : isizeMax < maxLen) :
    (read maxLen).exec s = (.error .panic, { s with receiveBuffer := sortByOffset s.receiveBuffer }) := by
  have hbuffer : s.receiveBuffer.isEmpty = false := by
    obtain ⟨f, hf, _⟩ := hstart
    exact List.isEmpty_eq_false_iff.mpr (List.ne_nil_of_mem hf)
  obtain ⟨⟨offset, data⟩, rest, hsorted, hoffset⟩ := sorted_first hstart
  have hzero : offset = 0 := hoffset
  subst hzero
  rw [read, exec_get_bind, hbuffer, Bool.and_false, if_neg Bool.false_ne_true, if_neg Bool.false_ne_true, hsorted,
    exec_set_bind]
  dsimp only
  rw [if_neg (not_not_intro rfl), if_pos h]
  rfl

/-- A read that succeeds was given room. -/
theorem room_of_read {s : Stream} {maxLen : Nat} {data : Bytes} (h : ((read maxLen).exec s).1 = .ok data)
    (hstart : s.AtStart) : maxLen ≤ isizeMax := by
  by_contra hlarge
  rw [exec_read_panic hstart (Nat.lt_of_not_le hlarge)] at h
  cases h

theorem exec_read_failed {s : Stream} (h : (!s.state.canRead && s.receiveBuffer.isEmpty) = true) (maxLen : Nat) :
    ∃ e, (read maxLen).exec s = (.error e, s) := by
  rw [read, exec_get_bind, h, if_pos rfl]
  exact ⟨_, rfl⟩

/-- Nothing changes the ID of a stream. -/
theorem closeWrite_id (s : Stream) : s.closeWrite.id = s.id := by
  unfold closeWrite
  split <;> rfl

theorem closeRead_id (s : Stream) : s.closeRead.id = s.id := by
  unfold closeRead
  split <;> rfl

theorem closeWrite_receiveBuffer (s : Stream) : s.closeWrite.receiveBuffer = s.receiveBuffer := by
  unfold closeWrite
  split <;> rfl

theorem closeRead_receiveBuffer (s : Stream) : s.closeRead.receiveBuffer = s.receiveBuffer := by
  unfold closeRead
  split <;> rfl

/-- What the loop takes is the beginning of what it is given. -/
theorem collect_takes (maxLen : Nat) (buffer : List (UInt32 × Bytes)) (result : Bytes) (expected : UInt32)
    (consumed : Nat) :
    ∃ n ≤ buffer.length, collect maxLen buffer result expected consumed =
      (result ++ ((buffer.take n).map Prod.snd).flatten, consumed + n) := by
  induction buffer generalizing result expected consumed with
  | nil => exact ⟨0, Nat.le_refl _, by simp [collect]⟩
  | cons f rest ih =>
    obtain ⟨offset, data⟩ := f
    rw [collect]
    split
    · exact ⟨0, Nat.zero_le _, by simp⟩
    · split
      · exact ⟨1, by simp, by simp⟩
      · obtain ⟨n, hn, hrest⟩ := ih (result ++ data) (expected + UInt32.ofNat data.length) (consumed + 1)
        refine ⟨n + 1, Nat.succ_le_succ hn, ?_⟩
        rw [hrest]
        simp [Nat.add_assoc, Nat.add_comm 1 n]

/-- A read takes fragments out of the buffer and returns what they hold; one that fails takes none. -/
theorem exec_read_takes (s : Stream) (maxLen : Nat) :
    ∃ taken left, (taken ++ left).Perm s.receiveBuffer ∧ ((read maxLen).exec s).2 = { s with receiveBuffer := left } ∧
      (∀ data, ((read maxLen).exec s).1 = .ok data → data = (taken.map Prod.snd).flatten) ∧
      ∀ e, ((read maxLen).exec s).1 = .error e → taken = [] := by
  cases h : (!s.state.canRead && s.receiveBuffer.isEmpty) with
  | true =>
    obtain ⟨e, hexec⟩ := exec_read_failed h maxLen
    rw [hexec]
    exact ⟨[], s.receiveBuffer, .refl _, rfl, nofun, fun _ _ => rfl⟩
  | false =>
    by_cases hroom : s.AtStart → maxLen ≤ isizeMax
    · obtain ⟨n, _, hcollect⟩ := collect_takes maxLen (sortByOffset s.receiveBuffer) [] 0 0
      rw [exec_read_collect h hroom, hcollect, List.nil_append, Nat.zero_add]
      refine ⟨(sortByOffset s.receiveBuffer).take n, _, ?_, rfl, fun data hdata => (Except.ok.inj hdata).symm, nofun⟩
      rw [List.take_append_drop]
      exact sortByOffset_perm _
    · push Not at hroom
      obtain ⟨hstart, hlarge⟩ := hroom
      rw [exec_read_panic hstart hlarge]
      exact ⟨[], _, sortByOffset_perm _, rfl, nofun, fun _ _ => rfl⟩

/-- A write moves the offset, or nothing. -/
theorem next_write (s : Stream) (data : Bytes) :
    s.next (.write data) =
      if s.accepts data then { s with flowControl := (s.flowControl.reserveSend data.length).2 } else s := by
  rw [next, Operation.perform, exec_bind_pure]
  cases haccepts : s.accepts data with
  | true =>
    rw [exec_write_accepted haccepts]
    rfl
  | false =>
    obtain ⟨e, hexec⟩ := exec_write_refused haccepts
    rw [hexec]
    rfl

theorem next_id (s : Stream) (operation : Operation) : (s.next operation).id = s.id := by
  cases operation with
  | write data =>
    rw [next_write]
    split <;> rfl
  | read maxLen =>
    rw [next, Operation.perform, exec_bind_pure]
    obtain ⟨_, left, _, hleft, _⟩ := exec_read_takes s maxLen
    rw [hleft]
  | receiveData offset data => rfl
  | closeWrite => exact s.closeWrite_id
  | closeRead => exact s.closeRead_id
  | updateWindow newMax => rfl

end Stream

/-! ### The table -/

namespace StreamManager

/-- A method of one stream, through `get_stream_mut`. -/
def withStream {α : Type} (streamId : StreamId) (method : Action Stream α) : Action StreamManager α := do
  let m ← get
  let stream ← liftM (m.getStream streamId)
  set { m with streams := m.streams.replace streamId (method.exec stream).2 }
  liftM (method.exec stream).1

inductive Operation where
  | openStream
  | acceptStream (streamId : StreamId)
  | closeStream (streamId : StreamId)
  | shutdownStream (streamId : StreamId)
  | onStream (streamId : StreamId) (operation : Stream.Operation)
  | updateConnectionWindow (newWindow : UInt64)
  | reserveConnectionSend (dataLen : Nat)

/-- What an operation returns. -/
inductive Output where
  | opened (streamId : StreamId)
  | stream (output : Stream.Output)
  | done
  deriving DecidableEq

def Operation.perform : Operation → Action StreamManager Output
  | .openStream => do return .opened (← StreamManager.openStream)
  | .acceptStream streamId => do
    StreamManager.acceptStream streamId
    return .done
  | .closeStream streamId => do
    StreamManager.closeStream streamId
    return .done
  | .shutdownStream streamId => do
    StreamManager.shutdownStream streamId
    return .done
  | .onStream streamId operation => do return .stream (← withStream streamId operation.perform)
  | .updateConnectionWindow newWindow => do
    modify fun m => m.updateConnectionWindow newWindow
    return .done
  | .reserveConnectionSend dataLen => do
    modify fun m => m.reserveConnectionSend dataLen
    return .done

/-- The table an operation leaves, whether it succeeds or not. -/
def next (m : StreamManager) (operation : Operation) : StreamManager := (operation.perform.exec m).2

/-- The table refuses no operation. -/
def step (m : StreamManager) (operation : Operation) : Option StreamManager := some (m.next operation)

theorem step_eq (m : StreamManager) (operation : Operation) : step m operation = some (m.next operation) := rfl

/-! ### Opening -/

/-- The ID the counter of our role stands at. -/
def nextId (m : StreamManager) : StreamId := if m.isClient then m.nextClientStreamId else m.nextServerStreamId

def full (m : StreamManager) : Bool := m.streamCount ≥ m.maxStreams.toNat

/-- The counter of our role moves on. -/
def advance (m : StreamManager) : StreamManager :=
  if m.isClient then { m with nextClientStreamId := m.nextClientStreamId + 2 }
  else { m with nextServerStreamId := m.nextServerStreamId + 2 }

@[simp] theorem advance_streams (m : StreamManager) : m.advance.streams = m.streams := by
  unfold advance
  split <;> rfl

@[simp] theorem advance_isClient (m : StreamManager) : m.advance.isClient = m.isClient := by
  unfold advance
  split <;> rfl

@[simp] theorem advance_maxStreams (m : StreamManager) : m.advance.maxStreams = m.maxStreams := by
  unfold advance
  split <;> rfl

@[simp] theorem advance_initialStreamWindow (m : StreamManager) :
    m.advance.initialStreamWindow = m.initialStreamWindow := by
  unfold advance
  split <;> rfl

@[simp] theorem advance_nextId (m : StreamManager) : m.advance.nextId = m.nextId + 2 := by
  unfold advance nextId
  split <;> simp_all

/-- A table with a new stream in it, as `open_stream` makes one. -/
def withOpened (m : StreamManager) (streamId : StreamId) : StreamManager :=
  { m with streams := m.streams.insert streamId (Stream.init streamId m.isClient m.initialStreamWindow) }

theorem exec_openStream_full {m : StreamManager} (h : m.full = true) :
    openStream.exec m = (fail (.flowControl s!"Maximum streams reached: {m.maxStreams}"), m) := by
  rw [openStream, exec_get_bind, if_pos (of_decide_eq_true h)]
  rfl

/-- Where there is room, the counter moves on and what it gave is an ID or out of range. -/
theorem exec_openStream_room {m : StreamManager} (h : m.full = false) :
    openStream.exec m =
      if m.nextId > maxStreamId then (fail (.flowControl "Stream ID exhausted"), m.advance)
      else (.ok m.nextId, m.advance.withOpened m.nextId) := by
  rw [openStream, exec_get_bind, if_neg (of_decide_eq_false h)]
  obtain ⟨streams, nextClientStreamId, nextServerStreamId, maxStreams, window, flowWindow, sent, isClient⟩ := m
  cases isClient with
  | true =>
    simp only [if_true, exec_set_bind, nextId, advance]
    split <;> rfl
  | false =>
    simp only [Bool.false_eq_true, if_false, exec_set_bind, nextId, advance]
    split <;> rfl

/-! ### What an operation can do -/

/-- The stream an operation calls a method of, and what the method makes of it. -/
def Operation.target : Operation → Option (StreamId × (Stream → Stream))
  | .closeStream streamId => some (streamId, Stream.closeRead)
  | .shutdownStream streamId => some (streamId, fun stream => stream.closeWrite.closeRead)
  | .onStream streamId operation => some (streamId, fun stream => stream.next operation)
  | _ => none

/-- The operations that remove what is fully closed. -/
def Operation.removes : Operation → Bool
  | .closeStream _ | .shutdownStream _ => true
  | _ => false

/-- Everything an operation can do to the table, with what makes it do so. -/
inductive Changes (m : StreamManager) : Operation → StreamManager → Prop where
  /-- It fails, or is not about the table. -/
  | unchanged (operation : Operation) (flowWindow sent : UInt64) (full : operation = .openStream → m.full = true)
      (taken : ∀ streamId, operation = .acceptStream streamId → streamId ∈ m.streams)
      (absent : ∀ streamId change, operation.target = some (streamId, change) → streamId ∉ m.streams) :
      Changes m operation { m with connectionFlowWindow := flowWindow, connectionSent := sent }
  | exhausted (room : m.full = false) (large : maxStreamId < m.nextId) : Changes m .openStream m.advance
  | opened (room : m.full = false) (small : m.nextId ≤ maxStreamId) :
      Changes m .openStream (m.advance.withOpened m.nextId)
  | accepted (streamId : StreamId) (absent : streamId ∉ m.streams) :
      Changes m (.acceptStream streamId) { m with
        streams := m.streams.insert streamId (Stream.init streamId (streamId % 2 == 0) m.initialStreamWindow) }
  | updated (operation : Operation) (streamId : StreamId) (change : Stream → Stream) (stream : Stream)
      (target : operation.target = some (streamId, change)) (present : m.streams.lookup streamId = some stream)
      (kept : operation.removes = true → (change stream).state ≠ .closed) :
      Changes m operation { m with streams := m.streams.replace streamId (change stream) }
  | removed (operation : Operation) (streamId : StreamId) (change : Stream → Stream) (stream : Stream)
      (target : operation.target = some (streamId, change)) (present : m.streams.lookup streamId = some stream)
      (removes : operation.removes = true) (closed : (change stream).state = .closed) :
      Changes m operation { m with streams := m.streams.erase streamId }

theorem exec_acceptStream_absent {m : StreamManager} {streamId : StreamId} (h : streamId ∉ m.streams) :
    (acceptStream streamId).exec m = (.ok (), { m with
      streams := m.streams.insert streamId (Stream.init streamId (streamId % 2 == 0) m.initialStreamWindow) }) := by
  rw [acceptStream, exec_get_bind, if_neg h]
  rfl

theorem exec_acceptStream_present {m : StreamManager} {streamId : StreamId} (h : streamId ∈ m.streams) :
    (acceptStream streamId).exec m = (fail (.protocolViolation s!"Stream {streamId} already exists"), m) := by
  rw [acceptStream, exec_get_bind, if_pos h]
  rfl

theorem exec_withStream {α : Type} {m : StreamManager} {streamId : StreamId} {stream : Stream}
    (h : m.streams.lookup streamId = some stream) (method : Action Stream α) :
    (withStream streamId method).exec m = ((method.exec stream).1,
      { m with streams := m.streams.replace streamId (method.exec stream).2 }) := by
  rw [withStream, exec_get_bind, getStream, h]
  rfl

theorem changes_openStream (m : StreamManager) : Changes m .openStream (m.next .openStream) := by
  rw [next, Operation.perform, exec_bind_pure]
  cases hfull : m.full with
  | true =>
    rw [exec_openStream_full hfull]
    exact .unchanged _ _ _ (fun _ => hfull) nofun nofun
  | false =>
    rw [exec_openStream_room hfull]
    split
    · exact .exhausted hfull ‹_›
    · exact .opened hfull (UInt32.not_lt.mp ‹_›)

theorem changes_acceptStream (m : StreamManager) (streamId : StreamId) :
    Changes m (.acceptStream streamId) (m.next (.acceptStream streamId)) := by
  rw [next, Operation.perform, exec_bind_pure]
  by_cases h : streamId ∈ m.streams
  · rw [exec_acceptStream_present h]
    refine .unchanged _ _ _ nofun (fun other hother => ?_) nofun
    cases hother
    exact h
  · rw [exec_acceptStream_absent h]
    exact .accepted streamId h

/-- Closing a stream, one way or the other. -/
theorem changes_putOrRemove {m : StreamManager} {operation : Operation} {streamId : StreamId}
    {change : Stream → Stream} {stream : Stream} (htarget : operation.target = some (streamId, change))
    (hremoves : operation.removes = true) (h : m.streams.lookup streamId = some stream) :
    Changes m operation ((putOrRemove streamId (change stream)).exec m).2 := by
  rw [putOrRemove, exec_modify]
  cases hstate : (change stream).state with
  | closed => exact .removed _ _ _ _ htarget h hremoves hstate
  | _ => exact .updated _ _ _ _ htarget h fun _ => by rw [hstate]; decide

/-- An operation on a stream that is not there. -/
theorem changes_absent {m : StreamManager} {operation : Operation} {streamId : StreamId} {change : Stream → Stream}
    (htarget : operation.target = some (streamId, change)) (h : m.streams.lookup streamId = none) :
    Changes m operation m := by
  have habsent : streamId ∉ m.streams := AList.lookup_eq_none.mp h
  refine .unchanged _ _ _ ?_ ?_ ?_
  · rintro rfl
    cases htarget
  · rintro _ rfl
    cases htarget
  · intro other change' hother
    cases htarget.symm.trans hother
    exact habsent

/-- **Every operation changes the table in one of these ways.** -/
theorem changes (m : StreamManager) (operation : Operation) : Changes m operation (m.next operation) := by
  cases operation with
  | openStream => exact changes_openStream m
  | acceptStream streamId => exact changes_acceptStream m streamId
  | closeStream streamId =>
    rw [next, Operation.perform, exec_bind_pure, closeStream, exec_get_bind, getStream]
    cases h : m.streams.lookup streamId with
    | none => exact changes_absent rfl h
    | some stream => exact changes_putOrRemove rfl rfl h
  | shutdownStream streamId =>
    rw [next, Operation.perform, exec_bind_pure, shutdownStream, exec_get_bind, getStream]
    cases h : m.streams.lookup streamId with
    | none => exact changes_absent rfl h
    | some stream =>
      have htarget : (Operation.shutdownStream streamId).target =
          some (streamId, fun stream => stream.closeWrite.closeRead) := rfl
      have hchanges := changes_putOrRemove htarget rfl h
      exact hchanges
  | onStream streamId operation =>
    rw [next, Operation.perform, exec_bind_pure]
    cases h : m.streams.lookup streamId with
    | none =>
      rw [withStream, exec_get_bind, getStream, h]
      exact changes_absent rfl h
    | some stream =>
      rw [exec_withStream h]
      exact .updated _ _ (fun stream => stream.next operation) _ rfl h fun hremoves => by cases hremoves
  | updateConnectionWindow newWindow =>
    rw [next, Operation.perform, exec_bind_pure, exec_modify, updateConnectionWindow]
    split
    · exact .unchanged _ _ _ (fun h => by cases h) (fun _ h => by cases h) fun _ _ h => by cases h
    · exact .unchanged _ _ _ (fun h => by cases h) (fun _ h => by cases h) fun _ _ h => by cases h
  | reserveConnectionSend dataLen =>
    exact .unchanged _ _ _ (fun h => by cases h) (fun _ h => by cases h) fun _ _ h => by cases h

theorem Changes.isClient {m m' : StreamManager} {operation : Operation} (h : Changes m operation m') :
    m'.isClient = m.isClient := by
  cases h with
  | exhausted => exact m.advance_isClient
  | opened => exact m.advance_isClient
  | _ => rfl

theorem Changes.maxStreams {m m' : StreamManager} {operation : Operation} (h : Changes m operation m') :
    m'.maxStreams = m.maxStreams := by
  cases h with
  | exhausted => exact m.advance_maxStreams
  | opened => exact m.advance_maxStreams
  | _ => rfl

/-- A call puts in no more than one stream. -/
theorem Changes.streamCount_le {m m' : StreamManager} {operation : Operation} (h : Changes m operation m') :
    m'.streamCount ≤ m.streamCount + 1 := by
  cases h with
  | unchanged => exact Nat.le_succ _
  | exhausted => exact (congrArg size m.advance_streams).trans_le (Nat.le_succ _)
  | opened => exact (size_insert_le m.advance.streams _ _).trans_eq (congrArg (size · + 1) m.advance_streams)
  | accepted => exact size_insert_le m.streams _ _
  | updated => exact (size_replace m.streams _ _).trans_le (Nat.le_succ _)
  | removed => exact Nat.le_trans (size_erase_le m.streams _) (Nat.le_succ _)

/-! ### What is found after an operation -/

/-- The ID under which an operation has put a stream in the table. -/
def created : StreamManager × Operation → Option StreamId
  | (m, .openStream) => (openStream.exec m).1.toOption
  | (m, .acceptStream streamId) => ((acceptStream streamId).exec m).1.toOption.map fun _ => streamId
  | _ => none

/-- What a stream that is there after an operation has to do with it. -/
inductive Found (m : StreamManager) (operation : Operation) (streamId : StreamId) (found : Stream) : Prop where
  | kept (notCreated : created (m, operation) ≠ some streamId)
      (notTarget : ∀ change, operation.target ≠ some (streamId, change))
      (present : m.streams.lookup streamId = some found)
  | changed (change : Stream → Stream) (stream : Stream) (target : operation.target = some (streamId, change))
      (present : m.streams.lookup streamId = some stream) (eq : found = change stream)
  | made (isClient : Bool) (created : created (m, operation) = some streamId)
      (eq : found = Stream.init streamId isClient m.initialStreamWindow)

theorem created_eq_none_of_target {m : StreamManager} {operation : Operation} {target : StreamId × (Stream → Stream)}
    (h : operation.target = some target) : created (m, operation) = none := by
  cases operation with
  | openStream => cases h
  | acceptStream => cases h
  | _ => rfl

theorem created_eq_none {m : StreamManager} {operation : Operation} (hfull : operation = .openStream → m.full = true)
    (htaken : ∀ streamId, operation = .acceptStream streamId → streamId ∈ m.streams) :
    created (m, operation) = none := by
  cases operation with
  | openStream =>
    rw [created, exec_openStream_full (hfull rfl)]
    rfl
  | acceptStream streamId =>
    rw [created, exec_acceptStream_present (htaken streamId rfl)]
    rfl
  | _ => rfl

theorem created_openStream {m : StreamManager} (hroom : m.full = false) :
    created (m, .openStream) = if m.nextId > maxStreamId then none else some m.nextId := by
  rw [created, exec_openStream_room hroom]
  split <;> rfl

theorem created_acceptStream {m : StreamManager} {streamId : StreamId} (h : streamId ∉ m.streams) :
    created (m, .acceptStream streamId) = some streamId := by
  rw [created, exec_acceptStream_absent h]
  rfl

/-- What is found in a table that a new stream was put in. -/
theorem found_insert {m : StreamManager} {operation : Operation} {streams : AList fun _ : StreamId => Stream}
    {new : StreamId} {isClient : Bool} {window : UInt64} (hstreams : streams = m.streams)
    (hwindow : window = m.initialStreamWindow) (hcreated : created (m, operation) = some new)
    (htarget : operation.target = none) {streamId : StreamId} {found : Stream}
    (hfound : (streams.insert new (Stream.init new isClient window)).lookup streamId = some found) :
    Found m operation streamId found := by
  subst hstreams hwindow
  by_cases hnew : streamId = new
  · subst hnew
    rw [AList.lookup_insert] at hfound
    cases hfound
    exact .made isClient hcreated rfl
  · rw [AList.lookup_insert_ne hnew] at hfound
    refine .kept (fun hsame => hnew ?_) (fun change hchange => ?_) hfound
    · exact Option.some.inj (hsame.symm.trans hcreated)
    · cases htarget.symm.trans hchange

/-- What is found under another ID than an operation's target. -/
theorem found_other {m : StreamManager} {operation : Operation} {target : StreamId} {change : Stream → Stream}
    (htarget : operation.target = some (target, change)) {streamId : StreamId} (hother : streamId ≠ target)
    {found : Stream} (hfound : m.streams.lookup streamId = some found) : Found m operation streamId found := by
  refine .kept ?_ (fun change' htarget' => ?_) hfound
  · rw [created_eq_none_of_target htarget]
    exact nofun
  · cases htarget.symm.trans htarget'
    exact hother rfl

/-- **Whatever an operation does, a stream that is there afterwards was there as it is,
or is what the operation made of its target, or is new.** -/
theorem Changes.found {m m' : StreamManager} {operation : Operation} (h : Changes m operation m')
    {streamId : StreamId} {found : Stream} (hfound : m'.streams.lookup streamId = some found) :
    Found m operation streamId found := by
  cases h with
  | unchanged _ _ _ full taken absent =>
    refine .kept ?_ (fun change htarget => absent _ _ htarget (mem_of_lookup hfound)) hfound
    rw [created_eq_none full taken]
    exact nofun
  | exhausted room large =>
    refine .kept ?_ nofun (by rwa [advance_streams] at hfound)
    rw [created_openStream room, if_pos large]
    exact nofun
  | opened room small =>
    refine found_insert m.advance_streams ?_ ?_ rfl hfound
    · exact m.advance_initialStreamWindow
    · rw [created_openStream room, if_neg (UInt32.not_lt.mpr small)]
  | accepted new absent => exact found_insert rfl rfl (created_acceptStream absent) rfl hfound
  | updated _ target change stream htarget present =>
    by_cases hsame : streamId = target
    · subst hsame
      rw [lookup_replace, if_pos rfl, present] at hfound
      cases hfound
      exact .changed change stream htarget present rfl
    · rw [lookup_replace_ne hsame] at hfound
      exact found_other htarget hsame hfound
  | removed _ target change stream htarget =>
    by_cases hsame : streamId = target
    · rw [hsame, AList.lookup_erase] at hfound
      cases hfound
    · rw [AList.lookup_erase_ne hsame] at hfound
      exact found_other htarget hsame hfound

/-- What makes an operation put a stream in the table. -/
theorem created_eq_some {m : StreamManager} {operation : Operation} {streamId : StreamId}
    (h : created (m, operation) = some streamId) :
    (operation = .acceptStream streamId ∧ streamId ∉ m.streams) ∨
      (operation = .openStream ∧ streamId = m.nextId ∧ m.full = false ∧ m.nextId ≤ maxStreamId) := by
  cases operation with
  | openStream =>
    cases hfull : m.full with
    | true =>
      rw [created, exec_openStream_full hfull] at h
      cases h
    | false =>
      rw [created_openStream hfull] at h
      split at h
      · cases h
      · rename_i hsmall
        cases h
        exact .inr ⟨rfl, rfl, rfl, UInt32.not_lt.mp hsmall⟩
  | acceptStream other =>
    by_cases hother : other ∈ m.streams
    · rw [created, exec_acceptStream_present hother] at h
      cases h
    · rw [created_acceptStream hother] at h
      cases h
      exact .inl ⟨rfl, hother⟩
  | _ => cases h

/-- A stream that is there after an operation was there before, or the operation put it in. -/
theorem Changes.mem {m m' : StreamManager} {operation : Operation} (h : Changes m operation m') {streamId : StreamId}
    (hmem : streamId ∈ m'.streams) : streamId ∈ m.streams ∨ created (m, operation) = some streamId := by
  obtain ⟨found, hfound⟩ := exists_lookup hmem
  cases h.found hfound with
  | kept _ _ present => exact .inl (mem_of_lookup present)
  | changed _ _ _ present => exact .inl (mem_of_lookup present)
  | made _ hcreated => exact .inr hcreated

end StreamManager

end Aether
