import Aether.Stream.Operations
import Aether.Stream.ReadLimit

/-! Which streams are listed as readable.

`readable_streams` looks whether something is buffered and whether the stream is open
for reading; `read` returns what begins at offset 0, also of a stream that is no longer
open for reading, if a vector can hold as much as it is asked for. The two agree about a
stream exactly where, of a stream with something buffered, the one holds just when the
other does (`readable_iff`). -/
namespace Aether
open Octets Octets.Method

/-! ### A stream -/

namespace Stream

/-- Every fragment that is buffered holds something. -/
def AllCarry (s : Stream) : Prop := ∀ f ∈ s.receiveBuffer, f.2 ≠ []

/-- The call is not for a fragment that holds nothing. -/
def Operation.Carries : Operation → Prop
  | .receiveData _ data => data ≠ []
  | _ => True

theorem allCarry_next {s : Stream} (h : AllCarry s) {operation : Operation} (hcarries : operation.Carries) :
    AllCarry (s.next operation) := by
  cases operation with
  | write data =>
    rw [next_write]
    split
    · exact h
    · exact h
  | read maxLen =>
    obtain ⟨taken, left, hperm, hleft, _⟩ := exec_read_takes s maxLen
    rw [next, Operation.perform, exec_bind_pure, hleft]
    intro f hf
    apply h
    exact hperm.subset (List.mem_append_right taken hf)
  | receiveData offset data =>
    intro f hf
    rcases List.mem_append.mp hf with hold | hnew
    · exact h f hold
    · rw [List.mem_singleton.mp hnew]
      exact hcarries
  | closeWrite =>
    show AllCarry s.closeWrite
    rw [AllCarry, closeWrite_receiveBuffer]
    exact h
  | closeRead =>
    show AllCarry s.closeRead
    rw [AllCarry, closeRead_receiveBuffer]
    exact h
  | updateWindow newMax => exact h

/-- The loop takes a first fragment that is at offset 0, whatever the limit is. -/
theorem collect_first {f : UInt32 × Bytes} (h : f.1 = 0) (maxLen : Nat) (rest : List (UInt32 × Bytes)) :
    ∃ more, (collect maxLen (f :: rest) [] 0 0).1 = f.2 ++ more := by
  rw [collect, if_neg (not_not_intro h)]
  split
  · exact ⟨[], (List.append_nil f.2).symm⟩
  · obtain ⟨n, _, hrest⟩ := collect_takes maxLen rest ([] ++ f.2) (0 + UInt32.ofNat f.2.length) (0 + 1)
    rw [hrest]
    exact ⟨_, rfl⟩

/-- A read returns something just where the beginning is there and a vector can hold what is asked for. -/
theorem read_nonempty_iff {s : Stream} (h : AllCarry s) (maxLen : Nat) :
    (∃ data, ((read maxLen).exec s).1 = .ok data ∧ data ≠ []) ↔ s.AtStart ∧ maxLen ≤ isizeMax := by
  constructor
  · intro hreads
    obtain ⟨data, hdata, hne⟩ := hreads
    have hstart : s.AtStart := by
      by_contra hstart
      have hblocked : Blocked s := fun f hf hoffset => absurd ⟨f, hf, hoffset⟩ hstart
      exact hne ((hblocked.read maxLen).2 data hdata)
    exact ⟨hstart, room_of_read hdata hstart⟩
  · intro hreadable
    obtain ⟨hstart, hroom⟩ := hreadable
    obtain ⟨f, rest, hsorted, hoffset⟩ := sorted_first hstart
    obtain ⟨g, hg, _⟩ := hstart
    obtain ⟨n, hread, hcollect⟩ := exec_read_take (List.ne_nil_of_mem hg) fun _ => hroom
    obtain ⟨more, hfirst⟩ := collect_first hoffset maxLen rest
    have hf : f ∈ s.receiveBuffer := by
      apply (sortByOffset_perm s.receiveBuffer).subset
      rw [hsorted]
      exact List.mem_cons_self
    refine ⟨f.2 ++ more, ?_, List.append_ne_nil_of_left_ne_nil (h f hf) more⟩
    rw [hread, ← hfirst, ← hsorted, hcollect]

end Stream

/-! ### The table -/

namespace StreamManager

/-- No fragment that holds nothing is received. -/
def Carries (_ : StreamManager) : Operation → Prop
  | .onStream _ operation => operation.Carries
  | _ => True

/-- A read of the stream returns something. -/
def ReadsSomething (m : StreamManager) (maxLen : Nat) (streamId : StreamId) : Prop :=
  ∃ stream, m.streams.lookup streamId = some stream ∧ ∃ data, ((Stream.read maxLen).exec stream).1 = .ok data ∧ data ≠ []

theorem mem_readableStreams {m : StreamManager} {streamId : StreamId} :
    streamId ∈ m.readableStreams ↔ ∃ stream, m.streams.lookup streamId = some stream ∧
      stream.receiveBuffer ≠ [] ∧ stream.state.canRead = true := by
  have hkeys : streamId ∈ m.readableStreams ↔ ∃ stream, m.streams.lookup streamId = some stream ∧
      (!stream.receiveBuffer.isEmpty && stream.state.canRead) = true :=
    mem_keys_filter fun stream : Stream => !stream.receiveBuffer.isEmpty && stream.state.canRead
  rw [hkeys]
  simp

/-- What a call makes of its target holds something wherever its target did. -/
theorem allCarry_target {m : StreamManager} {operation : Operation} (hcarries : Carries m operation)
    {streamId : StreamId} {change : Stream → Stream} (htarget : operation.target = some (streamId, change))
    {stream : Stream} (h : stream.AllCarry) : (change stream).AllCarry := by
  cases operation with
  | closeStream =>
    cases htarget
    rw [Stream.AllCarry, Stream.closeRead_receiveBuffer]
    exact h
  | shutdownStream =>
    cases htarget
    rw [Stream.AllCarry, Stream.closeRead_receiveBuffer, Stream.closeWrite_receiveBuffer]
    exact h
  | onStream =>
    cases htarget
    exact Stream.allCarry_next h hcarries
  | _ => cases htarget

theorem allCarry_reached (isClient : Bool) (maxStreams : UInt32) (window flowWindow : UInt64) {m : StreamManager}
    (h : Reached step Carries (init isClient maxStreams window flowWindow) m) {streamId : StreamId} {stream : Stream}
    (hstream : m.streams.lookup streamId = some stream) : stream.AllCarry := by
  refine h.invariant (I := fun m => ∀ streamId stream, m.streams.lookup streamId = some stream → stream.AllCarry)
    ?_ ?_ streamId stream hstream
  · intro streamId stream hstream
    cases hstream
  · intro m operation m' hall hcarries hstep streamId stream hstream
    cases hstep
    cases (changes m operation).found hstream with
    | kept _ _ present => exact hall streamId stream present
    | changed change before target present eq =>
      rw [eq]
      exact allCarry_target hcarries target (hall streamId before present)
    | made _ _ eq =>
      rw [eq]
      intro f hf
      cases hf

/-- **A stream is listed as readable just where a read of it returns something**, exactly if it
has nothing buffered, or is open for reading just where the beginning is buffered and a vector
can hold what is asked for. -/
theorem readable_iff (isClient : Bool) (maxStreams : UInt32) (window flowWindow : UInt64) {m : StreamManager}
    (h : Reached step Carries (init isClient maxStreams window flowWindow) m) (maxLen : Nat) (streamId : StreamId) :
    (streamId ∈ m.readableStreams ↔ m.ReadsSomething maxLen streamId) ↔
      ∀ stream, m.streams.lookup streamId = some stream → stream.receiveBuffer ≠ [] →
        (stream.state.canRead = true ↔ stream.AtStart ∧ maxLen ≤ isizeMax) := by
  rw [mem_readableStreams, ReadsSomething]
  cases hlookup : m.streams.lookup streamId with
  | none =>
    constructor
    · intro _ stream hstream
      cases hstream
    · intro _
      constructor
      · intro hlisted
        obtain ⟨stream, hstream, _⟩ := hlisted
        cases hstream
      · intro hreads
        obtain ⟨stream, hstream, _⟩ := hreads
        cases hstream
  | some stream =>
    have hread := Stream.read_nonempty_iff (allCarry_reached isClient maxStreams window flowWindow h hlookup) maxLen
    -- What is at the beginning is buffered.
    have hbuffer : stream.AtStart → stream.receiveBuffer ≠ [] := fun ⟨f, hf, _⟩ => List.ne_nil_of_mem hf
    simp only [Option.some.injEq, exists_eq_left', forall_eq', hread]
    tauto

/-- A client that has opened a stream and received its first octet. -/
theorem readable_iff_sample :
    (2 ∈ (((init true 100 10 10).next .openStream).next (.onStream 2 (.receiveData 0 [7]))).readableStreams ↔
      (((init true 100 10 10).next .openStream).next (.onStream 2 (.receiveData 0 [7]))).ReadsSomething 1 2) ↔
      ∀ stream, (((init true 100 10 10).next .openStream).next (.onStream 2 (.receiveData 0 [7]))).streams.lookup 2 =
        some stream → stream.receiveBuffer ≠ [] → (stream.state.canRead = true ↔ stream.AtStart ∧ 1 ≤ isizeMax) :=
  readable_iff true 100 10 10 (.next (.onStream 2 (.receiveData 0 [7])) (.next .openStream .start trivial rfl)
    (List.cons_ne_nil 7 []) rfl) 1 2

/-- A stream whose beginning has not come is listed and gives nothing; one that is closed for
reading with its beginning buffered gives it and is not listed. -/
theorem readable_disagrees :
    (∃ m, Reached step Carries (init true 100 10 10) m ∧ 2 ∈ m.readableStreams ∧ ¬ m.ReadsSomething 1 2) ∧
      ∃ m, Reached step Carries (init true 100 10 10) m ∧ 2 ∉ m.readableStreams ∧ m.ReadsSomething 1 2 := by
  constructor
  · refine ⟨((init true 100 10 10).next .openStream).next (.onStream 2 (.receiveData 5 [7])),
      .next (.onStream 2 (.receiveData 5 [7])) (.next .openStream .start trivial rfl) (List.cons_ne_nil 7 []) rfl,
      by decide, ?_⟩
    intro hreads
    obtain ⟨stream, hstream, data, hdata, hne⟩ := hreads
    cases hstream
    have hread : data = [] := (Except.ok.inj hdata).symm
    exact hne hread
  · refine ⟨(((init true 100 10 10).next .openStream).next (.onStream 2 (.receiveData 0 [7]))).next (.closeStream 2),
      .next (.closeStream 2) (.next (.onStream 2 (.receiveData 0 [7])) (.next .openStream .start trivial rfl)
        (List.cons_ne_nil 7 []) rfl) trivial rfl, by decide, ?_⟩
    exact ⟨_, rfl, [7], rfl, List.cons_ne_nil 7 []⟩

end StreamManager

end Aether
