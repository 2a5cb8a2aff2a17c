import Aether.Connection.Endpoint
import Aether.Connection.Establishment

/-! The offsets of a stream's data over a whole connection.

A call of `send_stream_data` numbers its chunks from zero, whatever has been sent on
the stream before. So the frames of a stream tile where one call at most had
anything to send on it (`offsets_tile_iff`). -/
namespace Aether
open Octets Octets.Method Connection

section
variable {P : Primitives}

namespace Endpoint

/-- A call for each stream and what is to be sent on it. -/
def writes (calls : List (StreamId × Bytes)) : List Operation :=
  calls.map fun call => .sendStreamData call.1 call.2

/-- What the calls pass for a stream. -/
def written (streamId : StreamId) (calls : List (StreamId × Bytes)) : Bytes :=
  (calls.filter fun call => call.1 = streamId).flatMap fun call => call.2

/-- Offset and payload. -/
def piece (f : Frame) : Nat × Bytes := (f.header.offset.toNat, f.payload)

/-- The Data frames sent on a stream, in order, as pieces of it. -/
def pieces (e : Endpoint P) (streamId : StreamId) : List (Nat × Bytes) :=
  ((e.emitted.map Prod.fst).filter fun f => f.header.frameType = .data ∧ f.header.streamId = streamId).map piece

/-! ### The frames of a run -/

/-- A run of calls sends the frames of each, one call after the other. -/
theorem run_writes (hP : P.Encrypts) {session : AeadSession P} (calls : List (StreamId × Bytes)) {e : Endpoint P}
    (h : Open session e) :
    (e.run (writes calls)).emitted.map Prod.fst = e.emitted.map Prod.fst ++
      calls.flatMap fun call => dataFrames call.1 e.connection.destination 0 (chunks maxPayloadSize call.2) := by
  induction calls generalizing e with
  | nil => exact (List.append_nil _).symm
  | cons call calls ih =>
    obtain ⟨e', hexec, hemitted, _, hunchanged, hopen⟩ :=
      exec_sendChunks_open hP call.1 (fun chunk hchunk => mem_chunks hchunk) h 0
    have hperform : e.perform (.sendStreamData call.1 call.2) = e' := by
      rw [perform, sendStreamData, hexec]
    show ((e.perform (.sendStreamData call.1 call.2)).run (writes calls)).emitted.map Prod.fst = _
    rw [hperform, ih hopen, hemitted, hunchanged.destination, List.flatMap_cons, List.append_assoc]

/-- As long as the offsets fit their field, they are the chunks' places in the call. -/
theorem map_piece_dataFrames (streamId : StreamId) (destination : UInt32) (i : Nat) (data : Bytes)
    (h : i * maxPayloadSize + data.length < 2 ^ 32) :
    (dataFrames streamId destination i (chunks maxPayloadSize data)).map piece =
      numbered maxPayloadSize i (chunks maxPayloadSize data) := by
  have hpos : 0 < maxPayloadSize := by decide
  induction data using chunk_induction maxPayloadSize hpos generalizing i with
  | hnil =>
    rw [chunks_nil _ hpos]
    rfl
  | hchunk data hdata ih =>
    have hoffset : (UInt32.ofNat i * UInt32.ofNat maxPayloadSize).toNat = i * maxPayloadSize := by
      rw [← UInt32.ofNat_mul, UInt32.toNat_ofNat']
      exact Nat.mod_eq_of_lt (by omega)
    rw [chunks_of_ne_nil hpos hdata, dataFrames, List.map_cons, numbered]
    congr 1
    · exact Prod.ext hoffset rfl
    · by_cases hrest : data.drop maxPayloadSize = []
      · rw [hrest, chunks_nil _ hpos]
        rfl
      · refine ih (i + 1) ?_
        have hlen := List.length_pos_iff.mpr hrest
        rw [List.length_drop] at hlen ⊢
        rw [Nat.succ_mul]
        omega

/-- The pieces a call adds to a stream. -/
theorem map_piece_filter_dataFrames (streamId : StreamId) (destination : UInt32) (call : StreamId × Bytes)
    (h : call.1 = streamId → call.2.length < 2 ^ 32) :
    ((dataFrames call.1 destination 0 (chunks maxPayloadSize call.2)).filter
        fun f => f.header.frameType = .data ∧ f.header.streamId = streamId).map piece =
      if call.1 = streamId then numbered maxPayloadSize 0 (chunks maxPayloadSize call.2) else [] := by
  by_cases hstream : call.1 = streamId
  · have hall : (dataFrames call.1 destination 0 (chunks maxPayloadSize call.2)).filter
        (fun f => f.header.frameType = .data ∧ f.header.streamId = streamId) =
          dataFrames call.1 destination 0 (chunks maxPayloadSize call.2) := by
      apply List.filter_eq_self.mpr
      intro f hf
      obtain ⟨htype, hid⟩ := mem_dataFrames hf
      exact decide_eq_true ⟨htype, hid.trans hstream⟩
    have hlen : 0 * maxPayloadSize + call.2.length < 2 ^ 32 := by
      rw [Nat.zero_mul, Nat.zero_add]
      exact h hstream
    rw [if_pos hstream, hall, map_piece_dataFrames _ _ _ _ hlen]
  · have hnone : (dataFrames call.1 destination 0 (chunks maxPayloadSize call.2)).filter
        (fun f => f.header.frameType = .data ∧ f.header.streamId = streamId) = [] := by
      apply List.filter_eq_nil_iff.mpr
      intro f hf hmatches
      exact hstream ((mem_dataFrames hf).2.symm.trans (of_decide_eq_true hmatches).2)
    rw [if_neg hstream, hnone, List.map_nil]

/-- The calls that have something to send on a stream. -/
def nonempty (streamId : StreamId) (calls : List (StreamId × Bytes)) : List (StreamId × Bytes) :=
  calls.filter fun call => call.1 = streamId ∧ call.2 ≠ []

theorem length_le_written {streamId : StreamId} {calls : List (StreamId × Bytes)} {call : StreamId × Bytes}
    (h : call ∈ calls) (hstream : call.1 = streamId) : call.2.length ≤ (written streamId calls).length := by
  have hmem : call ∈ calls.filter fun call => call.1 = streamId :=
    List.mem_filter.mpr ⟨h, decide_eq_true hstream⟩
  exact List.Sublist.length_le (List.sublist_flatten_of_mem (List.mem_map_of_mem hmem))

/-- Calls with nothing to send add nothing. -/
theorem flatMap_nonempty {β : Type} (streamId : StreamId) (calls : List (StreamId × Bytes)) (f : Bytes → List β)
    (hf : f [] = []) :
    (calls.flatMap fun call => if call.1 = streamId then f call.2 else []) =
      ((nonempty streamId calls).map fun call => call.2).flatMap f := by
  induction calls with
  | nil => rfl
  | cons call calls ih =>
    rw [List.flatMap_cons, ih, nonempty, nonempty]
    by_cases hstream : call.1 = streamId
    · by_cases hdata : call.2 = []
      · simp [hdata, hf]
      · simp [hstream, hdata]
    · simp [hstream]

theorem written_eq (streamId : StreamId) (calls : List (StreamId × Bytes)) :
    written streamId calls = ((nonempty streamId calls).map fun call => call.2).flatten := by
  induction calls with
  | nil => rfl
  | cons call calls ih =>
    by_cases hstream : call.1 = streamId
    · by_cases hdata : call.2 = []
      · simpa [written, nonempty, hstream, hdata] using ih
      · simpa [written, nonempty, hstream, hdata] using ih
    · simpa [written, nonempty, hstream] using ih

/-- The pieces of a stream, call by call. -/
theorem pieces_run_writes (hP : P.Encrypts) {session : AeadSession P} {c : Connection P} (h : Open session (start c))
    (calls : List (StreamId × Bytes)) {streamId : StreamId} (hsize : (written streamId calls).length < 2 ^ 32) :
    pieces ((start c).run (writes calls)) streamId =
      ((nonempty streamId calls).map fun call => call.2).flatMap fun data =>
        numbered maxPayloadSize 0 (chunks maxPayloadSize data) := by
  have hchunks : numbered maxPayloadSize 0 (chunks maxPayloadSize ([] : Bytes)) = [] := by
    rw [chunks_nil _ (by decide), numbered]
  rw [← flatMap_nonempty streamId calls _ hchunks, pieces, run_writes hP calls h]
  show ((calls.flatMap _).filter _).map piece = _
  rw [List.filter_flatMap, List.map_flatMap]
  apply List.flatMap_congr
  intro call hcall
  exact map_piece_filter_dataFrames streamId _ call
    fun hstream => Nat.lt_of_le_of_lt (length_le_written hcall hstream) hsize

/-! ### Tiling -/

/-- **The frames of a stream tile where one call at most had anything to send on
it**, and then, each placed at its offset, they are what was passed. -/
theorem offsets_tile_iff (hP : P.Encrypts) {c : Connection P} (hc : c.Returned)
    (hrefuses : ∀ n, c.socket.refuses n = none) (calls : List (StreamId × Bytes)) {streamId : StreamId}
    (hsize : (written streamId calls).length < 2 ^ 32) :
    (Tiles (pieces ((start c).run (writes calls)) streamId) ∧
      placeAll (pieces ((start c).run (writes calls)) streamId) = written streamId calls) ↔
    (nonempty streamId calls).length ≤ 1 := by
  obtain ⟨_, _, session, hready⟩ := hc.ready
  have hpos : 0 < maxPayloadSize := by decide
  have hpieces := pieces_run_writes hP ⟨hready.aead, hready.state, hrefuses⟩ calls hsize
  have hdata : ∀ data ∈ (nonempty streamId calls).map (fun call => call.2), data ≠ [] := by
    intro data hdata
    obtain ⟨call, hcall, rfl⟩ := List.mem_map.mp hdata
    exact (of_decide_eq_true (List.mem_filter.mp hcall).2).2
  have htiles := restarted_tiles_iff hpos hdata
  rw [← hpieces, List.length_map] at htiles
  rw [← htiles]
  refine ⟨fun h => h.1, fun h => ⟨h, ?_⟩⟩
  rw [placeAll_of_tiles h, hpieces, restarted_snd hpos, written_eq]

theorem offsets_tile_iff_sample :
    (Tiles (pieces ((start sampleClient).run (writes [(2, [7, 8]), (4, [9]), (2, [])])) 2) ∧
      placeAll (pieces ((start sampleClient).run (writes [(2, [7, 8]), (4, [9]), (2, [])])) 2) =
        written 2 [(2, [7, 8]), (4, [9]), (2, [])]) ↔
    (nonempty 2 [(2, [7, 8]), (4, [9]), (2, [])]).length ≤ 1 :=
  offsets_tile_iff (Transparent.encrypts _) honestPair_sample.returned.1 (fun _ => rfl)
    [(2, [7, 8]), (4, [9]), (2, [])] (by decide)

/-- Two calls of one octet each on one stream: the second overwrites the first. -/
theorem offsets_restart_sample :
    ∃ c : Connection Transparent.fixedMacs, c.Returned ∧ (∀ n, c.socket.refuses n = none) ∧
      ¬ (Tiles (pieces ((start c).run (writes [(2, [7]), (2, [8])])) 2) ∧
        placeAll (pieces ((start c).run (writes [(2, [7]), (2, [8])])) 2) = written 2 [(2, [7]), (2, [8])]) := by
  refine ⟨sampleClient, honestPair_sample.returned.1, fun _ => rfl, fun h => ?_⟩
  have hplaced : placeAll (pieces ((start sampleClient).run (writes [(2, [7]), (2, [8])])) 2) = [8] := by
    decide +kernel
  exact absurd (hplaced.symm.trans h.2) (by decide)

end Endpoint

end

end Aether
