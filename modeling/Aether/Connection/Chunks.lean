import Mathlib.Data.List.TakeWhile
import Aether.Connection.Offsets
import Aether.Stream.Reassembly

/-! One call of `send_stream_data` and the stream its frames are delivered to.

The frames of a call are `Consecutive`: their payloads lie one behind the other
from offset 0. A frame is then a fragment of a cut, by its number among the frames,
and a read that no limit stops takes the numbers up to the first one missing
(`takes_run`). So it returns the frames that have arrived with everything before
them, whatever the order they came in (`Consecutive.exec_read`). -/
namespace Aether
open Octets Octets.Method Connection

/-! ### A read that no limit stops -/

namespace Stream

/-- In a buffer in order and without copies, a read takes the numbers from `k` on up
to the first one missing. -/
theorem takes_run {c : Cut} {maxLen : Nat} (hmax : c.total ≤ maxLen) {ids : List Nat} (hids : ∀ i ∈ ids, i < c.count)
    (hsorted : ids.Pairwise (· < ·)) {k : Nat} (hfrom : ∀ i ∈ ids, k ≤ i) :
    ids.take (takes c maxLen ids k) = List.range' k (takes c maxLen ids k) ∧ k + takes c maxLen ids k ∉ ids := by
  induction ids generalizing k with
  | nil => exact ⟨rfl, List.not_mem_nil⟩
  | cons i ids ih =>
    obtain ⟨hfirst, hrest⟩ := List.pairwise_cons.mp hsorted
    by_cases hik : i = k
    · subst hik
      rw [takes, if_neg (not_not_intro rfl)]
      have hknown : ∀ j ∈ ids, j < c.count := fun j hj => hids j (List.mem_cons_of_mem i hj)
      by_cases hstop : c.start (i + 1) ≥ maxLen
      · -- The octets of the whole sequence are together, so `i` is the last number.
        have hlast : i + 1 = c.count := by
          have hle : i + 1 ≤ c.count := Nat.succ_le_of_lt (hids i List.mem_cons_self)
          exact (c.total_le_start_iff hle).mp (Nat.le_trans hmax hstop)
        rw [if_pos hstop]
        refine ⟨rfl, fun hmem => ?_⟩
        rcases List.mem_cons.mp hmem with heq | hmem
        · omega
        · have hlt := hknown _ hmem
          omega
      · obtain ⟨htake, hmissing⟩ := ih hknown hrest fun j hj => hfirst j hj
        rw [if_neg hstop, List.take_succ_cons, htake, List.range'_succ]
        refine ⟨rfl, fun hmem => ?_⟩
        rcases List.mem_cons.mp hmem with heq | hmem
        · omega
        · rw [Nat.add_comm _ 1, ← Nat.add_assoc] at hmem
          exact hmissing hmem
    · rw [takes, if_pos hik]
      refine ⟨rfl, fun hmem => ?_⟩
      have hk := hfrom i List.mem_cons_self
      rcases List.mem_cons.mp hmem with heq | hmem
      · omega
      · have hlt := hfirst _ hmem
        omega

/-- What it leaves are the numbers behind that one. -/
theorem drop_takes {c : Cut} {maxLen : Nat} (hmax : c.total ≤ maxLen) {ids : List Nat} (hids : ∀ i ∈ ids, i < c.count)
    (hsorted : ids.Pairwise (· < ·)) :
    ids.drop (takes c maxLen ids 0) = ids.filter (takes c maxLen ids 0 ≤ ·) := by
  obtain ⟨htake, -⟩ := takes_run hmax hids hsorted fun i _ => Nat.zero_le i
  generalize takes c maxLen ids 0 = t at htake ⊢
  have hsplit : ids = List.range' 0 t ++ ids.drop t := by
    rw [← htake, List.take_append_drop]
  have hbefore : (List.range' 0 t).filter (t ≤ ·) = [] := by
    apply List.filter_eq_nil_iff.mpr
    intro i hi hle
    have hlt := List.mem_range'_1.mp hi
    have hge : t ≤ i := of_decide_eq_true hle
    omega
  have hbehind : (ids.drop t).filter (t ≤ ·) = ids.drop t := by
    apply List.filter_eq_self.mpr
    intro i hi
    rw [hsplit] at hsorted
    have hapart := (List.pairwise_append.mp hsorted).2.2
    apply decide_eq_true
    by_contra hlt
    have hrange : i ∈ List.range' 0 t := List.mem_range'_1.mpr (by omega)
    exact absurd (hapart i hrange i hi) (Nat.lt_irrefl i)
  have hfilter : ids.filter (t ≤ ·) = (List.range' 0 t ++ ids.drop t).filter (t ≤ ·) := congrArg _ hsplit
  rw [hfilter, List.filter_append, hbefore, hbehind, List.nil_append]

/-- Where no number comes twice, the sorted buffer is strictly in order. -/
theorem sorted_pairwise_lt {ids : List Nat} (h : ids.Nodup) : (sorted ids).Pairwise (· < ·) := by
  have hnodup : (sorted ids).Nodup := (sorted_perm ids).nodup_iff.mpr h
  exact (sorted_pairwise ids).imp₂ (fun _ _ hle hne => Nat.lt_of_le_of_ne hle hne) hnodup

end Stream

/-! ### Frames one behind the other -/

open Aether.Stream

/-- The data of a frame, delivered to its stream. -/
def Stream.deliver (s : Stream) (f : Frame) : Stream := s.receiveData f.header.offset f.payload

theorem Stream.receiveBuffer_deliver (arrived : List Frame) (s : Stream) :
    (arrived.foldl Stream.deliver s).receiveBuffer =
      s.receiveBuffer ++ arrived.map fun f => (f.header.offset, f.payload) := by
  induction arrived generalizing s with
  | nil => exact (List.append_nil _).symm
  | cons f arrived ih =>
    rw [List.foldl_cons, ih, List.map_cons]
    exact (List.append_cons _ _ _).symm

/-- Of what was delivered to a fresh stream, the frame at offset 0 is the beginning. -/
theorem Stream.atStart_deliver {arrived : List Frame} {s : Stream} (hempty : s.receiveBuffer = []) :
    (arrived.foldl Stream.deliver s).AtStart ↔ ∃ f ∈ arrived, f.header.offset = 0 := by
  rw [AtStart, receiveBuffer_deliver, hempty, List.nil_append]
  simp

/-- Frames whose payloads, none of them empty, lie one behind the other from offset
0, all of them within the 32 bits of an offset. -/
structure Consecutive (frames : List Frame) : Prop where
  tiles : Tiles (frames.map Endpoint.piece)
  payload_ne_nil : ∀ f ∈ frames, f.payload ≠ []
  size : (frames.flatMap Frame.payload).length < 2 ^ 32

namespace Consecutive
variable {frames : List Frame}

/-- The frames as the pieces of what they carry. -/
def cut (h : Consecutive frames) : Cut := Cut.ofPieces (frames.map Frame.payload) (by
  intro payload hpayload
  obtain ⟨f, hf, rfl⟩ := List.mem_map.mp hpayload
  exact h.payload_ne_nil f hf)

@[simp] theorem count_cut (h : Consecutive frames) : h.cut.count = frames.length := by
  rw [cut, Cut.count_ofPieces, List.length_map]

theorem total_cut (h : Consecutive frames) : h.cut.total = (frames.flatMap Frame.payload).length := Cut.total_ofPieces

theorem take_start_cut (h : Consecutive frames) (i : Nat) :
    (frames.flatMap Frame.payload).take (h.cut.start i) = (frames.take i).flatMap Frame.payload := by
  rw [List.flatMap_def, List.flatMap_def, cut, Cut.take_start_ofPieces, List.map_take]

theorem onWire (h : Consecutive frames) : OnWire h.cut := by
  have hsize := h.size
  rw [← h.total_cut] at hsize
  refine ⟨fun i hi => ?_, fun i hi => ?_⟩
  · exact Nat.lt_of_le_of_lt (h.cut.start_le_total (Nat.le_of_lt hi)) hsize
  · exact Nat.lt_of_le_of_lt (Nat.le_trans (Nat.sub_le _ _) (h.cut.start_le_total (Nat.succ_le_of_lt hi))) hsize

theorem offset_toNat (h : Consecutive frames) {i : Nat} (hi : i < frames.length) :
    frames[i].header.offset.toNat = h.cut.start i := by
  have hsplit : frames = frames.take i ++ frames[i] :: frames.drop (i + 1) := by
    rw [← List.drop_eq_getElem_cons hi, List.take_append_drop]
  have hpieces : frames.map Endpoint.piece = (frames.take i).map Endpoint.piece ++
      (frames[i].header.offset.toNat, frames[i].payload) :: (frames.drop (i + 1)).map Endpoint.piece := by
    conv_lhs => rw [hsplit, List.map_append, List.map_cons]
    rfl
  rw [h.tiles _ _ _ _ hpieces, Nat.zero_add, extent_eq_length, List.map_map, cut, Cut.start_ofPieces, List.map_take]
  rfl

/-- Frame `i` carries fragment `i`. -/
theorem fragment_eq (h : Consecutive frames) {i : Nat} (hi : i < frames.length) :
    fragment h.cut (frames.flatMap Frame.payload) i = (frames[i].header.offset, frames[i].payload) := by
  have hlen : i < (frames.map Frame.payload).length := by
    rw [List.length_map]
    exact hi
  have hpayload : h.cut.piece (frames.flatMap Frame.payload) i = frames[i].payload := by
    rw [List.flatMap_def, cut, Cut.piece_ofPieces hlen, List.getElem_map]
  rw [fragment, hpayload, ← h.offset_toNat hi, UInt32.ofNat_toNat]

/-- Their offsets tell the frames apart. -/
theorem nodup (h : Consecutive frames) : frames.Nodup := by
  apply List.nodup_iff_injective_getElem.mpr
  intro i j hij
  have hframes : frames[i.val] = frames[j.val] := hij
  have hstart : h.cut.start i = h.cut.start j := by
    rw [← h.offset_toNat i.isLt, ← h.offset_toNat j.isLt, hframes]
  have hi : i.val ≤ h.cut.count := Nat.le_of_lt (by rw [count_cut]; exact i.isLt)
  have hj : j.val ≤ h.cut.count := Nat.le_of_lt (by rw [count_cut]; exact j.isLt)
  exact Fin.ext (h.cut.start_inj hi hj hstart)

/-! ### Some of the frames, in any order -/

/-- A stream buffers what it was delivered, by number. -/
theorem holds (h : Consecutive frames) {arrived : List Frame} (harrived : arrived ⊆ frames) {ids : List Nat} {s : Stream}
    (hs : Holds h.cut (frames.flatMap Frame.payload) ids s) :
    Holds h.cut (frames.flatMap Frame.payload) (ids ++ arrived.map frames.idxOf) (arrived.foldl Stream.deliver s) := by
  induction arrived generalizing ids s with
  | nil => rwa [List.map_nil, List.append_nil]
  | cons f arrived ih =>
    have hlt : frames.idxOf f < frames.length := List.idxOf_lt_length_of_mem (harrived List.mem_cons_self)
    have hcount : frames.idxOf f < h.cut.count := by
      rw [count_cut]
      exact hlt
    have hdeliver := exec_receiveData hs ⟨frames.idxOf f, hcount⟩
    rw [h.fragment_eq hlt, List.getElem_idxOf] at hdeliver
    rw [List.map_cons, List.foldl_cons, ← List.singleton_append, ← List.append_assoc]
    exact ih (fun g hg => harrived (List.mem_cons_of_mem f hg)) hdeliver

/-- A frame has arrived where its number has. -/
theorem mem_map_idxOf (h : Consecutive frames) {arrived : List Frame} {i : Nat} (hi : i < frames.length) :
    i ∈ arrived.map frames.idxOf ↔ frames[i] ∈ arrived := by
  rw [List.mem_map]
  constructor
  · intro hmem
    obtain ⟨f, hf, rfl⟩ := hmem
    rwa [List.getElem_idxOf]
  · intro hmem
    exact ⟨frames[i], hmem, h.nodup.idxOf_getElem i hi⟩

/-- Where the numbers that have arrived begin with those below `t`, and `t` is
missing, the first `t` frames are the longest run that has arrived. -/
theorem takeWhile_arrived (h : Consecutive frames) {arrived : List Frame} {t : Nat}
    (hrun : ∀ i < t, i ∈ arrived.map frames.idxOf) (hmissing : t ∉ arrived.map frames.idxOf) :
    frames.takeWhile (· ∈ arrived) = frames.take t := by
  have hbefore : ∀ f ∈ frames.take t, decide (f ∈ arrived) = true := by
    intro f hf
    have hmem : f ∈ frames := List.mem_of_mem_take hf
    have hlt : frames.idxOf f < frames.length := List.idxOf_lt_length_of_mem hmem
    have harrived := (h.mem_map_idxOf hlt).mp (hrun _ ((List.mem_take_iff_idxOf_lt hmem).mp hf))
    rw [List.getElem_idxOf] at harrived
    exact decide_eq_true harrived
  have hrest : (frames.drop t).takeWhile (· ∈ arrived) = [] := by
    rcases Nat.lt_or_ge t frames.length with hlt | hge
    · have hnot : ¬ decide (frames[t] ∈ arrived) = true :=
        fun hmem => hmissing ((h.mem_map_idxOf hlt).mpr (of_decide_eq_true hmem))
      rw [List.drop_eq_getElem_cons hlt, List.takeWhile_cons, if_neg hnot]
    · rw [List.drop_eq_nil_of_le hge, List.takeWhile_nil]
  have hsplit : frames.takeWhile (· ∈ arrived) = (frames.take t ++ frames.drop t).takeWhile (· ∈ arrived) := by
    rw [List.take_append_drop]
  rw [hsplit, List.takeWhile_append_of_pos hbefore, hrest, List.append_nil]

/-- The numbers from `t` on are those of the frames behind the first `t`. -/
theorem map_fragment_filter (h : Consecutive frames) {arrived : List Frame} (harrived : arrived ⊆ frames) (t : Nat) :
    ((arrived.map frames.idxOf).filter (t ≤ ·)).map (fragment h.cut (frames.flatMap Frame.payload)) =
      (arrived.filter (· ∉ frames.take t)).map fun f => (f.header.offset, f.payload) := by
  rw [List.filter_map, List.map_map]
  have hfilter : arrived.filter ((fun i => decide (t ≤ i)) ∘ frames.idxOf) = arrived.filter (· ∉ frames.take t) := by
    apply List.filter_congr
    intro f hf
    show decide (t ≤ frames.idxOf f) = decide (f ∉ frames.take t)
    rw [decide_eq_decide, List.mem_take_iff_idxOf_lt (harrived hf), Nat.not_lt]
  rw [hfilter]
  apply List.map_congr_left
  intro f hf
  have hlt : frames.idxOf f < frames.length := List.idxOf_lt_length_of_mem (harrived (List.mem_filter.mp hf).1)
  rw [Function.comp_apply, h.fragment_eq hlt, List.getElem_idxOf]

/-- **A read returns the frames that have arrived with everything before them**, and
leaves the other ones in the buffer. -/
theorem exec_read (h : Consecutive frames) {arrived : List Frame} (harrived : arrived.Subperm frames) {s : Stream}
    (hopen : s.state = .open) (hempty : s.receiveBuffer = []) {maxLen : Nat}
    (hmax : (frames.flatMap Frame.payload).length ≤ maxLen)
    (hroom : (∃ f ∈ arrived, f.header.offset = 0) → maxLen ≤ isizeMax) :
    ∃ s', (Stream.read maxLen).exec (arrived.foldl Stream.deliver s) =
        (.ok ((frames.takeWhile (· ∈ arrived)).flatMap Frame.payload), s') ∧
      s'.receiveBuffer.Perm ((arrived.filter (· ∉ frames.takeWhile (· ∈ arrived))).map
        fun f => (f.header.offset, f.payload)) := by
  have hsubset : arrived ⊆ frames := harrived.subset
  have hnodup : (arrived.map frames.idxOf).Nodup := by
    obtain ⟨arrived', hperm, hsublist⟩ := harrived
    have hdistinct : arrived.Nodup := hperm.nodup_iff.mp (h.nodup.sublist hsublist)
    exact hdistinct.map_on fun f hf g hg hfg => (List.idxOf_inj (hsubset hf)).mp hfg
  have hfresh : Holds h.cut (frames.flatMap Frame.payload) [] s :=
    ⟨hopen, hempty, fun _ hi => absurd hi List.not_mem_nil⟩
  have hdelivered := h.holds hsubset hfresh
  rw [List.nil_append] at hdelivered
  have hfits : ¬ Overflows (arrived.map frames.idxOf) maxLen := by
    intro hoverflow
    have hstart := (hdelivered.atStart_iff h.onWire).mpr hoverflow.1
    exact Nat.not_lt_of_le (hroom ((Stream.atStart_deliver hempty).mp hstart)) hoverflow.2
  obtain ⟨s', hread, hs'⟩ := Stream.exec_read h.onWire h.total_cut.symm hdelivered hfits
  have hknown : ∀ i ∈ sorted (arrived.map frames.idxOf), i < h.cut.count :=
    fun i hi => hdelivered.known i (mem_sorted.mp hi)
  rw [← h.total_cut] at hmax
  have hlt := sorted_pairwise_lt hnodup
  obtain ⟨hrange, hmissing⟩ := takes_run hmax hknown hlt fun i _ => Nat.zero_le i
  rw [drop_takes hmax hknown hlt] at hs'
  generalize takes h.cut maxLen (sorted (arrived.map frames.idxOf)) 0 = t at hread hs' hrange hmissing
  have hrun : frames.takeWhile (· ∈ arrived) = frames.take t := by
    refine h.takeWhile_arrived (fun i hi => ?_) (fun hmem => hmissing ?_)
    · have hmem : i ∈ List.range' 0 t := List.mem_range'_1.mpr (by omega)
      rw [← hrange] at hmem
      exact mem_sorted.mp (List.mem_of_mem_take hmem)
    · rw [Nat.zero_add]
      exact mem_sorted.mpr hmem
  refine ⟨s', ?_, ?_⟩
  · rw [hread, h.take_start_cut, hrun]
  · rw [hs'.buffer, hrun, ← h.map_fragment_filter hsubset]
    exact ((sorted_perm _).filter _).map _

end Consecutive

namespace Endpoint

section
variable {P : Primitives}

/-! ### The frames of a call -/

/-- The frames a call of `send_stream_data` sends. -/
def frames (e : Endpoint P) (streamId : StreamId) (data : Bytes) : List Frame :=
  (((sendStreamData streamId data).exec e).2.emitted.drop e.emitted.length).map Prod.fst

/-- A call that succeeds has sent all its frames. -/
theorem emitted_of_ok {session : AeadSession P} (streamId : StreamId) (chunks : List Bytes) {e : Endpoint P}
    (h : e.connection.aead = some session) (i : Nat) (hok : ((sendChunks streamId i chunks).exec e).1 = .ok ()) :
    ((sendChunks streamId i chunks).exec e).2.emitted.map Prod.fst =
      e.emitted.map Prod.fst ++ dataFrames streamId e.connection.destination i chunks := by
  induction chunks generalizing e i with
  | nil => exact (List.append_nil _).symm
  | cons chunk chunks ih =>
    have hsending := exec_sendFrame h (Frame.data streamId e.connection.destination
      (UInt32.ofNat i * UInt32.ofNat maxPayloadSize) chunk)
    rcases hexec : (sendFrame (Frame.data streamId e.connection.destination
      (UInt32.ofNat i * UInt32.ofNat maxPayloadSize) chunk)).exec e with ⟨r, e'⟩
    rw [hexec] at hsending
    rw [sendChunks, exec_get_bind] at hok ⊢
    rcases hsending.emitted with ⟨error, hr, -⟩ | ⟨datagram, hr, hemitted⟩
    · cases hr
      rw [exec_bind_error hexec] at hok
      cases hok
    · cases hr
      rw [exec_bind_ok hexec] at hok ⊢
      rw [ih (hsending.unchanged.aead.trans h) (i + 1) hok, hemitted, hsending.unchanged.destination, dataFrames]
      simp

theorem frames_prefix {e : Endpoint P} {session : AeadSession P} (h : e.connection.aead = some session)
    (streamId : StreamId) (data : Bytes) :
    e.frames streamId data <+: dataFrames streamId e.connection.destination 0 (chunks maxPayloadSize data) := by
  obtain ⟨sent, hemitted, hbegins⟩ := (sent_sendChunks streamId (chunks maxPayloadSize data) h 0).emitted
  rw [frames, sendStreamData, hemitted, List.drop_left]
  exact hbegins

theorem frames_of_ok {e : Endpoint P} {session : AeadSession P} (h : e.connection.aead = some session)
    {streamId : StreamId} {data : Bytes} (hok : ((sendStreamData streamId data).exec e).1 = .ok ()) :
    e.frames streamId data = dataFrames streamId e.connection.destination 0 (chunks maxPayloadSize data) := by
  have hemitted := emitted_of_ok streamId (chunks maxPayloadSize data) h 0 hok
  rw [frames, sendStreamData, List.map_drop, hemitted, ← List.length_map Prod.fst, List.drop_left]

/-- The payloads of the frames of a call, put together. -/
theorem flatMap_dataFrames (streamId : StreamId) (destination : UInt32) (data : Bytes) :
    (dataFrames streamId destination 0 (chunks maxPayloadSize data)).flatMap Frame.payload = data := by
  rw [List.flatMap_def, dataFrames_payload, flatten_chunks (by decide)]

theorem consecutive_frames {e : Endpoint P} {session : AeadSession P} (h : e.connection.aead = some session)
    (streamId : StreamId) {data : Bytes} (hsize : data.length < 2 ^ 32) :
    Consecutive (e.frames streamId data) ∧ ((e.frames streamId data).flatMap Frame.payload).length ≤ data.length := by
  obtain ⟨rest, hrest⟩ := frames_prefix h streamId data
  have hpos : 0 < maxPayloadSize := by decide
  have hle : ((e.frames streamId data).flatMap Frame.payload).length ≤ data.length := by
    have hdata := congrArg List.length (flatMap_dataFrames streamId e.connection.destination data)
    rw [← hrest, List.flatMap_append, List.length_append] at hdata
    omega
  refine ⟨⟨?_, fun f hf => ?_, Nat.lt_of_le_of_lt hle hsize⟩, hle⟩
  · have htiles : TilesFrom 0 ((dataFrames streamId e.connection.destination 0 (chunks maxPayloadSize data)).map piece) := by
      rw [map_piece_dataFrames _ _ _ _ (by omega)]
      have hnumbered := numbered_tiles hpos 0 data
      rwa [Nat.zero_mul] at hnumbered
    rw [← hrest, List.map_append, tilesFrom_append] at htiles
    exact htiles.1
  · have hmem : f ∈ dataFrames streamId e.connection.destination 0 (chunks maxPayloadSize data) := by
      rw [← hrest]
      exact List.mem_append_left _ hf
    apply ne_nil_of_mem_chunks hpos
    rw [← dataFrames_payload streamId e.connection.destination 0 (chunks maxPayloadSize data)]
    exact List.mem_map_of_mem hmem

/-! ### From one end to the other -/

/-- **Some frames of a call, delivered to a fresh stream in any order.** One read
returns the longest run of them that has arrived, which is everything where all of
them have, and keeps the others, exactly if the first of them has not come or a vector
can hold what is asked for. -/
theorem read_frames_iff {c : Connection P} (hc : c.Returned) (ops : List Operation) (streamId : StreamId) {data : Bytes}
    (hsize : data.length < 2 ^ 32) {arrived : List Frame}
    (harrived : arrived.Subperm (((start c).run ops).frames streamId data)) (id : StreamId) (isClient : Bool)
    (window : UInt64) {maxLen : Nat} (hmax : data.length ≤ maxLen) :
    let frames := ((start c).run ops).frames streamId data
    let run := frames.takeWhile (· ∈ arrived)
    (∃ s, (Stream.read maxLen).exec (arrived.foldl Stream.deliver (Stream.init id isClient window)) =
        (.ok (run.flatMap Frame.payload), s) ∧
      s.receiveBuffer.Perm ((arrived.filter (· ∉ run)).map fun f => (f.header.offset, f.payload)) ∧
      (((sendStreamData streamId data).exec ((start c).run ops)).1 = .ok () → frames ⊆ arrived →
        run.flatMap Frame.payload = data)) ↔
      ((∃ f ∈ arrived, f.header.offset = 0) → maxLen ≤ isizeMax) := by
  intro frames run
  constructor
  · intro h hfirst
    obtain ⟨s, hread, _⟩ := h
    exact Stream.room_of_read (congrArg Prod.fst hread) ((Stream.atStart_deliver rfl).mpr hfirst)
  · intro hroom
    obtain ⟨_, _, session, hready⟩ := hc.ready
    have haead := (sound_run hready.aead ops).unchanged.aead.trans hready.aead
    obtain ⟨hconsecutive, hle⟩ := consecutive_frames haead streamId hsize
    obtain ⟨s, hread, hbuffer⟩ := hconsecutive.exec_read harrived (s := Stream.init id isClient window) rfl rfl
      (Nat.le_trans hle hmax) hroom
    refine ⟨s, hread, hbuffer, fun hok hall => ?_⟩
    have hrun : run = frames := List.takeWhile_eq_self_iff.mpr fun f hf => decide_eq_true (hall hf)
    rw [hrun]
    exact (congrArg _ (frames_of_ok haead hok)).trans (flatMap_dataFrames streamId _ data)

/-- Three chunks, the last one short, in reverse order. -/
theorem read_frames_iff_reversed :
    let frames := ((start sampleClient).run []).frames 2 (List.replicate 3000 7)
    let run := frames.takeWhile (· ∈ frames.reverse)
    (∃ s, (Stream.read 4096).exec (frames.reverse.foldl Stream.deliver (Stream.init 2 false 10)) =
        (.ok (run.flatMap Frame.payload), s) ∧
      s.receiveBuffer.Perm ((frames.reverse.filter (· ∉ run)).map fun f => (f.header.offset, f.payload)) ∧
      (((sendStreamData 2 (List.replicate 3000 7)).exec ((start sampleClient).run [])).1 = .ok () →
        frames ⊆ frames.reverse → run.flatMap Frame.payload = List.replicate 3000 7)) ↔
      ((∃ f ∈ frames.reverse, f.header.offset = 0) → 4096 ≤ isizeMax) :=
  read_frames_iff honestPair_sample.returned.1 [] 2 (by rw [List.length_replicate]; decide)
    (List.reverse_perm _).subperm 2 false 10 (by rw [List.length_replicate]; decide)

/-- The only chunk of one octet has come, and the reader says that it takes any number of them. -/
theorem read_frames_panics :
    ∃ f, ((start sampleClient).run []).frames 2 [7] = [f] ∧ f.payload = [7] ∧
      ((Stream.read (2 ^ 64 - 1)).exec ([f].foldl Stream.deliver (Stream.init 2 false 10))).1 = .error .panic := by
  have hframes : (((start sampleClient).run []).frames 2 [7]).map (fun f => (f.header.offset, f.payload)) =
      [(0, [7])] := by decide +kernel
  obtain ⟨f, hf, hpiece⟩ := List.map_eq_singleton_iff.mp hframes
  obtain ⟨hoffset, hpayload⟩ := Prod.mk.inj hpiece
  refine ⟨f, hf, hpayload, ?_⟩
  have hstart := (Stream.atStart_deliver (s := Stream.init 2 false 10) rfl).mpr ⟨f, List.mem_singleton_self f, hoffset⟩
  exact congrArg Prod.fst (Stream.exec_read_panic hstart (by decide))

end

end Endpoint

end Aether
