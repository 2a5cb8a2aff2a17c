import Aether.Framing.RoundTrip
import Aether.Framing.Totality

/-! What the constructors build and `add_extension` extends.

`add_extension` sets the E flag of `header`. The octets of a frame with a long
header are those of `long_header`, whose own copy of the flag stays as `new_long`
left it, while the chain is written for the flag in `header`: the reader is told
that there is no chain and takes its first octets for the payload
(`read_back_long`). A frame is read back as it was built exactly where this does
not arise (`read_back_iff`). -/
namespace Aether
open Octets

namespace Frame

/-- A frame that one of the constructors has made. -/
inductive Built : Frame → Prop where
  | newShort {frameType : FrameType} (type : frameType.requiresLongHeader = false) {streamId : UInt32}
      (range : streamId ≤ maxStreamId) (connectionId offset : UInt32) (payload : Bytes) :
      Built (newShort frameType streamId connectionId offset payload)
  | newLong {frameType : FrameType} (type : frameType.requiresLongHeader = true) {streamId : UInt32}
      (range : streamId ≤ maxStreamId) (dest : UInt32) (source : UInt64) (payload : Bytes) :
      Built (newLong frameType streamId dest source payload)
  | data {streamId : UInt32} (range : streamId ≤ maxStreamId) (connectionId offset : UInt32) (octets : Bytes) :
      Built (data streamId connectionId offset octets)
  | ack {streamId : UInt32} (range : streamId ≤ maxStreamId) (connectionId ackedOffset : UInt32) :
      Built (ack streamId connectionId ackedOffset)
  | ping (connectionId : UInt32) (nonce : UInt64) : Built (ping connectionId nonce)
  | close (connectionId : UInt32) (code : CloseCode) (reason : Bytes) : Built (close connectionId code reason)
  | pathChallenge (connectionId : UInt32) (pathId : UInt8) (nonce : UInt64) :
      Built (pathChallenge connectionId pathId nonce)
  | pathResponse (connectionId : UInt32) (pathId : UInt8) (nonce : UInt64) :
      Built (pathResponse connectionId pathId nonce)
  | streamOpen (connectionId : UInt32) {streamId : UInt32} (range : streamId ≤ maxStreamId) :
      Built (streamOpen connectionId streamId)
  | streamClose (connectionId : UInt32) {streamId : UInt32} (range : streamId ≤ maxStreamId) :
      Built (streamClose connectionId streamId)

/-- Calls of `add_extension` in turn. -/
def addExtensions (f : Frame) (exts : List Extension) : Frame := exts.foldl addExtension f

/-! ### What the calls leave -/

theorem addExtensions_append (f : Frame) (exts exts' : List Extension) :
    (f.addExtensions exts).addExtensions exts' = f.addExtensions (exts ++ exts') :=
  (List.foldl_append ..).symm

theorem addExtensions_eq (f : Frame) (exts : List Extension) :
    f.addExtensions exts = { f with
      header := { f.header with hasExtensions := f.header.hasExtensions || !exts.isEmpty }
      extensions := f.extensions ++ exts } := by
  induction exts generalizing f with
  | nil => simp [addExtensions]
  | cons e exts ih =>
    show (f.addExtension e).addExtensions exts = _
    rw [ih]
    simp [addExtension]

/-- Every constructor is one of the two general ones, and adds extensions to a short frame alone. -/
theorem Built.base {f : Frame} (h : Built f) :
    (∃ frameType streamId connectionId offset payload exts, streamId ≤ maxStreamId ∧
      (∀ e ∈ exts, e.WellFormed) ∧ f = (Frame.newShort frameType streamId connectionId offset payload).addExtensions exts) ∨
    ∃ frameType streamId dest source payload, frameType.requiresLongHeader = true ∧ streamId ≤ maxStreamId ∧
      f = Frame.newLong frameType streamId dest source payload := by
  have hnone : ∀ e ∈ ([] : List Extension), e.WellFormed := fun _ he => absurd he List.not_mem_nil
  have hpath : ∀ pathId : UInt8, ∀ e ∈ [(⟨.pathId, [pathId]⟩ : Extension)], e.WellFormed := by
    intro pathId e he
    cases List.mem_singleton.mp he
    exact ⟨nofun, (by decide : 1 < 2 ^ 24)⟩
  have hcontrol : controlStreamId ≤ maxStreamId := by decide
  cases h with
  | newShort type range connectionId offset payload => exact .inl ⟨_, _, _, _, _, [], range, hnone, rfl⟩
  | newLong type range dest source payload => exact .inr ⟨_, _, _, _, _, type, range, rfl⟩
  | data range connectionId offset octets => exact .inl ⟨_, _, _, _, _, [], range, hnone, rfl⟩
  | ack range connectionId ackedOffset => exact .inl ⟨_, _, _, _, _, [], range, hnone, rfl⟩
  | ping connectionId nonce => exact .inl ⟨_, _, _, _, _, [], hcontrol, hnone, rfl⟩
  | close connectionId code reason => exact .inl ⟨_, _, _, _, _, [], hcontrol, hnone, rfl⟩
  | pathChallenge connectionId pathId nonce => exact .inl ⟨_, _, _, _, _, [_], hcontrol, hpath pathId, rfl⟩
  | pathResponse connectionId pathId nonce => exact .inl ⟨_, _, _, _, _, [_], hcontrol, hpath pathId, rfl⟩
  | streamOpen connectionId range => exact .inl ⟨_, _, _, _, _, [], range, hnone, rfl⟩
  | streamClose connectionId range => exact .inl ⟨_, _, _, _, _, [], range, hnone, rfl⟩

/-! ### What is read back -/

theorem readPayload_length {octets : Bytes} {offset n : Nat} {payload : Bytes}
    (h : readPayload octets offset n = .ok payload) : payload.length = n := by
  unfold readPayload at h
  split at h
  · rename_i hfits
    rw [slice, if_pos ⟨Nat.le_add_right _ _, hfits⟩] at h
    cases h
    rw [List.length_take, List.length_drop]
    omega
  · cases h

theorem decodeRest_eq_ok {long : Option LongHeader} {header : ShortHeader} {octets : Bytes} {headerSize : Nat} {f : Frame} :
    decodeRest long header octets headerSize = .ok f ↔ ∃ extensions offset payload,
      (if header.hasExtensions then readExtensions octets headerSize [] else pure ([], headerSize)) =
        .ok (extensions, offset) ∧
      readPayload octets offset header.length.toNat = .ok payload ∧ f = ⟨long, header, extensions, payload⟩ := by
  rw [decodeRest_eq, bind_eq_ok]
  constructor
  · intro h
    obtain ⟨⟨extensions, offset⟩, hchain, h⟩ := h
    obtain ⟨payload, hpayload, h⟩ := bind_eq_ok.mp h
    cases h
    exact ⟨extensions, offset, payload, hchain, hpayload, rfl⟩
  · intro h
    obtain ⟨extensions, offset, payload, hchain, hpayload, rfl⟩ := h
    exact ⟨_, hchain, bind_eq_ok.mpr ⟨payload, hpayload, rfl⟩⟩

/-- A frame that is read has the payload its 32-bit length field asks for. -/
theorem decode_payload_length {octets : Bytes} {f : Frame} (h : decode octets = .ok f) :
    f.payload.length = f.header.length.toNat := by
  have hrest : ∀ {long header size}, decodeRest long header octets size = .ok f →
      f.payload.length = f.header.length.toNat := by
    intro long header size hdecode
    obtain ⟨_, _, _, _, hpayload, rfl⟩ := decodeRest_eq_ok.mp hdecode
    exact readPayload_length hpayload
  rw [decode_eq] at h
  split at h
  · cases h
  · obtain ⟨byte1, _, h⟩ := bind_eq_ok.mp h
    split at h
    · obtain ⟨long, _, h⟩ := bind_eq_ok.mp h
      split at h
      · cases h
      · exact hrest h
    · obtain ⟨header, _, h⟩ := bind_eq_ok.mp h
      exact hrest h

/-- What a frame built with `new_long` says of itself on the wire: that it has no chain. -/
theorem decode_newLong_header {frameType : FrameType} (htype : frameType.requiresLongHeader = true) {streamId : UInt32}
    (hstream : streamId ≤ maxStreamId) (dest : UInt32) (source : UInt64) (payload body : Bytes) {f : Frame}
    (h : decode ((newLong frameType streamId dest source payload).headerOctets ++ body) = .ok f) : f.extensions = [] := by
  -- The header of a frame is in range whatever its payload is, so that a payload of the length it says may stand in.
  let stub : Frame := { newLong frameType streamId dest source payload with
    payload := payload.take (payload.length % 2 ^ 32) }
  have hstub : stub.WellFormed :=
    { version := by show (0 : UInt8) < 16; decide
      streamId := hstream
      length := by
        show (UInt32.ofNat payload.length).toNat = (payload.take (payload.length % 2 ^ 32)).length
        rw [UInt32.toNat_ofNat', List.length_take, Nat.min_eq_left (Nat.mod_le _ _)]
      extensions := fun _ he => absurd he List.not_mem_nil
      noExtensions := fun _ => rfl
      long := by
        intro l hl
        cases hl
        exact ⟨rfl, htype⟩ }
  have hread : decodeRest stub.longHeader stub.header (stub.headerOctets ++ body) stub.headerOctets.length = .ok f :=
    (decode_headerOctets stub hstub body).symm.trans h
  obtain ⟨extensions, _, _, hchain, _, rfl⟩ := decodeRest_eq_ok.mp hread
  cases hchain
  rfl

/-- With a short header everything is read back, if the length field can say how much. -/
theorem read_back_short (frameType : FrameType) {streamId : UInt32} (hstream : streamId ≤ maxStreamId)
    (connectionId offset : UInt32) {payload : Bytes} (hpayload : payload.length < 2 ^ 32) {exts : List Extension}
    (hexts : ∀ e ∈ exts, e.WellFormed) :
    decode ((newShort frameType streamId connectionId offset payload).addExtensions exts).encode =
      .ok ((newShort frameType streamId connectionId offset payload).addExtensions exts) := by
  refine decode_encode_self _ ?_
  have hbase := newShort_wellFormed frameType hstream connectionId offset hpayload
  rw [addExtensions_eq]
  refine ⟨hbase.version, hbase.streamId, hbase.length, hexts, fun hnone => ?_, nofun⟩
  cases exts with
  | nil => rfl
  | cons e exts => cases hnone

/-- With a long header what was added is not read back. -/
theorem read_back_long {frameType : FrameType} (htype : frameType.requiresLongHeader = true) {streamId : UInt32}
    (hstream : streamId ≤ maxStreamId) (dest : UInt32) (source : UInt64) (payload : Bytes) (exts : List Extension)
    {f : Frame} (h : decode ((newLong frameType streamId dest source payload).addExtensions exts).encode = .ok f) :
    f.extensions = [] := by
  rw [addExtensions_eq] at h
  exact decode_newLong_header htype hstream dest source payload _ h

/-- **A frame is read back as it was built exactly where nothing was added to a long
header** and the payload's length fits its field. -/
theorem read_back_iff {f : Frame} (hf : Built f) {exts : List Extension}
    (hexts : ∀ e ∈ exts, e.extType ≠ .terminator ∧ e.value.length < 2 ^ 24) :
    (∃ g, decode (f.addExtensions exts).encode = .ok g ∧ g.extensions = f.extensions ++ exts ∧ g.payload = f.payload) ↔
      f.payload.length < 2 ^ 32 ∧ (f.longHeader.isSome = true → exts = []) := by
  have hadded : ∀ e ∈ exts, e.WellFormed := fun e he => ⟨(hexts e he).1, (hexts e he).2⟩
  have hshorter : ∀ {g : Frame}, decode (f.addExtensions exts).encode = .ok g → g.payload = f.payload →
      f.payload.length < 2 ^ 32 := by
    intro g hg hpayload
    rw [← hpayload, decode_payload_length hg]
    exact g.header.length.toNat_lt
  constructor
  · intro h
    obtain ⟨g, hg, hextensions, hpayload⟩ := h
    refine ⟨hshorter hg hpayload, fun hlong => ?_⟩
    rcases hf.base with ⟨frameType, streamId, connectionId, offset, payload, own, _, _, rfl⟩ |
      ⟨frameType, streamId, dest, source, payload, htype, hstream, rfl⟩
    · rw [addExtensions_eq] at hlong
      cases hlong
    · have hnone := read_back_long htype hstream dest source payload exts hg
      exact (List.append_eq_nil_iff.mp (hextensions.symm.trans hnone)).2
  · intro h
    obtain ⟨hlength, hlong⟩ := h
    rcases hf.base with ⟨frameType, streamId, connectionId, offset, payload, own, hstream, hown, rfl⟩ |
      ⟨frameType, streamId, dest, source, payload, htype, hstream, rfl⟩
    · have hall : ∀ e ∈ own ++ exts, e.WellFormed := by
        intro e he
        rcases List.mem_append.mp he with he | he
        · exact hown e he
        · exact hadded e he
      have hsize : payload.length < 2 ^ 32 := by
        rw [addExtensions_eq] at hlength
        exact hlength
      have hread := read_back_short frameType hstream connectionId offset hsize hall
      rw [addExtensions_append]
      refine ⟨_, hread, ?_, ?_⟩
      · simp [addExtensions_eq]
      · simp [addExtensions_eq]
    · cases hlong rfl
      exact ⟨_, decode_encode_self _ (newLong_wellFormed htype hstream dest source hlength), rfl, rfl⟩

/-- A prioritized Data frame. -/
theorem read_back_iff_prioritized :
    (∃ g, decode ((data 3 7 0 [1, 2]).addExtensions [⟨.priority, [5]⟩]).encode = .ok g ∧
      g.extensions = [⟨.priority, [5]⟩] ∧ g.payload = [1, 2]) ↔
      ([1, 2] : Bytes).length < 2 ^ 32 ∧ ((data 3 7 0 [1, 2]).longHeader.isSome = true →
        ([⟨.priority, [5]⟩] : List Extension) = []) :=
  read_back_iff (.data (by decide) 7 0 [1, 2]) (by decide)

/-- A prioritized Initial frame: the priority is lost and the payload begins with its type octet. -/
theorem read_back_initial_lost :
    Built (newLong .initial 0 7 9 [1, 2]) ∧
      (∃ g, decode ((newLong .initial 0 7 9 [1, 2]).addExtensions [⟨.priority, [5]⟩]).encode = .ok g ∧
        g.extensions = [] ∧ g.payload = [2, 0]) ∧
      ¬ ∃ g, decode ((newLong .initial 0 7 9 [1, 2]).addExtensions [⟨.priority, [5]⟩]).encode = .ok g ∧
        g.extensions = [⟨.priority, [5]⟩] ∧ g.payload = [1, 2] := by
  have hread : decode ((newLong .initial 0 7 9 [1, 2]).addExtensions [⟨.priority, [5]⟩]).encode =
      .ok { newLong .initial 0 7 9 [1, 2] with payload := [2, 0] } := by decide +kernel
  refine ⟨.newLong rfl (by decide) 7 9 [1, 2], ⟨_, hread, rfl, rfl⟩, ?_⟩
  intro h
  obtain ⟨g, hg, hextensions, _⟩ := h
  cases hread.symm.trans hg
  cases hextensions

end Frame

end Aether
