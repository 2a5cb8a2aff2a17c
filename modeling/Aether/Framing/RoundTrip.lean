import Aether.Framing.Frame

/-! Decoding undoes encoding.

The header packs a 4-bit version, a 6-bit type, three flags and an 18-bit stream
ID into its first four octets, so two fields straddle octet boundaries;
`decode_encodeWith` takes them apart again, for either value of the H bit. The
extension chain is an induction on the list (`readExtensions_chain`): a
well-formed extension reads back as itself, so the loop is back at the same
statement one extension further. `Frame.decode_encode` puts header, chain and
payload together. -/
namespace Aether
open Octets

/-! ### Packed octets -/

/-- The first header octet holds the version above the upper type bits. -/
theorem byte0_fields (v : Fin 16) (t : FrameType) :
    let b : UInt8 := ((UInt8.ofNat v.val &&& 0x0F) <<< 4) ||| ((t.toU8 &&& 0x3F) >>> 2)
    (b >>> 4) &&& 0x0F = UInt8.ofNat v.val ∧
      (b &&& 0x0F) &&& 0x3F = t.toU8 >>> (2 : UInt8) := by
  revert v
  cases t <;> decide

/-- The second holds the lower type bits, the flags and the upper stream bits. -/
theorem byte1_fields (t : FrameType) (long ext : Bool) (hi : Fin 4) :
    let b : UInt8 := ((t.toU8 &&& 0x03) <<< 6) ||| (if long then (0x20 : UInt8) else 0) |||
      (if ext then (0x10 : UInt8) else 0) ||| UInt8.ofNat hi.val
    (b >>> 6) &&& 0x03 = t.toU8 &&& 0x03 ∧ (b &&& 0x20 != 0) = long ∧ (b &&& 0x10 != 0) = ext ∧
      b &&& 0x03 = UInt8.ofNat hi.val := by
  revert hi
  cases t <;> cases long <;> cases ext <;> decide

theorem fromU8_toU8 (t : FrameType) :
    FrameType.fromU8 (((t.toU8 >>> 2) <<< 2) ||| (t.toU8 &&& 0x03)) = some t := by
  cases t <;> decide

theorem ExtType.fromU8_toU8 (t : ExtType) : ExtType.fromU8 t.toU8 = some t := by
  cases t <;> decide

/-- The upper two bits of a stream ID, as the header stores them. -/
theorem streamIdHi_eq (s : UInt32) : ((s >>> 16) &&& 0x03).toUInt8 = UInt8.ofNat (s.toNat / 65536 % 4) := by
  apply UInt8.toNat_inj.mp
  have h4 : ∀ n : Nat, n &&& 3 = n % 4 := fun n => Nat.and_two_pow_sub_one_eq_mod n 2
  simp [h4, Nat.shiftRight_eq_div_pow]
  omega

theorem streamId_join (s : UInt32) (h : s ≤ maxStreamId) :
    ((UInt8.ofNat (s.toNat / 65536 % 4)).toUInt32 <<< 16) ||| UInt32.ofNat (s.toUInt16.toNat) = s := by
  have hs : s.toNat ≤ 0x3FFFF := UInt32.le_iff_toNat_le.mp h
  apply UInt32.toNat_inj.mp
  have hlo : s.toNat % 65536 < 2 ^ 16 := Nat.mod_lt _ (by decide)
  have hjoin := Nat.shiftLeft_add_eq_or_of_lt hlo (s.toNat / 65536 % 4)
  have h8 : s.toNat / 65536 % 4 % 256 * 65536 % 4294967296 = s.toNat / 65536 % 4 * 65536 := by omega
  have h16 : s.toNat % 65536 % 4294967296 = s.toNat % 65536 := by omega
  rw [Nat.shiftLeft_eq] at hjoin
  simp only [UInt32.toNat_or, UInt32.toNat_shiftLeft, UInt8.toNat_toUInt32, UInt8.toNat_ofNat',
    UInt32.toNat_ofNat', UInt32.toNat_toUInt16, Nat.shiftLeft_eq]
  show (s.toNat / 65536 % 4 % 256 * 65536 % 4294967296) ||| (s.toNat % 65536 % 4294967296) = s.toNat
  rw [h8, h16, ← hjoin]
  omega

/-! ### Headers -/

namespace ShortHeader

@[simp] theorem encodeWith_length (hBit : UInt8) (h : ShortHeader) : (h.encodeWith hBit).length = 16 := by
  simp [encodeWith]

/-- What decoding asks of the first two octets of a header. -/
structure Packed (long : Bool) (h : ShortHeader) (b0 b1 : UInt8) : Prop where
  version : (b0 >>> 4) &&& 0x0F = h.version
  typeHi : (b0 &&& 0x0F) &&& 0x3F = h.frameType.toU8 >>> (2 : UInt8)
  typeLo : (b1 >>> 6) &&& 0x03 = h.frameType.toU8 &&& 0x03
  hBit : (b1 &&& 0x20 != 0) = long
  eBit : (b1 &&& 0x10 != 0) = h.hasExtensions
  streamIdHi : b1 &&& 0x03 = ((h.streamId >>> (16 : UInt32)) &&& 0x03).toUInt8

theorem encodeWith_packed (long : Bool) (h : ShortHeader) (hv : h.version < 16) :
    ∃ b0 b1, Packed long h b0 b1 ∧ h.encodeWith (if long then 0x20 else 0) =
      b0 :: b1 :: (toBe 2 h.streamId.toUInt16.toNat ++ (toBe 4 h.offset.toNat ++
        (toBe 4 h.length.toNat ++ toBe 4 h.connectionId.toNat))) := by
  have h0 := byte0_fields ⟨h.version.toNat, UInt8.lt_iff_toNat_lt.mp hv⟩ h.frameType
  have h1 := byte1_fields h.frameType long h.hasExtensions ⟨h.streamId.toNat / 65536 % 4, by omega⟩
  simp only [UInt8.ofNat_toNat] at h0
  rw [← streamIdHi_eq] at h1
  obtain ⟨hversion, hhi⟩ := h0
  obtain ⟨hlo, hh, he, hsid⟩ := h1
  exact ⟨_, _, ⟨hversion, hhi, hlo, hh, he, hsid⟩, rfl⟩

/-- A header reads back whichever header form it was written in. -/
theorem decode_encodeWith (long : Bool) (h : ShortHeader) (hv : h.version < 16)
    (hs : h.streamId ≤ maxStreamId) (t : Bytes) :
    decode (h.encodeWith (if long then 0x20 else 0) ++ t) = .ok h := by
  have hlen : ¬ (h.encodeWith (if long then 0x20 else 0) ++ t).length < shortHeaderSize := by
    simp [shortHeaderSize]
  obtain ⟨b0, b1, hp, hdata⟩ := encodeWith_packed long h hv
  unfold decode
  rw [if_neg hlen, hdata]
  have w2 := word_append (ε := Error) [b0, b1] (toBe 4 h.offset.toNat ++ (toBe 4 h.length.toNat ++
    (toBe 4 h.connectionId.toNat ++ t))) 2 h.streamId.toUInt16.toNat 2 rfl h.streamId.toUInt16.toNat_lt
  have w4 := word_append (ε := Error) (b0 :: b1 :: toBe 2 h.streamId.toUInt16.toNat)
    (toBe 4 h.length.toNat ++ (toBe 4 h.connectionId.toNat ++ t)) 4 h.offset.toNat 4 (by simp) h.offset.toNat_lt
  have w8 := word_append (ε := Error) (b0 :: b1 :: (toBe 2 h.streamId.toUInt16.toNat ++ toBe 4 h.offset.toNat))
    (toBe 4 h.connectionId.toNat ++ t) 4 h.length.toNat 8 (by simp) h.length.toNat_lt
  have w12 := word_append (ε := Error) (b0 :: b1 :: (toBe 2 h.streamId.toUInt16.toNat ++
    (toBe 4 h.offset.toNat ++ toBe 4 h.length.toNat))) t 4 h.connectionId.toNat 12 (by simp) h.connectionId.toNat_lt
  simp only [List.cons_append, List.append_assoc, List.nil_append] at w2 w4 w8 w12 ⊢
  simp only [index_zero, index_succ, ok_bind, w2, w4, w8, w12]
  rw [hp.typeHi, hp.typeLo, fromU8_toU8, hp.streamIdHi, streamIdHi_eq, streamId_join h.streamId hs,
    hp.version, hp.eBit]
  simp only [UInt32.ofNat_toNat]
  rfl

/-- The second octet tells a decoder which header form it reads. -/
theorem encodeWith_index_one (long : Bool) (h : ShortHeader) (hv : h.version < 16) (t : Bytes) :
    ∃ b : UInt8, index (ε := Error) (h.encodeWith (if long then 0x20 else 0) ++ t) 1 = .ok b ∧
      (b &&& 0x20 != 0) = long := by
  obtain ⟨b0, b1, hp, hdata⟩ := encodeWith_packed long h hv
  rw [hdata]
  exact ⟨b1, rfl, hp.hBit⟩

end ShortHeader

namespace LongHeader

@[simp] theorem encode_length (l : LongHeader) : l.encode.length = 24 := by
  simp [encode]

theorem decode_encode (l : LongHeader) (hv : l.short.version < 16) (hs : l.short.streamId ≤ maxStreamId)
    (t : Bytes) : decode (l.encode ++ t) = .ok l := by
  have hlen : ¬ (l.encode ++ t).length < longHeaderSize := by
    simp [longHeaderSize]
  have hshort := ShortHeader.decode_encodeWith true l.short hv hs []
  have hslice := slice_append (ε := Error) [] (l.short.encodeWith 0x20)
    (toBe 8 l.sourceConnectionId.toNat ++ t) 0 16 rfl (by simp)
  have hword := word_append (ε := Error) (l.short.encodeWith 0x20) t 8 l.sourceConnectionId.toNat 16
    (by simp) l.sourceConnectionId.toNat_lt
  simp only [List.nil_append, List.append_nil, if_true] at hslice hshort
  unfold decode
  rw [if_neg hlen]
  simp only [encode, List.append_assoc, hslice, hshort, hword, ok_bind, UInt64.ofNat_toNat]
  rfl

end LongHeader

/-! ### The extension chain -/

namespace Extension

/-- An extension the wire format can carry. -/
structure WellFormed (e : Extension) : Prop where
  notTerminator : e.extType ≠ .terminator
  short : e.value.length < 2 ^ 24

theorem encode_eq (e : Extension) (h : e.value.length < 2 ^ 24) :
    e.encode = e.extType.toU8 :: (toBe 3 e.value.length ++ e.value) := by
  have hlen : (UInt32.ofNat e.value.length).toNat = e.value.length := by
    rw [UInt32.toNat_ofNat']
    exact Nat.mod_eq_of_lt (by omega)
  simp only [encode, hlen, toBe, List.drop_succ_cons, List.drop_zero]

/-- One TLV, whatever its type octet is: `decode` takes its length and its value,
and a type octet outside the known ones for the terminator. -/
theorem decode_tlv (b : UInt8) (value t : Bytes) (h : value.length < 2 ^ 24) :
    decode (b :: (toBe 3 value.length ++ (value ++ t))) =
      .ok (⟨(ExtType.fromU8 b).getD .terminator, value⟩, 4 + value.length) := by
  have hlen : ¬ (b :: (toBe 3 value.length ++ (value ++ t))).length < 4 := by simp
  have hword := word_append (ε := Error) [b] (value ++ t) 3 value.length 1 rfl h
  have hfits : ¬ (b :: (toBe 3 value.length ++ (value ++ t))).length < 4 + value.length := by
    simp
    omega
  have hslice := slice_append (ε := Error) (b :: toBe 3 value.length) value t 4 (4 + value.length)
    (by simp) rfl
  simp only [List.cons_append, List.nil_append] at hword hslice
  unfold decode
  rw [if_neg hlen]
  simp only [index_zero, ok_bind, hword, if_neg hfits, hslice]
  rfl

theorem decode_encode (e : Extension) (h : e.value.length < 2 ^ 24) (t : Bytes) :
    decode (e.encode ++ t) = .ok (e, 4 + e.value.length) := by
  rw [encode_eq e h, List.cons_append, List.append_assoc, decode_tlv _ _ _ h, ExtType.fromU8_toU8]
  rfl

theorem encode_length (e : Extension) (h : e.value.length < 2 ^ 24) : e.encode.length = e.wireSize := by
  rw [encode_eq e h]
  simp [wireSize]
  omega

end Extension

/-- One turn of the chain loop, at a TLV that follows `pre`. -/
theorem readExtensions_append {pre tlv rest : Bytes} {ext : Extension} (acc : List Extension)
    (hdecode : Extension.decode (tlv ++ rest) = .ok (ext, tlv.length)) (hne : 0 < tlv.length) :
    readExtensions (pre ++ (tlv ++ rest)) pre.length acc =
      if ext.extType = .terminator then .ok (acc, (pre ++ tlv).length)
      else readExtensions ((pre ++ tlv) ++ rest) (pre ++ tlv).length (acc ++ [ext]) := by
  have hopen : ¬ (pre ++ (tlv ++ rest)).length ≤ pre.length := by
    simp only [List.length_append]
    omega
  have hread : sliceFrom (pre ++ (tlv ++ rest)) pre.length >>= Extension.decode = .ok (ext, tlv.length) := by
    rw [sliceFrom_append pre _ _ rfl, ok_bind, hdecode]
  rw [readExtensions, if_neg hopen, List.length_append, List.append_assoc]
  split
  · rename_i e he
    rw [hread] at he
    cases he
  · rename_i ext' consumed he
    rw [hread] at he
    cases he
    rfl

/-- The loop collects a chain of well-formed extensions and stops behind its terminator. -/
theorem readExtensions_chain (pre : Bytes) (exts acc : List Extension) (rest : Bytes)
    (h : ∀ e ∈ exts, e.WellFormed) :
    readExtensions (pre ++ (exts.flatMap Extension.encode ++ (extensionTerminator.encode ++ rest)))
        pre.length acc =
      .ok (acc ++ exts, (pre ++ (exts.flatMap Extension.encode ++ extensionTerminator.encode)).length) := by
  induction exts generalizing pre acc with
  | nil =>
    have hterm := Extension.decode_encode extensionTerminator (by decide) rest
    simp only [List.flatMap_nil, List.nil_append, List.append_nil]
    rw [readExtensions_append acc hterm (by decide)]
    exact if_pos rfl
  | cons e exts ih =>
    obtain ⟨hnt, hshort⟩ := h e (List.mem_cons_self ..)
    have hlen : e.encode.length = 4 + e.value.length := Extension.encode_length e hshort
    have hdec : ∀ t, Extension.decode (e.encode ++ t) = .ok (e, e.encode.length) := by
      intro t
      rw [hlen]
      exact Extension.decode_encode e hshort t
    have hrest := ih (pre ++ e.encode) (acc ++ [e]) (fun e' he' => h e' (List.mem_cons_of_mem e he'))
    simp only [List.flatMap_cons, List.append_assoc] at hrest ⊢
    rw [readExtensions_append acc (hdec _) (by omega), if_neg hnt]
    simpa only [List.append_assoc, List.singleton_append] using hrest

/-! ### Frames -/

theorem readPayload_append (pre payload t : Bytes) (i n : Nat) (hi : pre.length = i)
    (hn : payload.length = n) : readPayload (pre ++ (payload ++ t)) i n = .ok payload := by
  subst hi hn
  have hfits : pre.length + payload.length ≤ (pre ++ (payload ++ t)).length := by
    simp only [List.length_append]
    omega
  rw [readPayload, if_pos hfits, slice_append pre payload t _ _ rfl rfl]

namespace Frame

/-- A frame the wire format can carry: every field in its range, the length field
right, and a long header exactly a copy of the header where there is one. -/
structure WellFormed (f : Frame) : Prop where
  version : f.header.version < 16
  streamId : f.header.streamId ≤ maxStreamId
  length : f.header.length.toNat = f.payload.length
  extensions : ∀ e ∈ f.extensions, e.WellFormed
  noExtensions : f.header.hasExtensions = false → f.extensions = []
  long : ∀ l, f.longHeader = some l → l.short = f.header ∧ f.header.frameType.requiresLongHeader = true

/-- Decoding octets that begin with a frame's header is decoding the rest under that header. -/
theorem decode_headerOctets (f : Frame) (h : f.WellFormed) (body : Bytes) :
    decode (f.headerOctets ++ body) =
      decodeRest f.longHeader f.header (f.headerOctets ++ body) f.headerOctets.length := by
  have hidx : ∃ b : UInt8, index (ε := Error) (f.headerOctets ++ body) 1 = .ok b ∧
      (b &&& 0x20 != 0) = f.longHeader.isSome := by
    cases hl : f.longHeader with
    | none =>
      simpa [headerOctets, hl, ShortHeader.encode] using ShortHeader.encodeWith_index_one false f.header h.version body
    | some l =>
      have hv : l.short.version < 16 := by rw [(h.long l hl).1]; exact h.version
      simpa [headerOctets, hl, LongHeader.encode] using
        ShortHeader.encodeWith_index_one true l.short hv (toBe 8 l.sourceConnectionId.toNat ++ body)
  obtain ⟨b, hb, hlong⟩ := hidx
  have hlen : 16 ≤ f.headerOctets.length := by
    unfold headerOctets
    cases f.longHeader <;> simp [ShortHeader.encode]
  have hne : (f.headerOctets ++ body).isEmpty = false := by
    rw [List.isEmpty_eq_false_iff_exists_mem]
    exact ⟨_, List.mem_append_left _ (List.getElem_mem (show 0 < f.headerOctets.length by omega))⟩
  have htwo : 1 < (f.headerOctets ++ body).length := by
    simp only [List.length_append]
    omega
  unfold decode
  rw [hne]
  simp only [Bool.false_eq_true, if_false, if_pos htwo, hb, ok_bind, hlong]
  cases hl : f.longHeader with
  | none =>
    have hdec := ShortHeader.decode_encodeWith false f.header h.version h.streamId body
    simp only [Bool.false_eq_true, if_false] at hdec
    simp only [headerOctets, hl, ShortHeader.encode, Option.isSome_none, Bool.false_eq_true, if_false,
      hdec, ok_bind, ShortHeader.encodeWith_length]
    rfl
  | some l =>
    obtain ⟨hshort, htype⟩ := h.long l hl
    have hdec := LongHeader.decode_encode l (by rw [hshort]; exact h.version)
      (by rw [hshort]; exact h.streamId) body
    simp only [headerOctets, hl, Option.isSome_some, if_true, hdec, ok_bind, hshort, htype,
      Bool.not_true, Bool.false_eq_true, if_false, LongHeader.encode_length]
    rfl

/-- **Decoding undoes encoding**, with any octets behind the frame. -/
theorem decode_encode (f : Frame) (h : f.WellFormed) (t : Bytes) : decode (f.encode ++ t) = .ok f := by
  have hbody : f.encode ++ t = f.headerOctets ++
      ((if f.header.hasExtensions then f.extensions.flatMap Extension.encode ++ extensionTerminator.encode
        else []) ++ (f.payload ++ t)) := by
    simp only [encode, List.append_assoc]
  rw [hbody, decode_headerOctets f h]
  unfold decodeRest
  cases he : f.header.hasExtensions with
  | false =>
    have hpayload := readPayload_append f.headerOctets f.payload t _ _ rfl h.length.symm
    simp only [Bool.false_eq_true, if_false, List.nil_append, pure_bind, hpayload, ok_bind,
      ← h.noExtensions he]
    rfl
  | true =>
    have hchain := readExtensions_chain f.headerOctets f.extensions [] (f.payload ++ t) h.extensions
    have hpayload := readPayload_append
      (f.headerOctets ++ (f.extensions.flatMap Extension.encode ++ extensionTerminator.encode))
      f.payload t _ _ rfl h.length.symm
    simp only [List.append_assoc, List.nil_append] at hchain hpayload
    simp only [if_true, List.append_assoc, hchain, ok_bind, hpayload]
    rfl

/-- A frame alone in its datagram. -/
theorem decode_encode_self (f : Frame) (h : f.WellFormed) : decode f.encode = .ok f := by
  simpa using decode_encode f h []

/-- The frames of a handshake are in range. -/
theorem newLong_wellFormed {frameType : FrameType} (htype : frameType.requiresLongHeader = true)
    {streamId : UInt32} (hstream : streamId ≤ maxStreamId) (dest : UInt32) (source : UInt64)
    {payload : Bytes} (hpayload : payload.length < 2 ^ 32) :
    (newLong frameType streamId dest source payload).WellFormed where
  version := by show (0 : UInt8) < 16; decide
  streamId := hstream
  length := by
    show (UInt32.ofNat payload.length).toNat = payload.length
    rw [UInt32.toNat_ofNat']
    exact Nat.mod_eq_of_lt hpayload
  extensions := fun _ he => absurd he List.not_mem_nil
  noExtensions := fun _ => rfl
  long := by
    intro l hl
    cases hl
    exact ⟨rfl, htype⟩

/-- And so are those of a connection. -/
theorem newShort_wellFormed (frameType : FrameType) {streamId : UInt32} (hstream : streamId ≤ maxStreamId)
    (connectionId offset : UInt32) {payload : Bytes} (hpayload : payload.length < 2 ^ 32) :
    (newShort frameType streamId connectionId offset payload).WellFormed where
  version := by show (0 : UInt8) < 16; decide
  streamId := hstream
  length := by
    show (UInt32.ofNat payload.length).toNat = payload.length
    rw [UInt32.toNat_ofNat']
    exact Nat.mod_eq_of_lt hpayload
  extensions := fun _ he => absurd he List.not_mem_nil
  noExtensions := fun _ => rfl
  long := nofun

@[simp] theorem newLong_encode_length (frameType : FrameType) (streamId dest : UInt32) (source : UInt64)
    (payload : Bytes) : (newLong frameType streamId dest source payload).encode.length = 24 + payload.length := by
  simp [newLong, LongHeader.new, encode, headerOctets]

@[simp] theorem newShort_encode_length (frameType : FrameType) (streamId connectionId offset : UInt32)
    (payload : Bytes) : (newShort frameType streamId connectionId offset payload).encode.length = 16 + payload.length := by
  simp [newShort, encode, headerOctets, ShortHeader.encode]

/-- **Every frame in range survives the wire**, whatever follows it in the datagram. -/
theorem wire_round_trip (f : Frame) (hversion : f.header.version < 16)
    (hstream : f.header.streamId ≤ maxStreamId) (hlength : f.header.length.toNat = f.payload.length)
    (hexts : ∀ e ∈ f.extensions, e.extType ≠ .terminator ∧ e.value.length < 2 ^ 24)
    (hnone : f.header.hasExtensions = false → f.extensions = [])
    (hlong : ∀ l, f.longHeader = some l →
      l.short = f.header ∧ (f.header.frameType = .initial ∨ f.header.frameType = .handshake))
    (t : Bytes) : decode (f.encode ++ t) = .ok f := by
  refine decode_encode f ⟨hversion, hstream, hlength, ?_, hnone, ?_⟩ t
  · intro e he
    exact ⟨(hexts e he).1, (hexts e he).2⟩
  · intro l hl
    obtain ⟨hshort, htype | htype⟩ := hlong l hl
    · exact ⟨hshort, by rw [htype]; rfl⟩
    · exact ⟨hshort, by rw [htype]; rfl⟩

/-- A handshake frame with a timestamp extension in front of its payload. -/
def stamped : Frame :=
  let header : ShortHeader := ⟨0, .handshake, true, 0x2FFFF, 3, 2, 0xDEADBEEF⟩
  ⟨some ⟨header, 0x0123456789ABCDEF⟩, header, [⟨.timestamp, [1, 2, 3]⟩], [0xAA, 0xBB]⟩

theorem stamped_wire_round_trip : decode (stamped.encode ++ [0xFF]) = .ok stamped :=
  wire_round_trip stamped (by decide) (by decide) (by decide) (by decide) (by decide)
    (fun l hl => by cases hl; exact ⟨rfl, .inr rfl⟩) [0xFF]

end Frame

end Aether
