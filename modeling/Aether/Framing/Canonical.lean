import Aether.Framing.RoundTrip
import Aether.Framing.Totality

/-! Encoding undoes decoding.

Decoding forgets three things: the two reserved bits, a type octet that it does not
know and takes for the terminator, and the value of a terminator. Octets in which
these are as `encode` writes them are `Canonical`; of those, a frame that is decoded
is written as the octets it was read from (`canonical_round_trip`). The chain is an
induction on its loop: what the loop has read so far is written as it stood. -/
namespace Aether
open Octets

/-! ### Packed octets, taken apart and put together -/

/-- The first octet is its version bits and its type bits. -/
theorem byte0_join (b : UInt8) : ((((b >>> 4) &&& 0x0F) &&& 0x0F) <<< 4) ||| (b &&& 0x0F) = b := by
  refine forall_octet_lt b b.toNat_lt ?_
  decide +kernel

/-- The second one is its type bits, flags and stream bits, if the reserved bits are zero. -/
theorem byte1_join (b : UInt8) (h : b &&& 0x0C = 0) :
    (((b >>> 6) &&& 0x03) <<< 6) ||| (b &&& 0x20) ||| (if b &&& 0x10 != 0 then (0x10 : UInt8) else 0) ||| (b &&& 0x03) =
      b := by
  revert h
  refine forall_octet_lt b b.toNat_lt ?_
  decide +kernel

/-- A flag is set or not. -/
theorem hBit_eq {b : UInt8} (h : b &&& 0x20 ≠ 0) : b &&& 0x20 = 0x20 := by
  revert h
  refine forall_octet_lt b b.toNat_lt ?_
  decide +kernel

/-- The type bits of the two octets, apart again. -/
theorem frameTypeRaw_split {raw b0 b1 : UInt8} (h : raw = ((b0 &&& 0x0F) &&& 0x3F) <<< 2 ||| ((b1 >>> 6) &&& 0x03)) :
    ((raw &&& 0x3F) &&& 0x3F) >>> 2 = b0 &&& 0x0F ∧ (raw &&& 0x3F) &&& 0x03 = (b1 >>> (6 : UInt8)) &&& 0x03 := by
  have hall : ∀ (hi : Fin 16) (lo : Fin 4),
      ((((UInt8.ofNat hi.val &&& 0x3F) <<< 2 ||| UInt8.ofNat lo.val) &&& 0x3F) &&& 0x3F) >>> 2 = UInt8.ofNat hi.val ∧
        (((UInt8.ofNat hi.val &&& 0x3F) <<< 2 ||| UInt8.ofNat lo.val) &&& 0x3F) &&& 0x03 = UInt8.ofNat lo.val := by
    decide
  have hhi : (b0 &&& 0x0F).toNat < 16 := Nat.lt_succ_of_le (toNat_and_le b0 0x0F)
  have hlo : ((b1 >>> 6) &&& 0x03).toNat < 4 := Nat.lt_succ_of_le (toNat_and_le _ 0x03)
  have hraw := hall ⟨_, hhi⟩ ⟨_, hlo⟩
  rw [h]
  simpa only [UInt8.ofNat_toNat] using hraw

theorem FrameType.toU8_of_fromU8 {v : UInt8} {t : FrameType} (h : fromU8 v = some t) : t.toU8 = v &&& 0x3F := by
  apply UInt8.toNat_inj.mp
  unfold fromU8 at h
  split at h <;> cases h
  all_goals
    rename_i hv
    exact hv.symm

theorem ExtType.toU8_of_fromU8 {v : UInt8} {t : ExtType} (h : fromU8 v = some t) : t.toU8 = v := by
  apply UInt8.toNat_inj.mp
  unfold fromU8 at h
  split at h <;> cases h
  all_goals
    rename_i hv
    exact hv.symm

/-- A stream ID is written as the bits and the octets it was read from. -/
theorem streamId_split {hi : UInt8} (hhi : hi.toNat < 4) {lo : Nat} (hlo : lo < 65536) :
    (((hi.toUInt32 <<< 16 ||| UInt32.ofNat lo) >>> 16) &&& 0x03).toUInt8 = hi ∧
      (hi.toUInt32 <<< 16 ||| UInt32.ofNat lo).toUInt16.toNat = lo := by
  have hjoin := Nat.shiftLeft_add_eq_or_of_lt (i := 16) hlo hi.toNat
  rw [Nat.shiftLeft_eq] at hjoin
  have hs : (hi.toUInt32 <<< 16 ||| UInt32.ofNat lo).toNat = hi.toNat * 65536 + lo := by
    simp only [UInt32.toNat_or, UInt32.toNat_shiftLeft, UInt8.toNat_toUInt32, UInt32.toNat_ofNat', Nat.shiftLeft_eq]
    show (hi.toNat * 65536 % 4294967296) ||| (lo % 4294967296) = _
    rw [Nat.mod_eq_of_lt (by omega), Nat.mod_eq_of_lt (by omega)]
    exact hjoin.symm
  constructor
  · rw [streamIdHi_eq, hs]
    apply UInt8.toNat_inj.mp
    rw [UInt8.toNat_ofNat']
    omega
  · rw [UInt32.toNat_toUInt16, hs]
    omega

/-! ### Headers -/

namespace ShortHeader

/-- A header is written as the octets it was read from, reserved bits apart. -/
theorem encodeWith_of_decode {data : Bytes} {h : ShortHeader} (hdecode : decode data = .ok h) {b : UInt8}
    (hb : data[1]? = some b) (hreserved : b &&& 0x0C = 0) :
    h.hasExtensions = (b &&& 0x10 != 0) ∧ h.encodeWith (b &&& 0x20) = data.take shortHeaderSize := by
  unfold decode at hdecode
  split at hdecode
  · cases hdecode
  · obtain ⟨b0, hb0, hdecode⟩ := bind_eq_ok.mp hdecode
    obtain ⟨b1, hb1, hdecode⟩ := bind_eq_ok.mp hdecode
    dsimp only at hdecode
    split at hdecode
    · cases hdecode
    · rename_i frameType htype
      simp only [bind_eq_ok] at hdecode
      obtain ⟨sid, hsid, offset, hoffset, length, hlen, cid, hcid, hdecode⟩ := hdecode
      cases hdecode
      rw [index_eq_ok, hb] at hb1
      cases hb1
      rw [index_eq_ok] at hb0
      obtain ⟨hsidlt, hsid⟩ := toBe_word hsid
      obtain ⟨hoffsetlt, hoffset⟩ := toBe_word hoffset
      obtain ⟨hlenlt, hlen⟩ := toBe_word hlen
      obtain ⟨hcidlt, hcid⟩ := toBe_word hcid
      have h32 : ∀ v, v < 256 ^ 4 → (UInt32.ofNat v).toNat = v := fun v hv =>
        (UInt32.toNat_ofNat').trans (Nat.mod_eq_of_lt hv)
      have hhi : (b &&& 0x03).toNat < 4 := Nat.lt_succ_of_le (toNat_and_le b 0x03)
      obtain ⟨hsidHi, hsidLo⟩ := streamId_split hhi hsidlt
      obtain ⟨htypeHi, htypeLo⟩ := frameTypeRaw_split (rfl : _ = ((b0 &&& 0x0F) &&& 0x3F) <<< 2 ||| ((b >>> 6) &&& 0x03))
      refine ⟨rfl, ?_⟩
      have hdata : data.take shortHeaderSize = b0 :: b :: (data.drop 2).take 14 := by
        match data, hb0, hb with
        | _ :: _ :: rest, hb0, hb =>
          cases hb0
          cases hb
          rfl
      rw [hdata, encodeWith]
      simp only [FrameType.toU8_of_fromU8 htype, htypeHi, htypeLo, hsidHi, hsidLo, byte0_join, byte1_join b hreserved,
        h32 _ hoffsetlt, h32 _ hlenlt, h32 _ hcidlt, hsid, hoffset, hlen, hcid]
      rw [take_drop_append data 8 4 4, take_drop_append data 4 4 8, take_drop_append data 2 2 12]

end ShortHeader

namespace LongHeader

theorem encode_of_decode {data : Bytes} {l : LongHeader} (hdecode : decode data = .ok l) {b : UInt8}
    (hb : data[1]? = some b) (hlong : b &&& 0x20 = 0x20) (hreserved : b &&& 0x0C = 0) :
    l.short.hasExtensions = (b &&& 0x10 != 0) ∧ l.encode = data.take longHeaderSize := by
  unfold decode at hdecode
  split at hdecode
  · cases hdecode
  · simp only [bind_eq_ok] at hdecode
    obtain ⟨first, hfirst, short, hshort, source, hsource, hdecode⟩ := hdecode
    cases hdecode
    obtain ⟨_, rfl⟩ := slice_eq_ok.mp hfirst
    obtain ⟨hsourcelt, hsource⟩ := toBe_word hsource
    have hb' : ((data.drop 0).take (16 - 0))[1]? = some b := by
      rw [List.drop_zero, List.getElem?_take_of_lt (by decide)]
      exact hb
    obtain ⟨hflag, hoctets⟩ := ShortHeader.encodeWith_of_decode hshort hb' hreserved
    have h64 : (UInt64.ofNat source).toNat = source := UInt64.toNat_ofNat'.trans (Nat.mod_eq_of_lt hsourcelt)
    refine ⟨hflag, ?_⟩
    rw [encode, h64, hsource, ← hlong, hoctets, List.take_take]
    exact take_drop_append data 0 16 8

end LongHeader

/-! ### The extension chain -/

theorem ExtType.fromU8_of_le {b : UInt8} (h : b ≤ 5) : ∃ t, fromU8 b = some t := by
  have hb : b.toNat < 6 := Nat.lt_succ_of_le (UInt8.le_iff_toNat_le.mp h)
  rw [← Option.isSome_iff_exists]
  refine forall_octet_lt b hb ?_
  decide

/-- The octets of a TLV that was read: a type octet, three length octets, the value. -/
theorem Extension.decode_eq_ok {data : Bytes} {e : Extension} {n : Nat} (h : decode data = .ok (e, n)) :
    ∃ b, data = b :: (toBe 3 e.value.length ++ (e.value ++ data.drop n)) ∧ n ≤ data.length ∧
      e.value.length < 2 ^ 24 ∧ e.extType = (ExtType.fromU8 b).getD .terminator := by
  unfold decode at h
  split at h
  · cases h
  · obtain ⟨b, hb, h⟩ := bind_eq_ok.mp h
    obtain ⟨len, hlen, h⟩ := bind_eq_ok.mp h
    split at h
    · cases h
    · rename_i hfits
      obtain ⟨value, hvalue, h⟩ := bind_eq_ok.mp h
      cases h
      obtain ⟨_, rfl⟩ := slice_eq_ok.mp hvalue
      obtain ⟨hlenlt, hlen⟩ := toBe_word hlen
      have hfit : 4 + len ≤ data.length := Nat.le_of_not_lt hfits
      have hlength : ((data.drop 4).take (4 + len - 4)).length = len := by
        rw [List.length_take, List.length_drop]
        omega
      refine ⟨b, ?_, hfit, hlength.trans_lt hlenlt, rfl⟩
      rw [hlength, hlen, Nat.add_sub_cancel_left, ← List.drop_drop, List.take_append_drop]
      match data, index_eq_ok.mp hb with
      | _ :: rest, hb =>
        cases hb
        exact congrArg _ (List.take_append_drop 3 rest).symm

/-- The TLVs of a chain, each by its type octet and its length, up to the first that is
taken for the terminator. -/
def chainTlvs : Bytes → List (UInt8 × Nat)
  | b :: x :: y :: z :: rest =>
    if (ExtType.fromU8 b).getD .terminator = .terminator then [(b, ofBe [x, y, z])]
    else (b, ofBe [x, y, z]) :: chainTlvs (rest.drop (ofBe [x, y, z]))
  | _ => []
termination_by data => data.length
decreasing_by
  simp only [List.length_drop, List.length_cons]
  omega

theorem chainTlvs_tlv (b : UInt8) {value : Bytes} (rest : Bytes) (h : value.length < 2 ^ 24) :
    chainTlvs (b :: (toBe 3 value.length ++ (value ++ rest))) = (b, value.length) ::
      if (ExtType.fromU8 b).getD .terminator = .terminator then [] else chainTlvs rest := by
  have hlen : ofBe (toBe 3 value.length) = value.length := ofBe_toBe_of_lt h
  simp only [toBe, List.cons_append, List.nil_append] at hlen ⊢
  rw [chainTlvs, hlen, List.drop_left]
  split <;> rfl

/-- Extensions that go on are TLVs of a chain that goes on. -/
theorem chainTlvs_flatMap {read : List Extension} (h : ∀ e ∈ read, e.WellFormed) (rest : Bytes) :
    chainTlvs (read.flatMap Extension.encode ++ rest) =
      read.map (fun e => (e.extType.toU8, e.value.length)) ++ chainTlvs rest := by
  induction read with
  | nil => rfl
  | cons e read ih =>
    obtain ⟨hgoes, hshort⟩ := h e List.mem_cons_self
    have hnot : (ExtType.fromU8 e.extType.toU8).getD .terminator ≠ .terminator := by
      rw [ExtType.fromU8_toU8]
      exact hgoes
    rw [List.flatMap_cons, Extension.encode_eq e hshort, List.map_cons]
    simp only [List.cons_append, List.append_assoc]
    rw [chainTlvs_tlv _ _ hshort, if_neg hnot, ih fun e he => h e (List.mem_cons_of_mem _ he)]

/-- What the loop has read stands there, one extension behind the other, and behind them
the TLV that has ended the chain. -/
theorem readExtensions_eq_ok {data : Bytes} {offset stop : Nat} {acc exts : List Extension}
    (h : readExtensions data offset acc = .ok (exts, stop)) :
    ∃ read b value, exts = acc ++ read ∧ (∀ e ∈ read, e.WellFormed) ∧
      (ExtType.fromU8 b).getD .terminator = .terminator ∧ value.length < 2 ^ 24 ∧ stop ≤ data.length ∧
      data.drop offset = read.flatMap Extension.encode ++ (b :: (toBe 3 value.length ++ (value ++ data.drop stop))) := by
  fun_induction readExtensions data offset acc with
  | case1 => cases h
  | case2 => cases h
  | case3 offset acc hleft ext consumed hread htype =>
    cases h
    obtain ⟨left, hslice, hdecode⟩ := bind_eq_ok.mp hread
    obtain ⟨_, rfl⟩ := sliceFrom_eq_ok.mp hslice
    obtain ⟨b, hoctets, hconsumed, hshort, hextType⟩ := Extension.decode_eq_ok hdecode
    rw [List.length_drop] at hconsumed
    rw [List.drop_drop] at hoctets
    refine ⟨[], b, ext.value, (List.append_nil _).symm, ?_, hextType.symm.trans htype, hshort, by omega, hoctets⟩
    exact fun e he => absurd he List.not_mem_nil
  | case4 offset acc hleft ext consumed hread htype ih =>
    obtain ⟨left, hslice, hdecode⟩ := bind_eq_ok.mp hread
    obtain ⟨_, rfl⟩ := sliceFrom_eq_ok.mp hslice
    obtain ⟨b, hoctets, _, hshort, hextType⟩ := Extension.decode_eq_ok hdecode
    -- An octet that is not known would have ended the chain.
    have hb : ext.extType.toU8 = b := by
      cases hknown : ExtType.fromU8 b with
      | none =>
        rw [hknown] at hextType
        exact absurd hextType htype
      | some t =>
        rw [hknown] at hextType
        rw [hextType]
        exact ExtType.toU8_of_fromU8 hknown
    obtain ⟨read, last, value, hexts, hwellFormed, hends, hvalue, hstop, hrest⟩ := ih h
    refine ⟨ext :: read, last, value, by rw [hexts, List.append_assoc]; rfl, ?_, hends, hvalue, hstop, ?_⟩
    · intro e he
      rcases List.mem_cons.mp he with rfl | he
      · exact ⟨htype, hshort⟩
      · exact hwellFormed e he
    · rw [List.drop_drop] at hoctets
      rw [hoctets, hrest, List.flatMap_cons, Extension.encode_eq ext hshort, hb]
      simp only [List.cons_append, List.append_assoc]

/-- A TLV that `encode` might have written: a known type, and nothing in a terminator. -/
def Expected (tlv : UInt8 × Nat) : Prop := tlv.1 ≤ 5 ∧ (tlv.1 = 0 → tlv.2 = 0)

instance (tlv : UInt8 × Nat) : Decidable (Expected tlv) := inferInstanceAs (Decidable (_ ∧ _))

/-- What the loop has read is written as it stood. -/
theorem readExtensions_canonical {data : Bytes} {offset stop : Nat} {acc exts : List Extension}
    (h : readExtensions data offset acc = .ok (exts, stop)) (hc : ∀ tlv ∈ chainTlvs (data.drop offset), Expected tlv) :
    ∃ read, exts = acc ++ read ∧ (∀ e ∈ read, e.WellFormed) ∧
      data.drop offset = read.flatMap Extension.encode ++ (extensionTerminator.encode ++ data.drop stop) := by
  obtain ⟨read, b, value, hexts, hwellFormed, hends, hshort, _, hoctets⟩ := readExtensions_eq_ok h
  rw [hoctets, chainTlvs_flatMap hwellFormed, chainTlvs_tlv _ _ hshort] at hc
  obtain ⟨hknown, hempty⟩ := hc _ (List.mem_append_right _ List.mem_cons_self)
  obtain ⟨t, ht⟩ := ExtType.fromU8_of_le (b := b) hknown
  rw [ht, Option.getD_some] at hends
  have hb := ExtType.toU8_of_fromU8 ht
  rw [hends] at hb
  have hvalue : value = [] := List.eq_nil_of_length_eq_zero (hempty hb.symm)
  refine ⟨read, hexts, hwellFormed, ?_⟩
  rw [hoctets, hvalue, ← hb]
  rfl

/-! ### Frames -/

theorem readPayload_eq_ok {data payload : Bytes} {offset n : Nat} (h : readPayload data offset n = .ok payload) :
    payload = (data.drop offset).take n := by
  unfold readPayload at h
  split at h
  · rw [(slice_eq_ok.mp h).2, Nat.add_sub_cancel_left]
  · cases h

/-- Octets in which what decoding forgets is as `encode` writes it. -/
structure Canonical (octets : Bytes) : Prop where
  reserved : ∀ b, octets[1]? = some b → b &&& 0x0C = 0
  chain : ∀ b, octets[1]? = some b → b &&& 0x10 ≠ 0 →
    ∀ tlv ∈ chainTlvs (octets.drop (if b &&& 0x20 ≠ 0 then longHeaderSize else shortHeaderSize)), Expected tlv

namespace Frame

theorem decodeRest_canonical {long : Option LongHeader} {header : ShortHeader} {octets : Bytes} {headerSize : Nat}
    {f : Frame} (h : decodeRest long header octets headerSize = .ok f)
    (hc : header.hasExtensions = true → ∀ tlv ∈ chainTlvs (octets.drop headerSize), Expected tlv) :
    f.longHeader = long ∧ f.header = header ∧ (∀ e ∈ f.extensions, e.WellFormed) ∧
      ∃ rest, octets.drop headerSize =
        (if header.hasExtensions then f.extensions.flatMap Extension.encode ++ extensionTerminator.encode else []) ++
          (f.payload ++ rest) := by
  rw [decodeRest_eq] at h
  obtain ⟨⟨extensions, stop⟩, hchain, h⟩ := bind_eq_ok.mp h
  obtain ⟨payload, hpayload, h⟩ := bind_eq_ok.mp h
  cases h
  have hbody := List.take_append_drop header.length.toNat (octets.drop stop)
  rw [← readPayload_eq_ok hpayload] at hbody
  cases hflag : header.hasExtensions with
  | false =>
    rw [hflag] at hchain
    cases hchain
    exact ⟨rfl, rfl, fun e he => absurd he List.not_mem_nil, _, hbody.symm⟩
  | true =>
    rw [hflag] at hchain
    obtain ⟨read, hexts, hwellFormed, hoctets⟩ := readExtensions_canonical hchain (hc hflag)
    rw [List.nil_append] at hexts
    subst hexts
    refine ⟨rfl, rfl, hwellFormed, (octets.drop stop).drop header.length.toNat, ?_⟩
    simp only [if_true, List.append_assoc, hoctets, hbody]

/-- **A canonical frame is written as it stood**, in front of whatever followed it. -/
theorem encode_append_of_decode {octets : Bytes} {f : Frame} (h : decode octets = .ok f) (hc : Canonical octets) :
    (∀ e ∈ f.extensions, e.WellFormed) ∧ ∃ rest, octets = f.encode ++ rest := by
  rw [decode_eq] at h
  split at h
  · cases h
  · obtain ⟨b, hb, h⟩ := bind_eq_ok.mp h
    -- A datagram of one octet is too short for any header.
    have hb' : octets[1]? = some b := by
      split at hb
      · exact index_eq_ok.mp hb
      · rename_i hshort
        cases hb
        have hrefused : ShortHeader.decode octets = fail _ := if_pos (by rw [shortHeaderSize]; omega)
        rw [if_neg (by decide), hrefused] at h
        cases h
    have hreserved := hc.reserved b hb'
    have hchain := hc.chain b hb'
    split at h
    · rename_i hlong
      obtain ⟨long, hdecode, h⟩ := bind_eq_ok.mp h
      split at h
      · cases h
      · have hbit := bne_iff_ne.mp hlong
        obtain ⟨hflag, hheader⟩ := LongHeader.encode_of_decode hdecode hb' (hBit_eq hbit) hreserved
        rw [if_pos hbit] at hchain
        obtain ⟨hlongHeader, hf, hwellFormed, rest, hrest⟩ :=
          decodeRest_canonical h fun hext => hchain (bne_iff_ne.mp (hflag ▸ hext))
        refine ⟨hwellFormed, rest, ?_⟩
        rw [← List.take_append_drop longHeaderSize octets, ← hheader, hrest, encode, headerOctets, hlongHeader, hf]
        simp only [List.append_assoc]
    · rename_i hshort
      obtain ⟨header, hdecode, h⟩ := bind_eq_ok.mp h
      have hbit : b &&& 0x20 = 0 := by simpa using hshort
      obtain ⟨hflag, hheader⟩ := ShortHeader.encodeWith_of_decode hdecode hb' hreserved
      rw [if_neg (not_not_intro hbit)] at hchain
      obtain ⟨hlongHeader, hf, hwellFormed, rest, hrest⟩ :=
        decodeRest_canonical h fun hext => hchain (bne_iff_ne.mp (hflag ▸ hext))
      refine ⟨hwellFormed, rest, ?_⟩
      rw [hbit] at hheader
      rw [← List.take_append_drop shortHeaderSize octets, ← hheader, hrest, encode, headerOctets, hlongHeader, hf]
      simp only [List.append_assoc, ShortHeader.encode]

theorem encodeAll_length {exts : List Extension} (h : ∀ e ∈ exts, e.WellFormed) :
    (exts.flatMap Extension.encode).length = (exts.map Extension.wireSize).sum := by
  rw [List.length_flatMap]
  exact congrArg List.sum (List.map_congr_left fun e he => e.encode_length (h e he).short)

theorem encode_length (f : Frame) (h : ∀ e ∈ f.extensions, e.WellFormed) : f.encode.length = f.wireSize := by
  have hchain := encodeAll_length h
  have hheader : f.headerOctets.length = if f.longHeader.isSome then longHeaderSize else shortHeaderSize := by
    rw [headerOctets]
    cases f.longHeader with
    | none => exact ShortHeader.encodeWith_length 0 f.header
    | some long => exact long.encode_length
  have hend : extensionTerminator.encode.length = 4 := rfl
  rw [encode, wireSize, List.length_append, List.length_append, hheader, ← Nat.add_assoc]
  cases f.header.hasExtensions with
  | true => rw [if_pos rfl, if_pos rfl, List.length_append, hchain, hend]
  | false => rfl

/-- **Encoding undoes decoding on canonical octets**: the frame is written as it stood,
`wireSize` says how long it is there, and it stands there in no other way. -/
theorem canonical_round_trip {octets : Bytes} {f : Frame} (h : decode octets = .ok f) (hc : Canonical octets) :
    f.encode = octets.take f.wireSize ∧ f.wireSize ≤ octets.length ∧ f.encode.length = f.wireSize ∧
      ∀ octets', decode octets' = .ok f → Canonical octets' → octets.length = f.wireSize →
        octets'.length = f.wireSize → octets' = octets := by
  obtain ⟨hwellFormed, rest, hrest⟩ := encode_append_of_decode h hc
  have hlength := encode_length f hwellFormed
  have htake : f.encode = octets.take f.wireSize := by rw [hrest, List.take_left' hlength]
  refine ⟨htake, ?_, hlength, fun octets' h' hc' hsize hsize' => ?_⟩
  · rw [hrest, List.length_append, hlength]
    exact Nat.le_add_right _ _
  · obtain ⟨_, rest', hrest'⟩ := encode_append_of_decode h' hc'
    have htake' : f.encode = octets'.take f.wireSize := by rw [hrest', List.take_left' hlength]
    rw [List.take_of_length_le hsize.le] at htake
    rw [List.take_of_length_le hsize'.le] at htake'
    exact htake'.symm.trans htake

theorem stamped_wellFormed : stamped.WellFormed where
  version := by decide
  streamId := by decide
  length := by decide
  extensions := by
    intro e he
    cases List.mem_singleton.mp he
    exact ⟨by decide, by decide⟩
  noExtensions := nofun
  long := by
    intro l hl
    cases hl
    exact ⟨rfl, rfl⟩

theorem stamped_canonical : Canonical (stamped.encode ++ [0xFF]) := by
  have hoctets : (stamped.encode ++ [0xFF]).drop longHeaderSize =
      1 :: (toBe 3 ([1, 2, 3] : Bytes).length ++ ([1, 2, 3] ++ (0 :: (toBe 3 ([] : Bytes).length ++
        ([] ++ [0xAA, 0xBB, 0xFF]))))) := by decide
  have hchain : chainTlvs ((stamped.encode ++ [0xFF]).drop longHeaderSize) = [(1, 3), (0, 0)] := by
    rw [hoctets, chainTlvs_tlv 1 _ (by decide), if_neg (by decide), chainTlvs_tlv 0 _ (by decide), if_pos (by decide)]
    rfl
  constructor
  · rintro b ⟨⟩
    decide
  · rintro b ⟨⟩ _
    rw [if_pos (by decide), hchain]
    decide

/-- A frame with an extension, and an octet behind it. -/
theorem canonical_round_trip_stamped :
    stamped.encode = (stamped.encode ++ [0xFF]).take stamped.wireSize ∧
      stamped.wireSize ≤ (stamped.encode ++ [0xFF]).length ∧ stamped.encode.length = stamped.wireSize ∧
      ∀ octets', decode octets' = .ok stamped → Canonical octets' →
        (stamped.encode ++ [0xFF]).length = stamped.wireSize → octets'.length = stamped.wireSize →
          octets' = stamped.encode ++ [0xFF] :=
  canonical_round_trip (decode_encode stamped stamped_wellFormed [0xFF]) stamped_canonical

end Frame

end Aether
