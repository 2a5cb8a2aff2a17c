import Aether.Framing.Builders
import Aether.Framing.Canonical

/-! Where a frame lies in the octets it is read from.

A frame that is accepted is the beginning of its datagram: the octets of its header,
its extensions one behind the other and a TLV that ends them, its payload
(`decode_liesIn`). Two things follow. What is read from octets is read from them with
more behind (`decode_append`), so that a frame cut short anywhere is not read as another
one; and a frame that is read is no longer than what it is read from, so that it is
not read as itself (`truncated_refused`).

The form of the header is checked on one side: a long header is refused where the
type asks for a short one, a short header is never refused for its type
(`header_form_iff`). -/
namespace Aether
open Octets

/-! ### Octets behind what is read -/

theorem ShortHeader.decode_append {p : Bytes} (t : Bytes) (h : shortHeaderSize ≤ p.length) :
    decode (p ++ t) = decode p := by
  have hsize : 16 ≤ p.length := h
  have hlong : shortHeaderSize ≤ (p ++ t).length := by
    rw [List.length_append]
    exact Nat.le_add_right_of_le h
  rw [decode, decode, if_neg (Nat.not_lt_of_le h), if_neg (Nat.not_lt_of_le hlong),
    index_append_of_lt t (by omega : 0 < p.length), index_append_of_lt t (by omega : 1 < p.length),
    word_append_of_le t (by omega : 2 + 2 ≤ p.length), word_append_of_le t (by omega : 4 + 4 ≤ p.length),
    word_append_of_le t (by omega : 8 + 4 ≤ p.length), word_append_of_le t (by omega : 12 + 4 ≤ p.length)]

theorem LongHeader.decode_append {p : Bytes} (t : Bytes) (h : longHeaderSize ≤ p.length) :
    decode (p ++ t) = decode p := by
  have hsize : 24 ≤ p.length := h
  have hlong : longHeaderSize ≤ (p ++ t).length := by
    rw [List.length_append]
    exact Nat.le_add_right_of_le h
  rw [decode, decode, if_neg (Nat.not_lt_of_le h), if_neg (Nat.not_lt_of_le hlong),
    slice_append_of_le t (Nat.zero_le 16) (by omega : 16 ≤ p.length), word_append_of_le t (by omega : 16 + 8 ≤ p.length)]

theorem ShortHeader.length_of_decode {p : Bytes} {header : ShortHeader} (h : decode p = .ok header) :
    shortHeaderSize ≤ p.length := by
  rw [decode] at h
  split at h
  · cases h
  · rename_i hsize
    exact Nat.le_of_not_lt hsize

theorem LongHeader.length_of_decode {p : Bytes} {long : LongHeader} (h : decode p = .ok long) :
    longHeaderSize ≤ p.length := by
  rw [decode] at h
  split at h
  · cases h
  · rename_i hsize
    exact Nat.le_of_not_lt hsize

theorem Extension.decode_append {p : Bytes} {e : Extension} {n : Nat} (h : decode p = .ok (e, n)) (t : Bytes) :
    decode (p ++ t) = .ok (e, n) := by
  obtain ⟨b, hoctets, hn, hshort, htype⟩ := decode_eq_ok h
  have hread := decode_tlv b e.value (p.drop n) hshort
  rw [← hoctets, h] at hread
  obtain ⟨-, rfl⟩ := Prod.mk.inj (Except.ok.inj hread)
  have hread' := decode_tlv b e.value (p.drop (4 + e.value.length) ++ t) hshort
  rw [← htype] at hread'
  rw [hoctets, List.cons_append, List.append_assoc, List.append_assoc]
  exact hread'

theorem readExtensions_append_of_ok {p : Bytes} {offset : Nat} {acc : List Extension} {chain : List Extension × Nat}
    (h : readExtensions p offset acc = .ok chain) (t : Bytes) : readExtensions (p ++ t) offset acc = .ok chain := by
  -- A turn of the loop goes the same way with octets behind.
  have hturn : ∀ {offset ext consumed}, ¬ p.length ≤ offset →
      (sliceFrom p offset >>= Extension.decode) = .ok (ext, consumed) →
      ¬ (p ++ t).length ≤ offset ∧ (sliceFrom (p ++ t) offset >>= Extension.decode) = .ok (ext, consumed) := by
    intro offset ext consumed hleft hread
    obtain ⟨left, hslice, hdecode⟩ := bind_eq_ok.mp hread
    obtain ⟨hoffset, rfl⟩ := sliceFrom_eq_ok.mp hslice
    have hlong : ¬ (p ++ t).length ≤ offset := by
      rw [List.length_append]
      omega
    refine ⟨hlong, bind_eq_ok.mpr ⟨p.drop offset ++ t, sliceFrom_eq_ok.mpr ⟨by omega, ?_⟩, ?_⟩⟩
    · rw [List.drop_append_of_le_length hoffset]
    · exact Extension.decode_append hdecode t
  fun_induction readExtensions p offset acc with
  | case1 => cases h
  | case2 => cases h
  | case3 offset acc hleft ext consumed hread htype =>
    obtain ⟨hlong, hread'⟩ := hturn hleft hread
    rw [readExtensions, if_neg hlong]
    split
    · rename_i e he
      rw [hread'] at he
      cases he
    · rename_i ext' consumed' he
      rw [hread'] at he
      cases he
      rw [if_pos htype]
      exact h
  | case4 offset acc hleft ext consumed hread htype ih =>
    obtain ⟨hlong, hread'⟩ := hturn hleft hread
    rw [readExtensions, if_neg hlong]
    split
    · rename_i e he
      rw [hread'] at he
      cases he
    · rename_i ext' consumed' he
      rw [hread'] at he
      cases he
      rw [if_neg htype]
      exact ih h

theorem readPayload_append_of_ok {p : Bytes} {offset n : Nat} {payload : Bytes} (h : readPayload p offset n = .ok payload)
    (t : Bytes) : readPayload (p ++ t) offset n = .ok payload := by
  rw [readPayload] at h
  split at h
  · rename_i hfits
    have hlong : offset + n ≤ (p ++ t).length := by
      rw [List.length_append]
      exact Nat.le_add_right_of_le hfits
    rw [readPayload, if_pos hlong, slice_append_of_le t (Nat.le_add_right _ _) hfits]
    exact h
  · cases h

namespace Frame

theorem decodeRest_append {long : Option LongHeader} {header : ShortHeader} {p : Bytes} {headerSize : Nat} {f : Frame}
    (h : decodeRest long header p headerSize = .ok f) (t : Bytes) : decodeRest long header (p ++ t) headerSize = .ok f := by
  obtain ⟨extensions, offset, payload, hchain, hpayload, rfl⟩ := decodeRest_eq_ok.mp h
  refine decodeRest_eq_ok.mpr ⟨extensions, offset, payload, ?_, readPayload_append_of_ok hpayload t, rfl⟩
  cases hflag : header.hasExtensions with
  | true =>
    rw [hflag] at hchain
    exact readExtensions_append_of_ok hchain t
  | false =>
    rw [hflag] at hchain
    exact hchain

/-- What `decode` has done where it accepts: one of its two branches, header and rest. -/
theorem decode_branches {octets : Bytes} {f : Frame} (h : decode octets = .ok f) :
    ∃ b, octets[1]? = some b ∧
      ((b &&& 0x20 ≠ 0 ∧ ∃ long, LongHeader.decode octets = .ok long ∧ long.short.frameType.requiresLongHeader = true ∧
          decodeRest (some long) long.short octets longHeaderSize = .ok f) ∨
        (b &&& 0x20 = 0 ∧ ∃ header, ShortHeader.decode octets = .ok header ∧
          decodeRest none header octets shortHeaderSize = .ok f)) := by
  rw [decode_eq] at h
  split at h
  · cases h
  · obtain ⟨b, hb, h⟩ := bind_eq_ok.mp h
    split at h
    · rename_i hbit
      obtain ⟨long, hlong, h⟩ := bind_eq_ok.mp h
      have hsize := LongHeader.length_of_decode hlong
      rw [if_pos (Nat.lt_of_lt_of_le (by decide) hsize)] at hb
      refine ⟨b, index_eq_ok.mp hb, .inl ⟨bne_iff_ne.mp hbit, long, hlong, ?_⟩⟩
      split at h
      · cases h
      · rename_i htype
        exact ⟨by simpa using htype, h⟩
    · rename_i hbit
      obtain ⟨header, hshort, h⟩ := bind_eq_ok.mp h
      have hsize := ShortHeader.length_of_decode hshort
      rw [if_pos (Nat.lt_of_lt_of_le (by decide) hsize)] at hb
      exact ⟨b, index_eq_ok.mp hb, .inr ⟨by simpa using hbit, header, hshort, h⟩⟩

/-- **What is read is read with more octets behind it.** -/
theorem decode_append {p : Bytes} {f : Frame} (h : decode p = .ok f) (t : Bytes) : decode (p ++ t) = .ok f := by
  obtain ⟨b, hb, hbranch⟩ := decode_branches h
  have hlength : 1 < p.length := (List.getElem?_eq_some_iff.mp hb).1
  have hempty : (p ++ t).isEmpty = false := by
    rw [List.isEmpty_eq_false_iff]
    exact List.append_ne_nil_of_left_ne_nil (List.ne_nil_of_length_pos (by omega)) t
  have hlong : 1 < (p ++ t).length := by
    rw [List.length_append]
    omega
  have hb' : index (ε := Error) (p ++ t) 1 = .ok b := by
    rw [index_append_of_lt t hlength]
    exact index_eq_ok.mpr hb
  rw [decode_eq, hempty, if_neg Bool.false_ne_true, if_pos hlong, hb', ok_bind]
  rcases hbranch with ⟨hbit, long, hdecode, htype, hrest⟩ | ⟨hbit, header, hdecode, hrest⟩
  · rw [if_pos (bne_iff_ne.mpr hbit), LongHeader.decode_append t (LongHeader.length_of_decode hdecode), hdecode, ok_bind,
      htype]
    exact decodeRest_append hrest t
  · rw [if_neg (by simpa using hbit), ShortHeader.decode_append t (ShortHeader.length_of_decode hdecode), hdecode, ok_bind]
    exact decodeRest_append hrest t

/-! ### Where a frame lies -/

end Frame

/-- The octets of a TLV that ends a chain: its type octet is that of the terminator or one
that is not known, and its value is passed over. -/
def EndsChain (tlv : Bytes) : Prop :=
  ∃ b value, tlv = b :: (toBe 3 value.length ++ value) ∧ (ExtType.fromU8 b).getD .terminator = .terminator

theorem EndsChain.length {tlv : Bytes} (h : EndsChain tlv) : 4 ≤ tlv.length := by
  obtain ⟨b, value, rfl, _⟩ := h
  rw [List.length_cons, List.length_append, toBe_length]
  omega

theorem readExtensions_liesIn {data : Bytes} {offset stop : Nat} {acc exts : List Extension}
    (h : readExtensions data offset acc = .ok (exts, stop)) :
    ∃ read tlv, exts = acc ++ read ∧ (∀ e ∈ read, e.WellFormed) ∧ EndsChain tlv ∧ stop ≤ data.length ∧
      data.drop offset = read.flatMap Extension.encode ++ (tlv ++ data.drop stop) := by
  obtain ⟨read, b, value, hexts, hwellFormed, hends, _, hstop, hoctets⟩ := readExtensions_eq_ok h
  refine ⟨read, b :: (toBe 3 value.length ++ value), hexts, hwellFormed, ⟨b, value, rfl, hends⟩, hstop, ?_⟩
  rw [hoctets, List.cons_append, List.append_assoc]

namespace Frame

/-- The octets of the frame's header. -/
def HeadedBy (f : Frame) (head : Bytes) : Prop :=
  match f.longHeader with
  | some long => head.length = longHeaderSize ∧ LongHeader.decode head = .ok long ∧ long.short = f.header
  | none => head.length = shortHeaderSize ∧ ShortHeader.decode head = .ok f.header

/-- The octets between the header and the payload: the extensions and the TLV that ends
them, or nothing. -/
def ChainedBy (f : Frame) (chain : Bytes) : Prop :=
  if f.header.hasExtensions then ∃ tlv, EndsChain tlv ∧ chain = f.extensions.flatMap Extension.encode ++ tlv
  else f.extensions = [] ∧ chain = []

/-- How the frame lies in octets: its header, its chain and its payload, next to each other. -/
def LiesIn (f : Frame) (octets : Bytes) : Prop :=
  ∃ head chain rest, octets = head ++ (chain ++ (f.payload ++ rest)) ∧ f.HeadedBy head ∧ f.ChainedBy chain

theorem decodeRest_liesIn {long : Option LongHeader} {header : ShortHeader} {octets : Bytes} {headerSize : Nat}
    {f : Frame} (h : decodeRest long header octets headerSize = .ok f) :
    f.longHeader = long ∧ f.header = header ∧ (∀ e ∈ f.extensions, e.WellFormed) ∧
      ∃ chain rest, octets.drop headerSize = chain ++ (f.payload ++ rest) ∧ f.ChainedBy chain := by
  obtain ⟨extensions, stop, payload, hchain, hpayload, rfl⟩ := decodeRest_eq_ok.mp h
  have hbody := List.take_append_drop header.length.toNat (octets.drop stop)
  rw [← readPayload_eq_ok hpayload] at hbody
  cases hflag : header.hasExtensions with
  | false =>
    rw [hflag] at hchain
    cases hchain
    refine ⟨rfl, rfl, fun e he => absurd he List.not_mem_nil, [], _, hbody.symm, ?_⟩
    rw [ChainedBy, hflag]
    exact ⟨rfl, rfl⟩
  | true =>
    rw [hflag] at hchain
    obtain ⟨read, tlv, hexts, hwellFormed, hend, _, hoctets⟩ := readExtensions_liesIn hchain
    rw [List.nil_append] at hexts
    subst hexts
    refine ⟨rfl, rfl, hwellFormed, extensions.flatMap Extension.encode ++ tlv,
      (octets.drop stop).drop header.length.toNat, ?_, ?_⟩
    · rw [hoctets, hbody, List.append_assoc]
    · rw [ChainedBy, hflag]
      exact ⟨tlv, hend, rfl⟩

/-- **A frame that is accepted is what its datagram begins with.** -/
theorem decode_liesIn {octets : Bytes} {f : Frame} (h : decode octets = .ok f) :
    (∀ e ∈ f.extensions, e.WellFormed) ∧ f.LiesIn octets := by
  obtain ⟨b, _, hbranch⟩ := decode_branches h
  rcases hbranch with ⟨_, long, hdecode, _, hrest⟩ | ⟨_, header, hdecode, hrest⟩
  · obtain ⟨hlong, hheader, hwellFormed, chain, rest, hoctets, hchain⟩ := decodeRest_liesIn hrest
    have hsize := LongHeader.length_of_decode hdecode
    have hhead : (octets.take longHeaderSize).length = longHeaderSize := by
      rw [List.length_take, Nat.min_eq_left hsize]
    refine ⟨hwellFormed, octets.take longHeaderSize, chain, rest, ?_, ?_, hchain⟩
    · rw [← hoctets, List.take_append_drop]
    · rw [← List.take_append_drop longHeaderSize octets, LongHeader.decode_append _ hhead.ge] at hdecode
      rw [HeadedBy, hlong]
      exact ⟨hhead, hdecode, hheader.symm⟩
  · obtain ⟨hlong, hheader, hwellFormed, chain, rest, hoctets, hchain⟩ := decodeRest_liesIn hrest
    have hsize := ShortHeader.length_of_decode hdecode
    have hhead : (octets.take shortHeaderSize).length = shortHeaderSize := by
      rw [List.length_take, Nat.min_eq_left hsize]
    refine ⟨hwellFormed, octets.take shortHeaderSize, chain, rest, ?_, ?_, hchain⟩
    · rw [← hoctets, List.take_append_drop]
    · rw [← List.take_append_drop shortHeaderSize octets, ShortHeader.decode_append _ hhead.ge] at hdecode
      rw [HeadedBy, hlong, hheader]
      exact ⟨hhead, hdecode⟩

/-- A frame is no longer than what it is read from. -/
theorem wireSize_le_of_decode {octets : Bytes} {f : Frame} (h : decode octets = .ok f) : f.wireSize ≤ octets.length := by
  obtain ⟨hwellFormed, head, chain, rest, rfl, hhead, hchain⟩ := decode_liesIn h
  have hheader : head.length = if f.longHeader.isSome then longHeaderSize else shortHeaderSize := by
    rw [HeadedBy] at hhead
    split at hhead
    · rename_i hlong
      rw [hlong]
      exact hhead.1
    · rename_i hlong
      rw [hlong]
      exact hhead.1
  have hexts : (if f.header.hasExtensions then (f.extensions.map Extension.wireSize).sum + 4 else 0) ≤ chain.length := by
    rw [ChainedBy] at hchain
    split
    · rename_i hflag
      rw [if_pos hflag] at hchain
      obtain ⟨tlv, hend, rfl⟩ := hchain
      rw [List.length_append, encodeAll_length hwellFormed]
      exact Nat.add_le_add_left hend.length _
    · exact Nat.zero_le _
  rw [wireSize, List.length_append, List.length_append, List.length_append, ← hheader]
  omega

/-! ### Frames cut short -/

/-- **A frame that is cut short is refused**, wherever the cut is. -/
theorem truncated_refused (f : Frame) (h : f.WellFormed) (p : Bytes) (hp : p <+: f.encode) (hcut : p ≠ f.encode) :
    ∃ e, decode p = .error (.err e) := by
  obtain ⟨rest, hrest⟩ := hp
  cases hdecode : decode p with
  | error stop =>
    cases stop with
    | err e => exact ⟨e, rfl⟩
    | panic => exact absurd hdecode (safe_decode p)
  | ok g =>
    -- What `p` is read as, all of `f` is read as, which is `f`; but `f` is longer than `p`.
    have hall := decode_append hdecode rest
    rw [hrest, decode_encode_self f h] at hall
    cases hall
    have hsize := wireSize_le_of_decode hdecode
    rw [← encode_length f h.extensions, ← hrest, List.length_append] at hsize
    have hnil : rest = [] := List.eq_nil_of_length_eq_zero (by omega)
    rw [hnil, List.append_nil] at hrest
    exact absurd hrest hcut

theorem truncated_refused_stamped : ∃ e, decode (stamped.encode.take 30) = .error (.err e) :=
  truncated_refused stamped stamped_wellFormed (stamped.encode.take 30) (List.take_prefix _ _) (by decide)

/-! ### The form of the header -/

/-- The type bits of a header's first two octets, and the types that they give. -/
theorem frameType_of_decode {octets : Bytes} {header : ShortHeader} (h : ShortHeader.decode octets = .ok header) {b0 b1 : UInt8}
    (hb0 : octets[0]? = some b0) (hb1 : octets[1]? = some b1) :
    FrameType.fromU8 ((((b0 &&& 0x0F) &&& 0x3F) <<< 2) ||| ((b1 >>> 6) &&& 0x03)) = some header.frameType := by
  unfold ShortHeader.decode at h
  split at h
  · cases h
  · rw [index_eq_ok.mpr hb0, ok_bind, index_eq_ok.mpr hb1, ok_bind] at h
    dsimp only at h
    split at h
    · cases h
    · rename_i frameType htype
      simp only [bind_eq_ok] at h
      obtain ⟨sid, _, offset, _, length, _, cid, _, h⟩ := h
      cases h
      exact htype

/-- The two types that ask for a long header are those whose first five bits are zero. -/
theorem requiresLongHeader_iff {b0 b1 : UInt8} {frameType : FrameType}
    (h : FrameType.fromU8 ((((b0 &&& 0x0F) &&& 0x3F) <<< 2) ||| ((b1 >>> 6) &&& 0x03)) = some frameType) :
    frameType.requiresLongHeader = true ↔ b0 &&& 0x0F = 0 ∧ b1 &&& 0x80 = 0 := by
  have hall : ∀ (hi : Fin 16) (lo : Fin 4),
      (FrameType.fromU8 ((UInt8.ofNat hi.val &&& 0x3F) <<< 2 ||| UInt8.ofNat lo.val)).any FrameType.requiresLongHeader =
        decide (UInt8.ofNat hi.val = 0 ∧ UInt8.ofNat lo.val &&& 0x02 = 0) := by
    decide
  have hhi : (b0 &&& 0x0F).toNat < 16 := Nat.lt_succ_of_le (toNat_and_le b0 0x0F)
  have hlo : ((b1 >>> 6) &&& 0x03).toNat < 4 := Nat.lt_succ_of_le (toNat_and_le _ 0x03)
  have hbits := hall ⟨_, hhi⟩ ⟨_, hlo⟩
  simp only [UInt8.ofNat_toNat, h, Option.any_some] at hbits
  have htop : ((b1 >>> 6) &&& 0x03) &&& 0x02 = 0 ↔ b1 &&& 0x80 = 0 := by
    refine forall_octet_lt b1 b1.toNat_lt ?_
    decide +kernel
  rw [hbits, decide_eq_true_iff, htop]

/-- **The form of the header is that of the type, but for Initial and Handshake with a short header.** -/
theorem header_form_iff (octets : Bytes) (f : Frame) (h : decode octets = .ok f) :
    (f.longHeader.isSome = true ↔ f.header.frameType = .initial ∨ f.header.frameType = .handshake) ↔
      ∀ b0 b1, octets[0]? = some b0 → octets[1]? = some b1 →
        b1 &&& 0x20 ≠ 0 ∨ b0 &&& 0x0F ≠ 0 ∨ b1 &&& 0x80 ≠ 0 := by
  have htypes : f.header.frameType = .initial ∨ f.header.frameType = .handshake ↔
      f.header.frameType.requiresLongHeader = true := by
    cases f.header.frameType <;> decide
  obtain ⟨b1, hb1, hbranch⟩ := decode_branches h
  rw [htypes]
  rcases hbranch with ⟨hbit, long, _, htype, hrest⟩ | ⟨hbit, header, hdecode, hrest⟩
  · obtain ⟨hlong, hheader, _⟩ := decodeRest_liesIn hrest
    rw [hlong, hheader]
    refine iff_of_true (iff_of_true rfl htype) fun b0 b1' _ hb1' => .inl ?_
    cases hb1.symm.trans hb1'
    exact hbit
  · obtain ⟨hlong, hheader, _⟩ := decodeRest_liesIn hrest
    have hsize := ShortHeader.length_of_decode hdecode
    obtain ⟨b0, hb0⟩ : ∃ b0, octets[0]? = some b0 :=
      ⟨_, List.getElem?_eq_getElem (Nat.lt_of_lt_of_le (by decide) hsize)⟩
    have htype := requiresLongHeader_iff (frameType_of_decode hdecode hb0 hb1)
    rw [hlong, hheader, htype]
    constructor
    · intro hform b0' b1' hb0' hb1'
      cases hb0.symm.trans hb0'
      cases hb1.symm.trans hb1'
      by_contra hnone
      push Not at hnone
      exact absurd (hform.mpr hnone.2) (by decide)
    · intro hcond
      refine iff_of_false (by decide) fun hzero => ?_
      rcases hcond _ _ hb0 hb1 with h | h | h
      · exact h hbit
      · exact h hzero.1
      · exact h hzero.2

theorem header_form_iff_stamped :
    (stamped.longHeader.isSome = true ↔ stamped.header.frameType = .initial ∨ stamped.header.frameType = .handshake) ↔
      ∀ b0 b1, stamped.encode[0]? = some b0 → stamped.encode[1]? = some b1 →
        b1 &&& 0x20 ≠ 0 ∨ b0 &&& 0x0F ≠ 0 ∨ b1 &&& 0x80 ≠ 0 :=
  header_form_iff stamped.encode stamped (decode_encode_self stamped stamped_wellFormed)

/-- An Initial frame with a short header is accepted. -/
theorem header_form_initial : ¬ ∀ (octets : Bytes) (f : Frame), decode octets = .ok f →
    (f.longHeader.isSome = true ↔ f.header.frameType = .initial ∨ f.header.frameType = .handshake) := by
  intro hall
  have hread := decode_encode_self (newShort .initial 0 7 0 []) (newShort_wellFormed .initial (by decide) 7 0 (by decide))
  exact absurd ((hall _ _ hread).mpr (.inl rfl)) (by decide)

end Frame

end Aether
