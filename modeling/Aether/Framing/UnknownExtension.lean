import Aether.Framing.RoundTrip

/-! Unknown extensions in a chain.

`ExtType::from_u8` has no type for an octet above 5 and `Extension::decode` puts
the terminator in its place, so the first unknown TLV ends the chain and what
stands behind it is read as payload. `readAs` says what is left of a chain with
insertions, `decode_spliced` what a whole frame decodes to, and
`decode_spliced_iff` when that is the frame the insertions were made in: only
when there are none, or when the octets behind the first happen to spell the
payload. -/
namespace Aether
open Octets

/-- A TLV whose type octet has no name yet. -/
structure UnknownTlv where
  code : UInt8
  value : Bytes
  unknown : 0x06 ≤ code
  short : value.length < 2 ^ 24

def UnknownTlv.encode (u : UnknownTlv) : Bytes := u.code :: (toBe 3 u.value.length ++ u.value)

/-- An element of a chain as it stands on the wire. -/
inductive Tlv where
  | known (e : Extension)
  | unknown (u : UnknownTlv)

namespace Tlv

def encode : Tlv → Bytes
  | known e => e.encode
  | unknown u => u.encode

def known? : Tlv → Option Extension
  | known e => some e
  | unknown _ => none

end Tlv

theorem UnknownTlv.fromU8 (u : UnknownTlv) : ExtType.fromU8 u.code = none := by
  have h : 6 ≤ u.code.toNat := UInt8.le_iff_toNat_le.mp u.unknown
  unfold ExtType.fromU8
  split <;> first | omega | rfl

theorem UnknownTlv.encode_length (u : UnknownTlv) : u.encode.length = 4 + u.value.length := by
  simp [encode]
  omega

/-- An unknown TLV reads as a terminator that has a value. -/
theorem UnknownTlv.decode_encode (u : UnknownTlv) (t : Bytes) :
    Extension.decode (u.encode ++ t) = .ok (⟨.terminator, u.value⟩, u.encode.length) := by
  rw [u.encode_length, encode, List.cons_append, List.append_assoc,
    Extension.decode_tlv _ _ _ u.short, u.fromU8]
  rfl

/-! ### Insertions -/

namespace Frame

/-- The octets of a frame whose chain is `chain`. -/
def spliced (f : Frame) (chain : List Tlv) : Bytes :=
  f.headerOctets ++ (chain.flatMap Tlv.encode ++ (extensionTerminator.encode ++ f.payload))

/-- The chains that insertions of unknown TLVs make of a frame's own. -/
inductive Grown (f : Frame) : List Tlv → Prop where
  | start : Grown f (f.extensions.map .known)
  | insert (before after : List Tlv) (u : UnknownTlv) :
      Grown f (before ++ after) → Grown f (before ++ .unknown u :: after)

/-- With nothing inserted these are the octets `encode` writes. -/
theorem spliced_start (f : Frame) (h : f.header.hasExtensions = true) :
    f.spliced (f.extensions.map .known) = f.encode := by
  have hmap : (f.extensions.map Tlv.known).flatMap Tlv.encode = f.extensions.flatMap Extension.encode := by
    rw [List.flatMap_map]
    rfl
  simp only [spliced, encode, hmap, h, if_true, List.append_assoc]

/-- An insertion into the chain is an insertion into the octets, between two TLVs. -/
theorem spliced_insert (f : Frame) (before after : List Tlv) (u : UnknownTlv) :
    let n := f.headerOctets.length + (before.flatMap Tlv.encode).length
    f.spliced (before ++ .unknown u :: after) =
      (f.spliced (before ++ after)).take n ++ u.encode ++ (f.spliced (before ++ after)).drop n := by
  have hsplit : f.spliced (before ++ after) = (f.headerOctets ++ before.flatMap Tlv.encode) ++
      (after.flatMap Tlv.encode ++ (extensionTerminator.encode ++ f.payload)) := by
    simp only [spliced, List.flatMap_append, List.append_assoc]
  intro n
  have hn : (f.headerOctets ++ before.flatMap Tlv.encode).length = n := List.length_append
  rw [hsplit, List.take_left' hn, List.drop_left' hn]
  simp only [spliced, List.flatMap_append, List.flatMap_cons, Tlv.encode, List.append_assoc]

theorem Grown.known {f : Frame} {chain : List Tlv} (h : Grown f chain) :
    chain.filterMap Tlv.known? = f.extensions := by
  induction h with
  | start =>
    rw [List.filterMap_map]
    exact List.filterMap_some
  | insert before after u _ ih =>
    rw [List.filterMap_append] at ih ⊢
    exact ih

end Frame

/-! ### What a chain reads as -/

/-- What the loop collects of a chain, and the octets of the chain it leaves unread. -/
def readAs : List Tlv → List Extension × Bytes
  | [] => ([], [])
  | .known e :: rest => (e :: (readAs rest).1, (readAs rest).2)
  | .unknown _ :: rest => ([], rest.flatMap Tlv.encode ++ extensionTerminator.encode)

theorem readExtensions_tlvs (pre : Bytes) (chain : List Tlv) (acc : List Extension) (rest : Bytes)
    (h : ∀ e ∈ chain.filterMap Tlv.known?, e.WellFormed) :
    ∃ consumed : Bytes, pre ++ (chain.flatMap Tlv.encode ++ (extensionTerminator.encode ++ rest)) =
        consumed ++ ((readAs chain).2 ++ rest) ∧
      readExtensions (pre ++ (chain.flatMap Tlv.encode ++ (extensionTerminator.encode ++ rest)))
        pre.length acc = .ok (acc ++ (readAs chain).1, consumed.length) := by
  induction chain generalizing pre acc with
  | nil =>
    have hend := readExtensions_chain pre [] acc rest (fun e he => absurd he List.not_mem_nil)
    refine ⟨pre ++ extensionTerminator.encode, ?_, ?_⟩
    · simp only [List.flatMap_nil, List.nil_append, readAs, List.append_assoc]
    · simpa only [List.flatMap_nil, List.nil_append, readAs, List.append_nil] using hend
  | cons tlv chain ih =>
    cases tlv with
    | known e =>
      have he : e.WellFormed := h e (List.mem_cons_self ..)
      have hlen : e.encode.length = 4 + e.value.length := Extension.encode_length e he.short
      have hdec : ∀ t, Extension.decode (e.encode ++ t) = .ok (e, e.encode.length) := by
        intro t
        rw [hlen]
        exact Extension.decode_encode e he.short t
      obtain ⟨consumed, hsplit, hread⟩ := ih (pre ++ e.encode) (acc ++ [e])
        (fun e' he' => h e' (List.mem_cons_of_mem e he'))
      refine ⟨consumed, ?_, ?_⟩
      · simpa only [List.flatMap_cons, Tlv.encode, List.append_assoc, readAs] using hsplit
      · simp only [List.flatMap_cons, Tlv.encode, List.append_assoc] at hread ⊢
        rw [readExtensions_append acc (hdec _) (by omega), if_neg he.notTerminator]
        simpa only [List.append_assoc, List.singleton_append, readAs] using hread
    | unknown u =>
      refine ⟨pre ++ u.encode, ?_, ?_⟩
      · simp only [List.flatMap_cons, Tlv.encode, readAs, List.append_assoc]
      · have hne : 0 < u.encode.length := by rw [u.encode_length]; omega
        simp only [List.flatMap_cons, Tlv.encode, List.append_assoc]
        rw [readExtensions_append acc (u.decode_encode _) hne, if_pos rfl]
        simp only [readAs, List.append_nil]

/-- What is left unread stands before the payload and is taken for its beginning. -/
theorem Frame.decode_spliced (f : Frame) (h : f.WellFormed) (he : f.header.hasExtensions = true)
    (chain : List Tlv) (hc : ∀ e ∈ chain.filterMap Tlv.known?, e.WellFormed) :
    decode (f.spliced chain) = .ok { f with
      extensions := (readAs chain).1
      payload := ((readAs chain).2 ++ f.payload).take f.payload.length } := by
  obtain ⟨consumed, hsplit, hread⟩ := readExtensions_tlvs f.headerOctets chain [] f.payload hc
  have hpayload : readPayload (consumed ++ ((readAs chain).2 ++ f.payload)) consumed.length
      f.header.length.toNat = .ok (((readAs chain).2 ++ f.payload).take f.payload.length) := by
    rw [h.length]
    conv_lhs => rw [← List.take_append_drop f.payload.length ((readAs chain).2 ++ f.payload)]
    exact readPayload_append _ _ _ _ _ rfl (by simp)
  unfold spliced
  rw [decode_headerOctets f h]
  unfold decodeRest
  rw [he, if_pos rfl, hread]
  simp only [List.nil_append, ok_bind, hsplit, hpayload]
  rfl

/-! ### When insertions change nothing -/

/-- The condition on a chain and a payload under which insertions go unnoticed:
behind the first unknown TLV stands no known one, and the octets from there on
begin with the payload. -/
def Harmless (payload : Bytes) : List Tlv → Prop
  | [] => True
  | .known _ :: rest => Harmless payload rest
  | .unknown _ :: rest => rest.filterMap Tlv.known? = [] ∧
      (rest.flatMap Tlv.encode ++ (extensionTerminator.encode ++ payload)).take payload.length = payload

theorem readAs_eq_iff (payload : Bytes) (chain : List Tlv) :
    ((readAs chain).1 = chain.filterMap Tlv.known? ∧
        ((readAs chain).2 ++ payload).take payload.length = payload) ↔ Harmless payload chain := by
  induction chain with
  | nil => simp [readAs, Harmless]
  | cons tlv rest ih =>
    cases tlv with
    | known e =>
      rw [Harmless, ← ih]
      simp [readAs, Tlv.known?]
    | unknown u =>
      simp only [readAs, Harmless, List.filterMap_cons, Tlv.known?, List.append_assoc, eq_comm]

namespace Frame

/-- **Insertions are skipped exactly when they are harmless.** A frame with unknown
TLVs inserted anywhere in its chain, any number of them, decodes to the frame
itself if and only if nothing was inserted, or the insertions come after every
extension of the frame and the octets behind the first begin with its payload. -/
theorem decode_spliced_iff (f : Frame) (h : f.WellFormed) (he : f.header.hasExtensions = true)
    (chain : List Tlv) (hc : Grown f chain) :
    decode (f.spliced chain) = .ok f ↔ Harmless f.payload chain := by
  have hknown := hc.known
  rw [decode_spliced f h he chain (by rw [hknown]; exact h.extensions), ← readAs_eq_iff, hknown]
  constructor
  · intro heq
    injection heq with heq
    exact ⟨congrArg Frame.extensions heq, congrArg Frame.payload heq⟩
  · intro h
    obtain ⟨hexts, hpayload⟩ := h
    rw [hexts, hpayload]

/-- A data frame with one extension. -/
def prioritized (payload : Bytes) : Frame := (data 2 7 0 payload).addExtension ⟨.priority, [5]⟩

theorem prioritized_wellFormed (payload : Bytes) (h : payload.length < 2 ^ 32) :
    (prioritized payload).WellFormed where
  version := by show (0 : UInt8) < 16; decide
  streamId := by show (2 : UInt32) ≤ maxStreamId; decide
  length := by
    show (UInt32.ofNat payload.length).toNat = payload.length
    rw [UInt32.toNat_ofNat']
    exact Nat.mod_eq_of_lt h
  extensions := by
    intro e he
    cases List.mem_singleton.mp he
    exact ⟨by decide, by decide⟩
  noExtensions := fun h => nomatch h
  long := fun _ h => nomatch h

/-- The first type octet without a name, and no value. -/
def nextExtension : UnknownTlv := ⟨0x06, [], by decide, by decide⟩

/-- Behind the known extension, in front of a payload that begins as a terminator does. -/
theorem decode_spliced_iff_prioritized :
    decode ((prioritized [0, 0]).spliced [.known ⟨.priority, [5]⟩, .unknown nextExtension]) =
        .ok (prioritized [0, 0]) ↔
      Harmless [0, 0] [.known ⟨.priority, [5]⟩, .unknown nextExtension] :=
  decode_spliced_iff (prioritized [0, 0]) (prioritized_wellFormed _ (by decide)) rfl _
    (.insert [.known ⟨.priority, [5]⟩] [] nextExtension .start)

/-- In front of the known extension: the extension is lost, and the payload read is
the beginning of its encoding. -/
theorem decode_spliced_lost :
    Grown (prioritized [1, 2]) [.unknown nextExtension, .known ⟨.priority, [5]⟩] ∧
      (prioritized [1, 2]).spliced [.unknown nextExtension, .known ⟨.priority, [5]⟩] =
        (prioritized [1, 2]).encode.take (prioritized [1, 2]).headerOctets.length ++ nextExtension.encode ++
          (prioritized [1, 2]).encode.drop (prioritized [1, 2]).headerOctets.length ∧
      decode ((prioritized [1, 2]).spliced [.unknown nextExtension, .known ⟨.priority, [5]⟩]) =
        .ok { prioritized [1, 2] with extensions := [], payload := [2, 0] } ∧
      ¬ ∀ (f : Frame) (chain : List Tlv), f.WellFormed → f.header.hasExtensions = true →
        Grown f chain → decode (f.spliced chain) = .ok f := by
  have hgrown : Grown (prioritized [1, 2]) [.unknown nextExtension, .known ⟨.priority, [5]⟩] :=
    .insert [] [.known ⟨.priority, [5]⟩] nextExtension .start
  have hf := prioritized_wellFormed [1, 2] (by decide)
  have hdecode := decode_spliced (prioritized [1, 2]) hf rfl
    [.unknown nextExtension, .known ⟨.priority, [5]⟩] (by rw [hgrown.known]; exact hf.extensions)
  have hread : (readAs [.unknown nextExtension, .known ⟨.priority, [5]⟩]).2 = [2, 0, 0, 1, 5, 0, 0, 0, 0] := by
    decide
  rw [hread] at hdecode
  have hinserted := spliced_insert (prioritized [1, 2]) [] [.known ⟨.priority, [5]⟩] nextExtension
  have hencode : (prioritized [1, 2]).spliced [.known ⟨.priority, [5]⟩] = (prioritized [1, 2]).encode :=
    spliced_start (prioritized [1, 2]) rfl
  rw [List.nil_append, List.nil_append, hencode] at hinserted
  refine ⟨hgrown, hinserted, hdecode, ?_⟩
  intro hall
  have heq := (hall _ _ hf rfl hgrown).symm.trans hdecode
  injection heq with heq
  exact absurd (congrArg Frame.payload heq) (by decide)

end Frame

end Aether
