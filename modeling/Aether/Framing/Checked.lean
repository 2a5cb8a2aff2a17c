import Aether.Framing.Layout

/-! `Frame::decode` with the sums it computes and the turns its loops take.

`Frame.decode` adds natural numbers, and its chain loop is a recursion that Lean has
seen to end. Here the sums are those of a 64-bit `usize`, which abort the program
where they overflow, and the loop is left undone after a given number of turns. Every
turn of the loop stays inside the datagram and moves four octets on at least, so that
a quarter of the datagram's octets, and one, are turns enough, and no sum exceeds the
datagram by more than a 32-bit length: the two decoders are one (`decode_eq`). -/
namespace Aether
open Octets

namespace Checked

/-- `Extension::decode`; every `4 + len` of the source is a sum. -/
def decodeExtension (data : Bytes) : Result (Extension × Nat) :=
  if data.length < 4 then
    fail (.protocolViolation "Extension too short")
  else do
    let extType := (ExtType.fromU8 (← index data 0)).getD .terminator
    let len ← word 3 data 1
    let need ← checkedAdd 64 4 len
    if data.length < need then
      fail (.protocolViolation
        s!"Extension value truncated: need {len} bytes, have {data.length - 4}")
    else do
      let stop ← checkedAdd 64 4 len
      let value ← slice data 4 stop
      let consumed ← checkedAdd 64 4 len
      return (⟨extType, value⟩, consumed)

/-- What a turn of the chain loop reads, and the offset it leaves. -/
def turn (data : Bytes) (offset : Nat) : Result (Extension × Nat) := do
  let (ext, consumed) ← sliceFrom data offset >>= decodeExtension
  let next ← checkedAdd 64 offset consumed
  return (ext, next)

/-- The chain loop, `none` where it goes on after so many turns. -/
def readExtensions (data : Bytes) : Nat → Nat → List Extension → Option (Result (List Extension × Nat))
  | 0, _, _ => none
  | turns + 1, offset, extensions =>
    if data.length ≤ offset then
      some (fail (.protocolViolation "Truncated extension chain"))
    else
      match turn data offset with
      | .error e => some (.error e)
      | .ok (ext, next) =>
        if ext.extType = .terminator then some (.ok (extensions, next))
        else readExtensions data turns next (extensions ++ [ext])

def readPayload (data : Bytes) (offset payloadLen : Nat) : Result Bytes := do
  let need ← checkedAdd 64 offset payloadLen
  if need ≤ data.length then
    let stop ← checkedAdd 64 offset payloadLen
    slice data offset stop
  else
    fail (.protocolViolation
      s!"Payload truncated: expected {payloadLen} bytes, available {data.length - offset}")

def decodeRest (turns : Nat) (longHeader : Option LongHeader) (header : ShortHeader) (data : Bytes) (headerSize : Nat) :
    Option (Result Frame) :=
  let chain := if header.hasExtensions then readExtensions data turns headerSize [] else some (.ok ([], headerSize))
  chain.map fun read => do
    let (extensions, offset) ← read
    let payload ← readPayload data offset header.length.toNat
    return { longHeader, header, extensions, payload }

def decode (turns : Nat) (data : Bytes) : Option (Result Frame) :=
  if data.isEmpty then some (fail (.protocolViolation "Empty frame"))
  else
    match (if 1 < data.length then index data 1 else pure 0 : Result UInt8) with
    | .error e => some (.error e)
    | .ok byte1 =>
      if byte1 &&& 0x20 != 0 then
        match LongHeader.decode data with
        | .error e => some (.error e)
        | .ok long =>
          let header := long.short
          if !header.frameType.requiresLongHeader then
            some (fail (.protocolViolation
              s!"Frame type {header.frameType.debug} should not use long header"))
          else
            decodeRest turns (some long) header data longHeaderSize
      else
        match ShortHeader.decode data with
        | .error e => some (.error e)
        | .ok header => decodeRest turns none header data shortHeaderSize

/-! ### The sums -/

theorem decodeExtension_eq (data : Bytes) : decodeExtension data = Extension.decode data := by
  rw [decodeExtension, Extension.decode]
  split
  · rfl
  · refine bind_congr fun b => ?_
    cases hlen : word (ε := Error) 3 data 1 with
    | error e => rfl
    | ok len =>
      have hlt : len < 256 ^ 3 := (toBe_word hlen).1
      have hsum : checkedAdd (ε := Error) 64 4 len = .ok (4 + len) := checkedAdd_of_lt (by omega)
      simp only [ok_bind, hsum]

/-- A turn stays inside the datagram and moves on. -/
theorem turn_eq {data : Bytes} (hsize : data.length < 2 ^ 63) {offset : Nat} :
    turn data offset = (sliceFrom data offset >>= Extension.decode) >>= fun read => pure (read.1, offset + read.2) := by
  rw [turn, funext decodeExtension_eq]
  cases hread : (sliceFrom data offset >>= Extension.decode) with
  | error e => rfl
  | ok read =>
    obtain ⟨left, hslice, hdecode⟩ := bind_eq_ok.mp hread
    obtain ⟨hoffset, rfl⟩ := sliceFrom_eq_ok.mp hslice
    obtain ⟨_, _, hconsumed, _⟩ := Extension.decode_eq_ok hdecode
    rw [List.length_drop] at hconsumed
    have hsum : checkedAdd (ε := Error) 64 offset read.2 = .ok (offset + read.2) := checkedAdd_of_lt (by omega)
    simp only [ok_bind, hsum]

/-! ### The loop -/

theorem readExtensions_eq {data : Bytes} (hsize : data.length < 2 ^ 63) {turns offset : Nat} {acc : List Extension}
    (hturns : (data.length - offset) / 4 < turns) :
    readExtensions data turns offset acc = some (Aether.readExtensions data offset acc) := by
  induction turns generalizing offset acc with
  | zero => exact absurd hturns (Nat.not_lt_zero _)
  | succ turns ih =>
    rw [readExtensions, Aether.readExtensions]
    split
    · rfl
    · rename_i hleft
      rw [turn_eq hsize]
      cases hread : (sliceFrom data offset >>= Extension.decode) with
      | error e => rfl
      | ok read =>
        obtain ⟨ext, consumed⟩ := read
        obtain ⟨left, hslice, hdecode⟩ := bind_eq_ok.mp hread
        obtain ⟨_, rfl⟩ := sliceFrom_eq_ok.mp hslice
        obtain ⟨_, _, hconsumed, _⟩ := Extension.decode_eq_ok hdecode
        rw [List.length_drop] at hconsumed
        have hfour := Extension.decode_consumed hdecode
        simp only [ok_bind, pure, Except.pure]
        split
        · rfl
        · exact ih (by omega)

/-- Where the loop ends it has not left the datagram. -/
theorem chain_offset_le {header : ShortHeader} {data : Bytes} {headerSize stop : Nat} {extensions : List Extension}
    (hheader : headerSize ≤ data.length)
    (h : (if header.hasExtensions then Aether.readExtensions data headerSize [] else pure ([], headerSize)) =
      .ok (extensions, stop)) : stop ≤ data.length := by
  split at h
  · obtain ⟨_, _, _, _, _, hstop, _⟩ := readExtensions_liesIn h
    exact hstop
  · cases h
    exact hheader

theorem readPayload_eq {data : Bytes} (hsize : data.length < 2 ^ 63) {offset : Nat} (hoffset : offset ≤ data.length)
    (length : UInt32) : readPayload data offset length.toNat = Aether.readPayload data offset length.toNat := by
  have hlt : length.toNat < 2 ^ 32 := length.toNat_lt
  have hsum : checkedAdd (ε := Error) 64 offset length.toNat = .ok (offset + length.toNat) := checkedAdd_of_lt (by omega)
  simp only [readPayload, Aether.readPayload, hsum, ok_bind]

theorem decodeRest_eq {data : Bytes} (hsize : data.length < 2 ^ 63) {turns : Nat} (hturns : data.length / 4 < turns)
    (long : Option LongHeader) (header : ShortHeader) {headerSize : Nat} (hheader : headerSize ≤ data.length) :
    decodeRest turns long header data headerSize = some (Frame.decodeRest long header data headerSize) := by
  have hloop : (if header.hasExtensions then readExtensions data turns headerSize [] else some (.ok ([], headerSize))) =
      some (if header.hasExtensions then Aether.readExtensions data headerSize [] else pure ([], headerSize)) := by
    split
    · exact readExtensions_eq hsize (by omega)
    · rfl
  rw [decodeRest, hloop, Frame.decodeRest_eq]
  dsimp only [Option.map_some]
  refine congrArg some ?_
  cases hchain : (if header.hasExtensions then Aether.readExtensions data headerSize [] else pure ([], headerSize)) with
  | error e => rfl
  | ok chain =>
    obtain ⟨extensions, stop⟩ := chain
    simp only [ok_bind, readPayload_eq hsize (chain_offset_le hheader hchain)]

/-- The decoder of the machine is the one of the natural numbers. -/
theorem decode_eq {data : Bytes} (hsize : data.length < 2 ^ 63) {turns : Nat} (hturns : data.length / 4 < turns) :
    decode turns data = some (Frame.decode data) := by
  rw [decode, Frame.decode_eq]
  split
  · rfl
  · cases (if 1 < data.length then index data 1 else pure 0 : Result UInt8) with
    | error e => rfl
    | ok byte1 =>
      simp only [ok_bind]
      split
      · cases hlong : LongHeader.decode data with
        | error e => rfl
        | ok long =>
          simp only [ok_bind]
          split
          · rfl
          · exact decodeRest_eq hsize hturns _ _ (LongHeader.length_of_decode hlong)
      · cases hshort : ShortHeader.decode data with
        | error e => rfl
        | ok header => exact decodeRest_eq hsize hturns _ _ (ShortHeader.length_of_decode hshort)

end Checked

/-- **Decoding is safe on any datagram**: its loops end, its reads stay inside, its sums fit;
and a frame that is accepted lies in the datagram, part behind part. A slice has less
than `2 ^ 63` octets. -/
theorem Frame.decode_within (octets : Bytes) (hsize : octets.length < 2 ^ 63) :
    (∀ turns, octets.length / 4 < turns → Checked.decode turns octets = some (decode octets)) ∧
      Safe (decode octets) ∧
      ∀ f, decode octets = .ok f →
        f.payload.length = f.header.length.toNat ∧ (∀ e ∈ f.extensions, e.extType ≠ .terminator) ∧ f.LiesIn octets := by
  refine ⟨fun turns hturns => Checked.decode_eq hsize hturns, safe_decode octets, fun f h => ?_⟩
  obtain ⟨hwellFormed, hlies⟩ := decode_liesIn h
  exact ⟨decode_payload_length h, fun e he => (hwellFormed e he).notTerminator, hlies⟩

theorem Frame.decode_within_stamped :
    (∀ turns, stamped.encode.length / 4 < turns → Checked.decode turns stamped.encode = some (decode stamped.encode)) ∧
      Safe (decode stamped.encode) ∧
      ∀ f, decode stamped.encode = .ok f →
        f.payload.length = f.header.length.toNat ∧ (∀ e ∈ f.extensions, e.extType ≠ .terminator) ∧
          f.LiesIn stamped.encode :=
  decode_within stamped.encode (by decide)

end Aether
