import Aether.Framing.Frame
import Aether.Library.Bounds

/-! `Frame::decode` stays inside the datagram, whatever the datagram is.

Each of its functions asks for as many octets as it reads before it reads them,
and the chain loop asks again for every extension. -/
namespace Aether
open Octets

theorem safe_fail {α : Type} (e : Error) : Safe (fail e : Result α) := safe_err e

theorem Extension.safe_decode (data : Bytes) : Safe (Extension.decode data) := by
  unfold Extension.decode
  split
  · exact safe_fail _
  · rename_i hfixed
    have hfour : 4 ≤ data.length := Nat.le_of_not_lt hfixed
    refine safe_bind (safe_index (by omega)) fun _ _ => safe_bind (safe_word hfour) fun len _ => ?_
    split
    · exact safe_fail _
    · rename_i hvalue
      exact safe_bind (safe_slice (Nat.le_add_right 4 len) (Nat.le_of_not_lt hvalue)) fun _ _ => safe_pure _

theorem ShortHeader.safe_decode (data : Bytes) : Safe (ShortHeader.decode data) := by
  unfold ShortHeader.decode
  split
  · exact safe_fail _
  · rename_i hshort
    have hsize : 16 ≤ data.length := Nat.le_of_not_lt hshort
    refine safe_bind (safe_index (by omega)) fun _ _ => safe_bind (safe_index (by omega)) fun _ _ => ?_
    dsimp only
    split
    · exact safe_fail _
    · refine safe_bind (safe_word (by omega)) fun _ _ => safe_bind (safe_word (by omega)) fun _ _ => ?_
      exact safe_bind (safe_word (by omega)) fun _ _ => safe_bind (safe_word hsize) fun _ _ => safe_pure _

theorem LongHeader.safe_decode (data : Bytes) : Safe (LongHeader.decode data) := by
  unfold LongHeader.decode
  split
  · exact safe_fail _
  · rename_i hlong
    have hsize : 24 ≤ data.length := Nat.le_of_not_lt hlong
    refine safe_bind (safe_slice (by decide) (by omega)) fun _ _ => ?_
    exact safe_bind (ShortHeader.safe_decode _) fun _ _ => safe_bind (safe_word hsize) fun _ _ => safe_pure _

/-- The loop slices only where it has seen that octets are left. -/
theorem safe_readExtensions (data : Bytes) (offset : Nat) (extensions : List Extension) :
    Safe (readExtensions data offset extensions) := by
  fun_induction readExtensions data offset extensions with
  | case1 => exact safe_fail _
  | case2 offset extensions hleft e hread =>
    have hsafe : Safe (sliceFrom data offset >>= Extension.decode) :=
      safe_bind (safe_sliceFrom (by omega)) fun rest _ => Extension.safe_decode rest
    rw [hread] at hsafe
    exact fun hpanic => hsafe (by cases hpanic; rfl)
  | case3 => exact safe_ok _
  | case4 _ _ _ _ _ _ _ ih => exact ih

theorem safe_readPayload (data : Bytes) (offset payloadLen : Nat) : Safe (readPayload data offset payloadLen) := by
  unfold readPayload
  split
  · rename_i hfits
    exact safe_slice (Nat.le_add_right offset payloadLen) hfits
  · exact safe_fail _

namespace Frame

/-- What follows a header, as a chain of fallible reads. -/
theorem decodeRest_eq (long : Option LongHeader) (header : ShortHeader) (octets : Bytes) (headerSize : Nat) :
    decodeRest long header octets headerSize =
      (if header.hasExtensions then readExtensions octets headerSize [] else pure ([], headerSize)) >>= fun chain =>
        readPayload octets chain.2 header.length.toNat >>= fun payload => pure ⟨long, header, chain.1, payload⟩ := by
  unfold decodeRest
  split <;> rfl

/-- What `decode` does, as a chain of fallible reads. -/
theorem decode_eq (octets : Bytes) :
    decode octets = if octets.isEmpty then fail (.protocolViolation "Empty frame") else
      (if 1 < octets.length then index octets 1 else pure 0) >>= fun byte1 =>
        if byte1 &&& 0x20 != 0 then LongHeader.decode octets >>= fun long =>
          if !long.short.frameType.requiresLongHeader then
            fail (.protocolViolation s!"Frame type {long.short.frameType.debug} should not use long header")
          else decodeRest (some long) long.short octets longHeaderSize
        else ShortHeader.decode octets >>= fun header => decodeRest none header octets shortHeaderSize := by
  unfold decode
  split
  · rfl
  · split <;> rfl

theorem safe_decodeRest (long : Option LongHeader) (header : ShortHeader) (octets : Bytes) (headerSize : Nat) :
    Safe (decodeRest long header octets headerSize) := by
  rw [decodeRest_eq]
  refine safe_bind ?_ fun _ _ => safe_bind (safe_readPayload _ _ _) fun _ _ => safe_pure _
  split
  · exact safe_readExtensions _ _ _
  · exact safe_pure _

/-- **Decoding a frame never aborts.** -/
theorem safe_decode (octets : Bytes) : Safe (decode octets) := by
  rw [decode_eq]
  split
  · exact safe_fail _
  · refine safe_bind ?_ fun byte1 _ => ?_
    · split
      · rename_i hlength
        exact safe_index hlength
      · exact safe_pure _
    · split
      · refine safe_bind (LongHeader.safe_decode octets) fun long _ => ?_
        split
        · exact safe_fail _
        · exact safe_decodeRest _ _ _ _
      · exact safe_bind (ShortHeader.safe_decode octets) fun _ _ => safe_decodeRest _ _ _ _

end Frame

end Aether
