import Aether.Handshake.Context
import Aether.Library.Marker

/-! What a transcript says of the two hellos in it.

A transcript is two payloads, each behind a text, and no lengths, on either side
(`transcript_answered`, `transcript_accepted`); the decoders take
what is behind the last field of a hello for granted. So a ClientHello may go on with
the second text and a ServerHello of its own, and where the ServerHello begins is not
in the transcript. That is the only way for two transcripts to be the same
(`transcript_eq_iff`), and it leaves the ClientHello's fields alone. -/
namespace Aether
open Octets

/-- The transcript of two payloads. -/
def transcriptOf (clientHello serverHello : Bytes) : Bytes :=
  clientHelloTag ++ clientHello ++ (serverHelloTag ++ serverHello)

/-- `b"erverHello:"` -/
def serverHelloTagRest : Bytes := ascii ['e', 'r', 'v', 'e', 'r', 'H', 'e', 'l', 'l', 'o', ':']

theorem serverHelloTag_eq : serverHelloTag = 0x53 :: serverHelloTagRest := by decide

/-- A hello with nothing behind its last field. -/
def ClientHello.Whole (octets : Bytes) : Prop := ∃ hello, ClientHello.read octets = .ok (hello, [])

section
variable {P : Primitives}

/-- The transcripts of the two handlers are of this form. -/
theorem HandshakeContext.transcript_answered (connectionId : UInt64) (secret : P.Scalar) (frame : Frame)
    (hello : ClientHello) (identity : Identity P) (capabilities : Capabilities) :
    (newServer.answered connectionId secret frame hello identity capabilities).transcript =
      transcriptOf frame.payload
        (newServer.serverHelloOf connectionId secret frame hello identity capabilities).encode := rfl

theorem HandshakeContext.transcript_accepted {c : HandshakeContext P} {clientHello : Bytes}
    (h : c.transcript = clientHelloTag ++ clientHello) (secret : P.Scalar) (frame : Frame) (hello : ServerHello) :
    (c.accepted secret frame hello).transcript = transcriptOf clientHello frame.payload := by
  rw [accepted, h]
  rfl

end

/-- **Transcripts are equal where the payloads are, or one ClientHello goes on with the
second text and octets with which the other's ServerHello begins.** -/
theorem transcript_eq_iff {c₁ c₂ s₁ s₂ : Bytes} :
    transcriptOf c₁ s₁ = transcriptOf c₂ s₂ ↔
      (c₁ = c₂ ∧ s₁ = s₂) ∨ (∃ x, c₂ = c₁ ++ (serverHelloTag ++ x) ∧ s₁ = x ++ (serverHelloTag ++ s₂)) ∨
        ∃ x, c₁ = c₂ ++ (serverHelloTag ++ x) ∧ s₂ = x ++ (serverHelloTag ++ s₁) := by
  have hmarker : (0x53 : UInt8) ∉ serverHelloTagRest := by decide
  rw [transcriptOf, transcriptOf, List.append_assoc, List.append_assoc, List.append_cancel_left_eq, serverHelloTag_eq]
  exact append_marker_eq_iff hmarker

/-- A hello with octets behind it is not whole. -/
theorem ClientHello.not_whole_append {octets : Bytes} {hello : ClientHello} (h : decode octets = .ok hello) {t : Bytes}
    (ht : t ≠ []) : ¬ Whole (octets ++ t) := by
  rintro ⟨hello', hread⟩
  rw [decode] at h
  split at h
  · cases h
  · rw [StateT.run'] at h
    cases hfirst : read octets with
    | error e =>
      rw [hfirst] at h
      cases h
    | ok p =>
      rw [extends_read t hfirst] at hread
      have hrest : p.2 ++ t = [] := congrArg Prod.snd (Except.ok.inj hread)
      exact ht (List.append_eq_nil_iff.mp hrest).2

/-- **What two equal transcripts with accepted ClientHellos have in common.** -/
theorem transcript_tells {c₁ c₂ s₁ s₂ : Bytes} {h₁ h₂ : ClientHello} (hc₁ : ClientHello.decode c₁ = .ok h₁)
    (hc₂ : ClientHello.decode c₂ = .ok h₂) :
    (transcriptOf c₁ s₁ = transcriptOf c₂ s₂ ↔
      (c₁ = c₂ ∧ s₁ = s₂) ∨ (∃ x, c₂ = c₁ ++ (serverHelloTag ++ x) ∧ s₁ = x ++ (serverHelloTag ++ s₂)) ∨
        ∃ x, c₁ = c₂ ++ (serverHelloTag ++ x) ∧ s₂ = x ++ (serverHelloTag ++ s₁)) ∧
    (transcriptOf c₁ s₁ = transcriptOf c₂ s₂ → h₁ = h₂) ∧
    (ClientHello.Whole c₁ → ClientHello.Whole c₂ → transcriptOf c₁ s₁ = transcriptOf c₂ s₂ → c₁ = c₂ ∧ s₁ = s₂) := by
  have hne : ∀ x, serverHelloTag ++ x ≠ [] := fun x h => absurd (List.append_eq_nil_iff.mp h).1 (by decide)
  refine ⟨transcript_eq_iff, fun h => ?_, fun hwhole₁ hwhole₂ h => ?_⟩
  · rcases transcript_eq_iff.mp h with ⟨rfl, _⟩ | ⟨x, rfl, _⟩ | ⟨x, rfl, _⟩
    · exact Except.ok.inj (hc₁.symm.trans hc₂)
    · exact Except.ok.inj ((ClientHello.decode_append hc₁ _).symm.trans hc₂)
    · exact Except.ok.inj (hc₁.symm.trans (ClientHello.decode_append hc₂ _))
  · rcases transcript_eq_iff.mp h with hsame | ⟨x, rfl, _⟩ | ⟨x, rfl, _⟩
    · exact hsame
    · exact absurd hwhole₂ (ClientHello.not_whole_append hc₁ (hne x))
    · exact absurd hwhole₁ (ClientHello.not_whole_append hc₂ (hne x))

/-- A ClientHello and a ServerHello, each with the second text and a ServerHello behind it. -/
def followedHello : Bytes := manyVersions.encode ++ (serverHelloTag ++ shortProof.encode)

def followedProof : Bytes := shortProof.encode ++ (serverHelloTag ++ shortProof.encode)

theorem transcript_tells_followed :
    (transcriptOf manyVersions.encode followedProof = transcriptOf followedHello shortProof.encode ↔
      (manyVersions.encode = followedHello ∧ followedProof = shortProof.encode) ∨
        (∃ x, followedHello = manyVersions.encode ++ (serverHelloTag ++ x) ∧
          followedProof = x ++ (serverHelloTag ++ shortProof.encode)) ∨
        ∃ x, manyVersions.encode = followedHello ++ (serverHelloTag ++ x) ∧
          shortProof.encode = x ++ (serverHelloTag ++ followedProof)) ∧
    (transcriptOf manyVersions.encode followedProof = transcriptOf followedHello shortProof.encode →
      manyVersions = manyVersions) ∧
    (ClientHello.Whole manyVersions.encode → ClientHello.Whole followedHello →
      transcriptOf manyVersions.encode followedProof = transcriptOf followedHello shortProof.encode →
        manyVersions.encode = followedHello ∧ followedProof = shortProof.encode) :=
  transcript_tells (manyVersions.decode_encode_self (by decide)) (manyVersions.decode_encode (by decide) _)

/-- One transcript, two pairs of hellos. -/
theorem transcript_ambiguous :
    ∃ c₁ c₂ s₁ s₂, (∃ h, ClientHello.decode c₁ = .ok h) ∧ (∃ h, ClientHello.decode c₂ = .ok h) ∧
      (∃ h, ServerHello.decode s₁ = .ok h) ∧ (∃ h, ServerHello.decode s₂ = .ok h) ∧
        transcriptOf c₁ s₁ = transcriptOf c₂ s₂ ∧ ¬ (c₁ = c₂ ∧ s₁ = s₂) := by
  refine ⟨manyVersions.encode, followedHello, followedProof, shortProof.encode,
    ⟨_, manyVersions.decode_encode_self (by decide)⟩, ⟨_, manyVersions.decode_encode (by decide) _⟩,
    ⟨_, shortProof.decode_encode (by decide) _⟩, ⟨_, shortProof.decode_encode_self (by decide)⟩, ?_, ?_⟩
  · exact transcript_eq_iff.mpr (.inr (.inl ⟨shortProof.encode, by rw [followedHello], by rw [followedProof]⟩))
  · intro h
    have hnil := List.self_eq_append_right.mp h.1
    exact absurd (List.append_eq_nil_iff.mp hnil).1 (by decide)

end Aether
