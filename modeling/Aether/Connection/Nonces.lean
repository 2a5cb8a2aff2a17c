import Aether.Connection.Endpoint
import Aether.Connection.Establishment
import Aether.Library.Xor

/-! Whether a key is used twice with the same nonce.

A nonce stands for the packet number of the directional keys: under one IV no two
numbers have the same one (`makeNonce_injective`). But nothing counts the number up, so
every call of encrypt in the life of a connection is made with the same pair. The pairs
are distinct exactly where there is at most one call (`nonces_distinct`). -/
namespace Aether
open Octets Octets.Method Connection

section
variable {P : Primitives}

/-! ### Packet numbers -/

namespace DirectionalKeys

/-- What the IV is combined with: nothing in front, then the packet number. -/
def counterBlock (packetNumber : UInt64) : Block 12 := ⟨List.replicate 4 0 ++ toLe 8 packetNumber.toNat, by simp⟩

theorem counterBlock_inj {p q : UInt64} (h : counterBlock p = counterBlock q) : p = q := by
  have hbytes : toLe 8 p.toNat = toLe 8 q.toNat := List.append_cancel_left (congrArg List.Vector.toList h)
  exact UInt64.toNat_inj.mp (toLe_inj p.toNat_lt q.toNat_lt hbytes)

/-- **Under one IV a packet number has a nonce of its own**, and the first four octets of
the IV stay. -/
theorem makeNonce_injective (key : P.AeadKey) (iv : Block 12) (p q : UInt64) :
    ((⟨key, iv, p⟩ : DirectionalKeys P).makeNonce = (⟨key, iv, q⟩ : DirectionalKeys P).makeNonce ↔ p = q) ∧
      (⟨key, iv, p⟩ : DirectionalKeys P).makeNonce.toList.take 4 = iv.toList.take 4 := by
  have hnonce (n : UInt64) : (⟨key, iv, n⟩ : DirectionalKeys P).makeNonce =
      List.Vector.map₂ (· ^^^ ·) iv (counterBlock n) := rfl
  rw [hnonce, hnonce]
  refine ⟨⟨fun h => counterBlock_inj (xor_block_inj h), fun h => by rw [h]⟩, ?_⟩
  have hzeros : (counterBlock p).toList.take 4 = List.replicate (iv.toList.take 4).length 0 := by
    rw [List.length_take, iv.toList_length]
    rfl
  rw [toList_xor, List.take_zipWith, hzeros, zipWith_xor_zero]

end DirectionalKeys

namespace Endpoint

/-- How many frames an operation sends, if nothing stands in the way. -/
def Operation.frames : Operation → Nat
  | .sendFrame _ | .ping _ => 1
  | .sendStreamData _ data => (chunks maxPayloadSize data).length
  | .recvFrame _ | .openStream | .close _ => 0

/-- How many frames a run is asked to send before it closes. -/
def asked : List Operation → Nat
  | [] => 0
  | .close _ :: _ => 0
  | op :: ops => op.frames + asked ops

/-! ### Calls of encrypt -/

theorem Sending.calls_eq {session : AeadSession P} {e e' : Endpoint P} {frame : Frame} {r : Result Unit}
    (h : Sending session e frame r e') (hstate : e.connection.state = .active) :
    e'.encryptions.length = e.encryptions.length + 1 := by
  cases h with
  | inactive state => exact absurd hstate state
  | _ => exact List.length_append

/-- An operation makes no more calls than the frames it is asked to send. -/
theorem perform_calls_le {session : AeadSession P} {e : Endpoint P} (h : e.connection.aead = some session)
    (op : Operation) : (e.perform op).encryptions.length ≤ e.encryptions.length + op.frames := by
  cases op with
  | sendFrame frame => exact (exec_sendFrame h frame).calls_le
  | sendStreamData streamId data =>
    have hsent := (sent_sendChunks streamId (chunks maxPayloadSize data) h 0).encryptions
    rwa [dataFrames_length] at hsent
  | ping nonce =>
    rw [perform, ping, exec_get_bind]
    exact (exec_sendFrame h _).calls_le
  | recvFrame arrived =>
    obtain ⟨c, _, _, hexec⟩ := exec_recvFrame_state e arrived
    rw [perform, hexec]
    exact Nat.le_refl _
  | openStream =>
    obtain ⟨c, _, _, hexec⟩ := exec_openStream_state e
    rw [perform, hexec]
    exact Nat.le_refl _
  | close code =>
    rw [perform_close]
    exact Nat.le_refl _

/-- And where nothing stands in the way, no fewer. -/
theorem perform_calls_open (hP : P.Encrypts) {session : AeadSession P} {e : Endpoint P} (h : Open session e)
    (op : Operation) : (e.perform op).encryptions.length = e.encryptions.length + op.frames := by
  cases op with
  | sendFrame frame => exact (exec_sendFrame h.aead frame).calls_eq h.state
  | sendStreamData streamId data =>
    obtain ⟨e', hexec, _, hcalls, _⟩ :=
      exec_sendChunks_open hP streamId (fun chunk hchunk => mem_chunks hchunk) h 0
    rw [perform, sendStreamData, hexec]
    exact hcalls
  | ping nonce =>
    rw [perform, ping, exec_get_bind]
    exact (exec_sendFrame h.aead _).calls_eq h.state
  | recvFrame arrived =>
    obtain ⟨c, _, _, hexec⟩ := exec_recvFrame_state e arrived
    rw [perform, hexec]
    rfl
  | openStream =>
    obtain ⟨c, _, _, hexec⟩ := exec_openStream_state e
    rw [perform, hexec]
    rfl
  | close code =>
    rw [perform_close]
    rfl

/-- An operation other than closing leaves an endpoint that can send. -/
theorem perform_open {session : AeadSession P} {e : Endpoint P} (h : Open session e) {op : Operation}
    (hop : ∀ code, op ≠ .close code) : Open session (e.perform op) := by
  refine perform_keeps (I := Open session) (fun frame e he => ?_) (fun e c he hc hstate => he.later hc hstate) h
    (fun code hcode => absurd hcode (hop code))
  have hsending := exec_sendFrame he.aead frame
  exact he.later hsending.unchanged hsending.state

theorem asked_cons {op : Operation} (h : ∀ code, op ≠ .close code) (ops : List Operation) :
    asked (op :: ops) = op.frames + asked ops := by
  cases op with
  | close code => exact absurd rfl (h code)
  | _ => rfl

theorem run_calls_le {session : AeadSession P} {e : Endpoint P} (h : e.connection.aead = some session)
    (ops : List Operation) : (e.run ops).encryptions.length ≤ e.encryptions.length + asked ops := by
  induction ops generalizing e with
  | nil => exact Nat.le_refl _
  | cons op ops ih =>
    by_cases hop : ∃ code, op = .close code
    · obtain ⟨code, rfl⟩ := hop
      rw [run, perform_close, (run_inactive rfl ops).1]
      exact Nat.le_add_right _ _
    · have hopen : ∀ code, op ≠ .close code := fun code hcode => hop ⟨code, hcode⟩
      have haead : (e.perform op).connection.aead = some session := by
        refine perform_keeps (I := fun e => e.connection.aead = some session) (fun frame e he => ?_)
          (fun e c he hc _ => hc.aead.trans he) h (fun _ _ => h)
        exact (exec_sendFrame he frame).unchanged.aead.trans he
      have hcalls := perform_calls_le h op
      have hrest := ih haead
      rw [asked_cons hopen]
      show ((e.perform op).run ops).encryptions.length ≤ _
      omega

theorem run_calls_open (hP : P.Encrypts) {session : AeadSession P} {e : Endpoint P} (h : Open session e)
    (ops : List Operation) : (e.run ops).encryptions.length = e.encryptions.length + asked ops := by
  induction ops generalizing e with
  | nil => rfl
  | cons op ops ih =>
    by_cases hop : ∃ code, op = .close code
    · obtain ⟨code, rfl⟩ := hop
      rw [run, perform_close, (run_inactive rfl ops).1]
      rfl
    · have hopen : ∀ code, op ≠ .close code := fun code hcode => hop ⟨code, hcode⟩
      rw [asked_cons hopen, run, ih (perform_open h hopen), perform_calls_open hP h op, Nat.add_assoc]

/-! ### Distinct nonces -/

/-- The pairs are all one pair, so they are distinct where there are not two. -/
theorem Sound.nodup_iff {c : Connection P} {session : AeadSession P} {e : Endpoint P} (h : Sound c session e) :
    e.encryptions.Nodup ↔ e.encryptions.length ≤ 1 := by
  rw [List.eq_replicate_of_mem h.encryptions, List.nodup_replicate, List.length_replicate]

/-- **Encrypt is called with distinct nonces where at most one frame is sent** in the
life of a connection; and where nothing stands in the way of sending, only there. -/
theorem nonces_distinct {c : Connection P} (hc : c.Returned) (ops : List Operation) :
    (asked ops ≤ 1 → ((start c).run ops).encryptions.Nodup) ∧
    (P.Encrypts → (∀ n, c.socket.refuses n = none) → ((start c).run ops).encryptions.Nodup → asked ops ≤ 1) := by
  obtain ⟨_, _, session, hready⟩ := hc.ready
  have hnodup := (sound_run hready.aead ops).nodup_iff
  constructor
  · intro hasked
    have hcalls := run_calls_le (e := start c) hready.aead ops
    rw [hnodup]
    exact Nat.le_trans hcalls (by rw [start, List.length_nil, Nat.zero_add]; exact hasked)
  · intro hP hrefuses hdistinct
    have hcalls := run_calls_open hP (e := start c) ⟨hready.aead, hready.state, hrefuses⟩ ops
    rw [hnodup, hcalls] at hdistinct
    exact Nat.le_trans (Nat.le_add_left _ _) hdistinct

theorem nonces_distinct_sample :
    ((start sampleClient).run [.ping 7, .recvFrame (.ok [])]).encryptions.Nodup ∧
      asked [.ping 7, .recvFrame (.ok [])] ≤ 1 := by
  have h := (nonces_distinct honestPair_sample.returned.1 [.ping 7, .recvFrame (.ok [])]).1 (by decide)
  exact ⟨h, (nonces_distinct honestPair_sample.returned.1 _).2 (Transparent.encrypts _) (fun _ => rfl) h⟩

/-- Two keep-alives are encrypted under one key with one nonce. -/
theorem nonce_reused_sample :
    ∃ c : Connection Transparent.fixedMacs, c.Returned ∧
      ¬ ((start c).run [.ping 1, .ping 2]).encryptions.Nodup := by
  have hreturned := honestPair_sample.returned.1
  refine ⟨sampleClient, hreturned, ?_⟩
  obtain ⟨_, _, session, hready⟩ := hreturned.ready
  have hencrypts : Transparent.fixedMacs.Encrypts := Transparent.encrypts _
  have hcalls := run_calls_open hencrypts (e := start sampleClient)
    ⟨hready.aead, hready.state, fun _ => rfl⟩ [.ping 1, .ping 2]
  rw [(sound_run hready.aead _).nodup_iff, hcalls]
  decide

end Endpoint

end

end Aether
