import Aether.Connection.Accept
import Aether.Handshake.Calls

/-! What stands behind a context that says it is ready.

A session key comes with the connection ID of the peer, and the states after the keys are
derived come with a session key, whatever was called before (`Dependable`). So the
last statement of `handle_finished_and_respond`, which comes after the state has
changed, does not fail, and neither do the unwraps at the end of the two functions that
set up a connection: where these are aborted, a hello ended before its decoder did. -/
namespace Aether
open Octets Octets.Method

section
variable {P : Primitives}

/-! ### Contexts -/

namespace HandshakeContext

/-- A context in a state after the keys are derived has a session key. -/
def KeyDerived (c : HandshakeContext P) : Prop := c.state = .keysDerived ∨ c.state = .complete → c.sessionKey ≠ none

/-- The checks of `handle_finished_and_respond`, all of which come before it writes. -/
def checkFinished (c : HandshakeContext P) (frame : Frame) : Result Unit := do
  let sessionKey ← orError c.sessionKey (.invalidState "Session key not derived")
  Aether.verifyFinished sessionKey c.transcript frame.payload

/-- What a context keeps through all calls, and what follows for its Finished: it
fails where a check does, and then nothing is written. -/
structure Dependable (c : HandshakeContext P) : Prop where
  peer : c.sessionKey ≠ none → c.peerConnectionId ≠ none
  key : KeyDerived c
  refuses : ∀ frame e c', (handleFinishedAndRespond frame).exec c = (.error e, c') →
    c.checkFinished frame = .error e ∧ c' = c

theorem Left.keyDerived {c c' : HandshakeContext P} (h : Left c c') (hc : KeyDerived c) : KeyDerived c' := by
  cases h with
  | same => exact hc
  | greeting =>
    intro hstate
    rcases hstate with hstate | hstate
    · cases hstate
    · cases hstate
  | answered => exact fun _ => Option.some_ne_none _
  | introduced => exact hc
  | accepted => exact fun _ => Option.some_ne_none _
  | complete keyed => exact fun _ => keyed

theorem Reachable.keyDerived {c : HandshakeContext P} (h : Reachable c) : KeyDerived c := by
  have hinitial : ∀ {c : HandshakeContext P}, c.state = .initial → KeyDerived c := by
    intro c hstate h
    rw [hstate] at h
    rcases h with h | h
    · cases h
    · cases h
  exact h.invariant (fun _ => hinitial rfl) (hinitial rfl) fun _ _ hc hleft => hleft.keyDerived hc

/-- The error of a context that knows its peer is an error of the checks. -/
theorem handleFinishedAndRespond_refuses {c c' : HandshakeContext P} (h : PeerKnown c) {frame : Frame} {e : Stop Error}
    (herror : (handleFinishedAndRespond frame).exec c = (.error e, c')) : c.checkFinished frame = .error e ∧ c' = c := by
  simp only [handleFinishedAndRespond, exec_bind_eq_error, exec_lift, exec_get_bind, exec_set_bind,
    Prod.mk.injEq] at herror
  rcases herror with ⟨hkey, rfl⟩ | ⟨key, _, ⟨hkey, rfl⟩, ⟨hmac, rfl⟩ | ⟨_, _, ⟨_, rfl⟩, hframe, _⟩⟩
  · refine ⟨?_, rfl⟩
    rw [checkFinished, hkey]
    rfl
  · refine ⟨?_, rfl⟩
    rw [checkFinished, hkey]
    exact hmac
  · -- The state is written, and the peer is known.
    have hkeyed : c.sessionKey ≠ none := by
      rw [orError_eq_ok.mp hkey]
      exact Option.some_ne_none key
    obtain ⟨peerCid, hcid⟩ := Option.ne_none_iff_exists'.mp (h hkeyed)
    rw [finishedFrame_eq_ok.mpr ⟨peerCid, hcid, rfl⟩] at hframe
    cases hframe

theorem Reachable.dependable {c : HandshakeContext P} (h : Reachable c) : Dependable c where
  peer := h.peerKnown
  key := h.keyDerived
  refuses _ _ _ herror := handleFinishedAndRespond_refuses h.peerKnown herror

theorem total_handleFinishedAndRespond (frame : Frame) :
    Total (handleFinishedAndRespond frame : Action (HandshakeContext P) Frame) := by
  refine total_bind total_get fun c => total_bind (total_lift (safe_orError _ _)) fun key => ?_
  refine total_bind (total_lift (safe_verifyFinished _ _ _)) fun _ => total_bind (total_set _) fun _ => ?_
  exact total_lift (safe_bind (safe_orError _ _) fun _ _ => safe_pure _)

end HandshakeContext

/-! ### Connections -/

namespace Connection

theorem safe_onHandshake_bind {α β : Type} {c : Connection P} {hs : HandshakeContext P} (hhs : c.handshake = some hs)
    {m : Action (HandshakeContext P) α} {f : α → Action (Connection P) β} :
    Safe ((onHandshake m >>= f).exec c).1 ↔
      Safe (m.exec hs).1 ∧
        ∀ a hs', m.exec hs = (.ok a, hs') → Safe ((f a).exec { c with handshake := some hs' }).1 := by
  have hexec : (onHandshake m).exec c = ((m.exec hs).1, { c with handshake := some (m.exec hs).2 }) := by
    rw [onHandshake, exec_get_bind, hhs]
    rfl
  rw [safe_exec_bind, hexec]
  refine and_congr_right fun _ => ⟨fun h a hs' hm => ?_, fun h a t ht => ?_⟩
  · exact h a _ (by rw [hm])
  · obtain ⟨hresult, rfl⟩ := Prod.mk.inj ht
    exact h a _ (Prod.ext hresult rfl)

theorem safe_onSocket_bind {α β : Type} {c : Connection P} {m : Action Socket α} {f : α → Action (Connection P) β}
    (hm : Total m) (hf : ∀ a socket, Safe ((f a).exec { c with socket }).1) : Safe ((onSocket m >>= f).exec c).1 := by
  refine safe_exec_bind.mpr ⟨hm c.socket, fun a t ht => ?_⟩
  obtain ⟨_, rfl⟩ := Prod.mk.inj ht
  exact hf a _

/-- The statements before the unwraps have answered a Finished, so there is what is unwrapped. -/
theorem safe_performClientHandshake {c : Connection P} {hs : HandshakeContext P} (hhs : c.handshake = some hs)
    (identity : Identity P) (secret : P.Scalar) {serverHello : Except String Bytes} (serverFinished : Except String Bytes)
    (hdecode : ∀ frame, frameReceived serverHello = .ok frame → Safe (ServerHello.decode frame.payload)) :
    Safe ((performClientHandshake identity secret serverHello serverFinished).exec c).1 := by
  rw [performClientHandshake, exec_get_bind, safe_onHandshake_bind hhs]
  refine ⟨safe_ok _, fun ch hs₁ _ => safe_onSocket_bind (total_send _) fun _ socket₁ => ?_⟩
  refine safe_exec_lift_bind.mpr ⟨safe_frameReceived _, fun sh hsh => ?_⟩
  rw [safe_onHandshake_bind rfl, HandshakeContext.safe_handleServerHello]
  refine ⟨hdecode sh hsh, fun _ hs₂ _ => safe_exec_lift_bind.mpr ⟨safe_frameReceived _, fun sf _ => ?_⟩⟩
  rw [safe_onHandshake_bind rfl]
  refine ⟨HandshakeContext.total_handleFinishedAndRespond sf hs₂, fun cf hs₃ hcf => ?_⟩
  obtain ⟨key, peer, hkey, hpeer, _, _, rfl⟩ := HandshakeContext.handleFinishedAndRespond_eq_ok.mp hcf
  refine safe_onSocket_bind (total_send _) fun _ socket₂ => ?_
  rw [exec_get_bind]
  refine safe_exec_lift_bind.mpr ⟨safe_ok _, fun hs hunwrap => ?_⟩
  cases unwrap_eq_ok.mp hunwrap
  refine safe_exec_lift_bind.mpr ⟨by rw [unwrap_eq_ok.mpr hkey]; exact safe_ok key, fun _ _ => ?_⟩
  refine safe_exec_lift_bind.mpr ⟨by rw [unwrap_eq_ok.mpr hpeer]; exact safe_ok peer, fun _ _ => ?_⟩
  exact safe_ok _

theorem safe_accept (config : Config) (identity : Identity P) (connectionId : UInt64) (secret : P.Scalar)
    {clientHello : Except String Bytes} (clientFinished : Except String Bytes) (socket : Socket)
    (hdecode : ∀ frame, frameReceived clientHello = .ok frame → Safe (ClientHello.decode frame.payload)) :
    Safe ((accept config identity connectionId secret clientHello clientFinished).exec socket).1 := by
  rw [accept_eq, safe_exec_bind]
  refine ⟨?_, fun hs left hexec => ?_⟩
  · cases clientHello with
    | error text =>
      refine safe_exec_lift_bind.mpr ⟨safe_frameReceived _, fun frame hframe => ?_⟩
      cases hframe
    | ok datagram =>
      refine (safe_acceptHello config identity connectionId secret datagram socket).mpr fun frame hframe _ => ?_
      exact (ClientHello.safe_decode_iff _).mp (hdecode frame hframe)
  · obtain ⟨frame, hello, _, rfl⟩ := acceptHello_eq_ok hexec
    exact total_acceptFinished config rfl rfl clientFinished left

/-- Where a condition on what is decoded makes a call safe, a call that is aborted was aborted
in decoding. -/
theorem decode_of_aborted {α : Type} {decode : Bytes → Result α} {arrived : Except String Bytes} {aborted : Prop}
    (hsafe : (∀ frame, frameReceived arrived = .ok frame → Safe (decode frame.payload)) → ¬ aborted) (h : aborted) :
    ∃ frame, frameReceived arrived = .ok frame ∧ decode frame.payload = .error .panic := by
  by_contra hnone
  exact hsafe (fun frame hframe hpanic => hnone ⟨frame, hframe, hpanic⟩) h

/-- **Whatever was called of a context, in whatever order**, it has what its state says, and
nothing that is unwrapped of it is missing: a set-up is aborted in the decoder of the hello or not at
all. -/
theorem dependable_of_reachable {hs : HandshakeContext P} (h : HandshakeContext.Reachable hs) :
    hs.Dependable ∧
      (∀ (c : Connection P) (identity : Identity P) (secret : P.Scalar) (serverHello serverFinished : Except String Bytes),
        c.handshake = some hs →
        ((performClientHandshake identity secret serverHello serverFinished).exec c).1 = .error .panic →
          ∃ frame, frameReceived serverHello = .ok frame ∧ ServerHello.decode frame.payload = .error .panic) ∧
      ∀ (config : Config) (identity : Identity P) (connectionId : UInt64) (secret : P.Scalar)
        (clientHello clientFinished : Except String Bytes) (socket : Socket),
        ((accept config identity connectionId secret clientHello clientFinished).exec socket).1 = .error .panic →
          ∃ frame, frameReceived clientHello = .ok frame ∧ ClientHello.decode frame.payload = .error .panic := by
  refine ⟨h.dependable, ?_, ?_⟩
  · intro c identity secret serverHello serverFinished hhs haborted
    exact decode_of_aborted (safe_performClientHandshake hhs identity secret serverFinished) haborted
  · intro config identity connectionId secret clientHello clientFinished socket haborted
    exact decode_of_aborted (safe_accept config identity connectionId secret clientFinished socket) haborted

section
open HandshakeContext

/-- A server that has answered a hello. -/
theorem dependable_of_reachable_answering :
    ((Call.handleClientHello fixedServer.connectionId fixedServer.secret (clientHelloFrame fixedClient)
        fixedServer.identity fixedServer.capabilities).exec newServer).2.Dependable :=
  (dependable_of_reachable (.server (.next (.handleClientHello fixedServer.connectionId fixedServer.secret
    (clientHelloFrame fixedClient) fixedServer.identity fixedServer.capabilities) .start trivial rfl))).1

end

end Connection

end

end Aether
