import Aether.Connection.Establishment
import Aether.Connection.Endpoint

/-! Closing a connection (`connection.rs`).

`close` leaves the state `Active` before it sends its frame, and `send_frame` sends in
no other state. The frame is never sent, the call never returns `Ok`, and the state
stays at `Closing` (`close_never_graceful`); no run gets a connection to `Closed`
(`run_not_closed`). -/
namespace Aether
open Octets Octets.Method

section
variable {P : Primitives}

namespace Endpoint
open Connection

/-- What closing is to do: the call succeeds, the socket takes one datagram more, which is
the encrypted Close frame with the code, and the connection is closed; nothing can be
sent on it any more. -/
structure ClosesGracefully (e : Endpoint P) (code : CloseCode) : Prop where
  succeeds : ((close code).exec e).1 = .ok ()
  tells : ∃ session datagram, e.connection.aead = some session ∧
    (session.txKeys e.connection.isClient).encrypt
      (Frame.close e.connection.destination code closeReason).encode e.connection.makeAad = .ok datagram ∧
    ((close code).exec e).2.connection.socket.sent = e.connection.socket.sent ++ [datagram]
  closed : ((close code).exec e).2.connection.state = .closed
  silent : ∀ frame, ∃ error e', (sendFrame frame).exec ((close code).exec e).2 = (.error error, e') ∧
    e'.connection.socket.sent = ((close code).exec e).2.connection.socket.sent

/-- **No connection is closed gracefully**: whatever its state and its socket are, the call
fails, sends nothing and leaves the connection `Closing`, in which nothing is sent. -/
theorem close_never_graceful (e : Endpoint P) (code : CloseCode) :
    ¬ ClosesGracefully e code ∧
      (close code).exec e = (fail (.invalidState "Connection not active"), e.closing) ∧
      e.closing.connection.socket = e.connection.socket ∧
      ∀ frame, (sendFrame frame).exec e.closing = (fail (.invalidState "Connection not active"), e.closing) := by
  refine ⟨fun h => ?_, exec_close e code, rfl, exec_sendFrame_closing e⟩
  have hresult := h.succeeds
  rw [exec_close] at hresult
  cases hresult

/-- A connection that is fresh and whose socket takes everything. -/
theorem close_not_graceful_sample :
    sampleClient.Returned ∧ (start sampleClient).connection.state = .active ∧
      (∀ n, (start sampleClient).connection.socket.refuses n = none) ∧ ¬ ClosesGracefully (start sampleClient) .noError := by
  refine ⟨honestPair_sample.returned.1, rfl, fun _ => rfl, fun h => ?_⟩
  have hresult := h.succeeds
  rw [exec_close] at hresult
  cases hresult

theorem keeps_not_closed {c : Connection P} {session : AeadSession P} (h : c.aead = some session) (frame : Frame) :
    Keeps (fun e : Endpoint P => Unchanged c e.connection ∧ e.connection.state ≠ .closed) (sendFrame frame) := by
  intro e he
  obtain ⟨hunchanged, hstate⟩ := he
  have hsending := exec_sendFrame (hunchanged.aead.trans h) frame
  refine ⟨hunchanged.trans hsending.unchanged, ?_⟩
  rw [hsending.state]
  exact hstate

/-- **No connection is ever closed.** -/
theorem run_not_closed {c : Connection P} (hc : c.Returned) (ops : List Operation) :
    ((start c).run ops).connection.state ≠ .closed := by
  obtain ⟨_, _, session, hready⟩ := hc.ready
  have hrun := run_keeps (I := fun e => Unchanged c e.connection ∧ e.connection.state ≠ .closed)
    (keeps_not_closed hready.aead) (fun e c' he hc' hstate => ?_) (fun e he => ?_) (e := start c) ⟨.refl c, ?_⟩ ops
  · exact hrun.2
  · exact ⟨he.1.trans hc', by rw [hstate]; exact he.2⟩
  · have hclosing : e.closing.connection.state ≠ .closed := nofun
    exact ⟨he.1.trans ⟨rfl, rfl, rfl, rfl, rfl, rfl, rfl, id⟩, hclosing⟩
  · have hstart : (start c).connection.state = .active := hready.state
    rw [hstart]
    exact nofun

end Endpoint

end

end Aether
