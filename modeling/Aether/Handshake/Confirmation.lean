import Aether.Handshake.Network

/-! What a server's completion says about its client.

Both directions use one key, one transcript and one function, so the Finished of a
server is what it expects of its client: sent back to it, it completes the
handshake with nobody at the other end (`reflected`). Where no server is given its
own Finished, a server that completes has a client that did (`key_confirmed`). -/
namespace Aether
open Octets Octets.Method HandshakeContext

namespace Net
variable {P : Primitives}

/-- The network delivers what was sent: to anyone, in any order, any number of
times, or not at all. -/
def Replayed (n : Net P) : NetEvent P → Prop
  | .connect .. => True
  | .accept _ _ _ _ frame => ∃ m ∈ n.wire, m.2 = frame
  | .deliver _ frame => ∃ m ∈ n.wire, m.2 = frame

/-- A server that waits for its client's Finished is not given its own, unless a
client has sent the same frame (as one that drew the server's connection ID would). -/
def NotReflected (n : Net P) : NetEvent P → Prop
  | .deliver i frame => ∀ p, n.processes[i]? = some p → p.phase = .awaitClientFinished →
    p.context.createFinished = .ok frame → (.clientFinished, frame) ∈ n.wire
  | _ => True

/-- Behind every server that has completed stands a client that has accepted a
Finished, with the same key and the same transcript. -/
def KeyConfirmed (n : Net P) : Prop :=
  ∀ p ∈ n.processes, p.context.isClient = false → p.context.state = .complete →
    ∃ key, p.context.sessionKey = some key ∧ ∃ q ∈ n.processes, q.context.isClient = true ∧ q.phase = .done ∧
      q.context.sessionKey = some key ∧ q.context.transcript = p.context.transcript

theorem keyConfirmed_init : (init : Net P).KeyConfirmed := fun _ h => absurd h List.not_mem_nil

/-- What a server accepts, if it is not its own Finished, comes from a client that is
done: a server with the same key and transcript would have sent the server's own. -/
theorem client_of_finished (hP : P.Symbolic) (hhello : P.TellsMacsFromHellos) {n : Net P} (hn : n.Sound)
    {p : Process P} (hp : p ∈ n.processes) (phase : p.phase = .awaitClientFinished) {frame : Frame}
    (hsent : ∃ m ∈ n.wire, m.2 = frame)
    (hreflect : p.context.createFinished = .ok frame → (.clientFinished, frame) ∈ n.wire) {key : P.SessionKey}
    (hasKey : p.context.sessionKey = some key) (mac : frame.payload = computeFinished key p.context.transcript) :
    ∃ q ∈ n.processes, q.context.sessionKey = some key ∧ q.context.transcript = p.context.transcript ∧
      q.context.isClient = true ∧ q.phase = .done := by
  obtain ⟨m, hm, rfl⟩ := hsent
  obtain ⟨q, hq, hkey, htranscript, hcreates, hauthor⟩ := author_of_mac hP hhello hn hm mac
  rcases hauthor with ⟨_, hserver⟩ | ⟨_, hclient, hdone⟩
  · -- A server with this key and transcript is the one that waits, or its double.
    have hsound := hn.processes p hp
    have hown := (hn.processes q hq).createFinished_congr hsound hserver (hsound.confirming phase).1
      (hkey.trans hasKey.symm) htranscript hcreates
    obtain ⟨r, hr, hkey', htranscript', _, hauthor'⟩ := author_of_mac hP hhello hn (hreflect hown) mac
    rcases hauthor' with ⟨hserver', _⟩ | ⟨_, hclient, hdone⟩
    · exact absurd hserver' nofun
    · exact ⟨r, hr, hkey', htranscript', hclient, hdone⟩
  · exact ⟨q, hq, hkey, htranscript, hclient, hdone⟩

/-- One step keeps servers confirmed, if it reflects nothing. -/
theorem keyConfirmed_step (hP : P.Symbolic) (hhello : P.TellsMacsFromHellos) {n n' : Net P} {e : NetEvent P}
    (hn : n.Sound) (hconfirmed : n.KeyConfirmed) (hreplayed : n.Replayed e) (hreflect : n.NotReflected e)
    (h : n.Moves e n') :
    n'.KeyConfirmed := by
  have hcontinues := h.continues hn
  have hcomplete := h.forall_complete hn
    (Q := fun ps p => p.context.isClient = false → ∃ key, p.context.sessionKey = some key ∧
      ∃ q ∈ ps, q.context.isClient = true ∧ q.phase = .done ∧ q.context.sessionKey = some key ∧
        q.context.transcript = p.context.transcript)
    (fun p hp hstate hrole => hconfirmed p hp hrole hstate) ?_ ?_
  · exact fun p hp hrole hstate => hcomplete p hp hstate hrole
  · intro p hold hrole
    obtain ⟨key, hkey, q, hq, hclient, hdone, hq'⟩ := hold hrole
    exact ⟨key, hkey, q, hcontinues.done hq hdone, hclient, hdone, hq'⟩
  · rintro i frame p key rfl haccepts hrole
    have hphase := haccepts.server hn hrole
    obtain ⟨q, hq, hkey, htranscript, hclient, hdone⟩ :=
      client_of_finished hP hhello hn (List.mem_of_getElem? haccepts.present) hphase hreplayed
        (hreflect p haccepts.present hphase) haccepts.hasKey haccepts.mac
    exact ⟨key, haccepts.hasKey, q, hcontinues.done hq hdone, hclient, hdone, hkey, htranscript⟩

/-- **Servers that are not given their own Finished know that their clients
completed**, whatever else is delivered. -/
theorem key_confirmed (hP : P.Symbolic) (hhello : P.TellsMacsFromHellos) {n : Net P}
    (h : Reached step (fun n e => Replayed n e ∧ NotReflected n e) init n) : n.KeyConfirmed := by
  refine (h.invariant (I := fun n => n.Sound ∧ n.KeyConfirmed) ⟨sound_init, keyConfirmed_init⟩ ?_).2
  intro s e t hs he hstep
  obtain ⟨hsound, hconfirmed⟩ := hs
  obtain ⟨hreplayed, hreflect⟩ := he
  have hmoves := moves_of_step hsound hstep
  exact ⟨hmoves.sound hsound, keyConfirmed_step hP hhello hsound hconfirmed hreplayed hreflect hmoves⟩

/-- The run nobody interferes with is such a run. -/
theorem reached_unreflected (hdh : P.AgreesOnSecrets) (hsig : P.VerifiesSignatures) (client server : Party P) :
    Reached step (fun n e => Replayed n e ∧ NotReflected n e) init (confirmed client server) := by
  refine reached_confirmed client server hdh hsig ?_ ?_ ?_ ?_ ?_
  · exact ⟨trivial, trivial⟩
  · exact ⟨⟨_, List.mem_singleton_self _, rfl⟩, trivial⟩
  · refine ⟨⟨_, List.mem_cons_of_mem _ List.mem_cons_self, rfl⟩, fun p hp hphase => ?_⟩
    cases hp
    cases hphase
  · refine ⟨⟨_, List.mem_cons_of_mem _ (List.mem_cons_of_mem _ List.mem_cons_self), rfl⟩, fun p hp hphase => ?_⟩
    cases hp
    cases hphase
  · have hsent : (.clientFinished, clientFinishedFrame client server) ∈ (finished client server).wire :=
      List.mem_append_right _ (List.mem_singleton_self _)
    exact ⟨⟨_, hsent, rfl⟩, fun _ _ _ _ => hsent⟩

theorem key_confirmed_sample :
    (confirmed (sampleParty 1) (sampleParty 2) : Net Transparent.symbolic).KeyConfirmed :=
  key_confirmed Transparent.symbolic_symbolic Transparent.symbolic_tellsMacsFromHellos
    (reached_unreflected (Transparent.agreesOnSecrets _) (Transparent.verifiesSignatures _) _ _)

/-! ### Reflection -/

/-- Whoever the parties are, a server that is sent its own Finished completes, and
the client has not even seen its hello. -/
theorem reflected (client server : Party P) : ∃ n : Net P, Reached step Replayed init n ∧ ¬ n.KeyConfirmed := by
  have hreached : Reached step Replayed init (answered client server) :=
    reached_answered client server trivial ⟨_, List.mem_singleton_self _, rfl⟩
  have hreplayed : Replayed (answered client server) (.deliver 1 (serverFinishedFrame client server)) :=
    ⟨(.serverFinished, serverFinishedFrame client server), by simp [answered], rfl⟩
  refine ⟨_, .next _ hreached hreplayed (step_deliver rfl (receive_ownFinished client server)), ?_⟩
  intro hconfirmed
  obtain ⟨_, _, q, hq, hclient, hdone, _⟩ :=
    hconfirmed (confirmedProcess client server) (List.mem_cons_of_mem _ List.mem_cons_self) rfl rfl
  rcases List.mem_cons.mp hq with rfl | hq
  · cases hdone
  · cases List.mem_singleton.mp hq
    cases hclient

theorem reflected_sample :
    ∃ n : Net Transparent.symbolic, Reached step Replayed init n ∧ ¬ n.KeyConfirmed :=
  reflected (sampleParty 1) (sampleParty 2)

end Net

end Aether
