import Aether.Handshake.Honest
import Aether.Library.Runs

/-! Any calls on a context, in any order.

Forged, repeated and late frames reach a context in every state, so the handlers
are looked at as the steps of a machine whose events are calls. What a call leaves
when it fails is said once for each handler: three of them leave everything as it
was, `handle_server_hello` has by then written down who its peer claims to be, and
if the signature was good its transcript too (`handleServerHello_cases`). -/
namespace Aether
open Octets Octets.Method

section
variable {P : Primitives}

namespace HandshakeContext

variable (P) in
/-- A call, with what it draws. -/
inductive Call where
  | createClientHello (secret : P.Scalar) (identity : Identity P) (capabilities : Capabilities)
  | handleClientHello (connectionId : UInt64) (secret : P.Scalar) (frame : Frame) (identity : Identity P)
      (capabilities : Capabilities)
  | handleServerHello (frame : Frame)
  | createFinished
  | handleFinishedAndRespond (frame : Frame)
  | verifyFinished (frame : Frame)

/-- How a method ends and what it leaves, without the value it returns. -/
def ended {α σ : Type} (r : Result α × σ) : Result Unit × σ := (r.1.map fun _ => (), r.2)

theorem ended_error {α σ : Type} {r : Result α × σ} {e : Stop Error} (h : (ended r).1 = .error e) :
    r = (.error e, r.2) := by
  rcases r with ⟨_ | a, t⟩
  · cases h
    rfl
  · cases h

namespace Call

def exec (c : HandshakeContext P) : Call P → Result Unit × HandshakeContext P
  | createClientHello secret identity capabilities =>
    ended ((HandshakeContext.createClientHello secret identity capabilities).exec c)
  | handleClientHello connectionId secret frame identity capabilities =>
    ended ((HandshakeContext.handleClientHello connectionId secret frame identity capabilities).exec c)
  | handleServerHello frame => ended ((HandshakeContext.handleServerHello frame).exec c)
  | createFinished => ended (c.createFinished, c)
  | handleFinishedAndRespond frame => ended ((HandshakeContext.handleFinishedAndRespond frame).exec c)
  | verifyFinished frame => ended ((HandshakeContext.verifyFinished frame).exec c)

/-- A call that stops leaves what it has written, as any other. -/
def step (c : HandshakeContext P) (call : Call P) : Option (HandshakeContext P) := some (call.exec c).2

end Call

/-- The contexts that calls can lead to, from a new one. -/
inductive Reachable : HandshakeContext P → Prop where
  | client {connectionId : UInt64} {c : HandshakeContext P}
      (run : Reached Call.step (fun _ _ => True) (newClient connectionId) c) : Reachable c
  | server {c : HandshakeContext P} (run : Reached Call.step (fun _ _ => True) newServer c) : Reachable c

/-! ### What the handlers leave -/

/-- The proof in a server's hello is a signature on the transcript so far under the key the hello names. -/
def Proven (c : HandshakeContext P) (hello : ServerHello) : Prop :=
  ∃ proof, hello.identityProof = proof.toList ∧ Identity.verify P hello.identityPublicKey c.transcript proof = .ok ()

/-- A context that has written down what a server's hello says of its sender. -/
def introduced (c : HandshakeContext P) (hello : ServerHello) : HandshakeContext P :=
  { c with
    peerConnectionId := some hello.sourceConnectionId
    peerX25519Public := some hello.x25519Public
    peerIdentity := some hello.identity }

/-- All a call of `handle_server_hello` can do. -/
inductive HelloHandled (c : HandshakeContext P) (frame : Frame) : Result Unit × HandshakeContext P → Prop where
  | unread {e : Stop Error} (decodes : ServerHello.decode frame.payload = .error e) : HelloHandled c frame (.error e, c)
  | unproven {hello : ServerHello} {e : Stop Error} (decodes : ServerHello.decode frame.payload = .ok hello)
      (unproven : ¬ c.Proven hello) : HelloHandled c frame (.error e, c.introduced hello)
  | spent {hello : ServerHello} {e : Stop Error} (decodes : ServerHello.decode frame.payload = .ok hello)
      (proven : c.Proven hello) (spent : c.x25519Secret = none) :
      HelloHandled c frame
        (.error e, { c.introduced hello with transcript := c.transcript ++ (serverHelloTag ++ frame.payload) })
  | accepted {hello : ServerHello} {secret : P.Scalar} (decodes : ServerHello.decode frame.payload = .ok hello)
      (proven : c.Proven hello) (fresh : c.x25519Secret = some secret) :
      HelloHandled c frame (.ok (), c.accepted secret frame hello)

theorem exec_handleServerHello_unproven {c : HandshakeContext P} {frame : Frame} {hello : ServerHello}
    (hdecode : ServerHello.decode frame.payload = .ok hello) (h : ¬ c.Proven hello) :
    ∃ e, (handleServerHello frame).exec c = (.error e, c.introduced hello) := by
  rw [handleServerHello, exec_bind_ok (by rw [exec_lift, hdecode]), exec_modify_bind, exec_get_bind]
  cases hproof : proofBytes hello.identityProof with
  | error e => exact ⟨e, exec_bind_error (exec_lift _ _)⟩
  | ok proof =>
    rw [exec_bind_ok (exec_lift _ _)]
    cases hverify : Identity.verify P hello.identityPublicKey c.transcript proof with
    | error e => exact ⟨e, exec_bind_error (exec_lift _ _)⟩
    | ok u => exact absurd ⟨proof, proofBytes_eq_ok.mp hproof, hverify⟩ h

/-- The transcript has grown by the time the secret is found to be gone. -/
theorem exec_handleServerHello_spent {c : HandshakeContext P} {frame : Frame} {hello : ServerHello}
    (hdecode : ServerHello.decode frame.payload = .ok hello) (h : c.Proven hello) (hspent : c.x25519Secret = none) :
    ∃ e, (handleServerHello frame).exec c =
      (.error e, { c.introduced hello with transcript := c.transcript ++ (serverHelloTag ++ frame.payload) }) := by
  obtain ⟨proof, hbytes, hverify⟩ := h
  have hkeys : ∀ {d : HandshakeContext P}, d.x25519Secret = none → ∃ e, deriveKeys.exec d = (.error e, d) := by
    intro d hd
    rcases d with ⟨_, _, _, secret, _, _, _, _, _, _⟩
    cases hd
    exact ⟨_, rfl⟩
  obtain ⟨e, he⟩ := hkeys
    (d := { c.introduced hello with transcript := c.transcript ++ (serverHelloTag ++ frame.payload) }) hspent
  refine ⟨e, ?_⟩
  rw [handleServerHello, exec_bind_ok (by rw [exec_lift, hdecode]), exec_modify_bind, exec_get_bind,
    exec_bind_ok (by rw [exec_lift, proofBytes_eq_ok.mpr hbytes]),
    exec_bind_ok (by rw [exec_lift]; exact congrArg (·, _) hverify), exec_set_bind]
  exact exec_bind_error he

theorem handleServerHello_cases (c : HandshakeContext P) (frame : Frame) :
    HelloHandled c frame ((handleServerHello frame).exec c) := by
  cases hdecode : ServerHello.decode frame.payload with
  | error e =>
    rw [handleServerHello, exec_bind_error (by rw [exec_lift, hdecode])]
    exact .unread hdecode
  | ok hello =>
    by_cases hproven : c.Proven hello
    · cases hsecret : c.x25519Secret with
      | none =>
        obtain ⟨e, he⟩ := exec_handleServerHello_spent hdecode hproven hsecret
        rw [he]
        exact .spent hdecode hproven hsecret
      | some secret =>
        have haccepted : (handleServerHello frame).exec c = (.ok (), c.accepted secret frame hello) := by
          obtain ⟨proof, hbytes, hverify⟩ := hproven
          exact handleServerHello_eq_ok.mpr ⟨hello, proof, secret, hdecode, hbytes, hverify, hsecret, rfl⟩
        rw [haccepted]
        exact .accepted hdecode hproven hsecret
    · obtain ⟨e, he⟩ := exec_handleServerHello_unproven hdecode hproven
      rw [he]
      exact .unproven hdecode hproven

/-- A server that refuses a hello has not looked further than its versions. -/
theorem handleClientHello_error {c c' : HandshakeContext P} {connectionId : UInt64} {secret : P.Scalar} {frame : Frame}
    {identity : Identity P} {capabilities : Capabilities} {e : Stop Error}
    (h : (handleClientHello connectionId secret frame identity capabilities).exec c = (.error e, c')) : c' = c := by
  have hexec := h
  rw [handleClientHello, exec_bind_eq_error, exec_lift] at h
  rcases h with h | ⟨hello, t, hread, h⟩
  · exact (Prod.mk.inj h).2.symm
  · obtain ⟨hdecode, rfl⟩ := Prod.mk.inj hread
    by_cases hversion : aetherVersion ∈ hello.supportedVersions
    · obtain ⟨f, hanswer⟩ : ∃ f, (handleClientHello connectionId secret frame identity capabilities).exec c =
          (.ok f, c.answered connectionId secret frame hello identity capabilities) :=
        ⟨_, handleClientHello_eq_ok.mpr ⟨hello, hdecode, hversion, rfl, rfl⟩⟩
      cases hanswer.symm.trans hexec
    · rw [if_pos hversion, exec_throw] at h
      cases h
      rfl

/-- A Finished changes the state or nothing, and nothing where there is no key. -/
theorem handleFinishedAndRespond_leaves (c : HandshakeContext P) (frame : Frame) :
    ((handleFinishedAndRespond frame).exec c).2 = c ∨
      c.sessionKey ≠ none ∧ ((handleFinishedAndRespond frame).exec c).2 = { c with state := .complete } := by
  rw [handleFinishedAndRespond, exec_get_bind, exec_bind, exec_lift]
  cases hkey : c.sessionKey with
  | none => exact .inl rfl
  | some key =>
    simp only [orError]
    rw [exec_bind, exec_lift]
    cases Aether.verifyFinished key c.transcript frame.payload with
    | error e => exact .inl rfl
    | ok u => exact .inr ⟨Option.some_ne_none key, rfl⟩

theorem verifyFinished_leaves (c : HandshakeContext P) (frame : Frame) :
    ((verifyFinished frame).exec c).2 = c ∨
      c.sessionKey ≠ none ∧ ((verifyFinished frame).exec c).2 = { c with state := .complete } := by
  rcases hexec : (verifyFinished frame).exec c with ⟨r, c'⟩
  cases r with
  | error e => exact .inl (verifyFinished_error hexec)
  | ok u =>
    obtain ⟨key, hkey, _, rfl⟩ := verifyFinished_eq_ok.mp hexec
    exact .inr ⟨by rw [hkey]; nofun, rfl⟩

/-! ### What a call that fails leaves -/

/-- What is compared: all but the connection ID, the role and which secret there is. -/
structure Kept (c c' : HandshakeContext P) : Prop where
  state : c'.state = c.state
  transcript : c'.transcript = c.transcript
  sessionKey : c'.sessionKey = c.sessionKey
  capabilities : c'.capabilities = c.capabilities
  peerConnectionId : c'.peerConnectionId = c.peerConnectionId
  peerX25519Public : c'.peerX25519Public = c.peerX25519Public
  peerIdentity : c'.peerIdentity = c.peerIdentity
  secret : c'.x25519Secret.isSome = c.x25519Secret.isSome

theorem Kept.refl (c : HandshakeContext P) : Kept c c := ⟨rfl, rfl, rfl, rfl, rfl, rfl, rfl, rfl⟩

/-- A server's hello, if the frame has one, says nothing new of its sender and is not
signed for the transcript. -/
def Call.Harmless (c : HandshakeContext P) : Call P → Prop
  | .handleServerHello frame => ∀ hello, ServerHello.decode frame.payload = .ok hello →
      (c.peerConnectionId = some hello.sourceConnectionId ∧ c.peerX25519Public = some hello.x25519Public ∧
        c.peerIdentity = some hello.identity) ∧ ¬ c.Proven hello
  | _ => True

/-- Whoever has a session key knows the connection ID of its peer. -/
def PeerKnown (c : HandshakeContext P) : Prop := c.sessionKey ≠ none → c.peerConnectionId ≠ none

/-- A client's context once its hello is made. -/
def greeting (c : HandshakeContext P) (secret : P.Scalar) (identity : Identity P) (capabilities : Capabilities) :
    HandshakeContext P :=
  { c with
    x25519Secret := some secret
    peerX25519Public := none
    transcript := c.transcript ++ (clientHelloTag ++ (c.clientHelloOf secret identity capabilities).encode)
    state := .helloSent }

/-- All a call can leave. -/
inductive Left (c : HandshakeContext P) : HandshakeContext P → Prop where
  | same : Left c c
  | greeting (secret : P.Scalar) (identity : Identity P) (capabilities : Capabilities) :
      Left c (c.greeting secret identity capabilities)
  | answered (connectionId : UInt64) (secret : P.Scalar) (frame : Frame) (hello : ClientHello) (identity : Identity P)
      (capabilities : Capabilities) : Left c (c.answered connectionId secret frame hello identity capabilities)
  | introduced (hello : ServerHello) (transcript : Bytes) :
      Left c { c.introduced hello with transcript := c.transcript ++ transcript }
  | accepted (secret : P.Scalar) (frame : Frame) (hello : ServerHello) : Left c (c.accepted secret frame hello)
  | complete (keyed : c.sessionKey ≠ none) : Left c { c with state := .complete }

/-- **Whatever is called, and however it ends, one of these is left.** -/
theorem left_exec (c : HandshakeContext P) (call : Call P) : Left c (call.exec c).2 := by
  cases call with
  | createClientHello secret identity capabilities => exact .greeting secret identity capabilities
  | handleClientHello connectionId secret frame identity capabilities =>
    show Left c ((handleClientHello connectionId secret frame identity capabilities).exec c).2
    rcases hexec : (handleClientHello connectionId secret frame identity capabilities).exec c with ⟨r, c'⟩
    cases r with
    | error e =>
      rw [handleClientHello_error hexec]
      exact .same
    | ok f =>
      obtain ⟨hello, _, _, _, rfl⟩ := handleClientHello_eq_ok.mp hexec
      exact .answered connectionId secret frame hello identity capabilities
  | handleServerHello frame =>
    show Left c ((handleServerHello frame).exec c).2
    have hhandled := handleServerHello_cases c frame
    generalize (handleServerHello frame).exec c = r at hhandled ⊢
    cases hhandled with
    | unread => exact .same
    | @unproven hello =>
      have hleft := Left.introduced (c := c) hello []
      rw [List.append_nil] at hleft
      exact hleft
    | @spent hello => exact .introduced hello _
    | @accepted hello secret => exact .accepted secret frame hello
  | createFinished => exact .same
  | handleFinishedAndRespond frame =>
    show Left c ((handleFinishedAndRespond frame).exec c).2
    rcases handleFinishedAndRespond_leaves c frame with hleft | ⟨hkey, hleft⟩
    · rw [hleft]
      exact .same
    · rw [hleft]
      exact .complete hkey
  | verifyFinished frame =>
    show Left c ((verifyFinished frame).exec c).2
    rcases verifyFinished_leaves c frame with hleft | ⟨hkey, hleft⟩
    · rw [hleft]
      exact .same
    · rw [hleft]
      exact .complete hkey

/-- What holds of new contexts, and of whatever a call can leave if it held before. -/
theorem Reachable.invariant {I : HandshakeContext P → Prop} (hclient : ∀ connectionId, I (newClient connectionId))
    (hserver : I newServer) (hleft : ∀ c c', I c → Left c c' → I c') {c : HandshakeContext P} (h : Reachable c) : I c := by
  have hstep : ∀ (c : HandshakeContext P) (call : Call P) (c' : HandshakeContext P), I c → True →
      call.step c = some c' → I c' := by
    intro c call c' hc _ hcall
    cases hcall
    exact hleft c _ hc (left_exec c call)
  cases h with
  | client run => exact run.invariant (hclient _) (fun c call c' => hstep c call c')
  | server run => exact run.invariant hserver (fun c call c' => hstep c call c')

theorem Left.peerKnown {c c' : HandshakeContext P} (h : Left c c') (hc : PeerKnown c) : PeerKnown c' := by
  cases h with
  | same => exact hc
  | greeting => exact hc
  | complete => exact hc
  | _ => exact fun _ => Option.some_ne_none _

theorem Reachable.peerKnown {c : HandshakeContext P} (h : Reachable c) : PeerKnown c :=
  h.invariant (fun _ hkey => absurd rfl hkey) (fun hkey => absurd rfl hkey) fun _ _ hc hleft => hleft.peerKnown hc

/-- **A call that fails leaves everything as it was exactly when it is harmless**: of
the handlers only `handle_server_hello` writes before it checks. -/
theorem kept_iff_harmless {c : HandshakeContext P} (hc : Reachable c) (call : Call P) {e : Error}
    (herror : (call.exec c).1 = .error (.err e)) : Kept c (call.exec c).2 ↔ call.Harmless c := by
  cases call with
  | createClientHello secret identity capabilities => cases herror
  | handleClientHello connectionId secret frame identity capabilities =>
    have hleft := handleClientHello_error (ended_error herror)
    refine iff_of_true ?_ trivial
    show Kept c ((handleClientHello connectionId secret frame identity capabilities).exec c).2
    rw [hleft]
    exact Kept.refl c
  | handleServerHello frame =>
    show Kept c ((handleServerHello frame).exec c).2 ↔ _
    have hhandled := handleServerHello_cases c frame
    rw [ended_error herror] at hhandled
    generalize ((handleServerHello frame).exec c).2 = c' at hhandled ⊢
    cases hhandled with
    | unread hdecode =>
      refine iff_of_true (Kept.refl c) fun hello hello_decodes => ?_
      cases hello_decodes.symm.trans hdecode
    | @unproven hello _ hdecode hunproven =>
      constructor
      · intro hkept hello' hdecode'
        cases hdecode'.symm.trans hdecode
        exact ⟨⟨hkept.peerConnectionId.symm, hkept.peerX25519Public.symm, hkept.peerIdentity.symm⟩, hunproven⟩
      · intro hharmless
        obtain ⟨⟨hcid, hpublic, hidentity⟩, _⟩ := hharmless hello hdecode
        exact ⟨rfl, rfl, rfl, rfl, hcid.symm, hpublic.symm, hidentity.symm, rfl⟩
    | @spent hello _ hdecode hproven hspent =>
      refine iff_of_false (fun hkept => ?_) fun hharmless => (hharmless hello hdecode).2 hproven
      have hgrown := List.append_right_eq_self.mp hkept.transcript
      cases hgrown
  | createFinished => exact iff_of_true (Kept.refl c) trivial
  | handleFinishedAndRespond frame =>
    refine iff_of_true ?_ trivial
    show Kept c ((handleFinishedAndRespond frame).exec c).2
    rcases handleFinishedAndRespond_leaves c frame with hleft | ⟨hkey, _⟩
    · rw [hleft]
      exact Kept.refl c
    · obtain ⟨peerCid, hcid⟩ := Option.ne_none_iff_exists'.mp (hc.peerKnown hkey)
      rw [handleFinishedAndRespond_error hcid (ended_error herror)]
      exact Kept.refl c
  | verifyFinished frame =>
    refine iff_of_true ?_ trivial
    show Kept c ((verifyFinished frame).exec c).2
    rw [verifyFinished_error (ended_error herror)]
    exact Kept.refl c

/-- The server's hello with its signature blanked out. -/
def forgedFrame : Frame :=
  Frame.newLong .initial controlStreamId 0 0
    { helloOfServer fixedClient fixedServer with identityProof := List.replicate 64 0 }.encode

theorem reachable_greetingContext : Reachable (greetingContext fixedClient) :=
  @Reachable.client _ fixedClient.connectionId _
    (.next (.createClientHello fixedClient.secret fixedClient.identity fixedClient.capabilities) .start trivial rfl)

theorem exec_forged :
    (Call.exec (greetingContext fixedClient) (.handleServerHello forgedFrame)).1 =
      fail (.crypto "Signature verification failed: signature error") := by
  decide +kernel

theorem kept_iff_harmless_forged :
    Kept (greetingContext fixedClient) (Call.exec (greetingContext fixedClient) (.handleServerHello forgedFrame)).2 ↔
      Call.Harmless (greetingContext fixedClient) (.handleServerHello forgedFrame) :=
  kept_iff_harmless reachable_greetingContext _ exec_forged

/-- The client refuses the hello and keeps what it says of its sender. -/
theorem forged_not_kept :
    Reachable (greetingContext fixedClient) ∧
      (Call.exec (greetingContext fixedClient) (.handleServerHello forgedFrame)).1 =
        fail (.crypto "Signature verification failed: signature error") ∧
      ¬ Kept (greetingContext fixedClient)
        (Call.exec (greetingContext fixedClient) (.handleServerHello forgedFrame)).2 := by
  refine ⟨reachable_greetingContext, exec_forged, fun hkept => ?_⟩
  have hidentity : (Call.exec (greetingContext fixedClient) (.handleServerHello forgedFrame)).2.peerIdentity =
      some fixedServer.identity.hash := by decide +kernel
  cases hidentity.symm.trans hkept.peerIdentity

/-! ### Whose identity a client stores -/

/-- A client that accepts a hello has stored the hash of the key the hello was proven with. -/
def Call.SelfCertified (c : HandshakeContext P) (call : Call P) : Prop :=
  ∀ frame hello, call = .handleServerHello frame → (call.exec c).1 = .ok () →
    ServerHello.decode frame.payload = .ok hello →
      ∃ identity, (call.exec c).2.peerIdentity = some identity ∧
        identity = computeIdentityHash (P := P) hello.identityPublicKey ∧
        Identity.verifyHash P hello.identityPublicKey identity = .ok true

/-- A hello that its sender has signed, and that finds the client waiting, names the
identity of the key it is signed with. -/
def Call.Truthful (c : HandshakeContext P) : Call P → Prop
  | .handleServerHello frame => ∀ hello, ServerHello.decode frame.payload = .ok hello → c.Proven hello →
      c.x25519Secret ≠ none → hello.identity = computeIdentityHash (P := P) hello.identityPublicKey
  | _ => True

theorem Proven.verifyHash {c : HandshakeContext P} {hello : ServerHello} (h : c.Proven hello) :
    Identity.verifyHash P hello.identityPublicKey (computeIdentityHash (P := P) hello.identityPublicKey) = .ok true := by
  obtain ⟨proof, _, hverify⟩ := h
  obtain ⟨u, hkey, _⟩ := bind_eq_ok.mp hverify
  rw [Identity.verifyHash, hkey]
  simp

theorem selfCertified_iff (c : HandshakeContext P) (call : Call P) : call.SelfCertified c ↔ call.Truthful c := by
  cases call with
  | handleServerHello frame =>
    have hexec : ∀ hello secret, ServerHello.decode frame.payload = .ok hello → c.Proven hello →
        c.x25519Secret = some secret →
          (Call.handleServerHello frame).exec c = (.ok (), c.accepted secret frame hello) := by
      intro hello secret hdecode hproven hsecret
      obtain ⟨proof, hbytes, hverify⟩ := hproven
      show ended _ = _
      rw [handleServerHello_eq_ok.mpr ⟨hello, proof, secret, hdecode, hbytes, hverify, hsecret, rfl⟩]
      rfl
    constructor
    · intro h hello hdecode hproven hwaits
      obtain ⟨secret, hsecret⟩ := Option.ne_none_iff_exists'.mp hwaits
      have haccepted := hexec hello secret hdecode hproven hsecret
      obtain ⟨identity, hstored, hhash, _⟩ := h frame hello rfl (by rw [haccepted]) hdecode
      rw [haccepted] at hstored
      exact (Option.some.inj hstored).trans hhash
    · intro h frame' hello hcall hok hdecode
      cases hcall
      have hhandled := handleServerHello_cases c frame
      have hended : (ended ((handleServerHello frame).exec c)).1 = .ok () := hok
      show ∃ identity, ((handleServerHello frame).exec c).2.peerIdentity = some identity ∧ _
      generalize (handleServerHello frame).exec c = r at hhandled hended ⊢
      cases hhandled with
      | unread => cases hended
      | unproven => cases hended
      | spent => cases hended
      | accepted hdecode' hproven hsecret =>
        cases hdecode.symm.trans hdecode'
        have hidentity := h hello hdecode hproven (by rw [hsecret]; nofun)
        refine ⟨hello.identity, rfl, hidentity, ?_⟩
        rw [hidentity]
        exact hproven.verifyHash
  | _ => exact iff_of_true (fun _ _ hcall => nomatch hcall) trivial

/-- **A client stores who its server is, in every hello it accepts, exactly in the runs
whose hellos are truthful**: nothing compares the identity in a hello with the key. -/
theorem selfCertified_iff_truthful (connectionId : UInt64) (calls : List (Call P)) :
    Throughout Call.step (fun c call => call.SelfCertified c) (newClient connectionId) calls ↔
      Throughout Call.step (fun c call => call.Truthful c) (newClient connectionId) calls :=
  throughout_iff (I := fun _ => True) (fun c call _ => selfCertified_iff c call) (fun _ _ _ _ _ _ => trivial) trivial calls

/-- The server's hello under the name of someone else, signed with the server's key. -/
def impostorFrame : Frame :=
  Frame.newLong .initial controlStreamId 0 0
    { helloOfServer fixedClient fixedServer with identity := fixedClient.identity.hash }.encode

/-- The client accepts it, and its peer is the someone else. -/
theorem impostor_accepted :
    (Call.exec (greetingContext fixedClient) (.handleServerHello impostorFrame)).1 = .ok () ∧
      (Call.exec (greetingContext fixedClient) (.handleServerHello impostorFrame)).2.peerIdentity =
        some fixedClient.identity.hash ∧
      ¬ Throughout Call.step (fun c call => call.SelfCertified c) (newClient fixedClient.connectionId)
        [.createClientHello fixedClient.secret fixedClient.identity fixedClient.capabilities,
          .handleServerHello impostorFrame] := by
  have hok : (Call.exec (greetingContext fixedClient) (.handleServerHello impostorFrame)).1 = .ok () := by decide +kernel
  have hstored : (Call.exec (greetingContext fixedClient) (.handleServerHello impostorFrame)).2.peerIdentity =
      some fixedClient.identity.hash := by decide +kernel
  refine ⟨hok, hstored, fun h => ?_⟩
  have hdecode : ServerHello.decode impostorFrame.payload =
      .ok { helloOfServer fixedClient fixedServer with identity := fixedClient.identity.hash } :=
    ServerHello.decode_encode_signed (helloOfServer_signed fixedClient fixedServer)
  obtain ⟨identity, hidentity, hhash, _⟩ := (h.2 (greetingContext fixedClient) rfl).1 impostorFrame _ rfl hok hdecode
  cases (hstored.symm.trans hidentity).trans (congrArg some hhash)

end HandshakeContext

end

end Aether
