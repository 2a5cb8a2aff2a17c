import Aether.Connection.Accept
import Aether.Library.Notes
import Aether.Library.Runs

/-! The listener's loop (`Listener::accept` of `connection.rs`).

The loop calls `Connection::accept` until a call succeeds. A call reads two datagrams
from the socket, one after the other, and a listener that has read so much is in a
`Listening`: between calls, halfway through one, done, or dead. The loop is a run of a
machine that takes one datagram at a time (`accept_eq_run`), so a connection comes from
two datagrams that arrived in a row where all before them was used up by calls that
failed (`accept_returned_iff`), and the loop dies of a first datagram only
(`accept_aborted_iff`). -/
namespace Aether
open Octets Octets.Method

section
variable {P : Primitives}

/-- What a socket receives: a datagram, or an error. -/
abbrev Arrival := Except String Bytes

variable (P) in
structure Listener where
  identity : Identity P
  config : Config
  /-- The connection ID and the secret of the `n`th call. -/
  draws : Nat → UInt64 × P.Scalar

variable (P) in
/-- Where the loop is, with the calls that have failed. -/
inductive Listening where
  | initial (failed : Nat) (socket : Socket)
  | finished (failed : Nat) (socket : Socket) (hs : HandshakeContext P)
  | returned (c : Connection P)
  | aborted

def Listening.waits : Listening P → Bool
  | .initial _ _ | .finished _ _ _ => true
  | .returned _ | .aborted => false

namespace Listener
open Connection

/-- The first half of a call, which reads the first datagram. -/
def hello (l : Listener P) (n : Nat) (clientHello : Arrival) : Action Socket (HandshakeContext P) :=
  acceptHello l.config l.identity (l.draws n).1 (l.draws n).2 clientHello

/-- A call. -/
def call (l : Listener P) (n : Nat) (clientHello clientFinished : Arrival) : Action Socket (Connection P) :=
  Connection.accept l.config l.identity (l.draws n).1 (l.draws n).2 clientHello clientFinished

/-- `Listener::accept` on what its socket receives, and what it has not read when it returns. A call that
fails before it answers has read one datagram. -/
def accept (l : Listener P) (n : Nat) (socket : Socket) : List Arrival → Listening P × List Arrival
  | [] => (.initial n socket, [])
  | clientHello :: arriving =>
    match (l.hello n clientHello).exec socket with
    | (.error .panic, _) => (.aborted, arriving)
    | (.error (.err _), left) => accept l (n + 1) left arriving
    | (.ok hs, left) =>
      match arriving with
      | [] => (.finished n left hs, [])
      | clientFinished :: arriving =>
        match (l.call n clientHello clientFinished).exec socket with
        | (.error .panic, _) => (.aborted, arriving)
        | (.error (.err _), left) => accept l (n + 1) left arriving
        | (.ok c, _) => (.returned c, arriving)

/-! ### One datagram at a time -/

/-- What a call comes to. -/
def resumed {α : Type} (n : Nat) (goOn : Socket → α → Listening P) : Result α × Socket → Listening P
  | (.ok a, left) => goOn left a
  | (.error (.err _), left) => .initial (n + 1) left
  | (.error .panic, _) => .aborted

/-- A loop that has ended reads nothing. -/
def next (l : Listener P) : Listening P → Arrival → Option (Listening P)
  | .initial n socket, arrival => some (resumed n (.finished n) ((l.hello n arrival).exec socket))
  | .finished n socket hs, arrival =>
    some (resumed n (fun _ c => .returned c) ((acceptFinished l.config hs arrival).exec socket))
  | .returned _, _ => none
  | .aborted, _ => none

def run (l : Listener P) (s : Listening P) : List Arrival → Listening P × List Arrival
  | [] => (s, [])
  | arrival :: arriving =>
    match l.next s arrival with
    | some t => run l t arriving
    | none => (s, arrival :: arriving)

section Loop
variable {l : Listener P}

theorem run_append (s : Listening P) (before after : List Arrival) {t : Listening P} (h : l.run s before = (t, [])) :
    l.run s (before ++ after) = l.run t after := by
  induction before generalizing s with
  | nil =>
    cases h
    rfl
  | cons arrival before ih =>
    rw [List.cons_append, run]
    rw [run] at h
    cases hnext : l.next s arrival with
    | none =>
      rw [hnext] at h
      cases h
    | some t' =>
      rw [hnext] at h
      exact ih t' h

theorem accept_answered {n : Nat} {socket left : Socket} {clientHello : Arrival} {hs : HandshakeContext P}
    (h : (l.hello n clientHello).exec socket = (.ok hs, left)) :
    l.accept n socket [clientHello] = (.finished n left hs, []) := by
  rw [accept, h]

/-- A call that has answered goes on with its second half. -/
theorem exec_call {n : Nat} {socket left : Socket} {clientHello : Arrival} {hs : HandshakeContext P}
    (h : (l.hello n clientHello).exec socket = (.ok hs, left)) (clientFinished : Arrival) :
    (l.call n clientHello clientFinished).exec socket = (acceptFinished l.config hs clientFinished).exec left := by
  rw [call, accept_eq]
  exact exec_bind_ok h

theorem run_ended {s : Listening P} (h : ∀ arrival, l.next s arrival = none) (arriving : List Arrival) :
    l.run s arriving = (s, arriving) := by
  cases arriving with
  | nil => rfl
  | cons arrival arriving => rw [run, h]

/-- **The loop takes one datagram at a time.** -/
theorem accept_eq_run (n : Nat) (socket : Socket) (arriving : List Arrival) :
    l.accept n socket arriving = l.run (.initial n socket) arriving := by
  fun_induction accept l n socket arriving with
  | case1 => rfl
  | case2 n socket clientHello arriving left h =>
    simp only [run, next, h, resumed]
    exact (run_ended (fun _ => rfl) arriving).symm
  | case3 n socket clientHello arriving e left h ih =>
    simp only [run, next, h, resumed]
    exact ih
  | case4 n socket clientHello hs left h =>
    simp only [run, next, h, resumed]
  | case5 n socket clientHello hs left h clientFinished arriving left' h' =>
    rw [exec_call h] at h'
    simp only [run, next, h, h', resumed]
    exact (run_ended (fun _ => rfl) arriving).symm
  | case6 n socket clientHello hs left h clientFinished arriving e left' h' ih =>
    rw [exec_call h] at h'
    simp only [run, next, h, h', resumed]
    exact ih
  | case7 n socket clientHello hs left h clientFinished arriving c left' h' =>
    rw [exec_call h] at h'
    simp only [run, next, h, h', resumed]
    exact (run_ended (fun _ => rfl) arriving).symm

/-! ### What has been read -/

theorem run_read {s t : Listening P} {arriving unread : List Arrival} (h : l.run s arriving = (t, unread)) :
    ∃ before, arriving = before ++ unread ∧ l.run s before = (t, []) := by
  induction arriving generalizing s with
  | nil =>
    cases h
    exact ⟨[], rfl, rfl⟩
  | cons arrival arriving ih =>
    rw [run] at h
    cases hnext : l.next s arrival with
    | none =>
      rw [hnext] at h
      cases h
      exact ⟨[], rfl, rfl⟩
    | some t' =>
      rw [hnext] at h
      obtain ⟨before, rfl, hbefore⟩ := ih h
      refine ⟨arrival :: before, rfl, ?_⟩
      rw [run, hnext]
      exact hbefore

/-- Where the last datagram was read. -/
theorem run_concat {s t : Listening P} {before : List Arrival} {last : Arrival} :
    l.run s (before ++ [last]) = (t, []) ↔ ∃ s', l.run s before = (s', []) ∧ l.next s' last = some t := by
  induction before generalizing s with
  | nil =>
    rw [List.nil_append, run]
    cases hnext : l.next s last with
    | none => simp [run, hnext]
    | some t' => simp [run, hnext]
  | cons arrival before ih =>
    rw [List.cons_append, run, run]
    cases hnext : l.next s arrival with
    | none => simp
    | some t' => exact ih

/-- Everything a datagram can do. -/
inductive Reads (l : Listener P) : Listening P → Arrival → Listening P → Prop where
  | answered {n : Nat} {socket left : Socket} {arrival : Arrival} {hs : HandshakeContext P}
      (exec : (l.hello n arrival).exec socket = (.ok hs, left)) :
      Reads l (.initial n socket) arrival (.finished n left hs)
  | refused {n : Nat} {socket left : Socket} {arrival : Arrival} {e : Error}
      (exec : (l.hello n arrival).exec socket = (.error (.err e), left)) :
      Reads l (.initial n socket) arrival (.initial (n + 1) left)
  | crashed {n : Nat} {socket left : Socket} {arrival : Arrival}
      (exec : (l.hello n arrival).exec socket = (.error .panic, left)) :
      Reads l (.initial n socket) arrival .aborted
  | established {n : Nat} {socket left : Socket} {hs : HandshakeContext P} {arrival : Arrival} {c : Connection P}
      (exec : (acceptFinished l.config hs arrival).exec socket = (.ok c, left)) :
      Reads l (.finished n socket hs) arrival (.returned c)
  | failed {n : Nat} {socket left : Socket} {hs : HandshakeContext P} {arrival : Arrival} {e : Error}
      (exec : (acceptFinished l.config hs arrival).exec socket = (.error (.err e), left)) :
      Reads l (.finished n socket hs) arrival (.initial (n + 1) left)
  | broken {n : Nat} {socket left : Socket} {hs : HandshakeContext P} {arrival : Arrival}
      (exec : (acceptFinished l.config hs arrival).exec socket = (.error .panic, left)) :
      Reads l (.finished n socket hs) arrival .aborted

theorem next_eq_some {s t : Listening P} {arrival : Arrival} : l.next s arrival = some t ↔ Reads l s arrival t := by
  constructor
  · intro h
    cases s with
    | initial n socket =>
      rcases hexec : (l.hello n arrival).exec socket with ⟨⟨_ | _⟩ | hs, left⟩ <;> rw [next, hexec] at h <;> cases h
      · exact .refused hexec
      · exact .crashed hexec
      · exact .answered hexec
    | finished n socket hs =>
      rcases hexec : (acceptFinished l.config hs arrival).exec socket with ⟨⟨_ | _⟩ | c, left⟩ <;> rw [next, hexec] at h <;>
        cases h
      · exact .failed hexec
      · exact .broken hexec
      · exact .established hexec
    | returned c => cases h
    | aborted => cases h
  · intro h
    cases h with
    | _ exec =>
      rw [next, exec]
      rfl

/-- Halfway through a call a hello has been answered. -/
theorem run_eq_finished {s : Listening P} {before : List Arrival} {n : Nat} {left : Socket} {hs : HandshakeContext P}
    (hs' : ∀ m socket hs, s ≠ .finished m socket hs) (h : l.run s before = (.finished n left hs, [])) :
    ∃ earlier clientHello socket, before = earlier ++ [clientHello] ∧ l.run s earlier = (.initial n socket, []) ∧
      (l.hello n clientHello).exec socket = (.ok hs, left) := by
  rcases List.eq_nil_or_concat before with rfl | ⟨earlier, clientHello, rfl⟩
  · cases h
    exact absurd rfl (hs' _ _ _)
  · rw [List.concat_eq_append] at h
    obtain ⟨s', hearlier, hnext⟩ := run_concat.mp h
    cases next_eq_some.mp hnext with
    | answered exec => exact ⟨earlier, clientHello, _, List.concat_eq_append, hearlier, exec⟩

theorem accept_eq_finished {n m : Nat} {socket left : Socket} {before : List Arrival} {hs : HandshakeContext P}
    (h : l.run (.initial n socket) before = (.finished m left hs, [])) :
    ∃ earlier clientHello socket', before = earlier ++ [clientHello] ∧
      l.accept n socket earlier = (.initial m socket', []) ∧
      (l.hello m clientHello).exec socket' = (.ok hs, left) := by
  have hinitial : ∀ m socket' hs, (.initial n socket : Listening P) ≠ .finished m socket' hs := by
    intro _ _ _ h
    cases h
  obtain ⟨earlier, clientHello, socket', hbefore, hearlier, hhello⟩ := run_eq_finished hinitial h
  rw [← accept_eq_run] at hearlier
  exact ⟨earlier, clientHello, socket', hbefore, hearlier, hhello⟩

theorem socket_of_call {n : Nat} {socket left : Socket} {clientHello clientFinished : Arrival} {c : Connection P}
    (h : (l.call n clientHello clientFinished).exec socket = (.ok c, left)) : c.socket = left := by
  obtain ⟨_, _, _, _, _, _, _, _, _, _, _, _, _, _, _, _, _, _, _, rfl⟩ := accept_eq_ok.mp h
  rfl

/-- A call that succeeds on the next two datagrams ends the loop. -/
theorem accept_of_call {n m : Nat} {socket left : Socket} {before : List Arrival}
    (hbefore : l.accept n socket before = (.initial m left, [])) {clientHello clientFinished : Arrival}
    {c : Connection P} (hcall : (l.call m clientHello clientFinished).exec left = (.ok c, c.socket))
    (unread : List Arrival) :
    l.accept n socket (before ++ clientHello :: clientFinished :: unread) = (.returned c, unread) := by
  rw [accept_eq_run] at hbefore ⊢
  rw [run_append _ _ _ hbefore]
  rw [call, accept_eq] at hcall
  obtain ⟨hs, left', hhello, hfinished⟩ := exec_bind_eq_ok.mp hcall
  rw [run, next_eq_some.mpr (.answered hhello)]
  simp only [run, next_eq_some.mpr (.established hfinished)]
  exact run_ended (fun _ => rfl) unread

/-- **A listener returns what a call of `accept` makes of two datagrams that arrived in a
row**, where all before them was used up by calls that failed, and nothing after them is
read. -/
theorem accept_returned_iff (l : Listener P) (n : Nat) (socket : Socket) (arriving unread : List Arrival)
    (c : Connection P) :
    l.accept n socket arriving = (.returned c, unread) ↔
      ∃ before clientHello clientFinished m left, arriving = before ++ clientHello :: clientFinished :: unread ∧
        l.accept n socket before = (.initial m left, []) ∧
        (l.call m clientHello clientFinished).exec left = (.ok c, c.socket) := by
  constructor
  · intro h
    rw [accept_eq_run] at h
    obtain ⟨read, rfl, hread⟩ := run_read h
    rcases List.eq_nil_or_concat read with rfl | ⟨earlier, clientFinished, rfl⟩
    · cases hread
    · rw [List.concat_eq_append] at hread ⊢
      obtain ⟨s, hearlier, hnext⟩ := run_concat.mp hread
      cases next_eq_some.mp hnext with
      | established hfinished =>
        obtain ⟨before, clientHello, left, rfl, hbefore, hhello⟩ := accept_eq_finished hearlier
        have hcall := (exec_call hhello clientFinished).trans hfinished
        refine ⟨before, clientHello, clientFinished, _, left, by simp, hbefore, ?_⟩
        rw [socket_of_call hcall]
        exact hcall
  · intro h
    obtain ⟨before, clientHello, clientFinished, m, left, rfl, hbefore, hcall⟩ := h
    exact accept_of_call hbefore hcall unread

theorem safe_acceptFinished {n : Nat} {clientHello : Arrival} {socket left : Socket} {hs : HandshakeContext P}
    (h : (l.hello n clientHello).exec socket = (.ok hs, left)) (clientFinished : Arrival) :
    Safe ((acceptFinished l.config hs clientFinished).exec left).1 := by
  obtain ⟨frame, hello, _, rfl⟩ := acceptHello_eq_ok h
  exact total_acceptFinished l.config rfl rfl clientFinished left

/-- **The loop is aborted by a first datagram only**, by an Initial frame whose hello ends
too soon. -/
theorem accept_aborted_iff (l : Listener P) (n : Nat) (socket : Socket) (arriving unread : List Arrival) :
    l.accept n socket arriving = (.aborted, unread) ↔
      ∃ before datagram m left frame, arriving = before ++ .ok datagram :: unread ∧
        l.accept n socket before = (.initial m left, []) ∧ Frame.decode (datagram.take maxPacketSize) = .ok frame ∧
        frame.header.frameType = .initial ∧ ¬ ClientHello.Readable frame.payload := by
  constructor
  · intro h
    rw [accept_eq_run] at h
    obtain ⟨read, rfl, hread⟩ := run_read h
    rcases List.eq_nil_or_concat read with rfl | ⟨before, last, rfl⟩
    · cases hread
    · rw [List.concat_eq_append] at hread ⊢
      obtain ⟨s, hbefore, hnext⟩ := run_concat.mp hread
      cases next_eq_some.mp hnext with
      | @crashed m left left' _ hhello =>
        cases last with
        | error text => cases (exec_bind_error rfl).symm.trans hhello
        | ok datagram =>
          have hunsafe : ¬ Safe ((l.hello m (.ok datagram)).exec left).1 := by
            rw [hhello]
            exact not_safe_panic
          rw [hello, safe_acceptHello] at hunsafe
          push Not at hunsafe
          obtain ⟨frame, hframe, htype, hreadable⟩ := hunsafe
          rw [← accept_eq_run] at hbefore
          exact ⟨before, datagram, m, left, frame, by simp, hbefore, hframe, htype, hreadable⟩
      | broken hfinished =>
        obtain ⟨_, _, _, _, _, hhello⟩ := accept_eq_finished hbefore
        have hsafe := safe_acceptFinished hhello last
        rw [hfinished] at hsafe
        exact absurd hsafe not_safe_panic
  · intro h
    obtain ⟨before, datagram, m, left, frame, rfl, hbefore, hframe, htype, hreadable⟩ := h
    rw [accept_eq_run] at hbefore ⊢
    rw [run_append _ _ _ hbefore]
    have hunsafe : ¬ Safe ((l.hello m (.ok datagram)).exec left).1 := by
      rw [hello, safe_acceptHello]
      exact fun h => hreadable (h frame hframe htype)
    rcases hexec : (l.hello m (.ok datagram)).exec left with ⟨⟨_ | _⟩ | hs, left'⟩
    · rw [hexec] at hunsafe
      exact absurd (safe_err _) hunsafe
    · rw [run, next_eq_some.mpr (.crashed hexec)]
      exact run_ended (fun _ => rfl) unread
    · rw [hexec] at hunsafe
      exact absurd (safe_ok _) hunsafe

/-! ### After anything -/

theorem keeps_send {refuses : Nat → Option String} (datagram : Bytes) :
    Keeps (fun s : Socket => s.refuses = refuses) (Socket.send datagram) := by
  intro s h
  cases hrefuses : s.refuses s.attempts with
  | none =>
    rw [Socket.exec_send_taken hrefuses]
    exact h
  | some text =>
    rw [Socket.exec_send_refused hrefuses]
    exact h

/-- What a call sends does not change what the socket will take. -/
theorem refuses_hello {n : Nat} {clientHello : Arrival} {socket left : Socket} {r : Result (HandshakeContext P)}
    (h : (l.hello n clientHello).exec socket = (r, left)) : left.refuses = socket.refuses := by
  have hkeeps : Keeps (fun s : Socket => s.refuses = socket.refuses) (l.hello n clientHello) := by
    refine keeps_bind (keeps_lift _) fun frame => ?_
    split
    · exact keeps_throw _
    · refine keeps_bind (keeps_lift _) fun shFrame => keeps_bind (keeps_send _) fun _ => ?_
      exact keeps_bind (keeps_lift _) fun sfFrame => keeps_bind (keeps_send _) fun _ => keeps_pure _
  have hleft := hkeeps socket rfl
  rw [h] at hleft
  exact hleft

/-- The second half sends nothing. -/
theorem socket_acceptFinished {config : Config} {hs : HandshakeContext P} {clientFinished : Arrival} {socket left : Socket}
    {r : Result (Connection P)} (h : (acceptFinished config hs clientFinished).exec socket = (r, left)) :
    left = socket := by
  have hkeeps : Keeps (fun s : Socket => s = socket) (acceptFinished config hs clientFinished) := by
    refine keeps_bind (keeps_lift _) fun cfFrame => keeps_bind (keeps_lift _) fun _ => ?_
    refine keeps_bind (keeps_lift _) fun sessionKey => keeps_bind (keeps_lift _) fun peerConnectionId => ?_
    exact keeps_bind keeps_get fun _ => keeps_pure _
  have hleft := hkeeps socket rfl
  rw [h] at hleft
  exact hleft

/-- A loop that goes on, on a socket that takes everything. -/
def Going : Listening P → Prop
  | .initial _ socket | .finished _ socket _ => ∀ n, socket.refuses n = none
  | .returned _ | .aborted => False

/-- Whatever it reads, if it goes on it does so on the same socket. -/
theorem Reads.going {s t : Listening P} {arrival : Arrival} (h : Reads l s arrival t) (hs : Going s) (ht : t.waits = true) :
    Going t := by
  cases h with
  | answered exec =>
    rw [Going, refuses_hello exec]
    exact hs
  | refused exec =>
    rw [Going, refuses_hello exec]
    exact hs
  | failed exec =>
    rw [socket_acceptFinished exec]
    exact hs
  | _ => cases ht

theorem run_going {s t : Listening P} (hs : Going s) {arriving : List Arrival} (h : l.run s arriving = (t, []))
    (ht : t.waits = true) : Going t := by
  induction arriving using List.reverseRecOn generalizing t with
  | nil =>
    cases h
    exact hs
  | append_singleton before last ih =>
    obtain ⟨s', hbefore, hnext⟩ := run_concat.mp h
    have hreads := next_eq_some.mp hnext
    have hwaits : s'.waits = true := by
      cases hreads <;> rfl
    exact hreads.going (ih hbefore hwaits) ht

/-- What is no frame ends the call there is, and no more. -/
theorem next_junk {s : Listening P} (hs : Going s) {junk : Arrival} (h : ∀ frame, frameReceived junk ≠ .ok frame) :
    ∃ m left, l.next s junk = some (.initial m left) ∧ ∀ k, left.refuses k = none := by
  obtain ⟨e, he⟩ : ∃ e, frameReceived junk = .error (.err e) := by
    have hsafe := safe_frameReceived junk
    rcases hframe : frameReceived junk with ⟨_ | _⟩ | frame
    · exact ⟨_, rfl⟩
    · rw [hframe] at hsafe
      exact absurd hsafe not_safe_panic
    · exact absurd hframe (h frame)
  cases s with
  | initial n socket =>
    have hexec : (l.hello n junk).exec socket = (.error (.err e), socket) := exec_bind_error (by rw [he]; rfl)
    exact ⟨_, _, next_eq_some.mpr (.refused hexec), hs⟩
  | finished n socket hs' =>
    have hexec : (acceptFinished l.config hs' junk).exec socket = (.error (.err e), socket) :=
      exec_bind_error (by rw [he]; rfl)
    exact ⟨_, _, next_eq_some.mpr (.failed hexec), hs⟩
  | returned c => cases hs
  | aborted => cases hs

/-- The party that the server is in its `n`th call. -/
def server (l : Listener P) (n : Nat) : Party P :=
  { identity := l.identity
    capabilities := l.config.capabilities
    connectionId := (l.draws n).1
    secret := (l.draws n).2 }

section Honest
open HandshakeContext

/-- **One datagram that is no frame sets the listener right**: whatever it has received, if
it still goes on, the next client whose two datagrams arrive in a row is served. -/
theorem accept_after_junk (hmac : P.MacLength) (l : Listener P) {socket : Socket} (hopen : ∀ k, socket.refuses k = none)
    {before : List Arrival} {s : Listening P} (hbefore : l.accept 0 socket before = (s, [])) (hwaits : s.waits = true)
    {junk : Arrival} (hjunk : ∀ frame, frameReceived junk ≠ .ok frame) :
    ∃ m left, l.accept 0 socket (before ++ [junk]) = (.initial m left, []) ∧ ∀ (client : Party P) (unread : List Arrival),
      l.accept 0 socket (before ++ [junk] ++ .ok (clientHelloFrame client).encode ::
          .ok (clientFinishedFrame client (l.server m)).encode :: unread) =
        (.returned (serverOf client (l.server m) left l.config), unread) := by
  rw [accept_eq_run] at hbefore
  have hinitial : Going (.initial 0 socket : Listening P) := hopen
  have hgoing : Going s := run_going hinitial hbefore hwaits
  obtain ⟨m, left, hnext, hleft⟩ := next_junk (l := l) hgoing hjunk
  have hjunked : l.accept 0 socket (before ++ [junk]) = (.initial m left, []) := by
    rw [accept_eq_run]
    exact run_concat.mpr ⟨s, hbefore, hnext⟩
  refine ⟨m, left, hjunked, fun client unread => ?_⟩
  have hcall : (l.call m (.ok (clientHelloFrame client).encode)
      (.ok (clientFinishedFrame client (l.server m)).encode)).exec left =
        (.ok (serverOf client (l.server m) left l.config), (serverOf client (l.server m) left l.config).socket) :=
    accept_honest hmac client (l.server m) hleft rfl
  exact accept_of_call hjunked hcall unread

/-- A listener that draws the same numbers for every call. -/
def sampleListener : Listener Transparent.fixedMacs :=
  ⟨fixedServer.identity, sampleConfig, fun _ => (fixedServer.connectionId, fixedServer.secret)⟩

/-- A client that was answered and then went away, and an octet from somebody. -/
theorem accept_after_junk_halfway :
    ∃ m left, sampleListener.accept 0 openSocket ([.ok (clientHelloFrame fixedClient).encode] ++ [.ok [0]]) =
        (.initial m left, []) ∧
      ∀ (client : Party Transparent.fixedMacs) (unread : List Arrival),
        sampleListener.accept 0 openSocket ([.ok (clientHelloFrame fixedClient).encode] ++ [.ok [0]] ++
            .ok (clientHelloFrame client).encode ::
            .ok (clientFinishedFrame client (sampleListener.server m)).encode :: unread) =
          (.returned (serverOf client (sampleListener.server m) left sampleConfig), unread) := by
  have hanswers : Answers openSocket (.ok (clientHelloFrame fixedClient).encode) (clientHelloFrame fixedClient)
      (helloOfClient fixedClient) :=
    ⟨clientHello_received fixedClient, rfl, ClientHello.decode_encode_self _ (by decide), by decide, rfl, rfl⟩
  obtain ⟨left, hexec⟩ := exec_acceptHello sampleConfig fixedServer.identity fixedServer.connectionId fixedServer.secret
    hanswers
  have hbefore := accept_answered (l := sampleListener) (n := 0) hexec
  have hjunk : ∀ frame, frameReceived (.ok [0]) ≠ .ok frame := by
    intro frame h
    cases h
  exact accept_after_junk Transparent.fixedMacs_macLength sampleListener (fun _ => rfl) hbefore rfl hjunk

end Honest

end Loop

end Listener
end
end Aether
