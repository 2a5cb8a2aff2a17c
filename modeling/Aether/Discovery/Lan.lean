import Mathlib.Logic.Function.Basic
import Aether.Discovery.Cache

/-! Discovery services on one network (`announce_loop` and `receive_loop` of `discovery.rs`).

Nodes announce themselves, receive, answer queries and are read, in any order. What one of
them has sent may get to any other, late, more than once or never; nothing else is asked of
the network than that it makes nothing up. Then readers see what nodes have sent of
themselves and nothing else (`readers_see_nodes`), and a node that does not leave is found
wherever an announcement of it has been taken in, for as long as a record lives
(`announced_found`). -/
namespace Aether
open Octets Octets.Method

namespace DiscoveryService
variable {Addr : Type} (json : PeerInfoJson Addr)

/-- The buffer of `receive_loop`. -/
def receiveBuffer : Nat := 2048

/-- One turn of `receive_loop`: what goes wrong with a message is logged. -/
def receive (datagram : Bytes) (srcAddr : Addr) (now : Instant) : Action (DiscoveryService Addr) Unit :=
  tryCatch (handleMessage json (datagram.take receiveBuffer) srcAddr now) fun
    | .err _ => pure ()
    | .panic => throw .panic

/-- One turn of `announce_loop`. -/
def announceTurn (timestamp : UInt64) : Action (DiscoveryService Addr) Unit :=
  tryCatch (sendAnnounce json timestamp) fun
    | .err _ => pure ()
    | .panic => throw .panic

end DiscoveryService

open DiscoveryService

/-- Services, and how late it is. -/
structure Lan (ι Addr : Type) where
  nodes : ι → DiscoveryService Addr
  clock : Instant

namespace Lan
variable {ι Addr : Type}

inductive Event (ι Addr : Type) where
  | announce (node : ι) (timestamp : UInt64)
  | shutdown (node : ι)
  /-- The `n`th datagram of a sender gets to a receiver. -/
  | deliver (sender : ι) (n : Nat) (receiver : ι) (srcAddr : Addr) (now : Instant)
  /-- Someone asks who is there. -/
  | query (receiver : ι) (srcAddr : Addr) (now : Instant)
  | acquire (node : ι)
  | release (node : ι) (now : Instant)

/-- Before anything has been sent. -/
def start (refuses : ι → Nat → Option String) (ours : ι → PeerInfo Addr) (groupAddr : Addr) : Lan ι Addr :=
  ⟨fun i => bind ⟨refuses i, 0, []⟩ (ours i) groupAddr, 0⟩

section
variable [DecidableEq ι] (json : PeerInfoJson Addr)

/-- One node has changed. -/
def act (s : Lan ι Addr) (i : ι) (now : Instant) (t : DiscoveryService Addr) : Lan ι Addr :=
  ⟨Function.update s.nodes i t, now⟩

def step (s : Lan ι Addr) : Event ι Addr → Option (Lan ι Addr)
  | .announce i timestamp => some (s.act i s.clock ((announceTurn json timestamp).exec (s.nodes i)).2)
  | .shutdown i => some (s.act i s.clock ((DiscoveryService.shutdown json).exec (s.nodes i)).2)
  | .deliver i n j srcAddr now =>
    (s.nodes i).socket.sent[n]?.map fun m => s.act j now ((receive json m.1 srcAddr now).exec (s.nodes j)).2
  | .query j srcAddr now =>
    some (s.act j now ((receive json (DiscoveryMessage.query.encode json) srcAddr now).exec (s.nodes j)).2)
  | .acquire i => (DiscoveryService.step json (s.nodes i) .acquire).map (s.act i s.clock)
  | .release i now => (DiscoveryService.step json (s.nodes i) (.release now)).map (s.act i now)

end

/-- What a node says of itself at a time its clock shows. -/
def stamped (ours : PeerInfo Addr) (timestamp : UInt64) : PeerInfo Addr := { ours with timestamp }

/-! ### What is sent -/

section
variable (json : PeerInfoJson Addr)

/-- A message that fits the buffer it is received in and is read as it was written. -/
structure Legible (m : DiscoveryMessage Addr) : Prop where
  size : (m.encode json).length ≤ receiveBuffer
  magic : m.magic = discoveryMagic
  info : PeerInfo.decode json (m.peerInfo.encode json) = .ok m.peerInfo

/-- What a node with this information sends, which may be leaving. -/
inductive Spoken (leaves : Prop) (ours : PeerInfo Addr) : Bytes → Prop where
  | announce (timestamp : UInt64) (legible : Legible json (.announce (stamped ours timestamp))) :
      Spoken leaves ours ((DiscoveryMessage.announce (stamped ours timestamp)).encode json)
  | goodbye (leaving : leaves) (legible : Legible json (.goodbye ours)) :
      Spoken leaves ours ((DiscoveryMessage.goodbye ours).encode json)

end

/-- A node has sent this of itself. -/
def Said (json : PeerInfoJson Addr) (s : Lan ι Addr) (i : ι) (info : PeerInfo Addr) : Prop :=
  ∃ m ∈ (s.nodes i).socket.sent, m.1 = (DiscoveryMessage.announce info).encode json

/-- What a node with this information says of itself, which may be leaving. -/
inductive Tells (leaves : Prop) (ours : PeerInfo Addr) : Report Addr → Prop where
  | present (timestamp : UInt64) : Tells leaves ours (.present (stamped ours timestamp))
  | gone (leaving : leaves) : Tells leaves ours (.gone ours.identityHash)

variable {json : PeerInfoJson Addr} {leaves : Prop} {ours : PeerInfo Addr} {s : DiscoveryService Addr}

theorem Legible.decode {m : DiscoveryMessage Addr} (h : Legible json m) :
    DiscoveryMessage.decode json ((m.encode json).take receiveBuffer) = .ok m := by
  rw [List.take_of_length_le h.size]
  exact DiscoveryMessage.decode_encode h.magic h.info

/-- What is sent is what is said: who is told of a peer is told what an announcement holds. -/
theorem Spoken.tells {datagram : Bytes} (h : Spoken json leaves ours datagram) :
    ∃ report, reportOf json (datagram.take receiveBuffer) = some report ∧ Tells leaves ours report ∧
      ∀ info, report = .present info → datagram = (DiscoveryMessage.announce info).encode json := by
  cases h with
  | announce timestamp legible =>
    refine ⟨.present (stamped ours timestamp), ?_, .present timestamp, fun info hinfo => ?_⟩
    · rw [reportOf, legible.decode]
      rfl
    · cases hinfo
      rfl
  | goodbye leaving legible =>
    refine ⟨.gone ours.identityHash, ?_, .gone leaving, fun info hinfo => ?_⟩
    · rw [reportOf, legible.decode]
      rfl
    · cases hinfo

/-- A query tells nothing, whatever is made of the rest of it. -/
theorem reportOf_query : reportOf json ((DiscoveryMessage.query.encode json).take receiveBuffer) = none := by
  have htake : (DiscoveryMessage.query.encode json).take receiveBuffer = discoveryMagic ++ 0x02 :: aetherVersion ::
      ((DiscoveryMessage.query : DiscoveryMessage Addr).peerInfo.encode json).take 2042 := rfl
  have htype : DiscoveryMessageType.ofU8 0x02 = some .query := rfl
  rw [reportOf, htake, DiscoveryMessage.decode_wire htype]
  cases PeerInfo.decode json (((DiscoveryMessage.query : DiscoveryMessage Addr).peerInfo.encode json).take 2042) <;> rfl

/-! ### What a turn does to a node -/

/-- A datagram that is sent is the last, or not sent at all. -/
theorem sent_sendTo (datagram : Bytes) (addr : Addr) (socket : DatagramSocket Addr) :
    ((DatagramSocket.sendTo datagram addr).exec socket).2.sent = socket.sent ∨
      ((DatagramSocket.sendTo datagram addr).exec socket).2.sent = socket.sent ++ [(datagram, addr)] := by
  rw [DatagramSocket.sendTo, exec_get_bind]
  cases hrefuses : socket.refuses socket.attempts with
  | some text => exact .inl rfl
  | none => exact .inr rfl

/-- The cache is as it was, and at most this has been sent. -/
structure Sends (s t : DiscoveryService Addr) (datagram : Bytes) : Prop where
  same : SameCache s t
  sent : ∀ m ∈ t.socket.sent, m ∈ s.socket.sent ∨ m.1 = datagram
  kept : s.socket.sent ⊆ t.socket.sent

theorem sends_onSocket (s : DiscoveryService Addr) (datagram : Bytes) (addr : Addr) :
    Sends s ((DiscoveryService.onSocket (DatagramSocket.sendTo datagram addr)).exec s).2 datagram where
  same := sameCache_onSocket _ s
  sent m hm := by
    rcases sent_sendTo datagram addr s.socket with hsent | hsent
    · exact .inl (hsent ▸ hm)
    · rcases List.mem_append.mp (hsent ▸ hm) with hold | hnew
      · exact .inl hold
      · exact .inr (congrArg Prod.fst (List.mem_singleton.mp hnew))
  kept m hm := by
    show m ∈ ((DatagramSocket.sendTo datagram addr).exec s.socket).2.sent
    rcases sent_sendTo datagram addr s.socket with hsent | hsent
    · rwa [hsent]
    · rw [hsent]
      exact List.mem_append_left _ hm

/-- A loop goes on with what an error has left. -/
theorem exec_logged {σ : Type} (m : Action σ Unit) (s : σ) :
    (Method.exec (tryCatch m fun | .err _ => pure () | .panic => throw .panic) s).2 = (m.exec s).2 := by
  rw [exec_tryCatch]
  rcases m.exec s with ⟨⟨_ | _⟩ | _, t⟩ <;> rfl

theorem sends_announceTurn (s : DiscoveryService Addr) (timestamp : UInt64) :
    Sends s ((announceTurn json timestamp).exec s).2
      ((DiscoveryMessage.announce (stamped s.ourInfo timestamp)).encode json) := by
  rw [announceTurn, exec_logged, sendAnnounce, exec_get_bind]
  exact sends_onSocket s _ _

theorem sends_shutdown (s : DiscoveryService Addr) :
    Sends s ((DiscoveryService.shutdown json).exec s).2 ((DiscoveryMessage.goodbye s.ourInfo).encode json) := by
  rw [DiscoveryService.shutdown, exec_get_bind]
  exact sends_onSocket s _ _

/-- What is told is taken in, and nothing is sent. -/
theorem receive_told {datagram : Bytes} {report : Report Addr}
    (h : reportOf json (datagram.take receiveBuffer) = some report) (srcAddr : Addr) (now : Instant) :
    ((receive json datagram srcAddr now).exec s).2 = s.told now (some report) := by
  rw [receive, exec_logged, handleMessage]
  rw [reportOf] at h
  cases hdecode : DiscoveryMessage.decode json (datagram.take receiveBuffer) with
  | error e =>
    rw [hdecode] at h
    cases h
  | ok msg =>
    rw [hdecode] at h
    obtain ⟨magic, msgType, version, peerInfo⟩ := msg
    rw [exec_bind_ok (exec_lift _ _), exec_get_bind]
    cases msgType with
    | announce =>
      cases h
      by_cases hown : peerInfo.identityHash = s.ourInfo.identityHash
      · simp only [if_pos hown]
        exact (cachePeer_own hown now).symm
      · simp only [if_neg hown]
        rfl
    | query => cases h
    | response =>
      cases h
      rfl
    | goodbye =>
      cases h
      rfl

/-- What tells nothing is answered at most. -/
theorem sends_receive {datagram : Bytes} (h : reportOf json (datagram.take receiveBuffer) = none) (srcAddr : Addr)
    (now : Instant) :
    Sends s ((receive json datagram srcAddr now).exec s).2 ((DiscoveryMessage.announce s.ourInfo).encode json) := by
  rw [receive, exec_logged, handleMessage]
  rw [reportOf] at h
  cases hdecode : DiscoveryMessage.decode json (datagram.take receiveBuffer) with
  | error e => exact ⟨.refl s, fun m hm => .inl hm, fun m hm => hm⟩
  | ok msg =>
    rw [hdecode] at h
    obtain ⟨magic, msgType, version, peerInfo⟩ := msg
    rw [exec_bind_ok (exec_lift _ _), exec_get_bind]
    cases msgType with
    | query => exact sends_onSocket s _ _
    | _ => cases h

theorem told_socket (s : DiscoveryService Addr) (now : Instant) (report : Report Addr) :
    (s.told now (some report)).socket = s.socket ∧ (s.told now (some report)).ourInfo = s.ourInfo := by
  cases report with
  | present info =>
    rw [told, cachePeer]
    split
    · exact ⟨rfl, rfl⟩
    · split <;> exact ⟨rfl, rfl⟩
  | gone identityHash =>
    rw [told, removePeer]
    split <;> exact ⟨rfl, rfl⟩

/-! ### Nodes that make nothing up -/

section Nodes
variable (json) (leaves : ι → Prop) (ours : ι → PeerInfo Addr) (said : ι → PeerInfo Addr → Prop)

/-- Node `j`: what it has sent it may say, and what it keeps other nodes have said. -/
structure HonestNode (j : ι) (t : DiscoveryService Addr) : Prop where
  ourInfo : t.ourInfo = ours j
  sent : ∀ m ∈ t.socket.sent, Spoken json (leaves j) (ours j) m.1
  cached : ∀ identityHash info cachedAt, t.peers.lookup identityHash = some (info, cachedAt) →
    info.identityHash = identityHash ∧ identityHash ≠ (ours j).identityHash ∧
      ∃ i timestamp, info = stamped (ours i) timestamp ∧ said i info

end Nodes

section Nodes
variable {leaves : ι → Prop} {ours : ι → PeerInfo Addr} {said : ι → PeerInfo Addr → Prop} {i j : ι}
  {t t' : DiscoveryService Addr}

/-- What was said stays said. -/
theorem HonestNode.later (h : HonestNode json leaves ours said j t) {said' : ι → PeerInfo Addr → Prop}
    (hsaid : ∀ i info, said i info → said' i info) : HonestNode json leaves ours said' j t where
  ourInfo := h.ourInfo
  sent := h.sent
  cached identityHash info cachedAt hlookup := by
    obtain ⟨hkey, hother, i, timestamp, hsame, hinfo⟩ := h.cached identityHash info cachedAt hlookup
    exact ⟨hkey, hother, i, timestamp, hsame, hsaid i info hinfo⟩

theorem HonestNode.sends (h : HonestNode json leaves ours said j t) {datagram : Bytes} (hsends : Sends t t' datagram)
    (hspoken : Spoken json (leaves j) (ours j) datagram) : HonestNode json leaves ours said j t' where
  ourInfo := hsends.same.ourInfo.trans h.ourInfo
  sent m hm := by
    rcases hsends.sent m hm with hold | hnew
    · exact h.sent m hold
    · rw [hnew]
      exact hspoken
  cached := by
    rw [hsends.same.peers]
    exact h.cached

theorem HonestNode.told (h : HonestNode json leaves ours said j t) {report : Report Addr}
    (htells : Tells (leaves i) (ours i) report) (hsaid : ∀ info, report = .present info → said i info) (now : Instant) :
    HonestNode json leaves ours said j (t.told now (some report)) := by
  obtain ⟨hsocket, hourInfo⟩ := told_socket t now report
  refine ⟨hourInfo.trans h.ourInfo, ?_, fun identityHash info cachedAt hlookup => ?_⟩
  · rw [hsocket]
    exact h.sent
  · cases hheld : t.held with
    | true =>
      have hsame : t.told now (some report) = t := by
        cases report with
        | present info => exact cachePeer_held hheld info now
        | gone identityHash => exact removePeer_held hheld identityHash
      rw [hsame] at hlookup
      exact h.cached identityHash info cachedAt hlookup
    | false =>
      cases htells with
      | gone leaving =>
        rw [DiscoveryService.told, removePeer_free hheld] at hlookup
        by_cases hkey : identityHash = (ours i).identityHash
        · rw [hkey, AList.lookup_erase] at hlookup
          cases hlookup
        · rw [AList.lookup_erase_ne hkey] at hlookup
          exact h.cached identityHash info cachedAt hlookup
      | present timestamp =>
        by_cases hown : (stamped (ours i) timestamp).identityHash = t.ourInfo.identityHash
        · rw [DiscoveryService.told, cachePeer_own hown] at hlookup
          exact h.cached identityHash info cachedAt hlookup
        · rw [DiscoveryService.told, cachePeer_free hown hheld] at hlookup
          by_cases hkey : identityHash = (stamped (ours i) timestamp).identityHash
          · subst hkey
            cases (AList.lookup_insert _).symm.trans hlookup
            exact ⟨rfl, h.ourInfo ▸ hown, i, timestamp, rfl, hsaid _ rfl⟩
          · exact h.cached identityHash info cachedAt ((AList.lookup_insert_ne hkey).symm.trans hlookup)

theorem HonestNode.acquired (h : HonestNode json leaves ours said j t)
    (hstep : DiscoveryService.step json t .acquire = some t') :
    HonestNode json leaves ours said j t' ∧ t.socket.sent ⊆ t'.socket.sent := by
  rw [DiscoveryService.step] at hstep
  split at hstep
  · cases hstep
  · cases hstep
    exact ⟨⟨h.ourInfo, h.sent, h.cached⟩, fun m hm => hm⟩

theorem HonestNode.released (h : HonestNode json leaves ours said j t) {now : Instant}
    (hstep : DiscoveryService.step json t (.release now) = some t') :
    HonestNode json leaves ours said j t' ∧ t.socket.sent ⊆ t'.socket.sent := by
  rw [DiscoveryService.step] at hstep
  split at hstep
  · cases hstep
    refine ⟨⟨h.ourInfo, h.sent, fun identityHash info cachedAt hlookup => ?_⟩, fun m hm => hm⟩
    have hretained := (lookup_retain (fresh now) t.peers identityHash).symm.trans hlookup
    exact h.cached identityHash info cachedAt (Option.filter_eq_some_iff.mp hretained).1
  · cases hstep

end Nodes

/-! ### Runs -/

section Runs
variable [DecidableEq ι] (json) (leaves : ι → Prop) (ours : ι → PeerInfo Addr)

/-- Clocks do not go back, nodes write what can be read, and some of them do not leave. -/
def Allowed (s : Lan ι Addr) : Event ι Addr → Prop
  | .announce i timestamp => Legible json (.announce (stamped (ours i) timestamp))
  | .shutdown i => leaves i ∧ Legible json (.goodbye (ours i))
  | .deliver _ _ _ _ now => s.clock ≤ now
  | .query _ _ now => s.clock ≤ now
  | .acquire _ => True
  | .release _ now => s.clock ≤ now

/-- Every node makes nothing up. -/
def Honest (s : Lan ι Addr) : Prop := ∀ j, HonestNode json leaves ours (Said json s) j (s.nodes j)

variable {json leaves ours} {s t : Lan ι Addr}

theorem act_self (s : Lan ι Addr) (j : ι) (now : Instant) (node : DiscoveryService Addr) :
    (s.act j now node).nodes j = node := Function.update_self ..

theorem act_other (s : Lan ι Addr) {j k : ι} (h : k ≠ j) (now : Instant) (node : DiscoveryService Addr) :
    (s.act j now node).nodes k = s.nodes k := Function.update_of_ne h ..

/-- Nothing is unsaid. -/
theorem said_act {j : ι} {node : DiscoveryService Addr} (hkept : (s.nodes j).socket.sent ⊆ node.socket.sent)
    (now : Instant) (i : ι) (info : PeerInfo Addr) (h : Said json s i info) : Said json (s.act j now node) i info := by
  obtain ⟨m, hm, hdatagram⟩ := h
  refine ⟨m, ?_, hdatagram⟩
  by_cases hi : i = j
  · subst hi
    rw [act_self]
    exact hkept hm
  · rwa [act_other _ hi]

theorem honest_act (h : Honest json leaves ours s) {j : ι} {node : DiscoveryService Addr}
    (hnode : HonestNode json leaves ours (Said json s) j node) (hkept : (s.nodes j).socket.sent ⊆ node.socket.sent)
    (now : Instant) : Honest json leaves ours (s.act j now node) := by
  intro k
  refine HonestNode.later ?_ (said_act hkept now)
  by_cases hk : k = j
  · subst hk
    rw [act_self]
    exact hnode
  · rw [act_other _ hk]
    exact h k

theorem honest_step (hown : ∀ i, Legible json (.announce (ours i))) (h : Honest json leaves ours s) {e : Event ι Addr}
    (hallowed : Allowed json leaves ours s e) (hstep : step json s e = some t) : Honest json leaves ours t := by
  have hself : ∀ j, Spoken json (leaves j) (ours j) ((DiscoveryMessage.announce (ours j)).encode json) :=
    fun j => .announce (ours j).timestamp (hown j)
  cases e with
  | announce i timestamp =>
    cases hstep
    have hsends : Sends (s.nodes i) ((announceTurn json timestamp).exec (s.nodes i)).2 _ :=
      sends_announceTurn (s.nodes i) timestamp
    refine honest_act h ((h i).sends hsends ?_) hsends.kept _
    rw [(h i).ourInfo]
    exact .announce timestamp hallowed
  | shutdown i =>
    cases hstep
    have hsends : Sends (s.nodes i) ((DiscoveryService.shutdown json).exec (s.nodes i)).2 _ := sends_shutdown (s.nodes i)
    refine honest_act h ((h i).sends hsends ?_) hsends.kept _
    rw [(h i).ourInfo]
    exact .goodbye hallowed.1 hallowed.2
  | deliver i n j srcAddr now =>
    obtain ⟨m, hm, rfl⟩ := Option.map_eq_some_iff.mp hstep
    have hsent := List.mem_of_getElem? hm
    obtain ⟨report, hreport, htells, hsaid⟩ := ((h i).sent m hsent).tells
    rw [receive_told hreport]
    refine honest_act h ((h j).told htells (fun info hinfo => ⟨m, hsent, hsaid info hinfo⟩) now) ?_ now
    rw [(told_socket (s.nodes j) now report).1]
    exact fun m hm => hm
  | query j srcAddr now =>
    cases hstep
    have hsends : Sends (s.nodes j)
        ((receive json (DiscoveryMessage.query.encode json) srcAddr now).exec (s.nodes j)).2 _ :=
      sends_receive reportOf_query srcAddr now
    refine honest_act h ((h j).sends hsends ?_) hsends.kept now
    rw [(h j).ourInfo]
    exact hself j
  | acquire i =>
    obtain ⟨node, hnode, rfl⟩ := Option.map_eq_some_iff.mp hstep
    exact honest_act h ((h i).acquired hnode).1 ((h i).acquired hnode).2 _
  | release i now =>
    obtain ⟨node, hnode, rfl⟩ := Option.map_eq_some_iff.mp hstep
    exact honest_act h ((h i).released hnode).1 ((h i).released hnode).2 now

omit [DecidableEq ι] in
theorem honest_start (refuses : ι → Nat → Option String) (groupAddr : Addr) :
    Honest json leaves ours (start refuses ours groupAddr) := by
  intro j
  refine ⟨rfl, fun m hm => absurd hm List.not_mem_nil, fun identityHash info cachedAt hlookup => ?_⟩
  cases hlookup

theorem honest_reached (hown : ∀ i, Legible json (.announce (ours i))) {refuses : ι → Nat → Option String} {groupAddr : Addr}
    (h : Reached (step json) (Allowed json leaves ours) (start refuses ours groupAddr) s) : Honest json leaves ours s :=
  h.invariant (I := Honest json leaves ours) (honest_start refuses groupAddr) fun _ _ _ hs hallowed hstep =>
    honest_step hown hs hallowed hstep

/-- **Readers see what nodes have sent of themselves**, whatever is lost, late or repeated:
announcements of other nodes, each with the time that was sent with it. -/
theorem readers_see_nodes (hown : ∀ i, Legible json (.announce (ours i))) {refuses : ι → Nat → Option String}
    {groupAddr : Addr} (h : Reached (step json) (Allowed json leaves ours) (start refuses ours groupAddr) s) {j : ι}
    {now : Instant} {infos : List (PeerInfo Addr)} (hread : ((getPeers now).exec (s.nodes j)).1 = .ok infos) :
    ∀ info ∈ infos, ∃ i timestamp, i ≠ j ∧ info = stamped (ours i) timestamp ∧ Said json s i info := by
  have hnode := honest_reached hown h j
  rw [exec_getPeers] at hread
  cases hread
  intro info hinfo
  obtain ⟨identityHash, cachedAt, hlookup, _⟩ := DiscoveryService.mem_getPeers.mp hinfo
  obtain ⟨hkey, hother, i, timestamp, hsame, hsaid⟩ := hnode.cached identityHash info cachedAt hlookup
  refine ⟨i, timestamp, ?_, hsame, hsaid⟩
  rintro rfl
  rw [← hkey, hsame] at hother
  exact hother rfl

/-! ### Nodes that are found -/

/-- The node keeps something that `i` has said of itself, since `since` at the earliest. -/
def Known (ours : ι → PeerInfo Addr) (i : ι) (since : Instant) (node : DiscoveryService Addr) : Prop :=
  ∃ timestamp cachedAt, node.peers.lookup (ours i).identityHash = some (stamped (ours i) timestamp, cachedAt) ∧
    since ≤ cachedAt

/-- No two nodes have one identity. -/
def Distinct (ours : ι → PeerInfo Addr) : Prop := ∀ i k, (ours i).identityHash = (ours k).identityHash → i = k

section Found
variable {i j : ι} {since : Instant} {node node' : DiscoveryService Addr}

omit [DecidableEq ι] in
theorem Known.same (h : Known ours i since node) (hsame : SameCache node node') : Known ours i since node' := by
  rw [Known, hsame.peers]
  exact h

omit [DecidableEq ι] in
/-- What others say of themselves does not touch it, and what `i` says makes it newer. -/
theorem Known.told (h : Known ours i since node) (hdistinct : Distinct ours) (hstays : ¬ leaves i) {k : ι}
    {report : Report Addr} (htells : Tells (leaves k) (ours k) report) {now : Instant} (hnow : since ≤ now) :
    Known ours i since (node.told now (some report)) := by
  obtain ⟨timestamp, cachedAt, hlookup, hsince⟩ := h
  cases hheld : node.held with
  | true =>
    refine ⟨timestamp, cachedAt, ?_, hsince⟩
    cases report with
    | present info => rwa [DiscoveryService.told, cachePeer_held hheld]
    | gone identityHash => rwa [DiscoveryService.told, removePeer_held hheld]
  | false =>
    cases htells with
    | gone leaving =>
      have hkey : (ours i).identityHash ≠ (ours k).identityHash := by
        intro h
        cases hdistinct i k h
        exact hstays leaving
      refine ⟨timestamp, cachedAt, ?_, hsince⟩
      rw [DiscoveryService.told, removePeer_free hheld]
      exact (AList.lookup_erase_ne hkey).trans hlookup
    | present stamp =>
      by_cases hown : (stamped (ours k) stamp).identityHash = node.ourInfo.identityHash
      · refine ⟨timestamp, cachedAt, ?_, hsince⟩
        rwa [DiscoveryService.told, cachePeer_own hown]
      · rw [DiscoveryService.told, cachePeer_free hown hheld]
        by_cases hkey : (ours i).identityHash = (stamped (ours k) stamp).identityHash
        · cases hdistinct i k hkey
          exact ⟨stamp, now, AList.lookup_insert _, hnow⟩
        · exact ⟨timestamp, cachedAt, (AList.lookup_insert_ne hkey).trans hlookup, hsince⟩

omit [DecidableEq ι] in
theorem Known.purged (h : Known ours i since node) {now : Instant} (hnow : now - since < cacheTtl) :
    Known ours i since (node.purged now) := by
  obtain ⟨timestamp, cachedAt, hlookup, hsince⟩ := h
  refine ⟨timestamp, cachedAt, (lookup_retain (fresh now) node.peers _).trans ?_, hsince⟩
  have hfresh : now - cachedAt < cacheTtl := Nat.lt_of_le_of_lt (Nat.sub_le_sub_left hsince now) hnow
  exact Option.filter_eq_some_iff.mpr ⟨hlookup, decide_eq_true hfresh⟩

theorem known_act (h : Known ours i since (s.nodes j)) {k : ι} (hnode : k = j → Known ours i since node) (now : Instant) :
    Known ours i since ((s.act k now node).nodes j) := by
  by_cases hk : j = k
  · subst hk
    rw [act_self]
    exact hnode rfl
  · rw [act_other _ hk]
    exact h

theorem clock_step {e : Event ι Addr} (hallowed : Allowed json leaves ours s e) (hstep : step json s e = some t) :
    s.clock ≤ t.clock := by
  cases e with
  | announce i timestamp =>
    cases hstep
    exact Nat.le_refl _
  | shutdown i =>
    cases hstep
    exact Nat.le_refl _
  | deliver i n j srcAddr now =>
    obtain ⟨m, hm, rfl⟩ := Option.map_eq_some_iff.mp hstep
    exact hallowed
  | query j srcAddr now =>
    cases hstep
    exact hallowed
  | acquire i =>
    obtain ⟨node, hnode, rfl⟩ := Option.map_eq_some_iff.mp hstep
    exact Nat.le_refl _
  | release i now =>
    obtain ⟨node, hnode, rfl⟩ := Option.map_eq_some_iff.mp hstep
    exact hallowed

/-- Every step keeps it, as long as it has not expired. -/
theorem known_step (hdistinct : Distinct ours) (hstays : ¬ leaves i) (hs : Honest json leaves ours s)
    (hsince : since ≤ s.clock) (h : Known ours i since (s.nodes j)) {e : Event ι Addr}
    (hallowed : Allowed json leaves ours s e) (hstep : step json s e = some t) (hfresh : t.clock - since < cacheTtl) :
    Known ours i since (t.nodes j) := by
  cases e with
  | announce k timestamp =>
    cases hstep
    refine known_act h (fun hk => ?_) _
    subst hk
    exact h.same (sends_announceTurn _ timestamp).same
  | shutdown k =>
    cases hstep
    refine known_act h (fun hk => ?_) _
    subst hk
    exact h.same (sends_shutdown _).same
  | deliver k n l srcAddr now =>
    obtain ⟨m, hm, rfl⟩ := Option.map_eq_some_iff.mp hstep
    obtain ⟨report, hreport, htells, _⟩ := ((hs k).sent m (List.mem_of_getElem? hm)).tells
    refine known_act h (fun hl => ?_) now
    subst hl
    rw [receive_told hreport]
    exact h.told hdistinct hstays htells (Nat.le_trans hsince hallowed)
  | query k srcAddr now =>
    cases hstep
    refine known_act h (fun hk => ?_) now
    subst hk
    exact h.same (sends_receive reportOf_query srcAddr now).same
  | acquire k =>
    obtain ⟨node, hnode, rfl⟩ := Option.map_eq_some_iff.mp hstep
    refine known_act h (fun hk => ?_) _
    subst hk
    rw [DiscoveryService.step] at hnode
    split at hnode
    · cases hnode
    · cases hnode
      exact h
  | release k now =>
    obtain ⟨node, hnode, rfl⟩ := Option.map_eq_some_iff.mp hstep
    refine known_act h (fun hk => ?_) now
    subst hk
    rw [DiscoveryService.step] at hnode
    split at hnode
    · cases hnode
      exact h.purged hfresh
    · cases hnode

theorem known_reached (hown : ∀ i, Legible json (.announce (ours i))) (hdistinct : Distinct ours) (hstays : ¬ leaves i)
    (hs : Honest json leaves ours s) (hsince : since ≤ s.clock) (hknown : Known ours i since (s.nodes j))
    (h : Reached (step json) (Allowed json leaves ours) s t) :
    since ≤ t.clock ∧ (t.clock - since < cacheTtl → Known ours i since (t.nodes j)) := by
  have hall := h.invariant (I := fun t => Honest json leaves ours t ∧ since ≤ t.clock ∧
    (t.clock - since < cacheTtl → Known ours i since (t.nodes j))) ⟨hs, hsince, fun _ => hknown⟩ ?_
  · exact hall.2
  · intro t e t' ht hallowed hstep
    obtain ⟨hhonest, hclock, hknown⟩ := ht
    have hlater := clock_step hallowed hstep
    refine ⟨honest_step hown hhonest hallowed hstep, Nat.le_trans hclock hlater, fun hfresh => ?_⟩
    have hbefore : t.clock - since < cacheTtl := Nat.lt_of_le_of_lt (Nat.sub_le_sub_right hlater since) hfresh
    exact known_step hdistinct hstays hhonest hclock (hknown hbefore) hallowed hstep hfresh

omit [DecidableEq ι] in
/-- What is kept is found, since records are kept under the hash they give. -/
theorem findPeer_of_known {said : ι → PeerInfo Addr → Prop} (hnode : HonestNode json leaves ours said j node)
    (h : Known ours i since node) {now : Instant} (hnow : now - since < cacheTtl) :
    ∃ timestamp, ((findPeer (ours i).identityHash now).exec node).1 = .ok (some (stamped (ours i) timestamp)) := by
  obtain ⟨timestamp, cachedAt, hlookup, hsince⟩ := h
  refine ⟨timestamp, ?_⟩
  rw [exec_findPeer]
  have hfresh : now - cachedAt < cacheTtl := Nat.lt_of_le_of_lt (Nat.sub_le_sub_left hsince now) hnow
  have hmem : stamped (ours i) timestamp ∈ (values (retain (fresh now) node.peers)).map Prod.fst :=
    DiscoveryService.mem_getPeers.mpr ⟨_, cachedAt, hlookup, hfresh⟩
  cases hfind : ((values (retain (fresh now) node.peers)).map Prod.fst).find? fun p =>
      p.identityHash = (ours i).identityHash with
  | none =>
    have hname : (stamped (ours i) timestamp).identityHash = (ours i).identityHash := rfl
    exact absurd (decide_eq_true hname) (List.find?_eq_none.mp hfind _ hmem)
  | some info =>
    have hinfo : info.identityHash = (ours i).identityHash := by
      have hpasses := List.find?_some hfind
      exact of_decide_eq_true hpasses
    obtain ⟨identityHash, cachedAt', hlookup', _⟩ := DiscoveryService.mem_getPeers.mp (List.mem_of_find?_eq_some hfind)
    have hkey : identityHash = (ours i).identityHash := (hnode.cached _ _ _ hlookup').1.symm.trans hinfo
    rw [hkey] at hlookup'
    cases hlookup'.symm.trans hlookup
    rfl

/-- **A node that does not leave is found** wherever an announcement of it has been taken in,
for as long as a record lives, whatever else is sent, lost, late or repeated. -/
theorem announced_found (hown : ∀ i, Legible json (.announce (ours i))) (hdistinct : Distinct ours) (hstays : ¬ leaves i)
    (hij : i ≠ j) {refuses : ι → Nat → Option String} {groupAddr : Addr} {s s' s'' : Lan ι Addr}
    (h : Reached (step json) (Allowed json leaves ours) (start refuses ours groupAddr) s) (hfree : (s.nodes j).held = false)
    {n : Nat} {srcAddr : Addr} {since : Instant} (hclock : s.clock ≤ since)
    (hdeliver : step json s (.deliver i n j srcAddr since) = some s')
    (h' : Reached (step json) (Allowed json leaves ours) s' s'') {now : Instant} (hnow : s''.clock ≤ now)
    (hfresh : now - since < cacheTtl) :
    ∃ timestamp,
      ((findPeer (ours i).identityHash now).exec (s''.nodes j)).1 = .ok (some (stamped (ours i) timestamp)) := by
  have hs := honest_reached hown h
  have hallowed : Allowed json leaves ours s (.deliver i n j srcAddr since) := hclock
  have hs' := honest_step hown hs hallowed hdeliver
  obtain ⟨m, hm, rfl⟩ := Option.map_eq_some_iff.mp hdeliver
  obtain ⟨report, hreport, htells, _⟩ := ((hs i).sent m (List.mem_of_getElem? hm)).tells
  have hknown : Known ours i since ((s.act j since ((receive json m.1 srcAddr since).exec (s.nodes j)).2).nodes j) := by
    rw [act_self, receive_told hreport]
    cases htells with
    | gone leaving => exact absurd leaving hstays
    | present timestamp =>
      have hforeign : (stamped (ours i) timestamp).identityHash ≠ (s.nodes j).ourInfo.identityHash := by
        rw [(hs j).ourInfo]
        exact fun h => hij (hdistinct i j h)
      rw [DiscoveryService.told, cachePeer_free hforeign hfree]
      exact ⟨timestamp, since, AList.lookup_insert _, Nat.le_refl _⟩
  obtain ⟨_, hlater⟩ := known_reached hown hdistinct hstays hs' (Nat.le_refl _) hknown h'
  have hhonest : Honest json leaves ours s'' := h'.invariant (I := Honest json leaves ours) hs' fun _ _ _ hs hallowed hstep =>
    honest_step hown hs hallowed hstep
  have hbefore : s''.clock - since < cacheTtl := Nat.lt_of_le_of_lt (Nat.sub_le_sub_right hnow since) hfresh
  exact findPeer_of_known (hhonest j) (hlater hbefore) hfresh

end Found

end Runs

/-! ### Two nodes -/

def sampleNodes : Bool → PeerInfo Unit
  | true => { ourself with identityHash := "0a" }
  | false => { ourself with identityHash := "b" }

/-- As much of JSON as is read here. -/
def sampleJson : PeerInfoJson Unit where
  toVec info := .ok (utf8 (plainJson info))
  fromSlice data :=
    if data = utf8 (plainJson (sampleNodes true)) then .ok (sampleNodes true)
    else if data = utf8 (plainJson (sampleNodes false)) then .ok (sampleNodes false)
    else .error "expected value at line 1 column 1"

theorem sampleNodes_legible (i : Bool) : Legible sampleJson (.announce (sampleNodes i)) := by
  cases i with
  | true =>
    refine ⟨by decide +kernel, rfl, ?_⟩
    show PeerInfo.decode sampleJson (utf8 (plainJson (sampleNodes true))) = .ok (sampleNodes true)
    rw [PeerInfo.decode, sampleJson]
    simp only [if_true]
  | false =>
    refine ⟨by decide +kernel, rfl, ?_⟩
    have hother : utf8 (plainJson (sampleNodes false)) ≠ utf8 (plainJson (sampleNodes true)) := by
      intro h
      exact absurd (congrArg List.length h) (by decide +kernel)
    show PeerInfo.decode sampleJson (utf8 (plainJson (sampleNodes false))) = .ok (sampleNodes false)
    rw [PeerInfo.decode, sampleJson]
    simp only [if_neg hother, if_true]

theorem sampleNodes_distinct : Distinct sampleNodes := by
  intro i k h
  cases i <;> cases k
  · rfl
  · exact absurd h (by decide)
  · exact absurd h (by decide)
  · rfl

/-- One node has announced itself. -/
def sampleAnnounced : Lan Bool Unit :=
  let s := start (fun _ _ => none) sampleNodes ()
  s.act true 0 ((announceTurn sampleJson 0).exec (s.nodes true)).2

/-- The other has received it. -/
def sampleDelivered : Lan Bool Unit :=
  let datagram := (DiscoveryMessage.announce (sampleNodes true)).encode sampleJson
  sampleAnnounced.act false 5 ((receive sampleJson datagram () 5).exec (sampleAnnounced.nodes false)).2

theorem announced_found_once :
    ∃ timestamp, ((findPeer (sampleNodes true).identityHash 9).exec (sampleDelivered.nodes false)).1 =
      .ok (some (stamped (sampleNodes true) timestamp)) := by
  have hannounce : Reached (step sampleJson) (Allowed sampleJson (fun _ => False) sampleNodes)
      (start (fun _ _ => none) sampleNodes ()) sampleAnnounced :=
    .next (.announce true 0) .start (sampleNodes_legible true) rfl
  have hdeliver : step sampleJson sampleAnnounced (.deliver true 0 false () 5) = some sampleDelivered := rfl
  exact announced_found sampleNodes_legible sampleNodes_distinct id (by decide) hannounce rfl (Nat.zero_le 5) hdeliver
    .start (by decide : 5 ≤ 9) (by decide)

theorem readers_see_nodes_once : ∃ infos, ((getPeers 9).exec (sampleDelivered.nodes false)).1 = .ok infos ∧
    ∀ info ∈ infos, ∃ i timestamp, i ≠ false ∧ info = stamped (sampleNodes i) timestamp ∧
      Said sampleJson sampleDelivered i info := by
  have hannounce : Reached (step sampleJson) (Allowed sampleJson (fun _ => False) sampleNodes)
      (start (fun _ _ => none) sampleNodes ()) sampleAnnounced :=
    .next (.announce true 0) .start (sampleNodes_legible true) rfl
  have hdeliver : Reached (step sampleJson) (Allowed sampleJson (fun _ => False) sampleNodes)
      (start (fun _ _ => none) sampleNodes ()) sampleDelivered :=
    .next (.deliver true 0 false () 5) hannounce (Nat.zero_le 5) rfl
  have hread := congrArg Prod.fst (exec_getPeers (sampleDelivered.nodes false) 9)
  exact ⟨_, hread, readers_see_nodes sampleNodes_legible hdeliver hread⟩

end Lan

end Aether
