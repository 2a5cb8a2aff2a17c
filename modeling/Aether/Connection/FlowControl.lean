import Mathlib.Data.List.Flatten
import Aether.Connection.Endpoint
import Aether.Connection.Establishment
import Aether.Library.Runs
import Aether.Stream.Windows

/-! The limits on what a connection may send, over a whole run.

A stream has a window and the connection has one, and both are kept in the stream
table. `send_stream_data` looks at neither, nor at whether the stream is there: it
hands its frames to `send_frame`. So the limits hold in a run exactly as far as the
program that makes the calls keeps to them (`flow_enforced`). -/
namespace Aether
open Octets Octets.Method Connection

section
variable {P : Primitives}

namespace Endpoint

def isData (f : Frame) : Bool := f.header.frameType = .data

def isDataOn (streamId : StreamId) (f : Frame) : Bool := f.header.frameType = .data ∧ f.header.streamId = streamId

/-- What the frames that `which` picks carry. -/
def carried (which : Frame → Bool) (emitted : List (Frame × Bytes)) : Bytes :=
  (emitted.filter fun m => which m.1).flatMap fun m => m.1.payload

/-- What a program asks: something of the stream table, or that data be sent. -/
inductive FlowCall where
  | streams (request : StreamManager.Request)
  | sendStreamData (streamId : StreamId) (data : Bytes)

/-- A call, with the ID of the stream it opened. -/
def flowCall : FlowCall → Action (Endpoint P) (Option StreamId)
  | .streams request =>
    onConnection (focus Connection.streams (fun streams c => { c with streams }) (StreamManager.request request))
  | .sendStreamData streamId data => do
    sendStreamData streamId data
    return none

variable (P) in
structure Flow where
  endpoint : Endpoint P
  /-- How many frames had been sent when a stream was last opened under an ID. -/
  opened : StreamId → Nat

namespace Flow

def init (c : Connection P) : Flow P := ⟨Endpoint.start c, fun _ => 0⟩

def streams (s : Flow P) : StreamManager := s.endpoint.connection.streams

/-- How much has been sent on a stream. -/
def sentOn (s : Flow P) (streamId : StreamId) : Nat :=
  (carried (isDataOn streamId) (s.endpoint.emitted.drop (s.opened streamId))).length

/-- How much has been sent on all streams. -/
def sent (s : Flow P) : Nat := (carried isData s.endpoint.emitted).length

def result (s : Flow P) (call : FlowCall) : Result (Option StreamId) := ((flowCall call).exec s.endpoint).1

def next (s : Flow P) (call : FlowCall) : Flow P where
  endpoint := ((flowCall call).exec s.endpoint).2
  opened :=
    match StreamManager.opened (s.result call) with
    | some streamId => Function.update s.opened streamId ((flowCall call).exec s.endpoint).2.emitted.length
    | none => s.opened

def step (s : Flow P) (call : FlowCall) : Option (Flow P) := some (s.next call)

/-! ### Limits -/

/-- The stream is there and open for writing. -/
def Writable (s : Flow P) (streamId : StreamId) : Prop :=
  ∃ stream, s.streams.streams.lookup streamId = some stream ∧ stream.state.canWrite

/-- Sending the data would go past the stream's window or the connection's. -/
def Breaks (s : Flow P) (streamId : StreamId) (data : Bytes) : Prop :=
  (∃ stream, s.streams.streams.lookup streamId = some stream ∧
    stream.flowControl.maxOffset.toNat < s.sentOn streamId + data.length) ∨
  s.streams.connectionFlowWindow.toNat < s.sent + data.length

/-- What has been sent is within the windows. -/
structure Within (s : Flow P) : Prop where
  stream : ∀ streamId stream, s.streams.streams.lookup streamId = some stream →
    s.sentOn streamId ≤ stream.flowControl.maxOffset.toNat
  connection : s.sent ≤ s.streams.connectionFlowWindow.toNat

/-- A call that leaves what has been sent within the windows, sends nothing on a
stream that cannot be written to, and fails where it would break a limit. -/
structure Enforced (s : Flow P) (call : FlowCall) : Prop where
  within : (s.next call).Within
  writable : ∀ sent, (s.next call).endpoint.emitted = s.endpoint.emitted ++ sent →
    ∀ m ∈ sent, isData m.1 → s.Writable m.1.header.streamId
  refused : ∀ streamId data, call = .sendStreamData streamId data → s.Breaks streamId data →
    (∃ e, s.result call = .error (.err e)) ∧ (s.next call).endpoint.emitted = s.endpoint.emitted

/-- A call that keeps to the limits itself. -/
def Permitted (s : Flow P) : FlowCall → Prop
  | .streams _ => True
  | .sendStreamData streamId data => data = [] ∨ s.Writable streamId ∧ ¬ s.Breaks streamId data

end Flow

/-! ### What is carried -/

@[simp] theorem carried_append (which : Frame → Bool) (emitted emitted' : List (Frame × Bytes)) :
    carried which (emitted ++ emitted') = carried which emitted ++ carried which emitted' := by
  simp [carried]

/-- The first frames of a call carry no more than what is to be sent. -/
theorem carried_dataFrames_le (which : Frame → Bool) {sent : List (Frame × Bytes)} {streamId : StreamId}
    {destination : UInt32} {i : Nat} {data : Bytes}
    (h : sent.map Prod.fst <+: dataFrames streamId destination i (chunks maxPayloadSize data)) :
    (carried which sent).length ≤ data.length := by
  have hpayloads : (sent.map fun m => m.1.payload) <+: chunks maxPayloadSize data := by
    have hmap := h.map Frame.payload
    rwa [dataFrames_payload, List.map_map] at hmap
  calc (carried which sent).length
      ≤ (sent.flatMap fun m => m.1.payload).length := (List.filter_sublist.flatMap _).length_le
    _ = (sent.map fun m => m.1.payload).flatten.length := by rw [List.flatMap_def]
    _ ≤ (chunks maxPayloadSize data).flatten.length := hpayloads.sublist.flatten.length_le
    _ = data.length := by rw [flatten_chunks (by decide)]

namespace Flow

/-! ### One call -/

theorem next_streams_emitted (s : Flow P) (request : StreamManager.Request) :
    (s.next (.streams request)).endpoint.emitted = s.endpoint.emitted := rfl

/-- A stream that was opened starts anew; nothing else is counted differently. -/
theorem sentOn_next_streams (s : Flow P) (request : StreamManager.Request) (streamId : StreamId) :
    (s.next (.streams request)).sentOn streamId =
      if StreamManager.opened (s.result (.streams request)) = some streamId then 0 else s.sentOn streamId := by
  rw [sentOn, next_streams_emitted, sentOn, next]
  cases hopened : StreamManager.opened (s.result (.streams request)) with
  | none => rfl
  | some opened =>
    by_cases hsame : opened = streamId
    · subst hsame
      rw [if_pos rfl]
      show (carried _ (s.endpoint.emitted.drop (Function.update s.opened opened s.endpoint.emitted.length opened))).length = 0
      rw [Function.update_self, List.drop_length]
      rfl
    · rw [if_neg (fun h => hsame (Option.some.inj h))]
      show (carried _ (s.endpoint.emitted.drop (Function.update s.opened opened s.endpoint.emitted.length streamId))).length = _
      rw [Function.update_of_ne (Ne.symm hsame)]

theorem within_next_streams {s : Flow P} (h : s.Within) (request : StreamManager.Request) :
    (s.next (.streams request)).Within := by
  have hwidens := StreamManager.request_widens s.streams request
  refine ⟨fun streamId stream' hstream' => ?_, ?_⟩
  · rw [sentOn_next_streams]
    by_cases hopened : StreamManager.opened (s.result (.streams request)) = some streamId
    · rw [if_pos hopened]
      exact Nat.zero_le _
    · rw [if_neg hopened]
      obtain ⟨stream, hstream, hmax⟩ := (hwidens.streams streamId stream' hstream').resolve_left hopened
      exact Nat.le_trans (h.stream streamId stream hstream) (UInt64.le_iff_toNat_le.mp hmax)
  · rw [sent, next_streams_emitted]
    exact Nat.le_trans h.connection (UInt64.le_iff_toNat_le.mp hwidens.window)

/-- What a call to send leaves, however far it gets. -/
structure Sends (s : Flow P) (streamId : StreamId) (data : Bytes) (sent : List (Frame × Bytes)) : Prop where
  emitted : (s.next (.sendStreamData streamId data)).endpoint.emitted = s.endpoint.emitted ++ sent
  streams : (s.next (.sendStreamData streamId data)).streams = s.streams
  aead : (s.next (.sendStreamData streamId data)).endpoint.connection.aead = s.endpoint.connection.aead
  opened : (s.next (.sendStreamData streamId data)).opened = s.opened
  carried_le : ∀ which, (carried which sent).length ≤ data.length
  onStream : ∀ m ∈ sent, m.1.header.streamId = streamId
  nothing : data = [] → sent = []

theorem sends {s : Flow P} {session : AeadSession P} (h : s.endpoint.connection.aead = some session)
    (streamId : StreamId) (data : Bytes) : ∃ sent, Sends s streamId data sent := by
  have hsent := sent_sendChunks streamId (chunks maxPayloadSize data) h 0
  have hexec : (flowCall (.sendStreamData streamId data)).exec s.endpoint =
      (((sendChunks streamId 0 (chunks maxPayloadSize data)).exec s.endpoint).1.map fun _ => none,
        ((sendChunks streamId 0 (chunks maxPayloadSize data)).exec s.endpoint).2) := exec_bind_pure _ _ _
  obtain ⟨sent, hemitted, hbegins⟩ := hsent.emitted
  have hendpoint : (s.next (.sendStreamData streamId data)).endpoint =
      ((sendChunks streamId 0 (chunks maxPayloadSize data)).exec s.endpoint).2 := congrArg Prod.snd hexec
  refine ⟨sent, ?_, ?_, ?_, ?_, fun which => carried_dataFrames_le which hbegins, fun m hm => ?_, fun hnil => ?_⟩
  · rw [hendpoint, hemitted]
  · rw [streams, hendpoint, hsent.streams, streams]
  · rw [hendpoint, hsent.unchanged.aead]
  · rw [next, result, hexec]
    cases ((sendChunks streamId 0 (chunks maxPayloadSize data)).exec s.endpoint).1 <;> rfl
  · have hframe : m.1 ∈ sent.map Prod.fst := List.mem_map_of_mem hm
    exact (mem_dataFrames (hbegins.subset hframe)).2
  · rw [hnil, chunks_nil _ (by decide), dataFrames] at hbegins
    exact List.map_eq_nil_iff.mp (List.prefix_nil.mp hbegins)

/-- What is kept as long as the calls keep to the limits. -/
structure Tracked (session : AeadSession P) (s : Flow P) : Prop where
  aead : s.endpoint.connection.aead = some session
  opened : ∀ streamId, s.opened streamId ≤ s.endpoint.emitted.length
  within : s.Within

theorem tracked_init {session : AeadSession P} {c : Connection P} (h : c.aead = some session) :
    (init c).Tracked session :=
  ⟨h, fun _ => Nat.le_refl _, fun _ _ _ => Nat.zero_le _, Nat.zero_le _⟩

/-- How much more has been sent on a stream. -/
theorem Sends.sentOn {s : Flow P} {streamId : StreamId} {data : Bytes} {sent : List (Frame × Bytes)}
    (h : Sends s streamId data sent) (hopened : ∀ streamId, s.opened streamId ≤ s.endpoint.emitted.length)
    (other : StreamId) :
    (s.next (.sendStreamData streamId data)).sentOn other = s.sentOn other + (carried (isDataOn other) sent).length := by
  rw [Flow.sentOn, h.emitted, h.opened, List.drop_append_of_le_length (hopened other), carried_append,
    List.length_append, Flow.sentOn]

/-- What is sent on one stream is not sent on another. -/
theorem Sends.other {s : Flow P} {streamId : StreamId} {data : Bytes} {sent : List (Frame × Bytes)}
    (h : Sends s streamId data sent) {other : StreamId} (hother : other ≠ streamId) :
    carried (isDataOn other) sent = [] := by
  have hnone : (sent.filter fun m => isDataOn other m.1) = [] := by
    apply List.filter_eq_nil_iff.mpr
    intro m hm hmatches
    exact hother ((of_decide_eq_true hmatches).2.symm.trans (h.onStream m hm))
  rw [carried, hnone, List.flatMap_nil]

theorem within_next_sends {s : Flow P} {session : AeadSession P} (hs : s.Tracked session) {streamId : StreamId}
    {data : Bytes} {sent : List (Frame × Bytes)} (h : Sends s streamId data sent)
    (hpermitted : ¬ s.Breaks streamId data) : (s.next (.sendStreamData streamId data)).Within := by
  refine ⟨fun other stream hstream => ?_, ?_⟩
  · rw [h.streams] at hstream
    rw [h.sentOn hs.opened]
    by_cases hother : other = streamId
    · subst hother
      have hcarried := h.carried_le (isDataOn other)
      have hfits : s.sentOn other + data.length ≤ stream.flowControl.maxOffset.toNat :=
        Nat.le_of_not_lt fun hlt => hpermitted (.inl ⟨stream, hstream, hlt⟩)
      omega
    · rw [h.other hother]
      exact hs.within.stream other stream hstream
  · have hcarried := h.carried_le isData
    have hfits : s.sent + data.length ≤ s.streams.connectionFlowWindow.toNat :=
      Nat.le_of_not_lt fun hlt => hpermitted (.inr hlt)
    rw [Flow.sent, h.emitted, carried_append, List.length_append, h.streams]
    show s.sent + _ ≤ _
    omega

/-- Sending nothing breaks nothing. -/
theorem Within.not_breaks_nil {s : Flow P} (h : s.Within) (streamId : StreamId) : ¬ s.Breaks streamId [] := by
  intro hbreaks
  rcases hbreaks with ⟨stream, hstream, hlt⟩ | hlt
  · exact Nat.not_lt.mpr (h.stream streamId stream hstream) hlt
  · exact Nat.not_lt.mpr h.connection hlt

theorem enforced_of_permitted {session : AeadSession P} {s : Flow P} (hs : s.Tracked session) (call : FlowCall)
    (h : s.Permitted call) : s.Enforced call := by
  cases call with
  | streams request =>
    refine ⟨within_next_streams hs.within request, fun sent hsent m hm => ?_, fun _ _ h => nomatch h⟩
    rw [next_streams_emitted, List.self_eq_append_right] at hsent
    rw [hsent] at hm
    cases hm
  | sendStreamData streamId data =>
    obtain ⟨sent, hsends⟩ := sends hs.aead streamId data
    have hbreaks : ¬ s.Breaks streamId data := by
      rcases h with rfl | h
      · exact hs.within.not_breaks_nil streamId
      · exact h.2
    refine ⟨within_next_sends hs hsends hbreaks, fun sent' hsent' m hm _ => ?_, fun streamId' data' hcall hbreaks' => ?_⟩
    · have hsame : sent' = sent := List.append_cancel_left (hsent'.symm.trans hsends.emitted)
      subst hsame
      rcases h with hnil | h
      · rw [hsends.nothing hnil] at hm
        cases hm
      · rw [hsends.onStream m hm]
        exact h.1
    · cases hcall
      exact absurd hbreaks' hbreaks

theorem tracked_step {session : AeadSession P} {s : Flow P} (hs : s.Tracked session) {call : FlowCall}
    (h : s.Enforced call) : (s.next call).Tracked session := by
  cases call with
  | streams request =>
    refine ⟨hs.aead, fun streamId => ?_, h.within⟩
    rw [next_streams_emitted, next]
    cases StreamManager.opened (s.result (.streams request)) with
    | none => exact hs.opened streamId
    | some opened =>
      show Function.update s.opened opened s.endpoint.emitted.length streamId ≤ _
      by_cases hsame : streamId = opened
      · subst hsame
        rw [Function.update_self]
      · rw [Function.update_of_ne hsame]
        exact hs.opened streamId
  | sendStreamData streamId data =>
    obtain ⟨sent, hsends⟩ := sends hs.aead streamId data
    refine ⟨hsends.aead.trans hs.aead, fun other => ?_, h.within⟩
    rw [hsends.opened, hsends.emitted, List.length_append]
    exact Nat.le_trans (hs.opened other) (Nat.le_add_right _ _)

/-! ### Where nothing else stands in the way -/

/-- The octets of a call all leave, whatever the table says. -/
theorem next_sends_open (hP : P.Encrypts) {session : AeadSession P} {s : Flow P} (h : Open session s.endpoint)
    (streamId : StreamId) (data : Bytes) :
    s.result (.sendStreamData streamId data) = .ok none ∧
      (s.next (.sendStreamData streamId data)).endpoint.emitted.map Prod.fst = s.endpoint.emitted.map Prod.fst ++
        dataFrames streamId s.endpoint.connection.destination 0 (chunks maxPayloadSize data) ∧
      Open session (s.next (.sendStreamData streamId data)).endpoint := by
  obtain ⟨e', hsend, hemitted, _, _, hopen⟩ :=
    exec_sendChunks_open hP streamId (fun chunk hchunk => mem_chunks hchunk) h 0
  have hexec : (flowCall (.sendStreamData streamId data)).exec s.endpoint = (.ok none, e') := exec_bind_ok hsend
  rw [result, next, hexec]
  exact ⟨rfl, hemitted, hopen⟩

theorem open_step (hP : P.Encrypts) {session : AeadSession P} {s : Flow P} (h : Open session s.endpoint)
    (call : FlowCall) : Open session (s.next call).endpoint := by
  cases call with
  | streams request => exact ⟨h.aead, h.state, h.refuses⟩
  | sendStreamData streamId data => exact (next_sends_open hP h streamId data).2.2

theorem permitted_of_enforced (hP : P.Encrypts) {session : AeadSession P} {s : Flow P} (hs : Open session s.endpoint)
    (call : FlowCall) (h : s.Enforced call) : s.Permitted call := by
  cases call with
  | streams request => trivial
  | sendStreamData streamId data =>
    by_cases hdata : data = []
    · exact .inl hdata
    · obtain ⟨hresult, hframes, _⟩ := next_sends_open hP hs streamId data
      obtain ⟨sent, hsends⟩ := sends hs.aead streamId data
      refine .inr ⟨?_, fun hbreaks => ?_⟩
      · rw [hsends.emitted, List.map_append, chunks_of_ne_nil (by decide) hdata, dataFrames] at hframes
        cases sent with
        | nil => cases List.append_cancel_left hframes
        | cons m sent =>
          obtain ⟨hframe, _⟩ := List.cons.inj (List.append_cancel_left hframes)
          have hwritable := h.writable _ hsends.emitted m List.mem_cons_self (by rw [hframe]; rfl)
          rwa [hframe] at hwritable
      · obtain ⟨e, herror⟩ := (h.refused streamId data rfl hbreaks).1
        cases hresult.symm.trans herror

/-- **The limits hold in a run whose calls keep to them**; and where nothing else stands
in the way of sending, only in such a run. -/
theorem flow_enforced {c : Connection P} (hc : c.Returned) (calls : List FlowCall) :
    (Throughout step Permitted (init c) calls → Throughout step Enforced (init c) calls) ∧
    (P.Encrypts → (∀ n, c.socket.refuses n = none) →
      Throughout step Enforced (init c) calls → Throughout step Permitted (init c) calls) := by
  obtain ⟨_, _, session, hready⟩ := hc.ready
  constructor
  · refine .mono (I := Tracked session) (fun s call hs => enforced_of_permitted hs call) ?_ (tracked_init hready.aead)
    intro s call t hs hpermitted ht
    cases ht
    exact tracked_step hs (enforced_of_permitted hs call hpermitted)
  · intro hP hrefuses
    have hopen : Open session (init c).endpoint := ⟨hready.aead, hready.state, hrefuses⟩
    refine .mono (I := fun s => Open session s.endpoint) (fun s call hs => permitted_of_enforced hP hs call) ?_ hopen
    intro s call t hs _ ht
    cases ht
    exact open_step hP hs call

theorem flow_enforced_sample :
    Throughout step Enforced (init sampleClient) [.streams .openStream, .sendStreamData 2 [7, 8]] := by
  apply (flow_enforced honestPair_sample.returned.1 _).1
  refine ⟨trivial, fun t ht => ⟨?_, fun _ _ => trivial⟩⟩
  cases ht
  have hstream : ((init sampleClient).next (.streams .openStream)).streams.streams.lookup 2 =
      some (Stream.init 2 true Capabilities.default.maxStreamData) := by
    decide +kernel
  refine .inr ⟨⟨_, hstream, rfl⟩, fun hbreaks => ?_⟩
  rcases hbreaks with ⟨stream, hstream', hlt⟩ | hlt
  · cases hstream.symm.trans hstream'
    revert hlt
    decide +kernel
  · revert hlt
    decide +kernel

/-- An octet on a stream that was never opened, and more than the connection's window. -/
theorem unlimited_sample :
    ∃ c : Connection Transparent.fixedMacs, c.Returned ∧
      ¬ Throughout step Enforced (init c) [.sendStreamData 4 [7]] ∧
      ¬ Throughout step Enforced (init c)
        [.streams .openStream, .sendStreamData 2 (List.replicate (2 ^ 24 + 1) 0)] := by
  have hreturned := honestPair_sample.returned.1
  obtain ⟨_, _, session, hready⟩ := hreturned.ready
  have hopen : Open session (init sampleClient).endpoint := ⟨hready.aead, hready.state, fun _ => rfl⟩
  refine ⟨sampleClient, hreturned, fun h => ?_, fun h => ?_⟩
  · rcases permitted_of_enforced (Transparent.encrypts _) hopen _ h.1 with hnil | ⟨⟨stream, hstream, _⟩, _⟩
    · cases hnil
    · cases hstream
  · have hrest := (h.2 _ rfl).1
    rcases permitted_of_enforced (Transparent.encrypts _) (open_step (Transparent.encrypts _) hopen _) _ hrest with
      hnil | ⟨_, hbreaks⟩
    · exact absurd (congrArg List.length hnil) (by rw [List.length_replicate]; decide)
    · apply hbreaks
      right
      rw [List.length_replicate]
      decide +kernel

end Flow

end Endpoint

end

end Aether
