import Aether.Stream.Operations

/-! Which IDs are new.

`open_stream` gives out the IDs of its role's parity in order and inserts what it has
made without looking, so another stream is safe from it as long as every ID of that
parity in the table is behind the counter (`Numbered`). `accept_stream` lets the peer
put in any ID, and the counter comes round after 2^32; runs in which neither happens
are `Careful`, and in them what is opened is new (`opens_fresh`).

The table forgets what it has removed, and `accept_stream` asks only the table.
Where nothing removed is asked for again, what was closed stays closed
(`closed_terminal`). -/
namespace Aether.StreamManager
open Octets Octets.Method

/-! ### The IDs of a role -/

/-- Of the parity of the role: even for a client, odd for a server. -/
def IsLocal (isClient : Bool) (streamId : StreamId) : Prop := (streamId % 2 == 0) = isClient

/-- An ID that `open_stream` can return. -/
def Own (isClient : Bool) (streamId : StreamId) : Prop := IsLocal isClient streamId ∧ streamId ≤ maxStreamId

instance (isClient : Bool) (streamId : StreamId) : Decidable (IsLocal isClient streamId) :=
  inferInstanceAs (Decidable (_ = _))

instance (isClient : Bool) (streamId : StreamId) : Decidable (Own isClient streamId) :=
  inferInstanceAs (Decidable (_ ∧ _))

theorem add_two_mod_two (streamId : StreamId) : (streamId + 2) % 2 = streamId % 2 := by
  apply UInt32.toNat_inj.mp
  simp only [UInt32.toNat_mod, UInt32.toNat_add]
  show (streamId.toNat + 2) % 4294967296 % 2 = streamId.toNat % 2
  omega

theorem isLocal_add_two {isClient : Bool} {streamId : StreamId} :
    IsLocal isClient (streamId + 2) ↔ IsLocal isClient streamId := by
  rw [IsLocal, IsLocal, add_two_mod_two]

/-- The counter keeps to the parity. -/
theorem Changes.isLocal_nextId {m m' : StreamManager} {operation : Operation} (h : Changes m operation m')
    (hlocal : IsLocal m.isClient m.nextId) : IsLocal m.isClient m'.nextId := by
  cases h with
  | exhausted =>
    rw [advance_nextId]
    exact isLocal_add_two.mpr hlocal
  | opened =>
    show IsLocal m.isClient m.advance.nextId
    rw [advance_nextId]
    exact isLocal_add_two.mpr hlocal
  | _ => exact hlocal

theorem isLocal_nextId_init (isClient : Bool) (maxStreams : UInt32) (window flowWindow : UInt64) :
    IsLocal isClient (init isClient maxStreams window flowWindow).nextId := by
  cases isClient with
  | true => exact (by decide : IsLocal true 2)
  | false => exact (by decide : IsLocal false 1)

/-! ### Opening -/

/-- An `open_stream` that succeeds here returns an ID that is not in the table and
leaves every stream as it is. -/
def OpensFresh (m : StreamManager) : Prop :=
  ∀ streamId m', openStream.exec m = (.ok streamId, m') →
    streamId ∉ m.streams ∧ ∀ other stream, m.streams.lookup other = some stream → m'.streams.lookup other = some stream

/-- A call that keeps the counter ahead: what is accepted is not an ID that the counter
has yet to give, and the counter does not come round. -/
def Careful (m : StreamManager) : Operation → Prop
  | .acceptStream streamId => streamId ∈ m.streams ∨ ¬ Own m.isClient streamId ∨ streamId < m.nextId
  | .openStream => m.full = true ∨ m.nextId.toNat + 2 < 2 ^ 32
  | _ => True

/-- The counter has our parity, and our keys are behind it. -/
structure Numbered (m : StreamManager) (keys : StreamId → Prop) : Prop where
  isLocal : IsLocal m.isClient m.nextId
  behind : Behind (Own m.isClient) UInt32.toNat m.nextId.toNat keys

theorem numbered_init (isClient : Bool) (maxStreams : UInt32) (window flowWindow : UInt64) {keys : StreamId → Prop}
    (hkeys : ∀ streamId, ¬ keys streamId) : Numbered (init isClient maxStreams window flowWindow) keys :=
  ⟨isLocal_nextId_init isClient maxStreams window flowWindow, fun streamId h => absurd h (hkeys streamId)⟩

theorem Numbered.fresh {m : StreamManager} {keys : StreamId → Prop} (h : Numbered m keys)
    (hsmall : m.nextId ≤ maxStreamId) : ¬ keys m.nextId :=
  h.behind.fresh ⟨h.isLocal, hsmall⟩ (Nat.le_refl _)

/-- The counter goes up by two where it does not come round. -/
theorem toNat_add_two {streamId : StreamId} (h : streamId.toNat + 2 < 2 ^ 32) : (streamId + 2).toNat = streamId.toNat + 2 := by
  rw [UInt32.toNat_add]
  exact Nat.mod_eq_of_lt h

/-- One careful call keeps the keys behind the counter, whatever they are as long as
they are the streams and what was a key before. -/
theorem numbered_step {m m' : StreamManager} {operation : Operation} {keys keys' : StreamId → Prop}
    (h : Numbered m keys) (hlive : ∀ streamId ∈ m.streams, keys streamId) (hcareful : Careful m operation)
    (hchanges : Changes m operation m') (hkeys : ∀ streamId, keys' streamId → keys streamId ∨ streamId ∈ m'.streams) :
    Numbered m' keys' := by
  -- Where no stream is new, only the counter can have moved.
  have hsame : ∀ {next : Nat}, m.nextId.toNat ≤ next → (∀ streamId ∈ m'.streams, streamId ∈ m.streams) →
      Behind (Own m.isClient) UInt32.toNat next keys' := by
    intro next hnext hold
    refine h.behind.grow hnext fun streamId hstream => ?_
    rcases hkeys streamId hstream with hkey | hnew
    · exact .inl hkey
    · exact .inl (hlive streamId (hold streamId hnew))
  refine ⟨?_, ?_⟩
  · rw [hchanges.isClient]
    exact hchanges.isLocal_nextId h.isLocal
  rw [hchanges.isClient]
  cases hchanges with
  | unchanged => exact hsame (Nat.le_refl _) fun _ => id
  | updated _ _ _ _ target present => exact hsame (Nat.le_refl _) fun _ hmem => AList.mem_replace.mp hmem
  | removed => exact hsame (Nat.le_refl _) fun _ hmem => (AList.mem_erase.mp hmem).2
  | exhausted room large =>
    have hnext := toNat_add_two (hcareful.resolve_left (by rw [room]; exact Bool.false_ne_true))
    rw [advance_nextId, hnext]
    exact hsame (Nat.le_add_right _ 2) fun streamId hmem => by rwa [advance_streams] at hmem
  | opened room small =>
    have hnext := toNat_add_two (hcareful.resolve_left (by rw [room]; exact Bool.false_ne_true))
    have hnextId : (m.advance.withOpened m.nextId).nextId = m.nextId + 2 := m.advance_nextId
    rw [hnextId, hnext]
    refine h.behind.grow (Nat.le_add_right _ 2) fun streamId hstream => ?_
    rcases hkeys streamId hstream with hkey | hnew
    · exact .inl hkey
    · rcases (AList.mem_insert _).mp hnew with rfl | hold
      · exact .inr fun _ => Nat.lt_add_of_pos_right (by decide)
      · rw [advance_streams] at hold
        exact .inl (hlive streamId hold)
  | accepted accepted absent =>
    refine h.behind.grow (Nat.le_refl _) fun streamId hstream => ?_
    rcases hkeys streamId hstream with hkey | hnew
    · exact .inl hkey
    · rcases (AList.mem_insert _).mp hnew with rfl | hold
      · rcases hcareful.resolve_left absent with hforeign | hbehind
        · exact .inr fun hown => absurd hown hforeign
        · exact .inr fun _ => UInt32.lt_iff_toNat_lt.mp hbehind
      · exact .inl (hlive streamId hold)

theorem opensFresh_of_numbered {m : StreamManager} (h : Numbered m (· ∈ m.streams)) : OpensFresh m := by
  intro streamId m' hexec
  cases hfull : m.full with
  | true =>
    rw [exec_openStream_full hfull] at hexec
    cases hexec
  | false =>
    rw [exec_openStream_room hfull] at hexec
    split at hexec
    · cases hexec
    · rename_i hsmall
      cases hexec
      have hfresh := h.fresh (UInt32.not_lt.mp hsmall)
      refine ⟨hfresh, fun other stream hother => ?_⟩
      have hne : other ≠ m.nextId := by
        rintro rfl
        exact hfresh (mem_of_lookup hother)
      rw [withOpened, advance_streams]
      exact (AList.lookup_insert_ne hne).trans hother

/-- **In every state of a careful run, a stream that is opened is new and leaves the
others alone.** -/
theorem opens_fresh (isClient : Bool) (maxStreams : UInt32) (window flowWindow : UInt64) {m : StreamManager}
    (h : Reached step Careful (init isClient maxStreams window flowWindow) m) : OpensFresh m := by
  refine opensFresh_of_numbered (h.invariant (I := fun m => Numbered m (· ∈ m.streams)) ?_ ?_)
  · exact numbered_init isClient maxStreams window flowWindow fun streamId => AList.notMem_empty streamId
  · intro m operation m' hnumbered hcareful hstep
    cases hstep
    exact numbered_step hnumbered (fun _ => id) hcareful (changes m operation) fun _ => .inr

/-- A client that has opened a stream, accepted the peer's first one and opened another. -/
theorem opens_fresh_sample :
    OpensFresh ((((init true 100 10 10).next .openStream).next (.acceptStream 1)).next .openStream) :=
  opens_fresh true 100 10 10 (.next .openStream (.next (.acceptStream 1)
    (.next .openStream .start (.inr (by decide)) rfl) (.inr (.inl (by decide))) rfl) (.inr (by decide)) rfl)

/-- The peer opens stream 2 at a client that has opened none yet: the client's first
`open_stream` gives out 2 again and takes the peer's stream out of the table. -/
theorem open_replaces : ∃ m, Reached step (fun _ _ => True) (init true 100 10 10) m ∧ ¬ OpensFresh m := by
  refine ⟨(init true 100 10 10).next (.acceptStream 2), .next (.acceptStream 2) .start trivial rfl, fun h => ?_⟩
  exact (h 2 _ rfl).1 (by decide)

/-! ### Closing -/

/-- A call has closed the stream and removed it. -/
def Removed (past : List (StreamManager × Operation)) (streamId : StreamId) : Prop :=
  ∃ m operation, (m, operation) ∈ past ∧ streamId ∈ m.streams ∧ streamId ∉ (m.next operation).streams

/-- A careful call that does not accept again what was removed. -/
def Unrepeated (r : Recorded StreamManager Operation) (operation : Operation) : Prop :=
  Careful r.now operation ∧ ∀ streamId, operation = .acceptStream streamId → ¬ Removed r.past streamId

theorem removed_append {past : List (StreamManager × Operation)} {m : StreamManager} {operation : Operation}
    {streamId : StreamId} :
    Removed (past ++ [(m, operation)]) streamId ↔
      Removed past streamId ∨ (streamId ∈ m.streams ∧ streamId ∉ (m.next operation).streams) := by
  constructor
  · intro h
    obtain ⟨before, removing, hmem, hlive, hgone⟩ := h
    rcases List.mem_append.mp hmem with hold | hnew
    · exact .inl ⟨before, removing, hold, hlive, hgone⟩
    · cases List.mem_singleton.mp hnew
      exact .inr ⟨hlive, hgone⟩
  · intro h
    rcases h with ⟨before, removing, hmem, hlive, hgone⟩ | ⟨hlive, hgone⟩
    · exact ⟨before, removing, List.mem_append_left _ hmem, hlive, hgone⟩
    · exact ⟨m, operation, List.mem_append_right _ (List.mem_singleton_self _), hlive, hgone⟩

/-- The streams of a run: those there are and those there were. -/
def Known (r : Recorded StreamManager Operation) (streamId : StreamId) : Prop :=
  streamId ∈ r.now.streams ∨ Removed r.past streamId

/-- What is kept: the counter is ahead of every stream there is or was, and what was
removed is gone. -/
structure Terminal (r : Recorded StreamManager Operation) : Prop where
  numbered : Numbered r.now (Known r)
  gone : ∀ streamId, Removed r.past streamId → streamId ∉ r.now.streams

theorem terminal_step {r : Recorded StreamManager Operation} {operation : Operation} (h : Terminal r)
    (hallowed : Unrepeated r operation) : Terminal ⟨r.now.next operation, r.past ++ [(r.now, operation)]⟩ := by
  have hchanges := changes r.now operation
  constructor
  · refine numbered_step h.numbered (fun _ => .inl) hallowed.1 hchanges fun streamId hknown => ?_
    rcases hknown with hlive | hremoved
    · exact .inr hlive
    · rcases removed_append.mp hremoved with hold | ⟨hlive, _⟩
      · exact .inl (.inr hold)
      · exact .inl (.inl hlive)
  · intro streamId hremoved hmem
    rcases removed_append.mp hremoved with hold | ⟨_, hgone⟩
    · rcases hchanges.mem hmem with hlive | hcreated
      · exact h.gone streamId hold hlive
      · rcases created_eq_some hcreated with ⟨haccept, _⟩ | ⟨_, rfl, _, hsmall⟩
        · exact hallowed.2 streamId haccept hold
        · exact h.numbered.fresh hsmall (.inr hold)
    · exact hgone hmem

/-- **What was closed and removed stays so.** -/
theorem closed_terminal (isClient : Bool) (maxStreams : UInt32) (window flowWindow : UInt64)
    {r : Recorded StreamManager Operation}
    (h : Reached (Recorded.step step) Unrepeated (.fresh (init isClient maxStreams window flowWindow)) r)
    (streamId : StreamId) (hremoved : Removed r.past streamId) : streamId ∉ r.now.streams := by
  refine (h.invariant (I := Terminal) ?_ ?_).gone streamId hremoved
  · have hnone : ∀ streamId, ¬ Removed [] streamId := by
      rintro streamId ⟨_, _, hmem, _⟩
      cases hmem
    refine ⟨numbered_init isClient maxStreams window flowWindow fun streamId hknown => ?_,
      fun streamId hstream => absurd hstream (hnone streamId)⟩
    exact hknown.elim (AList.notMem_empty streamId) (hnone streamId)
  · intro r operation r' hterminal hallowed hstep
    obtain ⟨m, hm, rfl⟩ := Recorded.step_eq_some.mp hstep
    cases hm
    exact terminal_step hterminal hallowed

/-- A server that has accepted a stream and shut it down. -/
theorem closed_terminal_sample :
    2 ∉ (((init false 100 10 10).next (.acceptStream 2)).next (.shutdownStream 2)).streams := by
  refine closed_terminal false 100 10 10 (r := ⟨_, [(_, .acceptStream 2), (_, .shutdownStream 2)]⟩)
    (.next (.shutdownStream 2) (.next (.acceptStream 2) .start ⟨.inr (.inl (by decide)), ?_⟩ rfl)
      ⟨trivial, fun _ hother => by cases hother⟩ rfl) 2 ?_
  · rintro _ _ ⟨_, _, hmem, _⟩
    cases hmem
  · exact ⟨_, .shutdownStream 2, List.mem_cons_of_mem _ (List.mem_singleton_self _), by decide, by decide⟩

/-- The server accepts the stream again when the `StreamOpen` comes a second time. -/
theorem closed_revived :
    ∃ r, Reached (Recorded.step step) (fun _ _ => True) (.fresh (init false 100 10 10)) r ∧
      Removed r.past 2 ∧ 2 ∈ r.now.streams := by
  refine ⟨_, .next (.acceptStream 2) (.next (.shutdownStream 2) (.next (.acceptStream 2) .start trivial rfl)
    trivial rfl) trivial rfl, ⟨(init false 100 10 10).next (.acceptStream 2), .shutdownStream 2, ?_, by decide,
    by decide⟩, by decide⟩
  exact List.mem_append_left _ (List.mem_append_right _ (List.mem_singleton_self _))

end Aether.StreamManager
