import Aether.Crypto.Transparent
import Aether.Discovery.Service

/-! What gets into the cache of peers, and what does not.

Messages are handled one after the other; a reader takes the lock at some time and lets
go of it at another, and messages may be handled in between. Anyone may send anything:
a record is kept as it was sent, so readers see records that belong to their identities
exactly where those that are kept do (`authentic_iff`). And a message that comes while
a reader has the lock is lost, although it is handled without error
(`registered_iff`). -/
namespace Aether
open Octets Octets.Method

namespace DiscoveryService
variable {Addr : Type}

inductive Event (Addr : Type) where
  | handle (data : Bytes) (srcAddr : Addr) (now : Instant)
  /-- A reader gets the lock, of `get_peers` or of `find_peer`. -/
  | acquire
  /-- It reads and lets go. -/
  | release (now : Instant)

section
variable (json : PeerInfoJson Addr)

def step (s : DiscoveryService Addr) : Event Addr → Option (DiscoveryService Addr)
  | .handle data srcAddr now => some ((handleMessage json data srcAddr now).exec s).2
  | .acquire => if s.held then none else some { s with held := true }
  | .release now => if s.held then some { ((getPeers now).exec s).2 with held := false } else none

end

variable {json : PeerInfoJson Addr} {s t : DiscoveryService Addr}

/-! ### Reading -/

theorem exec_getPeers (s : DiscoveryService Addr) (now : Instant) :
    (getPeers now).exec s = (.ok ((values (retain (fresh now) s.peers)).map Prod.fst), s.purged now) := rfl

theorem exec_findPeer (s : DiscoveryService Addr) (identityHash : String) (now : Instant) :
    (findPeer identityHash now).exec s =
      (.ok (((values (retain (fresh now) s.peers)).map Prod.fst).find? fun p => p.identityHash = identityHash),
        s.purged now) := rfl

/-- What a reader sees is in the cache and still fresh. -/
theorem mem_getPeers {s : DiscoveryService Addr} {now : Instant} {info : PeerInfo Addr} :
    info ∈ (values (retain (fresh now) s.peers)).map Prod.fst ↔
      ∃ identityHash cachedAt, s.peers.lookup identityHash = some (info, cachedAt) ∧ now - cachedAt < cacheTtl := by
  rw [List.mem_map]
  constructor
  · rintro ⟨⟨info', cachedAt⟩, hmem, rfl⟩
    obtain ⟨identityHash, hlookup⟩ := mem_values.mp hmem
    rw [lookup_retain, Option.filter_eq_some_iff] at hlookup
    exact ⟨identityHash, cachedAt, hlookup.1, of_decide_eq_true hlookup.2⟩
  · rintro ⟨identityHash, cachedAt, hlookup, hfresh⟩
    refine ⟨(info, cachedAt), mem_values.mpr ⟨identityHash, ?_⟩, rfl⟩
    rw [lookup_retain, Option.filter_eq_some_iff]
    exact ⟨hlookup, decide_eq_true hfresh⟩

/-! ### Records that belong to their identities -/

section
variable (P : Primitives)

/-- The hash a record gives is that of the public key it gives. -/
def Authentic (info : PeerInfo Addr) : Prop :=
  ∃ publicKey, Hex.decode (utf8 info.publicKey) = .ok publicKey ∧
    info.identityHash = Hex.encode (P.sha256 (identityPrefix ++ publicKey)).toList

/-- Whatever is read belongs to its identity, whenever it is read. -/
structure AuthenticReads (s : DiscoveryService Addr) : Prop where
  getPeers : ∀ now infos s', (getPeers now).exec s = (.ok infos, s') → ∀ info ∈ infos, Authentic P info
  findPeer : ∀ identityHash now info s', (findPeer identityHash now).exec s = (.ok (some info), s') → Authentic P info

/-- What the cache holds belongs to its identities. -/
def AuthenticCache (s : DiscoveryService Addr) : Prop :=
  ∀ identityHash entry, s.peers.lookup identityHash = some entry → Authentic P entry.1

/-- The datagram tells of no peer that gets into the cache, or of one as it is. -/
def ToldAuthentically (json : PeerInfoJson Addr) (s : DiscoveryService Addr) : Event Addr → Prop
  | .handle data _ _ => ∀ info, reportOf json data = some (.present info) → s.held = false →
      info.identityHash ≠ s.ourInfo.identityHash → Authentic P info
  | .acquire => True
  | .release _ => True

end

section
variable {P : Primitives}

/-- What is in the cache is read as soon as it is there. -/
theorem authenticReads_iff {s : DiscoveryService Addr} : AuthenticReads P s ↔ AuthenticCache P s := by
  constructor
  · intro h identityHash entry hentry
    refine h.getPeers entry.2 _ _ (exec_getPeers s entry.2) entry.1 (mem_getPeers.mpr ⟨identityHash, entry.2, hentry, ?_⟩)
    rw [Nat.sub_self]
    decide
  · intro h
    have hreads : ∀ now, ∀ info ∈ (values (retain (fresh now) s.peers)).map Prod.fst, Authentic P info := by
      intro now info hinfo
      obtain ⟨identityHash, cachedAt, hlookup, _⟩ := mem_getPeers.mp hinfo
      exact h identityHash _ hlookup
    refine ⟨fun now infos s' hexec => ?_, fun identityHash now info s' hexec => ?_⟩
    · rw [exec_getPeers] at hexec
      cases hexec
      exact hreads now
    · rw [exec_findPeer] at hexec
      exact hreads now info (List.mem_of_find?_eq_some (Except.ok.inj (congrArg Prod.fst hexec)))

theorem authentic_told (hs : AuthenticCache P s) (now : Instant) (report : Option (Report Addr)) :
    AuthenticCache P (s.told now report) ↔ ∀ info, report = some (.present info) → s.held = false →
      info.identityHash ≠ s.ourInfo.identityHash → Authentic P info := by
  rcases report with _ | info | identityHash
  · exact iff_of_true hs fun info hinfo => absurd hinfo (Option.some_ne_none _).symm
  · by_cases hown : info.identityHash = s.ourInfo.identityHash
    · rw [told, cachePeer_own hown]
      refine iff_of_true hs fun info' hinfo _ hforeign => ?_
      cases hinfo
      exact absurd hown hforeign
    · cases hheld : s.held with
      | true =>
        rw [told, cachePeer_held hheld]
        exact iff_of_true hs fun _ _ hfree => absurd hfree Bool.noConfusion
      | false =>
        rw [told, cachePeer_free hown hheld]
        constructor
        · intro h info' hinfo _ _
          cases hinfo
          exact h info.identityHash (info, now) (AList.lookup_insert _)
        · intro h identityHash entry hentry
          by_cases hkey : identityHash = info.identityHash
          · subst hkey
            rw [AList.lookup_insert] at hentry
            cases hentry
            exact h info rfl rfl hown
          · rw [AList.lookup_insert_ne hkey] at hentry
            exact hs identityHash entry hentry
  · refine iff_of_true (fun identityHash' entry hentry => ?_) fun info hinfo => ?_
    · cases hheld : s.held with
      | true =>
        rw [told, removePeer_held hheld] at hentry
        exact hs identityHash' entry hentry
      | false =>
        rw [told, removePeer_free hheld] at hentry
        by_cases hkey : identityHash' = identityHash
        · subst hkey
          rw [AList.lookup_erase] at hentry
          cases hentry
        · rw [AList.lookup_erase_ne hkey] at hentry
          exact hs identityHash' entry hentry
    · cases hinfo

/-- A reader takes records out at most. -/
theorem authentic_purged (hs : AuthenticCache P s) (now : Instant) : AuthenticCache P (s.purged now) := by
  intro identityHash entry hentry
  rw [purged, lookup_retain, Option.filter_eq_some_iff] at hentry
  exact hs identityHash entry hentry.1

theorem SameCache.authentic (h : SameCache s t) : AuthenticCache P t ↔ AuthenticCache P s := by
  rw [AuthenticCache, AuthenticCache, h.peers]

theorem authentic_step (hs : AuthenticCache P s) (e : Event Addr) :
    (∀ t, step json s e = some t → AuthenticReads P t) ↔ ToldAuthentically P json s e := by
  cases e with
  | handle data srcAddr now =>
    have hsame := (handleMessage_spec json s data srcAddr now).1
    rw [ToldAuthentically, ← authentic_told hs now, ← hsame.authentic]
    constructor
    · exact fun h => authenticReads_iff.mp (h _ rfl)
    · intro h t ht
      cases ht
      exact authenticReads_iff.mpr h
  | acquire =>
    refine iff_of_true (fun t ht => authenticReads_iff.mpr ?_) trivial
    rw [step] at ht
    split at ht
    · cases ht
    · cases ht
      exact hs
  | release now =>
    refine iff_of_true (fun t ht => authenticReads_iff.mpr ?_) trivial
    rw [step] at ht
    split at ht
    · cases ht
      exact authentic_purged hs now
    · cases ht

theorem authenticCache_bind (P : Primitives) (socket : DatagramSocket Addr) (ourInfo : PeerInfo Addr) (groupAddr : Addr) :
    AuthenticCache P (bind socket ourInfo groupAddr) := by
  intro identityHash entry hentry
  cases hentry

/-- **When readers see records that belong to their identities**: in every run, as long as
those that are kept do. -/
theorem authentic_iff (socket : DatagramSocket Addr) (ourInfo : PeerInfo Addr) (groupAddr : Addr)
    (events : List (Event Addr)) :
    Throughout (step json) (fun s e => ∀ t, step json s e = some t → AuthenticReads P t) (bind socket ourInfo groupAddr)
        events ↔
      Throughout (step json) (ToldAuthentically P json) (bind socket ourInfo groupAddr) events :=
  throughout_iff (I := AuthenticCache P) (fun _ e hs => authentic_step hs e)
    (fun _ _ t _ hreads ht => authenticReads_iff.mp (hreads t ht)) (authenticCache_bind P socket ourInfo groupAddr) events

end

/-! ### Someone else's identity -/

/-- The JSON of a peer without addresses and capabilities. -/
def plainJson {Addr : Type} (info : PeerInfo Addr) : String :=
  "\x7b\"identity_hash\":\"" ++ info.identityHash ++ "\",\"public_key\":\"" ++ info.publicKey ++
    "\",\"addresses\":[],\"connection_id\":0,\"timestamp\":0,\"version\":0,\"capabilities\":[]\x7d"

/-- A peer that gives one node's identity and another node's key. -/
def impostor : PeerInfo Unit :=
  { identityHash := Hex.encode (List.replicate 32 9)
    publicKey := Hex.encode (List.replicate 32 7)
    addresses := []
    connectionId := 0
    timestamp := 0
    version := 0
    capabilities := [] }

def ourself : PeerInfo Unit := { impostor with identityHash := "" }

/-- As much of JSON as is read here. -/
def impostorJson : PeerInfoJson Unit where
  toVec info := .ok (utf8 (plainJson info))
  fromSlice data :=
    if data = utf8 (plainJson impostor) then .ok impostor else .error "expected value at line 1 column 1"

/-- The announcement of the impostor. -/
def impostorAnnounce : Bytes := discoveryMagic ++ 1 :: 0 :: utf8 (plainJson impostor)

theorem reportOf_impostor : reportOf impostorJson impostorAnnounce = some (.present impostor) := by
  have hinfo : PeerInfo.decode impostorJson (utf8 (plainJson impostor)) = .ok impostor := by
    rw [PeerInfo.decode, impostorJson]
    simp only [if_true]
  have hdecode : DiscoveryMessage.decode impostorJson impostorAnnounce =
      (PeerInfo.decode impostorJson (utf8 (plainJson impostor))).map fun peerInfo =>
        ⟨discoveryMagic, .announce, 0, peerInfo⟩ := DiscoveryMessage.decode_wire rfl _
  rw [hinfo] at hdecode
  rw [reportOf, hdecode]
  rfl

theorem impostor_foreign : impostor.identityHash ≠ ourself.identityHash := by
  intro h
  have hlength := congrArg (fun text => (utf8 text).length) h
  exact absurd hlength (by decide)

theorem impostor_not_authentic : ¬ Authentic Transparent.fixedMacs impostor := by
  rintro ⟨publicKey, hkey, hhash⟩
  cases (Hex.decode_encode _).symm.trans hkey
  exact absurd (Hex.encode_inj hhash) (by decide)

/-- A service that nothing has happened to. -/
def newService : DiscoveryService Unit := bind ⟨fun _ => none, 0, []⟩ ourself ()

/-- An announcement is enough to be read under someone else's identity. -/
theorem impostor_read :
    ¬ ∀ events : List (Event Unit), Throughout (step impostorJson)
      (fun s e => ∀ t, step impostorJson s e = some t → AuthenticReads Transparent.fixedMacs t) newService events := by
  intro h
  have htold := (authentic_step (authenticCache_bind _ _ _ _) _).mp (h [.handle impostorAnnounce () 0]).1
  exact impostor_not_authentic (htold impostor reportOf_impostor rfl impostor_foreign)

/-! ### Records of what was told -/

/-- What a message told of another node, and was handled without error, is in the cache:
the peer's information, or nothing once it has gone. -/
def Registered (json : PeerInfoJson Addr) (s : DiscoveryService Addr) : Event Addr → Prop
  | .handle data srcAddr now => ((handleMessage json data srcAddr now).exec s).1 = .ok () →
      (∀ info, reportOf json data = some (.present info) → info.identityHash ≠ s.ourInfo.identityHash →
        ∃ cachedAt, ((handleMessage json data srcAddr now).exec s).2.peers.lookup info.identityHash =
          some (info, cachedAt)) ∧
      ∀ identityHash, reportOf json data = some (.gone identityHash) →
        ((handleMessage json data srcAddr now).exec s).2.peers.lookup identityHash = none
  | .acquire => True
  | .release _ => True

/-- No reader has the lock, or the cache has nothing to learn from the message. -/
def Registrable (json : PeerInfoJson Addr) (s : DiscoveryService Addr) : Event Addr → Prop
  | .handle data _ _ => s.held = true →
      (∀ info, reportOf json data = some (.present info) → info.identityHash ≠ s.ourInfo.identityHash →
        ∃ cachedAt, s.peers.lookup info.identityHash = some (info, cachedAt)) ∧
      ∀ identityHash, reportOf json data = some (.gone identityHash) → s.peers.lookup identityHash = none
  | .acquire => True
  | .release _ => True

theorem registered_step (s : DiscoveryService Addr) (e : Event Addr) : Registered json s e ↔ Registrable json s e := by
  cases e with
  | acquire => exact Iff.rfl
  | release now => exact Iff.rfl
  | handle data srcAddr now =>
    obtain ⟨hsame, hok⟩ := handleMessage_spec json s data srcAddr now
    rw [Registered, Registrable, hsame.peers]
    cases hreport : reportOf json data with
    | none => exact iff_of_true (fun _ => ⟨nofun, nofun⟩) fun _ => ⟨nofun, nofun⟩
    | some report =>
      rw [hreport] at hok
      have hok := hok rfl
      cases hheld : s.held with
      | true =>
        have hsame : s.told now (some report) = s := by
          cases report with
          | present info => exact cachePeer_held hheld info now
          | gone identityHash => exact removePeer_held hheld identityHash
        rw [hsame]
        exact ⟨fun h _ => h hok, fun h _ => h rfl⟩
      | false =>
        refine iff_of_true (fun _ => ⟨fun info hinfo hforeign => ?_, fun identityHash hgone => ?_⟩) nofun
        · cases hinfo
          rw [told, cachePeer_free hforeign hheld]
          exact ⟨now, AList.lookup_insert _⟩
        · cases hgone
          rw [told, removePeer_free hheld]
          exact AList.lookup_erase _ _

/-- **When no message is lost to a reader**: in every run, as long as none comes while a
reader has the lock, unless the cache already is as it would leave it. -/
theorem registered_iff (socket : DatagramSocket Addr) (ourInfo : PeerInfo Addr) (groupAddr : Addr)
    (events : List (Event Addr)) :
    Throughout (step json) (Registered json) (bind socket ourInfo groupAddr) events ↔
      Throughout (step json) (Registrable json) (bind socket ourInfo groupAddr) events :=
  throughout_iff (I := fun _ => True) (fun s e _ => registered_step s e) (fun _ _ _ _ _ _ => trivial) trivial events

/-- An announcement that comes while a reader has the lock is handled, and lost. -/
theorem announce_lost :
    ¬ ∀ events : List (Event Unit),
      Throughout (step impostorJson) (Registered impostorJson) newService events := by
  intro h
  have hsecond := ((h [.acquire, .handle impostorAnnounce () 0]).2 { newService with held := true } rfl).1
  obtain ⟨cachedAt, hlookup⟩ := ((registered_step _ _).mp hsecond rfl).1 impostor reportOf_impostor impostor_foreign
  cases hlookup

end DiscoveryService

end Aether
