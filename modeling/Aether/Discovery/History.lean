import Aether.Discovery.Cache

/-! The cache as a record of what has happened.

Where no reader keeps the lock, the cache at any time is determined by the last report
on each peer: it is there if the report said so, not longer than its time to live ago
(`getPeers_history`). Records that have expired are in the cache or not, as they have
been read past or not, and no reader can tell. -/
namespace Aether
open Octets Octets.Method

namespace DiscoveryService
variable {Addr : Type}

/-- What is done with a service, one after the other. -/
inductive Call (Addr : Type) where
  | handle (data : Bytes) (srcAddr : Addr) (now : Instant)
  | getPeers (now : Instant)
  | findPeer (identityHash : String) (now : Instant)

namespace Call

def time : Call Addr → Instant
  | handle _ _ now => now
  | getPeers now => now
  | findPeer _ now => now

end Call

section
variable (json : PeerInfoJson Addr)

def perform (s : DiscoveryService Addr) : Call Addr → DiscoveryService Addr
  | .handle data srcAddr now => ((handleMessage json data srcAddr now).exec s).2
  | .getPeers now => ((getPeers now).exec s).2
  | .findPeer identityHash now => ((findPeer identityHash now).exec s).2

def run (s : DiscoveryService Addr) (calls : List (Call Addr)) : DiscoveryService Addr := calls.foldl (perform json) s

end

/-! ### The last report -/

/-- The peer a report is about. -/
def Report.about : Report Addr → String
  | present info => info.identityHash
  | gone identityHash => identityHash

/-- What a call tells, and when. -/
def reported (json : PeerInfoJson Addr) : Call Addr → Option (Report Addr × Instant)
  | .handle data _ now => (reportOf json data).map fun report => (report, now)
  | .getPeers _ => none
  | .findPeer _ _ => none

/-- The last report on a peer. -/
def latest (json : PeerInfoJson Addr) (identityHash : String) (calls : List (Call Addr)) : Option (Report Addr × Instant) :=
  (calls.filterMap (reported json)).reverse.find? fun report => report.1.about = identityHash

theorem latest_append (json : PeerInfoJson Addr) (identityHash : String) (calls : List (Call Addr)) (c : Call Addr) :
    latest json identityHash (calls ++ [c]) =
      match reported json c with
      | some report => if report.1.about = identityHash then some report else latest json identityHash calls
      | none => latest json identityHash calls := by
  rw [latest, List.filterMap_append, List.reverse_append]
  cases hreported : reported json c with
  | none =>
    have hnothing : [c].filterMap (reported json) = [] := by
      rw [List.filterMap_cons, hreported]
      rfl
    rw [hnothing]
    rfl
  | some report =>
    have hone : [c].filterMap (reported json) = [report] := by
      rw [List.filterMap_cons, hreported]
      rfl
    rw [hone, List.reverse_singleton, List.singleton_append, List.find?_cons]
    by_cases habout : report.1.about = identityHash
    · simp [habout]
    · simp [habout, latest]

/-- The call tells of the peer. -/
theorem latest_told {json : PeerInfoJson Addr} {c : Call Addr} {report : Report Addr × Instant}
    (h : reported json c = some report) (calls : List (Call Addr)) :
    latest json report.1.about (calls ++ [c]) = some report := by
  rw [latest_append, h]
  exact if_pos rfl

/-- It does not. -/
theorem latest_other {json : PeerInfoJson Addr} {c : Call Addr} {identityHash : String}
    (h : ∀ report, reported json c = some report → report.1.about ≠ identityHash) (calls : List (Call Addr)) :
    latest json identityHash (calls ++ [c]) = latest json identityHash calls := by
  rw [latest_append]
  cases hreported : reported json c with
  | none => rfl
  | some report => exact if_neg (h report hreported)

/-! ### What the cache has to do with it -/

/-- The cache holds last reports alone, and of those that have not expired at `now` all. -/
structure Matches (json : PeerInfoJson Addr) (ourHash : String) (calls : List (Call Addr)) (now : Instant)
    (s : DiscoveryService Addr) : Prop where
  held : s.held = false
  ourInfo : s.ourInfo.identityHash = ourHash
  known : ∀ identityHash info cachedAt, s.peers.lookup identityHash = some (info, cachedAt) →
    identityHash ≠ ourHash ∧ info.identityHash = identityHash ∧
      latest json identityHash calls = some (.present info, cachedAt)
  kept : ∀ identityHash info cachedAt, identityHash ≠ ourHash →
    latest json identityHash calls = some (.present info, cachedAt) → now - cachedAt < cacheTtl →
      s.peers.lookup identityHash = some (info, cachedAt)

variable {json : PeerInfoJson Addr} {ourHash : String} {calls : List (Call Addr)} {now now' : Instant}
  {s t : DiscoveryService Addr}

/-- What has expired stays so. -/
theorem Matches.later (h : Matches json ourHash calls now s) (hnow : now ≤ now') : Matches json ourHash calls now' s where
  held := h.held
  ourInfo := h.ourInfo
  known := h.known
  kept identityHash info cachedAt hforeign hlatest hfresh :=
    h.kept identityHash info cachedAt hforeign hlatest (Nat.lt_of_le_of_lt (Nat.sub_le_sub_right hnow cachedAt) hfresh)

/-- Only the cache and what is known of this node matter. -/
theorem Matches.same (h : Matches json ourHash calls now s) (hsame : SameCache s t) : Matches json ourHash calls now t where
  held := hsame.held.trans h.held
  ourInfo := (congrArg PeerInfo.identityHash hsame.ourInfo).trans h.ourInfo
  known := by
    rw [hsame.peers]
    exact h.known
  kept := by
    rw [hsame.peers]
    exact h.kept

/-- A reader takes out what has expired. -/
theorem Matches.purged (h : Matches json ourHash calls now s) : Matches json ourHash calls now (s.purged now) where
  held := h.held
  ourInfo := h.ourInfo
  known identityHash info cachedAt hlookup := by
    have hretained := (lookup_retain (fresh now) s.peers identityHash).symm.trans hlookup
    exact h.known identityHash info cachedAt (Option.filter_eq_some_iff.mp hretained).1
  kept identityHash info cachedAt hforeign hlatest hfresh := by
    refine (lookup_retain (fresh now) s.peers identityHash).trans (Option.filter_eq_some_iff.mpr ⟨?_, decide_eq_true hfresh⟩)
    exact h.kept identityHash info cachedAt hforeign hlatest hfresh

/-- A call that tells nothing of other peers, and leaves the cache alone. -/
theorem Matches.untold (h : Matches json ourHash calls now s) {c : Call Addr}
    (hc : ∀ report, reported json c = some report → report.1.about = ourHash) :
    Matches json ourHash (calls ++ [c]) now s where
  held := h.held
  ourInfo := h.ourInfo
  known identityHash info cachedAt hlookup := by
    obtain ⟨hforeign, hkey, hlatest⟩ := h.known identityHash info cachedAt hlookup
    refine ⟨hforeign, hkey, ?_⟩
    rw [latest_other fun report hreport => ?_]
    · exact hlatest
    · rw [hc report hreport]
      exact hforeign.symm
  kept identityHash info cachedAt hforeign hlatest := by
    rw [latest_other fun report hreport => ?_] at hlatest
    · exact h.kept identityHash info cachedAt hforeign hlatest
    · rw [hc report hreport]
      exact hforeign.symm

/-- A peer that says it is there. -/
theorem Matches.present (h : Matches json ourHash calls now s) {c : Call Addr} {info : PeerInfo Addr}
    (hc : reported json c = some (.present info, now)) (hinfo : info.identityHash ≠ ourHash) :
    Matches json ourHash (calls ++ [c]) now { s with peers := s.peers.insert info.identityHash (info, now) } where
  held := h.held
  ourInfo := h.ourInfo
  known identityHash info' cachedAt hlookup := by
    by_cases hkey : identityHash = info.identityHash
    · subst hkey
      cases (AList.lookup_insert _).symm.trans hlookup
      exact ⟨hinfo, rfl, latest_told hc calls⟩
    · obtain ⟨hforeign, hsame, hlatest⟩ := h.known identityHash info' cachedAt
        ((AList.lookup_insert_ne hkey).symm.trans hlookup)
      refine ⟨hforeign, hsame, ?_⟩
      rw [latest_other fun report hreport => ?_]
      · exact hlatest
      · cases hc.symm.trans hreport
        exact Ne.symm hkey
  kept identityHash info' cachedAt hforeign hlatest hfresh := by
    by_cases hkey : identityHash = info.identityHash
    · subst hkey
      cases (latest_told hc calls).symm.trans hlatest
      exact AList.lookup_insert _
    · rw [latest_other fun report hreport => ?_] at hlatest
      · exact (AList.lookup_insert_ne hkey).trans (h.kept identityHash info' cachedAt hforeign hlatest hfresh)
      · cases hc.symm.trans hreport
        exact Ne.symm hkey

/-- A peer that says it goes. -/
theorem Matches.gone (h : Matches json ourHash calls now s) {c : Call Addr} {goodbye : String}
    (hc : reported json c = some (.gone goodbye, now)) :
    Matches json ourHash (calls ++ [c]) now { s with peers := s.peers.erase goodbye } where
  held := h.held
  ourInfo := h.ourInfo
  known identityHash info cachedAt hlookup := by
    by_cases hkey : identityHash = goodbye
    · subst hkey
      cases (AList.lookup_erase _ _).symm.trans hlookup
    · obtain ⟨hforeign, hsame, hlatest⟩ := h.known identityHash info cachedAt
        ((AList.lookup_erase_ne hkey).symm.trans hlookup)
      refine ⟨hforeign, hsame, ?_⟩
      rw [latest_other fun report hreport => ?_]
      · exact hlatest
      · cases hc.symm.trans hreport
        exact Ne.symm hkey
  kept identityHash info cachedAt hforeign hlatest hfresh := by
    by_cases hkey : identityHash = goodbye
    · subst hkey
      cases (latest_told hc calls).symm.trans hlatest
    · rw [latest_other fun report hreport => ?_] at hlatest
      · exact (AList.lookup_erase_ne hkey).trans (h.kept identityHash info cachedAt hforeign hlatest hfresh)
      · cases hc.symm.trans hreport
        exact Ne.symm hkey

/-- **Every call keeps the cache as its history has it.** -/
theorem Matches.perform (c : Call Addr) (h : Matches json ourHash calls c.time s) :
    Matches json ourHash (calls ++ [c]) c.time (s.perform json c) := by
  cases c with
  | getPeers now => exact h.purged.untold nofun
  | findPeer identityHash now => exact h.purged.untold nofun
  | handle data srcAddr now =>
    refine Matches.same ?_ (handleMessage_spec json s data srcAddr now).1
    cases hreport : reportOf json data with
    | none =>
      refine h.untold fun report hreported => ?_
      rw [reported, hreport] at hreported
      cases hreported
    | some report =>
      have hreported : reported json (.handle data srcAddr now) = some (report, now) := by
        rw [reported, hreport]
        rfl
      cases report with
      | gone goodbye =>
        rw [told, removePeer_free h.held]
        exact h.gone hreported
      | present info =>
        by_cases hown : info.identityHash = s.ourInfo.identityHash
        · rw [told, cachePeer_own hown]
          refine h.untold fun report hreport => ?_
          cases hreported.symm.trans hreport
          exact hown.trans h.ourInfo
        · rw [told, cachePeer_free hown h.held]
          exact h.present hreported (h.ourInfo ▸ hown)

theorem matches_bind (socket : DatagramSocket Addr) (ourInfo : PeerInfo Addr) (groupAddr : Addr) (now : Instant) :
    Matches json ourInfo.identityHash [] now (bind socket ourInfo groupAddr) where
  held := rfl
  ourInfo := rfl
  known identityHash info cachedAt hlookup := by cases hlookup
  kept identityHash info cachedAt hforeign hlatest := by cases hlatest

/-- **The cache is as its history has it**, at any time that is not before the calls. -/
theorem matches_run (socket : DatagramSocket Addr) (ourInfo : PeerInfo Addr) (groupAddr : Addr)
    {calls : List (Call Addr)} {now : Instant} (h : (calls.map Call.time ++ [now]).Pairwise (· ≤ ·)) :
    Matches json ourInfo.identityHash calls now ((bind socket ourInfo groupAddr).run json calls) := by
  induction calls using List.reverseRecOn generalizing now with
  | nil => exact matches_bind socket ourInfo groupAddr now
  | append_singleton calls c ih =>
    rw [List.map_append, List.pairwise_append] at h
    obtain ⟨hbefore, _, hafter⟩ := h
    have hnow : c.time ≤ now := hafter c.time (List.mem_append_right _ List.mem_cons_self) now List.mem_cons_self
    rw [run, List.foldl_append]
    exact ((ih hbefore).perform c).later hnow

/-- What a reader sees of a cache that is as its history has it. -/
theorem Matches.mem_getPeers (h : Matches json ourHash calls now s) {info : PeerInfo Addr} :
    info ∈ (values (retain (fresh now) s.peers)).map Prod.fst ↔ info.identityHash ≠ ourHash ∧
      ∃ toldAt, latest json info.identityHash calls = some (.present info, toldAt) ∧ now - toldAt < cacheTtl := by
  rw [DiscoveryService.mem_getPeers]
  constructor
  · rintro ⟨identityHash, cachedAt, hlookup, hfresh⟩
    obtain ⟨hforeign, rfl, hlatest⟩ := h.known identityHash info cachedAt hlookup
    exact ⟨hforeign, cachedAt, hlatest, hfresh⟩
  · rintro ⟨hforeign, toldAt, hlatest, hfresh⟩
    exact ⟨_, toldAt, h.kept _ info toldAt hforeign hlatest hfresh, hfresh⟩

theorem Matches.nodup (h : Matches json ourHash calls now s) :
    (((values (retain (fresh now) s.peers)).map Prod.fst).map PeerInfo.identityHash).Nodup := by
  rw [List.map_map]
  refine nodup_values fun identityHash entry hlookup => ?_
  rw [lookup_retain, Option.filter_eq_some_iff] at hlookup
  exact (h.known identityHash entry.1 entry.2 hlookup.1).2.1

/-- The one entry of a list that has a name. -/
theorem find_eq_some_iff {infos : List (PeerInfo Addr)} (h : (infos.map PeerInfo.identityHash).Nodup)
    {identityHash : String} {info : PeerInfo Addr} :
    (infos.find? fun p => p.identityHash = identityHash) = some info ↔ info ∈ infos ∧ info.identityHash = identityHash := by
  have hnamed : ∀ {info'}, (infos.find? fun p => p.identityHash = identityHash) = some info' →
      info'.identityHash = identityHash := by
    intro info' hfind
    have hpasses := List.find?_some hfind
    exact of_decide_eq_true hpasses
  constructor
  · exact fun hfind => ⟨List.mem_of_find?_eq_some hfind, hnamed hfind⟩
  · rintro ⟨hmem, hkey⟩
    cases hfind : infos.find? fun p => p.identityHash = identityHash with
    | none => exact absurd (decide_eq_true hkey) (List.find?_eq_none.mp hfind info hmem)
    | some info' =>
      rw [List.inj_on_of_nodup_map h (List.mem_of_find?_eq_some hfind) hmem ((hnamed hfind).trans hkey.symm)]

/-- **What readers see**: of every other node the information of the last report on it,
where that said that the node is there and is not too old. -/
theorem getPeers_history (socket : DatagramSocket Addr) (ourInfo : PeerInfo Addr) (groupAddr : Addr)
    {calls : List (Call Addr)} {t : Instant} (h : (calls.map Call.time ++ [t]).Pairwise (· ≤ ·)) :
    (∃ infos, ((getPeers t).exec ((bind socket ourInfo groupAddr).run json calls)).1 = .ok infos ∧
      (infos.map PeerInfo.identityHash).Nodup ∧
      (∀ info, info ∈ infos ↔ info.identityHash ≠ ourInfo.identityHash ∧
        ∃ toldAt, latest json info.identityHash calls = some (.present info, toldAt) ∧ t - toldAt < cacheTtl) ∧
      ∀ identityHash info,
        ((findPeer identityHash t).exec ((bind socket ourInfo groupAddr).run json calls)).1 = .ok (some info) ↔
          info ∈ infos ∧ info.identityHash = identityHash) ∧
    ∀ data srcAddr now, reportOf json data = none → SameCache ((bind socket ourInfo groupAddr).run json calls)
      ((bind socket ourInfo groupAddr).run json (calls ++ [.handle data srcAddr now])) := by
  have hmatches : Matches json ourInfo.identityHash calls t ((bind socket ourInfo groupAddr).run json calls) :=
    matches_run socket ourInfo groupAddr h
  refine ⟨⟨_, congrArg Prod.fst (exec_getPeers _ t), hmatches.nodup, fun info => hmatches.mem_getPeers,
    fun identityHash info => ?_⟩, fun data srcAddr now hreport => ?_⟩
  · rw [← find_eq_some_iff hmatches.nodup, exec_findPeer]
    exact ⟨Except.ok.inj, congrArg Except.ok⟩
  · have hrun : (bind socket ourInfo groupAddr).run json (calls ++ [.handle data srcAddr now]) =
        ((handleMessage json data srcAddr now).exec ((bind socket ourInfo groupAddr).run json calls)).2 :=
      List.foldl_append
    have hsame := (handleMessage_spec json ((bind socket ourInfo groupAddr).run json calls) data srcAddr now).1
    rw [hreport] at hsame
    rw [hrun]
    exact hsame

/-- A node announces itself and is looked for a little later. -/
def announcedAndRead : List (Call Unit) := [.handle impostorAnnounce () 0, .getPeers 5]

theorem getPeers_history_announced :
    (∃ infos, ((getPeers 10).exec (newService.run impostorJson announcedAndRead)).1 = .ok infos ∧
      (infos.map PeerInfo.identityHash).Nodup ∧
      (∀ info, info ∈ infos ↔ info.identityHash ≠ ourself.identityHash ∧
        ∃ toldAt, latest impostorJson info.identityHash announcedAndRead = some (.present info, toldAt) ∧
          10 - toldAt < cacheTtl) ∧
      ∀ identityHash info,
        ((findPeer identityHash 10).exec (newService.run impostorJson announcedAndRead)).1 = .ok (some info) ↔
          info ∈ infos ∧ info.identityHash = identityHash) ∧
    ∀ data srcAddr now, reportOf impostorJson data = none → SameCache (newService.run impostorJson announcedAndRead)
      (newService.run impostorJson (announcedAndRead ++ [.handle data srcAddr now])) :=
  getPeers_history ⟨fun _ => none, 0, []⟩ ourself () (by decide : ([0, 5, 10] : List Nat).Pairwise (· ≤ ·))

end DiscoveryService

end Aether
