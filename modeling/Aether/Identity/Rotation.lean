import Aether.Identity.Manager

/-! What a node leaves on its host that is started and rotated again and again.

Whatever is written is made of public keys (`disk_public`). Where no write is done by halves, a
key file tells in every state who the node is, and everyone it has been is archived beside
it (`disk_ordered`). A node with its seed in the environment is who it was after every
restart, since rotation changes nothing that is loaded (`env_restart`). -/
namespace Aether
open Octets Octets.Method

section
variable {P : Primitives} (signingKeyOf : Block 32 → P.SigningKey)

namespace Site

variable (P) in
/-- What a program does with an identity manager. -/
inductive Event where
  | new (config : IdentityConfig) (drawn : P.SigningKey)
  | rotate (drawn : P.SigningKey)

/-- What it has then. Without a manager there is nothing to rotate. -/
def next (s : Site P) : Event P → Site P
  | .new config drawn =>
    match (IdentityManager.new signingKeyOf config drawn).exec s.host with
    | (.ok m, h) => ⟨h, some m⟩
    | (.error _, h) => ⟨h, none⟩
  | .rotate drawn =>
    match s.manager with
    | none => s
    | some m =>
      let (h, m) := ((IdentityManager.rotate drawn).exec (s.host, m)).2
      ⟨h, some m⟩

def run (s : Site P) : List (Event P) → Site P
  | [] => s
  | e :: events => (s.next signingKeyOf e).run events

end Site

/-! ### A node that has public keys only -/

/-- The same primitives, with a public key in place of each signing key. -/
def Primitives.publicOnly (P : Primitives) : Primitives :=
  { P with
    SigningKey := Block 32
    verifyingKey := fun publicKey => publicKey
    sign := fun _ _ => ⟨List.replicate 64 0, by simp⟩ }

/-- The public key of a signing key, in its place. -/
def publicKeyFor (key : P.SigningKey) : P.publicOnly.SigningKey := P.verifyingKey key

def publicKeyOf (seed : Block 32) : P.publicOnly.SigningKey := publicKeyFor (signingKeyOf seed)

def Identity.publicOnly (id : Identity P) : Identity P.publicOnly := .ofSigningKey id.publicKey

theorem Identity.publicOnly_generate (key : P.SigningKey) :
    (Identity.generate key).publicOnly = Identity.generate (publicKeyFor key) := rfl

theorem Identity.hashHex_publicOnly (id : Identity P) : id.publicOnly.hashHex = id.hashHex := by
  rw [hashHex, hashHex, id.identityHash_eq]
  rfl

def IdentityManager.publicOnly (m : IdentityManager P) : IdentityManager P.publicOnly :=
  ⟨m.identity.publicOnly, m.vault, m.rotation⟩

theorem IdentityManager.vault_publicOnly (m : IdentityManager P) : m.publicOnly.vault = m.vault := rfl

theorem IdentityManager.identity_publicOnly (m : IdentityManager P) :
    m.publicOnly.identity = m.identity.publicOnly := rfl

namespace Vault

theorem saveIdentity_publicOnly (v : Vault) (id : Identity P) : v.saveIdentity id.publicOnly = v.saveIdentity id := by
  cases v with
  | file keyPath =>
    rw [saveIdentity, saveIdentity, FileVault.saveIdentity, FileVault.saveIdentity, id.hashHex_publicOnly]
  | env varName => rfl

theorem archiveIdentity_publicOnly (v : Vault) (id : Identity P) :
    v.archiveIdentity id.publicOnly = v.archiveIdentity id := rfl

/-- What is loaded is known by its public key. -/
theorem exec_loadIdentity_publicOnly (v : Vault) (h : Host) :
    (v.loadIdentity (publicKeyOf signingKeyOf)).exec h =
      (((v.loadIdentity signingKeyOf).exec h).1.map Identity.publicOnly, ((v.loadIdentity signingKeyOf).exec h).2) := by
  cases v with
  | file keyPath =>
    simp only [loadIdentity, FileVault.exec_loadIdentity_any]
    cases FileVault.readSeed h keyPath <;> rfl
  | env varName =>
    simp only [loadIdentity, EnvVault.loadIdentity, exec_get_bind]
    cases h.environment varName with
    | error e => rfl
    | ok text =>
      simp only
      cases EnvVault.seedOf varName text <;> rfl

end Vault

namespace IdentityManager

/-- What comes of starting, by what comes of loading and saving. -/
theorem exec_new {config : IdentityConfig} {v : Vault} (hvault : vaultOf config = .ok v) (drawn : P.SigningKey)
    (h : Host) : (new signingKeyOf config drawn).exec h =
      match (v.loadIdentity signingKeyOf).exec h with
      | (.ok id, t) => (.ok ⟨id, v, config.rotation⟩, t)
      | (.error (.err _), t) =>
        (((v.saveIdentity (Identity.generate drawn)).exec t).1.map fun _ => ⟨.generate drawn, v, config.rotation⟩,
          ((v.saveIdentity (Identity.generate drawn)).exec t).2)
      | (.error .panic, t) => (.error .panic, t) := by
  rw [new, hvault]
  simp only
  rw [exec_bind, exec_tryCatch]
  rcases (v.loadIdentity signingKeyOf).exec h with ⟨r, t⟩
  rcases r with (e | _) | id
  · simp only
    rw [exec_bind]
    rcases (v.saveIdentity (Identity.generate drawn)).exec t with ⟨r, t'⟩
    cases r <;> rfl
  · rfl
  · rfl

theorem exec_new_publicOnly (config : IdentityConfig) (drawn : P.SigningKey) (h : Host) :
    (new (publicKeyOf signingKeyOf) config (publicKeyFor drawn)).exec h =
      (((new signingKeyOf config drawn).exec h).1.map publicOnly, ((new signingKeyOf config drawn).exec h).2) := by
  cases hvault : vaultOf config with
  | error e => simp only [new, hvault]; rfl
  | ok v =>
    have hsave := v.saveIdentity_publicOnly (Identity.generate drawn)
    rw [Identity.publicOnly_generate] at hsave
    rw [exec_new _ hvault, exec_new _ hvault, v.exec_loadIdentity_publicOnly signingKeyOf]
    rcases (v.loadIdentity signingKeyOf).exec h with ⟨r, t⟩
    rcases r with (e | _) | id
    · simp only [Except.map]
      rw [hsave]
      rcases (v.saveIdentity (Identity.generate drawn)).exec t with ⟨r, t'⟩
      cases r <;> rfl
    · rfl
    · rfl

/-- What comes of rotating, by what comes of archiving and saving. -/
theorem exec_rotate_eq (h : Host) (m : IdentityManager P) (drawn : P.SigningKey) :
    (rotate drawn).exec (h, m) =
      match (m.vault.archiveIdentity m.identity).exec h with
      | (.error e, t) => (.error e, (t, m))
      | (.ok _, t) =>
        match (m.vault.saveIdentity (Identity.generate drawn)).exec t with
        | (.error e, t') => (.error e, (t', m))
        | (.ok _, t') => (.ok (Identity.generate drawn).hashHex, (t', { m with identity := .generate drawn })) := by
  rw [rotate, exec_get_bind, exec_bind, exec_focus]
  rcases (m.vault.archiveIdentity m.identity).exec h with ⟨r, t⟩
  cases r with
  | error e => rfl
  | ok u =>
    simp only
    rw [exec_bind, exec_focus]
    rcases (m.vault.saveIdentity (Identity.generate drawn)).exec t with ⟨r, t'⟩
    cases r <;> rfl

theorem exec_rotate_publicOnly (h : Host) (m : IdentityManager P) (drawn : P.SigningKey) :
    (rotate (publicKeyFor drawn)).exec (h, m.publicOnly) =
      (((rotate drawn).exec (h, m)).1, ((rotate drawn).exec (h, m)).2.1,
        ((rotate drawn).exec (h, m)).2.2.publicOnly) := by
  have hsave := m.vault.saveIdentity_publicOnly (Identity.generate drawn)
  rw [Identity.publicOnly_generate] at hsave
  have harchive := m.vault.archiveIdentity_publicOnly m.identity
  rw [exec_rotate_eq, exec_rotate_eq, vault_publicOnly, identity_publicOnly, harchive]
  rcases (m.vault.archiveIdentity m.identity).exec h with ⟨r, t⟩
  cases r with
  | error e => rfl
  | ok u =>
    simp only
    rw [hsave]
    rcases (m.vault.saveIdentity (Identity.generate drawn)).exec t with ⟨r, t'⟩
    cases r <;> rfl

end IdentityManager

namespace Site

def publicOnly (s : Site P) : Site P.publicOnly := ⟨s.host, s.manager.map IdentityManager.publicOnly⟩

def Event.publicOnly : Event P → Event P.publicOnly
  | .new config drawn => .new config (publicKeyFor drawn)
  | .rotate drawn => .rotate (publicKeyFor drawn)

theorem next_publicOnly (s : Site P) (e : Event P) :
    s.publicOnly.next (publicKeyOf signingKeyOf) e.publicOnly = (s.next signingKeyOf e).publicOnly := by
  cases e with
  | new config drawn =>
    have hnew := IdentityManager.exec_new_publicOnly signingKeyOf config drawn s.host
    simp only [Event.publicOnly, next]
    rw [show s.publicOnly.host = s.host from rfl, hnew]
    rcases (IdentityManager.new signingKeyOf config drawn).exec s.host with ⟨r, t⟩
    cases r <;> rfl
  | rotate drawn =>
    obtain ⟨h, manager⟩ := s
    cases manager with
    | none => rfl
    | some m =>
      have hrotate := IdentityManager.exec_rotate_publicOnly h m drawn
      show (⟨((IdentityManager.rotate (publicKeyFor drawn)).exec (h, m.publicOnly)).2.1,
        some ((IdentityManager.rotate (publicKeyFor drawn)).exec (h, m.publicOnly)).2.2⟩ : Site P.publicOnly) = _
      rw [hrotate]
      rfl

/-- **What a node leaves is what it would leave if it had public keys only**: in every run and
on every host, whatever fails, nothing that is written depends on a signing key but by its
public key. -/
theorem disk_public (s : Site P) (events : List (Event P)) :
    s.publicOnly.run (publicKeyOf signingKeyOf) (events.map Event.publicOnly) =
      (s.run signingKeyOf events).publicOnly := by
  induction events generalizing s with
  | nil => rfl
  | cons e events ih =>
    rw [List.map_cons, run, run, next_publicOnly]
    exact ih _

end Site

/-! ### What is written where -/

namespace Host

/-- A write that fails leaves the file as it was. -/
def Clean (h : Host) : Prop := ∀ n text written, h.answers n = .failed text written → written = none

/-- What a write leaves, whatever comes of it. -/
structure Wrote (h : Host) (path : DiskPath) (content : ByteArray) (r : Except (Stop String) Unit × Host) : Prop where
  answers : r.2.answers = h.answers
  environment : r.2.environment = h.environment
  others : ∀ file, file ≠ path → r.2.files file = h.files file
  done : r.1 = .ok () → r.2.files path = some content
  failed : r.1 ≠ .ok () → h.Clean → r.2.files path = h.files path

theorem wrote_write (h : Host) (path : DiskPath) (content : ByteArray) :
    Wrote h path content ((write path content).exec h) := by
  cases hanswer : h.answers h.operations with
  | done =>
    rw [exec_write_done hanswer]
    exact ⟨rfl, rfl, fun file hfile => Function.update_of_ne hfile .., fun _ => h.files_holding path content,
      fun hfailed => absurd rfl hfailed⟩
  | failed text written =>
    rw [exec_write_failed hanswer]
    refine ⟨?_, ?_, fun file hfile => ?_, nofun, fun _ hclean => ?_⟩
    · cases written <;> rfl
    · cases written <;> rfl
    · cases written with
      | none => rfl
      | some n => exact Function.update_of_ne hfile ..
    · rw [hclean _ _ _ hanswer]
      rfl

theorem wrote_mapErr (text : String) (h : Host) (path : DiskPath) (content : ByteArray) :
    Wrote h path content ((mapErr text (write path content)).exec h) := by
  have hwrote := wrote_write h path content
  rw [exec_mapErr]
  rcases hexec : (write path content).exec h with ⟨r, t⟩
  rw [hexec] at hwrote
  rcases r with (e | _) | u
  · show Wrote h path content (.error (.err (text ++ e)), t)
    exact ⟨hwrote.answers, hwrote.environment, hwrote.others, (fun h => nomatch h), fun _ => hwrote.failed nofun⟩
  · exact hwrote
  · exact hwrote

end Host

/-- Where a vault archives a public key, and what it says. -/
def Vault.archiveFile (v : Vault) (publicKey : Block 32) : DiskPath :=
  v.archivePath.join (Hex.encode publicKey.toList ++ ".archived")

def archiveContent (publicKey : Block 32) : ByteArray := (Hex.encode publicKey.toList).toUTF8

theorem Vault.wrote_archiveIdentity (v : Vault) (id : Identity P) (h : Host) :
    h.Wrote (v.archiveFile id.publicKeyBytes) (archiveContent id.publicKeyBytes) ((v.archiveIdentity id).exec h) :=
  Host.wrote_mapErr ..

/-- Each public key has a file of its own. -/
theorem Vault.archiveFile_inj (v : Vault) {a b : Block 32} (h : v.archiveFile a = v.archiveFile b) : a = b := by
  have hname : [(Hex.encode a.toList ++ ".archived").toList] = [(Hex.encode b.toList ++ ".archived").toList] :=
    List.append_cancel_left (congrArg DiskPath.components h)
  have hfile := List.singleton_inj.mp hname
  rw [String.toList_append, String.toList_append] at hfile
  exact List.Vector.toList_injective (Hex.encode_inj (String.toList_inj.mp (List.append_cancel_right hfile)))

/-! ### A key file, and what is beside it -/

namespace Site
variable {path : String}

/-- Who is retired by an event: whom a rotation that succeeds replaces. -/
def retires (s : Site P) : SiteEvent P path → List (Identity P)
  | .new _ _ => []
  | .rotate drawn =>
    match s.manager with
    | none => []
    | some m =>
      match ((IdentityManager.rotate drawn).exec (s.host, m)).1 with
      | .ok _ => [m.identity]
      | .error _ => []

def retired (past : List (Site P × SiteEvent P path)) : List (Identity P) := past.flatMap fun x => x.1.retires x.2

/-- The key file says who the node is, in one of two ways. -/
def Told (path : String) (h : Host) (id : Identity P) : Prop :=
  ∃ seed, FileVault.seedAt h path = .ok seed ∧ (seed = id.identityHash ∨ Identity.fromSeed signingKeyOf seed = id)

/-- The key file is none of those that are archived. -/
def Apart (path : String) : Prop := ∀ publicKey, Vault.archiveFile (.file path) publicKey ≠ .ofString path

/-- What holds of a host where nothing is written by halves. -/
structure Shelved (path : String) (init h : Host) (gone : List (Identity P)) : Prop where
  clean : h.Clean
  archived : ∀ id ∈ gone,
    h.files (Vault.archiveFile (.file path) id.publicKeyBytes) = some (archiveContent id.publicKeyBytes)
  others : ∀ file, file ≠ .ofString path → (∀ publicKey, file ≠ Vault.archiveFile (.file path) publicKey) →
    h.files file = init.files file

section
variable {signingKeyOf} {init h : Host} {gone : List (Identity P)} {r : Except (Stop String) Unit × Host}

/-- Archiving adds a file at most. -/
theorem Shelved.archive (hs : Shelved path init h gone) {id : Identity P}
    (hwrote : h.Wrote (Vault.archiveFile (.file path) id.publicKeyBytes) (archiveContent id.publicKeyBytes) r) :
    Shelved path init r.2 gone ∧ (r.1 = .ok () → Shelved path init r.2 (gone ++ [id])) := by
  have hclean : r.2.Clean := by
    intro n text written hanswer
    rw [hwrote.answers] at hanswer
    exact hs.clean n text written hanswer
  have hothers : ∀ file, file ≠ .ofString path → (∀ publicKey, file ≠ Vault.archiveFile (.file path) publicKey) →
      r.2.files file = init.files file := fun file hkey harchive =>
    (hwrote.others file (harchive _)).trans (hs.others file hkey harchive)
  have hkept : Shelved path init r.2 gone := by
    refine ⟨hclean, fun other hother => ?_, hothers⟩
    by_cases hsame : other.publicKeyBytes = id.publicKeyBytes
    · by_cases hdone : r.1 = .ok ()
      · rw [hsame]
        exact hwrote.done hdone
      · rw [hsame, hwrote.failed hdone hs.clean, ← hsame]
        exact hs.archived other hother
    · rw [hwrote.others _ fun hfile => hsame (Vault.archiveFile_inj _ hfile)]
      exact hs.archived other hother
  refine ⟨hkept, fun hdone => ⟨hclean, fun other hother => ?_, hothers⟩⟩
  rcases List.mem_append.mp hother with hold | hnew
  · exact hkept.archived other hold
  · cases List.mem_singleton.mp hnew
    exact hwrote.done hdone

/-- Saving touches the key file at most. -/
theorem Shelved.save (hs : Shelved path init h gone) (hapart : Apart path) {content : ByteArray}
    (hwrote : h.Wrote (.ofString path) content r) : Shelved path init r.2 gone where
  clean n text written hanswer := by
    rw [hwrote.answers] at hanswer
    exact hs.clean n text written hanswer
  archived id hid := (hwrote.others _ (hapart _)).trans (hs.archived id hid)
  others file hkey harchive := (hwrote.others file hkey).trans (hs.others file hkey harchive)

/-- What the key file says is in the key file alone. -/
theorem Told.congr {t : Host} {id : Identity P} (ht : t.files (.ofString path) = h.files (.ofString path))
    (htold : Told signingKeyOf path h id) : Told signingKeyOf path t id := by
  obtain ⟨seed, hseed, hid⟩ := htold
  refine ⟨seed, ?_, hid⟩
  rw [FileVault.seedAt, Host.textAt, ht]
  exact hseed

theorem told_saved {t : Host} {id : Identity P} (ht : t.files (.ofString path) = some id.hashHex.toUTF8) :
    Told signingKeyOf path t id := by
  refine ⟨id.identityHash, ?_, .inl rfl⟩
  have hsaved := FileVault.seedAt_saved t path id
  rw [FileVault.seedAt, Host.textAt, Host.files_holding, ← ht] at hsaved
  exact hsaved

theorem told_read {seed : Block 32} (hseed : FileVault.readSeed h path = .ok seed) :
    Told signingKeyOf path h.counted (Identity.fromSeed signingKeyOf seed) := by
  refine ⟨seed, ?_, .inr rfl⟩
  rw [FileVault.readSeed, Host.readsTo] at hseed
  cases hanswer : h.answers h.operations with
  | done =>
    rw [hanswer] at hseed
    exact hseed
  | failed text written =>
    rw [hanswer] at hseed
    cases hseed

end

/-- A site in order, from which some have gone. -/
structure Ordered (path : String) (init : Host) (s : Site P) (gone : List (Identity P)) : Prop where
  shelved : Shelved path init s.host gone
  vault : ∀ m, s.manager = some m → m.vault = .file path
  told : ∀ m, s.manager = some m → Told signingKeyOf path s.host m.identity

section
variable {signingKeyOf} {init : Host} {s t : Site P} {gone : List (Identity P)}

theorem Ordered.new (hs : Ordered signingKeyOf path init s gone) (hapart : Apart path) (config : FileConfig path)
    (drawn : P.SigningKey) (hstep : step signingKeyOf s (.new config drawn) = some t) :
    Ordered signingKeyOf path init t gone := by
  have hcounted : Shelved path init s.host.counted gone := ⟨hs.shelved.clean, hs.shelved.archived, hs.shelved.others⟩
  rw [step] at hstep
  cases hseed : FileVault.readSeed s.host path with
  | ok seed =>
    rw [IdentityManager.exec_new_loaded config drawn hseed] at hstep
    cases hstep
    refine ⟨hcounted, fun m hm => ?_, fun m hm => ?_⟩
    · cases hm
      rfl
    · cases hm
      exact told_read hseed
  | error e =>
    have hwrote := Host.wrote_mapErr "Failed to write key file: " s.host.counted (.ofString path)
      (Identity.generate drawn).hashHex.toUTF8
    rw [IdentityManager.exec_new_unloaded config drawn hseed] at hstep
    rcases hexec : (FileVault.saveIdentity path (Identity.generate drawn)).exec s.host.counted with ⟨r, t'⟩
    rw [hexec] at hstep
    rw [← FileVault.saveIdentity, hexec] at hwrote
    have hshelved := hcounted.save hapart hwrote
    cases r with
    | error e =>
      cases hstep
      refine ⟨hshelved, fun m hm => ?_, fun m hm => ?_⟩
      · cases hm
      · cases hm
    | ok u =>
      cases hstep
      refine ⟨hshelved, fun m hm => ?_, fun m hm => ?_⟩
      · cases hm
        rfl
      · cases hm
        exact told_saved (hwrote.done rfl)

theorem Ordered.rotate (hs : Ordered signingKeyOf path init s gone) (hapart : Apart path) (drawn : P.SigningKey)
    (hstep : step signingKeyOf s (.rotate drawn : SiteEvent P path) = some t) :
    Ordered signingKeyOf path init t (gone ++ s.retires (.rotate drawn : SiteEvent P path)) := by
  obtain ⟨m, hm, rfl⟩ := Option.map_eq_some_iff.mp hstep
  have hvault := hs.vault m hm
  have harchived := m.vault.wrote_archiveIdentity m.identity s.host
  rw [retires, hm]
  simp only
  rw [IdentityManager.exec_rotate_eq]
  rcases hexec : (m.vault.archiveIdentity m.identity).exec s.host with ⟨r, h'⟩
  rw [hexec, hvault] at harchived
  obtain ⟨hkept, hadded⟩ := hs.shelved.archive harchived
  have hkey : h'.files (.ofString path) = s.host.files (.ofString path) :=
    harchived.others _ (hapart m.identity.publicKeyBytes).symm
  have htold : Told signingKeyOf path h' m.identity := (hs.told m hm).congr hkey
  cases r with
  | error e =>
    simp only
    rw [List.append_nil]
    refine ⟨hkept, fun m' hm' => ?_, fun m' hm' => ?_⟩
    · cases hm'
      exact hvault
    · cases hm'
      exact htold
  | ok u =>
    have hwrote := Host.wrote_mapErr "Failed to write key file: " h' (.ofString path)
      (Identity.generate drawn).hashHex.toUTF8
    have hsave : (m.vault.saveIdentity (Identity.generate drawn)).exec h' =
        (FileVault.saveIdentity path (Identity.generate drawn)).exec h' := by
      rw [hvault]
      rfl
    simp only
    rw [hsave]
    rw [← FileVault.saveIdentity] at hwrote
    rcases hexec' : (FileVault.saveIdentity path (Identity.generate drawn)).exec h' with ⟨r, h''⟩
    rw [hexec'] at hwrote
    cases r with
    | error e =>
      have hfailed : (.error e : Except (Stop String) Unit) ≠ .ok () := by
        intro h
        cases h
      simp only
      rw [List.append_nil]
      refine ⟨hkept.save hapart hwrote, fun m' hm' => ?_, fun m' hm' => ?_⟩
      · cases hm'
        exact hvault
      · cases hm'
        exact htold.congr (hwrote.failed hfailed hkept.clean)
    | ok u =>
      refine ⟨(hadded rfl).save hapart hwrote, fun m' hm' => ?_, fun m' hm' => ?_⟩
      · cases hm'
        exact hvault
      · cases hm'
        exact told_saved (hwrote.done rfl)

end

/-- **What a node leaves where nothing is written by halves**: in every state of every run, whatever
fails in between, the key file tells who the node is, whoever has been replaced by a
rotation is archived under the own public key, and no other file has been touched. -/
theorem disk_ordered (hapart : Apart path) {h : Host} (hclean : h.Clean) {r : Recorded (Site P) (SiteEvent P path)}
    (hreached : Reached (Recorded.step (step signingKeyOf)) (fun _ _ => True) (Recorded.fresh ⟨h, none⟩) r) :
    (∀ m, r.now.manager = some m → Told signingKeyOf path r.now.host m.identity) ∧
    (∀ id ∈ retired r.past,
      r.now.host.files (Vault.archiveFile (.file path) id.publicKeyBytes) = some (archiveContent id.publicKeyBytes)) ∧
    ∀ file, file ≠ .ofString path → (∀ publicKey, file ≠ Vault.archiveFile (.file path) publicKey) →
      r.now.host.files file = h.files file := by
  have hordered := hreached.invariant (I := fun r => Ordered signingKeyOf path h r.now (retired r.past)) ?_ ?_
  · exact ⟨hordered.told, hordered.shelved.archived, hordered.shelved.others⟩
  · exact ⟨⟨hclean, fun _ hid => absurd hid List.not_mem_nil, fun _ _ _ => rfl⟩, nofun, nofun⟩
  · intro r e r' hr _ hstep
    obtain ⟨t, ht, rfl⟩ := Recorded.step_eq_some.mp hstep
    show Ordered signingKeyOf path h t (retired (r.past ++ [(r.now, e)]))
    have hretired : retired (r.past ++ [(r.now, e)]) = retired r.past ++ r.now.retires e := by
      simp [retired]
    rw [hretired]
    cases e with
    | new config drawn =>
      rw [retires, List.append_nil]
      exact hr.new hapart config drawn ht
    | rotate drawn => exact hr.rotate hapart drawn ht

/-! ### A seed in the environment -/

/-- An event of a node whose configurations name one vault. -/
def Event.On (v : Vault) : Event P → Prop
  | .new config _ => IdentityManager.vaultOf config = .ok v
  | .rotate _ => True

section
variable {varName text : String} {seed : Block 32}

theorem exec_new_env {h : Host} (henv : h.environment varName = .ok text)
    (hseed : EnvVault.seedOf varName text = .ok seed) {config : IdentityConfig}
    (hconfig : IdentityManager.vaultOf config = .ok (.env varName)) (drawn : P.SigningKey) :
    (IdentityManager.new signingKeyOf config drawn).exec h =
      (.ok ⟨.fromSeed signingKeyOf seed, .env varName, config.rotation⟩, h) := by
  have hload : (Vault.loadIdentity signingKeyOf (.env varName)).exec h = (.ok (.fromSeed signingKeyOf seed), h) := by
    simp only [Vault.loadIdentity, EnvVault.loadIdentity, exec_get_bind, henv, hseed]
    rfl
  rw [IdentityManager.exec_new signingKeyOf hconfig, hload]

/-- What holds of a host on which a node has its seed in the environment. -/
structure Rooted (varName : String) (init : Host) (s : Site P) : Prop where
  environment : s.host.environment = init.environment
  vault : ∀ m, s.manager = some m → m.vault = .env varName
  others : ∀ file, (∀ publicKey, file ≠ Vault.archiveFile (.env varName) publicKey) →
    s.host.files file = init.files file

theorem Rooted.next {init : Host} (henv : init.environment varName = .ok text)
    (hseed : EnvVault.seedOf varName text = .ok seed) {s : Site P} (hs : Rooted varName init s) {e : Event P}
    (hon : e.On (.env varName)) : Rooted varName init (s.next signingKeyOf e) := by
  cases e with
  | new config drawn =>
    have hnow : s.host.environment varName = .ok text := by
      rw [hs.environment]
      exact henv
    rw [Site.next, exec_new_env signingKeyOf hnow hseed hon]
    refine ⟨hs.environment, fun m hm => ?_, hs.others⟩
    cases hm
    rfl
  | rotate drawn =>
    obtain ⟨h, manager⟩ := s
    cases manager with
    | none => exact hs
    | some m =>
      have hvault : m.vault = .env varName := hs.vault m rfl
      have harchived := m.vault.wrote_archiveIdentity m.identity h
      have hsame := IdentityManager.exec_rotate_eq h m drawn
      rcases hexec : (m.vault.archiveIdentity m.identity).exec h with ⟨r, t⟩
      rw [hexec] at harchived hsame
      have henvironment : t.environment = init.environment := harchived.environment.trans hs.environment
      have hothers : ∀ file, (∀ publicKey, file ≠ Vault.archiveFile (.env varName) publicKey) →
          t.files file = init.files file := fun file hfile => by
        rw [harchived.others file (by rw [hvault]; exact hfile _)]
        exact hs.others file hfile
      have hsave : (m.vault.saveIdentity (Identity.generate drawn)).exec t = (.ok (), t) := by
        rw [hvault]
        rfl
      simp only [Site.next, hsame]
      cases r with
      | error e =>
        refine ⟨henvironment, fun m' hm' => ?_, hothers⟩
        cases hm'
        exact hvault
      | ok u =>
        simp only [hsave]
        refine ⟨henvironment, fun m' hm' => ?_, hothers⟩
        cases hm'
        exact hvault

theorem rooted_run {init : Host} (henv : init.environment varName = .ok text)
    (hseed : EnvVault.seedOf varName text = .ok seed) {events : List (Event P)}
    (hon : ∀ e ∈ events, e.On (.env varName)) {s : Site P} (hs : Rooted varName init s) :
    Rooted varName init (s.run signingKeyOf events) := by
  induction events generalizing s with
  | nil => exact hs
  | cons e events ih =>
    exact ih (fun e' he' => hon e' (List.mem_cons_of_mem _ he'))
      (hs.next signingKeyOf henv hseed (hon e List.mem_cons_self))

/-- **A node with its seed in the environment is who it was after every restart**, however often
it has been rotated and whatever has failed: what is archived is all that is written. -/
theorem env_restart {h : Host} (henv : h.environment varName = .ok text)
    (hseed : EnvVault.seedOf varName text = .ok seed) {events : List (Event P)}
    (hon : ∀ e ∈ events, e.On (.env varName)) {config : IdentityConfig}
    (hconfig : IdentityManager.vaultOf config = .ok (.env varName)) (drawn : P.SigningKey) :
    ((IdentityManager.new signingKeyOf config drawn).exec ((⟨h, none⟩ : Site P).run signingKeyOf events).host).1 =
        .ok ⟨.fromSeed signingKeyOf seed, .env varName, config.rotation⟩ ∧
      ∀ file, (∀ publicKey, file ≠ Vault.archiveFile (.env varName) publicKey) →
        ((⟨h, none⟩ : Site P).run signingKeyOf events).host.files file = h.files file := by
  have hinit : Rooted varName h (⟨h, none⟩ : Site P) := ⟨rfl, nofun, fun _ _ => rfl⟩
  have hrooted := rooted_run signingKeyOf henv hseed hon hinit
  have hnow : ((⟨h, none⟩ : Site P).run signingKeyOf events).host.environment varName = .ok text := by
    rw [hrooted.environment]
    exact henv
  rw [exec_new_env signingKeyOf hnow hseed hconfig]
  exact ⟨rfl, hrooted.others⟩

end

/-! ### Two nodes -/

theorem apart_node : Apart "node.key" := by
  intro publicKey h
  have hname : [(Hex.encode publicKey.toList ++ ".archived").toList] = [['n', 'o', 'd', 'e', '.', 'k', 'e', 'y']] :=
    congrArg DiskPath.components h
  have hfile := congrArg List.getLast? (List.singleton_inj.mp hname)
  have hlast : ".archived".toList.getLast? = some 'd' := by decide
  rw [String.toList_append, List.getLast?_append, hlast, Option.some_or] at hfile
  exact absurd hfile (by decide)

theorem step_new {s : Site P} {config : FileConfig path} {drawn : P.SigningKey} {m : IdentityManager P} {h : Host}
    (hnew : (IdentityManager.new signingKeyOf config.config drawn).exec s.host = (.ok m, h)) :
    step signingKeyOf s (.new config drawn) = some ⟨h, some m⟩ := by
  rw [step, hnew]

theorem step_rotate (path : String) {s : Site P} {m : IdentityManager P} (hm : s.manager = some m)
    (drawn : P.SigningKey) : step signingKeyOf s (.rotate drawn : SiteEvent P path) =
      some ⟨((IdentityManager.rotate drawn).exec (s.host, m)).2.1,
        some ((IdentityManager.rotate drawn).exec (s.host, m)).2.2⟩ := by
  rw [step, hm]
  rfl

def someKey : Transparent.symbolic.SigningKey := (5 : UInt8)

/-- A node that has been started for the first time. -/
def startedSite : Site Transparent.symbolic where
  host := blankHost.counted.holding (.ofString "node.key") (Identity.generate someKey).hashHex.toUTF8
  manager := some ⟨.generate someKey, .file "node.key", none⟩

theorem disk_ordered_rotated : ∃ r : Recorded (Site Transparent.symbolic) (SiteEvent Transparent.symbolic "node.key"),
    r.past.length = 2 ∧
    (∀ m, r.now.manager = some m → Told followingKey "node.key" r.now.host m.identity) ∧
    (∀ id ∈ retired r.past, r.now.host.files (Vault.archiveFile (.file "node.key") id.publicKeyBytes) =
      some (archiveContent id.publicKeyBytes)) ∧
    ∀ file, file ≠ .ofString "node.key" → (∀ publicKey, file ≠ Vault.archiveFile (.file "node.key") publicKey) →
      r.now.host.files file = none := by
  have hclean : blankHost.Clean := fun _ _ _ h => nomatch h
  have hnew : step followingKey ⟨blankHost, none⟩ (.new (.plain "node.key") someKey) = some startedSite :=
    step_new followingKey (IdentityManager.exec_new_drawn (fun _ => rfl) (.plain "node.key") someKey rfl)
  have hfirst : Reached (Recorded.step (step followingKey)) (fun _ _ => True) (Recorded.fresh ⟨blankHost, none⟩)
      ⟨startedSite, [(⟨blankHost, none⟩, .new (.plain "node.key") someKey)]⟩ :=
    .next _ .start trivial (Recorded.step_eq_some.mpr ⟨_, hnew, rfl⟩)
  have hrotate := step_rotate followingKey "node.key" (rfl : startedSite.manager = some _) someKey
  have hreached := hfirst.next (.rotate someKey) trivial (Recorded.step_eq_some.mpr ⟨_, hrotate, rfl⟩)
  exact ⟨_, rfl, disk_ordered (P := Transparent.symbolic) followingKey apart_node hclean hreached⟩

theorem seedOf_encode (varName : String) (seed : Block 32) :
    EnvVault.seedOf varName (Hex.encode seed.toList) = .ok seed := by
  have hlength : seed.toList.length = 32 := seed.toList_length
  have hnonempty : Hex.encode seed.toList ≠ "" := by
    intro hempty
    have hsize := Hex.encode_length seed.toList
    rw [hempty, hlength] at hsize
    cases hsize
  rw [EnvVault.seedOf, if_neg hnonempty, Hex.decode_encode]
  simp only [hlength, copyInto_toList, ne_eq, not_true_eq_false, if_false]

/-- A seed in the environment, and nothing else. -/
def rootedHost : Host := { blankHost with environment := fun _ => .ok (Hex.encode zeroSeed.toList) }

/-- A node whose key is in the environment is started and rotated. -/
def rootedConfig : IdentityConfig := ⟨"env", none, some "KEY", none⟩

def rootedEvents : List (Event Transparent.symbolic) := [.new rootedConfig someKey, .rotate someKey]

theorem env_restart_rotated :
    ((IdentityManager.new followingKey rootedConfig someKey).exec
        ((⟨rootedHost, none⟩ : Site Transparent.symbolic).run followingKey rootedEvents).host).1 =
        .ok ⟨.fromSeed followingKey zeroSeed, .env "KEY", none⟩ ∧
      ∀ file, (∀ publicKey, file ≠ Vault.archiveFile (.env "KEY") publicKey) →
        ((⟨rootedHost, none⟩ : Site Transparent.symbolic).run followingKey rootedEvents).host.files file = none := by
  have hconfig : IdentityManager.vaultOf rootedConfig = .ok (.env "KEY") := by decide
  have henv : rootedHost.environment "KEY" = .ok (Hex.encode zeroSeed.toList) := rfl
  have hon : ∀ e ∈ rootedEvents, e.On (.env "KEY") := by
    intro e he
    rcases List.mem_cons.mp he with rfl | he
    · exact hconfig
    · cases List.mem_singleton.mp he
      trivial
  exact env_restart (P := Transparent.symbolic) followingKey henv (seedOf_encode "KEY" zeroSeed) hon hconfig someKey

end Site

end

end Aether
