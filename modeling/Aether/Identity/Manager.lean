import Aether.Crypto.Transparent
import Aether.Identity.Vault
import Aether.Library.Runs

/-! The identity manager (`identity/mod.rs`): the identity a node runs under.

A node that starts takes the identity its vault has, or a new one where it has none,
and saves that; rotation replaces the identity and saves the new one. A key file that
was written by this program holds the hash of an identity, and a key file that is read
is a seed, so a node keeps its identity over a restart as long as nothing was written
since the key file was read (`restart_iff`). -/
namespace Aether
open Octets Octets.Method

structure RotationPolicy where
  autoRotate : Bool

structure IdentityConfig where
  vaultType : String
  keyPath : Option String
  envVar : Option String
  rotation : Option RotationPolicy

section
variable {P : Primitives} (signingKeyOf : Block 32 → P.SigningKey)

variable (P) in
structure IdentityManager where
  identity : Identity P
  vault : Vault
  rotation : Option RotationPolicy

namespace IdentityManager

/-- The backend that a configuration names. -/
def vaultOf (config : IdentityConfig) : Except String Vault :=
  if config.vaultType = "file" then
    match config.keyPath with
    | some path => .ok (.file path)
    | none => .error "key_path required for file vault"
  else if config.vaultType = "env" then
    match config.envVar with
    | some var => .ok (.env var)
    | none => .error "env_var required for env vault"
  else .error s!"Unknown vault type: {config.vaultType}"

/-- `new`, with the key that is drawn where the vault has none. -/
def new (config : IdentityConfig) (drawn : P.SigningKey) : VaultAction (IdentityManager P) := do
  match vaultOf config with
  | .error e => throw (.err e)
  | .ok vault => do
    let identity ← tryCatch (vault.loadIdentity signingKeyOf) fun
      | .err _ => do
        let id := Identity.generate drawn
        vault.saveIdentity id
        return id
      | .panic => throw .panic
    return { identity, vault, rotation := config.rotation }

/-- `rotate`, with the key that is drawn. The manager is written last. -/
def rotate (drawn : P.SigningKey) : Method String (Host × IdentityManager P) String := do
  let newId := Identity.generate drawn
  let newHash := newId.hashHex
  let (_, m) ← get
  focus Prod.fst (fun h s => (h, s.2)) (m.vault.archiveIdentity m.identity)
  focus Prod.fst (fun h s => (h, s.2)) (m.vault.saveIdentity newId)
  modify fun s => (s.1, { s.2 with identity := newId })
  return newHash

def identityHash (m : IdentityManager P) : String := m.identity.hashHex

def publicKeyBytes (m : IdentityManager P) : Block 32 := m.identity.publicKeyBytes

def sign (m : IdentityManager P) (message : Bytes) : Bytes := (m.identity.sign message).toList

def needsRotation (m : IdentityManager P) : Bool :=
  match m.rotation with
  | some policy => policy.autoRotate
  | none => false

end IdentityManager

/-! ### A node that is started again and again -/

/-- Configurations of a file vault. -/
structure FileConfig (path : String) where
  config : IdentityConfig
  vaultType : config.vaultType = "file"
  keyPath : config.keyPath = some path

/-- No more than it takes. -/
def FileConfig.plain (path : String) : FileConfig path := ⟨⟨"file", some path, none, none⟩, rfl, rfl⟩

theorem FileConfig.vaultOf {path : String} (c : FileConfig path) : IdentityManager.vaultOf c.config = .ok (.file path) := by
  rw [IdentityManager.vaultOf, if_pos c.vaultType, c.keyPath]

variable (P) in
/-- A host, and the manager of the node that runs on it. -/
structure Site where
  host : Host
  manager : Option (IdentityManager P)

variable (P) in
/-- What a program does with the manager on a key file. -/
inductive SiteEvent (path : String) where
  | new (config : FileConfig path) (drawn : P.SigningKey)
  | rotate (drawn : P.SigningKey)

namespace Site
variable {path : String}

/-- Rotation takes a manager; a manager that is not to be had is none. -/
def step (s : Site P) : SiteEvent P path → Option (Site P)
  | .new config drawn =>
    match (IdentityManager.new signingKeyOf config.config drawn).exec s.host with
    | (.ok m, h) => some ⟨h, some m⟩
    | (.error _, h) => some ⟨h, none⟩
  | .rotate drawn =>
    s.manager.map fun m =>
      let (h, m) := ((IdentityManager.rotate drawn).exec (s.host, m)).2
      ⟨h, some m⟩

end Site

namespace IdentityManager
variable {signingKeyOf} {path : String} {h : Host}

/-- An identity that is loaded is the one the manager has, and nothing is written. -/
theorem exec_new_loaded (c : FileConfig path) (drawn : P.SigningKey) {seed : Block 32}
    (hseed : FileVault.readSeed h path = .ok seed) :
    (new signingKeyOf c.config drawn).exec h =
      (.ok ⟨.fromSeed signingKeyOf seed, .file path, c.config.rotation⟩, h.counted) := by
  have hload : (Vault.loadIdentity signingKeyOf (.file path)).exec h =
      (.ok (.fromSeed signingKeyOf seed), h.counted) := by
    rw [Vault.loadIdentity, FileVault.exec_loadIdentity_any, hseed]
  rw [new, c.vaultOf]
  simp only
  rw [exec_bind, exec_tryCatch, hload]
  rfl

/-- One that is not loaded is drawn, and what comes of the write decides. -/
theorem exec_new_unloaded (c : FileConfig path) (drawn : P.SigningKey) {e : String}
    (hseed : FileVault.readSeed h path = .error e) :
    (new signingKeyOf c.config drawn).exec h =
      (((FileVault.saveIdentity path (Identity.generate drawn)).exec h.counted).1.map fun _ =>
          ⟨.generate drawn, .file path, c.config.rotation⟩,
        ((FileVault.saveIdentity path (Identity.generate drawn)).exec h.counted).2) := by
  have hload : (Vault.loadIdentity signingKeyOf (.file path)).exec h = (.error (.err e), h.counted) := by
    rw [Vault.loadIdentity, FileVault.exec_loadIdentity_any, hseed]
  rw [new, c.vaultOf]
  simp only
  rw [exec_bind, exec_tryCatch, hload]
  simp only
  rw [exec_bind, Vault.saveIdentity]
  rcases (FileVault.saveIdentity path (Identity.generate drawn)).exec h.counted with ⟨r, t⟩
  cases r <;> rfl

/-- A key file that says a seed is believed. -/
theorem exec_new_seed (hworking : h.Working) (c : FileConfig path) (drawn : P.SigningKey) {seed : Block 32}
    (hseed : FileVault.seedAt h path = .ok seed) :
    (new signingKeyOf c.config drawn).exec h =
      (.ok ⟨.fromSeed signingKeyOf seed, .file path, c.config.rotation⟩, h.counted) :=
  exec_new_loaded c drawn ((FileVault.readSeed_working hworking path).trans hseed)

/-- Whatever else it says, it is written anew. -/
theorem exec_new_drawn (hworking : h.Working) (c : FileConfig path) (drawn : P.SigningKey) {e : String}
    (hseed : FileVault.seedAt h path = .error e) :
    (new signingKeyOf c.config drawn).exec h =
      (.ok ⟨.generate drawn, .file path, c.config.rotation⟩,
        h.counted.holding (.ofString path) (Identity.generate drawn).hashHex.toUTF8) := by
  have hcounted : h.counted.Working := hworking
  rw [exec_new_unloaded c drawn ((FileVault.readSeed_working hworking path).trans hseed),
    FileVault.exec_saveIdentity hcounted]
  rfl

theorem exec_rotate (hworking : h.Working) {m : IdentityManager P} (hvault : m.vault = .file path)
    (drawn : P.SigningKey) :
    ∃ h' : Host, h'.Working ∧ (rotate drawn).exec (h, m) =
      (.ok (Identity.generate drawn).hashHex,
        (h'.holding (.ofString path) (Identity.generate drawn).hashHex.toUTF8,
          { m with identity := .generate drawn })) := by
  have harchive : ∃ archive content, (m.vault.archiveIdentity m.identity).exec h = (.ok (), h.holding archive content) :=
    ⟨_, _, by rw [Vault.archiveIdentity, exec_mapErr, Host.exec_write hworking]⟩
  obtain ⟨archive, content, harchive⟩ := harchive
  have hafter : (h.holding archive content).Working := hworking
  have hsave : (m.vault.saveIdentity (.generate drawn)).exec (h.holding archive content) =
      (.ok (), (h.holding archive content).holding (.ofString path) (Identity.generate drawn).hashHex.toUTF8) := by
    rw [hvault, Vault.saveIdentity, FileVault.exec_saveIdentity hafter]
  refine ⟨_, hafter, ?_⟩
  rw [rotate, exec_get_bind, exec_bind, exec_focus, harchive]
  simp only
  rw [exec_bind, exec_focus, hsave]
  rfl

end IdentityManager

/-! ### Over a restart -/

namespace Site
variable {signingKeyOf} {path : String}

variable (signingKeyOf) in
/-- A node that is started again is who it was. -/
def SameOnRestart (path : String) (s : Site P) : Prop :=
  ∀ m, s.manager = some m → ∀ (config : FileConfig path) (drawn : P.SigningKey), ∃ m' h,
    (IdentityManager.new signingKeyOf config.config drawn).exec s.host = (.ok m', h) ∧ m'.identity = m.identity

variable (signingKeyOf) in
/-- A key whose identity's hash is its seed. -/
def SeededByHash (key : P.SigningKey) : Prop :=
  signingKeyOf (computeIdentityHash (P := P) (P.verifyingKey key)) = key

variable (signingKeyOf) in
/-- The manager is started on a key file that says a seed, or the key that is drawn is
one whose identity's hash is its seed. -/
def Rereadable (s : Site P) : SiteEvent P path → Prop
  | .new _ drawn => (∃ seed, FileVault.seedAt s.host path = .ok seed) ∨ SeededByHash signingKeyOf drawn
  | .rotate drawn => s.manager.isSome → SeededByHash signingKeyOf drawn

/-- A site of a working host, whose manager has the key file. -/
structure On (path : String) (s : Site P) : Prop where
  working : s.host.Working
  vault : ∀ m, s.manager = some m → m.vault = .file path

/-- What a restart finds. -/
theorem sameOnRestart_iff {s : Site P} (hs : s.host.Working) {m : IdentityManager P} (hm : s.manager = some m)
    {seed : Block 32} (hseed : FileVault.seedAt s.host path = .ok seed) :
    SameOnRestart signingKeyOf path s ↔ Identity.fromSeed signingKeyOf seed = m.identity := by
  constructor
  · intro h
    obtain ⟨m', h', hnew, hsame⟩ := h m hm (.plain path) m.identity.signingKey
    rw [IdentityManager.exec_new_seed hs _ _ hseed] at hnew
    rw [← hsame, ← Except.ok.inj (congrArg Prod.fst hnew)]
  · intro h m₁ hm₁ config drawn
    cases hm.symm.trans hm₁
    exact ⟨_, _, IdentityManager.exec_new_seed hs config drawn hseed, h⟩

variable (signingKeyOf) in
/-- What was drawn and saved is read as another identity's seed. -/
theorem fromSeed_hash (key : P.SigningKey) :
    Identity.fromSeed signingKeyOf (Identity.generate key).identityHash = Identity.generate key ↔
      SeededByHash signingKeyOf key :=
  ⟨fun h => congrArg Identity.signingKey h, fun h => Identity.ext_signingKey h⟩

/-- What an event leaves of a working site: a manager, and a seed that it has or one
that was drawn and saved. -/
theorem step_spec {s t : Site P} (hs : On path s) {e : SiteEvent P path} (h : step signingKeyOf s e = some t) :
    On path t ∧ ∃ m seed, t.manager = some m ∧ FileVault.seedAt t.host path = .ok seed ∧
      (Identity.fromSeed signingKeyOf seed = m.identity ↔ Rereadable signingKeyOf s e) := by
  cases e with
  | new config drawn =>
    cases hseed : FileVault.seedAt s.host path with
    | ok seed =>
      rw [step, IdentityManager.exec_new_seed hs.working config drawn hseed] at h
      cases h
      refine ⟨⟨hs.working, fun m hm => ?_⟩, _, seed, rfl, hseed, ?_⟩
      · cases hm
        rfl
      · exact iff_of_true rfl (.inl ⟨seed, hseed⟩)
    | error error =>
      rw [step, IdentityManager.exec_new_drawn hs.working config drawn hseed] at h
      cases h
      refine ⟨⟨hs.working, fun m hm => ?_⟩, _, _, rfl, FileVault.seedAt_saved _ _ _, ?_⟩
      · cases hm
        rfl
      · have hunreadable : ¬ ∃ seed, FileVault.seedAt s.host path = .ok seed := by
          rintro ⟨seed, hok⟩
          cases hseed.symm.trans hok
        rw [fromSeed_hash]
        exact ⟨.inr, fun h => h.resolve_left hunreadable⟩
  | rotate drawn =>
    obtain ⟨m, hm, rfl⟩ := Option.map_eq_some_iff.mp h
    obtain ⟨h', hworking, hrotate⟩ := IdentityManager.exec_rotate hs.working (hs.vault m hm) drawn
    rw [hrotate]
    refine ⟨⟨hworking, fun m' hm' => ?_⟩, _, _, rfl, FileVault.seedAt_saved _ _ _, ?_⟩
    · cases hm'
      exact hs.vault m hm
    · rw [fromSeed_hash, Rereadable, hm]
      exact ⟨fun h _ => h, fun h => h rfl⟩

theorem on_start {h : Host} (hworking : h.Working) : On (P := P) path ⟨h, none⟩ where
  working := hworking
  vault m hm := by cases hm

/-- Without a manager there is nothing to rotate. -/
theorem rereadable_of_step_none {s : Site P} {e : SiteEvent P path} (h : step signingKeyOf s e = none) :
    Rereadable signingKeyOf s e := by
  cases e with
  | new config drawn =>
    rw [step] at h
    split at h
    · cases h
    · cases h
  | rotate drawn =>
    intro hsome
    rw [Option.map_eq_none_iff.mp h] at hsome
    cases hsome

theorem sameOnRestart_step {s : Site P} (hs : On path s) {e : SiteEvent P path} :
    (∀ t, step signingKeyOf s e = some t → SameOnRestart signingKeyOf path t) ↔ Rereadable signingKeyOf s e := by
  cases hstep : step signingKeyOf s e with
  | none =>
    refine iff_of_true (fun t ht => ?_) (rereadable_of_step_none hstep)
    cases ht
  | some t =>
    obtain ⟨hon, m, seed, hm, hseed, hsame⟩ := step_spec hs hstep
    rw [← hsame, ← sameOnRestart_iff hon.working hm hseed]
    exact ⟨fun h => h t rfl, fun h t' ht' => Option.some.inj ht' ▸ h⟩

/-- **When a node keeps its identity over a restart**: what is saved is read back as
another identity, so in every run it does exactly where nothing has been saved since the
key file was last read. -/
theorem restart_iff {h : Host} (hworking : h.Working) :
    (∀ id : Identity P,
      ((do FileVault.saveIdentity path id; FileVault.loadIdentity signingKeyOf path).exec h).1 = .ok id ↔
        SeededByHash signingKeyOf id.signingKey) ∧
    ∀ events : List (SiteEvent P path),
      Throughout (step signingKeyOf) (fun s e => ∀ t, step signingKeyOf s e = some t → SameOnRestart signingKeyOf path t)
          ⟨h, none⟩ events ↔
        Throughout (step signingKeyOf) (Rereadable signingKeyOf) ⟨h, none⟩ events := by
  constructor
  · intro id
    rw [exec_bind, FileVault.exec_saveIdentity hworking]
    have hsaved : (h.holding (.ofString path) id.hashHex.toUTF8).Working := hworking
    simp only
    rw [FileVault.exec_loadIdentity signingKeyOf hsaved, FileVault.seedAt_saved]
    have hid : Identity.generate id.signingKey = id := Identity.ext_signingKey rfl
    have hseeded := fromSeed_hash signingKeyOf id.signingKey
    rw [hid] at hseeded
    exact Iff.trans ⟨Except.ok.inj, congrArg _⟩ hseeded
  · exact throughout_iff (I := On path) (fun s e hs => sameOnRestart_step hs)
      (fun s e t hs _ ht => (step_spec hs ht).1) (on_start hworking)

/-- A host with nothing on it. -/
def blankHost : Host where
  files _ := none
  answers _ := .done
  operations := 0
  environment _ := .error "environment variable not found"

/-- A derivation that does not give a key back for the hash of its identity. -/
def followingKey (seed : Block 32) : UInt8 := seed.toList.headD 0 + 1

theorem restart_iff_blank :
    (∀ id : Identity Transparent.symbolic,
      ((do FileVault.saveIdentity "node.key" id; FileVault.loadIdentity followingKey "node.key").exec blankHost).1 =
          .ok id ↔
        SeededByHash (P := Transparent.symbolic) followingKey id.signingKey) ∧
    ∀ events : List (SiteEvent Transparent.symbolic "node.key"),
      Throughout (step followingKey)
          (fun s e => ∀ t, step followingKey s e = some t → SameOnRestart followingKey "node.key" t)
          ⟨blankHost, none⟩ events ↔
        Throughout (step followingKey) (Rereadable followingKey) ⟨blankHost, none⟩ events :=
  restart_iff fun _ => rfl

/-- A node that is started for the first time is another one the second time. -/
theorem restart_stranger :
    ¬ ∀ events : List (SiteEvent Transparent.symbolic "node.key"),
      Throughout (step followingKey)
        (fun s e => ∀ t, step followingKey s e = some t → SameOnRestart followingKey "node.key" t)
        ⟨blankHost, none⟩ events := by
  intro h
  have hfirst := (h [.new (.plain "node.key") (5 : UInt8)]).1
  have hreadable := (sameOnRestart_step (on_start fun _ => rfl)).mp hfirst
  rcases hreadable with ⟨seed, hseed⟩ | hseeded
  · cases hseed
  · exact absurd hseeded (by decide : followingKey (computeIdentityHash (P := Transparent.symbolic)
      (Transparent.publicKey 5)) ≠ 5)

end Site
end

end Aether
