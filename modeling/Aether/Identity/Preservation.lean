import Aether.Identity.Manager

/-! Whether starting a node keeps the key that is there.

A manager that cannot load an identity, for whatever reason, draws a new one and writes
it to the key file. What was in the file is kept if it was loaded, and otherwise only if
the write fails as well and does no harm (`new_preserves_iff`). Nothing is asked of the
host: reads and writes fail as they may. -/
namespace Aether
open Octets Octets.Method

namespace IdentityManager
variable {P : Primitives} {signingKeyOf : Block 32 → P.SigningKey} {path : String}

/-! ### What becomes of the key file -/

/-- There is a key file, and something is in it. -/
def KeyPresent (h : Host) (path : String) : Prop :=
  ∃ content, h.files (.ofString path) = some content ∧ content.size ≠ 0

variable (signingKeyOf) in
/-- A manager that starts, or fails to, leaves what is in the key file; and it fails where
that is not read or is no key. -/
structure Preserves (c : FileConfig path) (drawn : P.SigningKey) (h : Host) : Prop where
  unchanged : KeyPresent h path →
    ((new signingKeyOf c.config drawn).exec h).2.files (.ofString path) = h.files (.ofString path)
  refused : KeyPresent h path → ∀ e, FileVault.readSeed h path = .error e →
    ∃ e', ((new signingKeyOf c.config drawn).exec h).1 = .error (.err e')

/-- The second operation of the host, a write, fails before it has touched the key file, or
has written no more than what was there. -/
def SaveFails (path : String) (drawn : P.SigningKey) (h : Host) : Prop :=
  ∃ text written, h.answers (h.operations + 1) = .failed text written ∧
    ∀ n, written = some n → h.files (.ofString path) = some ((Identity.generate drawn).hashHex.toUTF8.extract 0 n)

theorem exec_new_failed {h : Host} (c : FileConfig path) (drawn : P.SigningKey) {e text : String} {written : Option Nat}
    (hseed : FileVault.readSeed h path = .error e) (hfailed : h.answers (h.operations + 1) = .failed text written) :
    (new signingKeyOf c.config drawn).exec h =
      (.error (.err ("Failed to write key file: " ++ text)),
        h.counted.interrupted (.ofString path) (Identity.generate drawn).hashHex.toUTF8 written) := by
  have hwrite : h.counted.answers h.counted.operations = .failed text written := hfailed
  rw [exec_new_unloaded c drawn hseed, FileVault.saveIdentity, exec_mapErr, Host.exec_write_failed hwrite]
  rfl

theorem exec_new_replaced {h : Host} (c : FileConfig path) (drawn : P.SigningKey) {e : String}
    (hseed : FileVault.readSeed h path = .error e) (hdone : h.answers (h.operations + 1) = .done) :
    (new signingKeyOf c.config drawn).exec h =
      (.ok ⟨.generate drawn, .file path, c.config.rotation⟩,
        h.counted.holding (.ofString path) (Identity.generate drawn).hashHex.toUTF8) := by
  have hwrite : h.counted.answers h.counted.operations = .done := hdone
  rw [exec_new_unloaded c drawn hseed, FileVault.saveIdentity, exec_mapErr, Host.exec_write_done hwrite]
  rfl

/-- A write that fails keeps the key file where it stops at what was there. -/
theorem files_interrupted (h : Host) (file : DiskPath) (content : ByteArray) (written : Option Nat) :
    (h.counted.interrupted file content written).files file = h.files file ↔
      ∀ n, written = some n → h.files file = some (content.extract 0 n) := by
  cases written with
  | none => exact iff_of_true rfl nofun
  | some n =>
    have hfile : (h.counted.interrupted file content (some n)).files file = some (content.extract 0 n) :=
      Host.files_holding _ _ _
    rw [hfile]
    constructor
    · intro hsame k hk
      cases hk
      exact hsame.symm
    · exact fun hsame => (hsame n rfl).symm

theorem preserves_loaded {h : Host} (c : FileConfig path) (drawn : P.SigningKey) {seed : Block 32}
    (hseed : FileVault.readSeed h path = .ok seed) : Preserves signingKeyOf c drawn h where
  unchanged := by
    intro _
    rw [exec_new_loaded c drawn hseed]
    rfl
  refused := by
    intro _ e he
    cases hseed.symm.trans he

theorem not_preserves_replaced {h : Host} (c : FileConfig path) (drawn : P.SigningKey) {e : String}
    (hpresent : KeyPresent h path) (hseed : FileVault.readSeed h path = .error e)
    (hdone : h.answers (h.operations + 1) = .done) : ¬ Preserves signingKeyOf c drawn h := by
  intro hpreserves
  obtain ⟨e', he'⟩ := hpreserves.refused hpresent e hseed
  rw [exec_new_replaced c drawn hseed hdone] at he'
  cases he'

theorem preserves_failed {h : Host} (c : FileConfig path) (drawn : P.SigningKey) {e text : String} {written : Option Nat}
    (hpresent : KeyPresent h path) (hseed : FileVault.readSeed h path = .error e)
    (hfailed : h.answers (h.operations + 1) = .failed text written) :
    Preserves signingKeyOf c drawn h ↔
      ∀ n, written = some n → h.files (.ofString path) = some ((Identity.generate drawn).hashHex.toUTF8.extract 0 n) := by
  have hexec : (new signingKeyOf c.config drawn).exec h = _ := exec_new_failed c drawn hseed hfailed
  rw [← files_interrupted]
  constructor
  · intro hpreserves
    have hsame := hpreserves.unchanged hpresent
    rwa [hexec] at hsame
  · intro hsame
    refine ⟨fun _ => ?_, fun _ _ _ => ?_⟩
    · rw [hexec]
      exact hsame
    · rw [hexec]
      exact ⟨_, rfl⟩

/-- **Starting keeps the key file where there is none or nothing in it, where it is read and
is a key, or where saving fails before it does harm**, and only there. -/
theorem new_preserves_iff (c : FileConfig path) (drawn : P.SigningKey) (h : Host) :
    Preserves signingKeyOf c drawn h ↔
      ¬ KeyPresent h path ∨ (∃ seed, FileVault.readSeed h path = .ok seed) ∨ SaveFails path drawn h := by
  by_cases hpresent : KeyPresent h path
  · rw [or_iff_right (not_not_intro hpresent)]
    cases hseed : FileVault.readSeed h path with
    | ok seed => exact iff_of_true (preserves_loaded c drawn hseed) (.inl ⟨seed, rfl⟩)
    | error e =>
      rw [or_iff_right nofun]
      cases hwrite : h.answers (h.operations + 1) with
      | done =>
        refine iff_of_false (not_preserves_replaced c drawn hpresent hseed hwrite) fun hfails => ?_
        obtain ⟨text, written, hfailed, _⟩ := hfails
        cases hwrite.symm.trans hfailed
      | failed text written =>
        rw [preserves_failed c drawn hpresent hseed hwrite]
        constructor
        · exact fun hsame => ⟨text, written, hwrite, hsame⟩
        · intro hfails
          obtain ⟨text', written', hfailed, hsame⟩ := hfails
          cases hwrite.symm.trans hfailed
          exact hsame
  · exact iff_of_true ⟨fun h => absurd h hpresent, fun h => absurd h hpresent⟩ (.inl hpresent)

/-- A host whose key file has lost most of its key. -/
def truncatedHost : Host := Site.blankHost.holding (.ofString "node.key") "deadbeef".toUTF8

/-- A key file that is too short is overwritten with a new identity. -/
theorem new_destroys :
    ¬ Preserves (P := Transparent.symbolic) Site.followingKey (.plain "node.key") (5 : UInt8) truncatedHost := by
  intro h
  have hpresent : KeyPresent truncatedHost "node.key" := ⟨_, Host.files_holding _ _ _, by decide⟩
  have hworking : truncatedHost.Working := fun _ => rfl
  have hshort : (trim "deadbeef").utf8ByteSize ≠ 64 := by decide +kernel
  have hseed : FileVault.readSeed truncatedHost "node.key" =
      .error "Invalid key length in node.key: expected 64 hex chars" := by
    rw [FileVault.readSeed_working hworking, FileVault.seedAt, truncatedHost, Host.textAt_holding]
    simp only [FileVault.seedOf, if_pos hshort]
    rfl
  obtain ⟨e, he⟩ := h.refused hpresent _ hseed
  have hreplaced : ((new (P := Transparent.symbolic) Site.followingKey (FileConfig.plain "node.key").config
      (5 : UInt8)).exec truncatedHost).1 = .ok _ :=
    congrArg Prod.fst (exec_new_replaced (.plain "node.key") _ hseed (hworking _))
  cases hreplaced.symm.trans he

end IdentityManager

end Aether
