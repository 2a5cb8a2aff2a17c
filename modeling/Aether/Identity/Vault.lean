import Aether.Identity
import Aether.Library.Hex

/-! Key vaults (`identity/vault.rs`): where a node keeps its key.

A host has files and environment variables. Each operation on a file is done or
fails, which is the environment's doing (`Host.answers`), and a write that fails may
have left some of its octets. How a seed becomes a signing key is a parameter, as the
other primitives are. -/
namespace Aether
open Octets Octets.Method

/-! ### Hosts -/

/-- A path as the file system goes along it: empty components and `.` lead nowhere. -/
structure DiskPath where
  absolute : Bool
  components : List (List Char)
  deriving DecidableEq

namespace DiskPath

/-- `PathBuf::from` -/
def ofString (s : String) : DiskPath where
  absolute := s.toList.head? = some '/'
  components := (s.toList.splitOn '/').filter fun component => component ≠ [] ∧ component ≠ ['.']

/-- The path without its last component, if it has one. -/
def pop (p : DiskPath) : DiskPath := { p with components := p.components.dropLast }

/-- The path of a file in a directory. -/
def join (p : DiskPath) (file : String) : DiskPath := { p with components := p.components ++ [file.toList] }

end DiskPath

/-- What comes of an operation on a file. -/
inductive Answer where
  | done
  /-- With the octets that have been written, where a write got so far as to truncate the file. -/
  | failed (text : String) (written : Option Nat)
  deriving DecidableEq

structure Host where
  files : DiskPath → Option ByteArray
  /-- What comes of the `n`th operation. -/
  answers : Nat → Answer
  operations : Nat
  /-- Environment variables, or why they cannot be read. -/
  environment : String → Except String String

abbrev VaultAction (α : Type) := Method String Host α

namespace Host

/-- What there is to read of a file. -/
def textAt (h : Host) (path : DiskPath) : Except String String :=
  match h.files path with
  | none => .error "No such file or directory (os error 2)"
  | some content =>
    match String.fromUTF8? content with
    | some text => .ok text
    | none => .error "stream did not contain valid UTF-8"

/-- A host that has gone on. -/
def counted (h : Host) : Host := { h with operations := h.operations + 1 }

/-- `fs::read_to_string` -/
def readToString (path : DiskPath) : VaultAction String := do
  let h ← get
  set h.counted
  match h.answers h.operations with
  | .failed text _ => throw (.err text)
  | .done =>
    match h.textAt path with
    | .ok text => return text
    | .error e => throw (.err e)

/-- A host whose file has been written. -/
def holding (h : Host) (path : DiskPath) (content : ByteArray) : Host :=
  { h.counted with files := Function.update h.files path (some content) }

theorem files_holding (h : Host) (path : DiskPath) (content : ByteArray) :
    (h.holding path content).files path = some content :=
  Function.update_self ..

/-- `fs::write` -/
def write (path : DiskPath) (content : ByteArray) : VaultAction Unit := do
  let h ← get
  match h.answers h.operations with
  | .done => set (h.holding path content)
  | .failed text none => do
    set h.counted
    throw (.err text)
  | .failed text (some n) => do
    set (h.holding path (content.extract 0 n))
    throw (.err text)

end Host

/-- `map_err` with a text before the error's own. -/
def mapErr {σ α : Type} (text : String) (m : Method String σ α) : Method String σ α :=
  tryCatch m fun
    | .err e => throw (.err (text ++ e))
    | .panic => throw .panic

/-! ### Vaults -/

section
variable {P : Primitives} (signingKeyOf : Block 32 → P.SigningKey)

/-- The array with octets copied to its front. -/
def copyInto {n : Nat} (bs : Bytes) (b : Block n) : Block n :=
  ⟨bs.take n ++ b.toList.drop bs.length, by
    rw [List.length_append, List.length_take, List.length_drop, List.Vector.toList_length]
    omega⟩

theorem copyInto_toList {n : Nat} (a b : Block n) : copyInto a.toList b = a := by
  apply List.Vector.toList_injective
  have hfull : a.toList.take n = a.toList := List.take_of_length_le (Nat.le_of_eq a.toList_length)
  have hnone : b.toList.drop a.toList.length = [] :=
    List.drop_of_length_le (Nat.le_of_eq (b.toList_length.trans a.toList_length.symm))
  show a.toList.take n ++ b.toList.drop a.toList.length = a.toList
  rw [hfull, hnone, List.append_nil]

def zeroSeed : Block 32 := ⟨List.replicate 32 0, by simp⟩

namespace FileVault

/-- What the text of a key file says. -/
def seedOf (keyPath text : String) : Except String (Block 32) :=
  let hexStr := trim text
  if hexStr.utf8ByteSize ≠ 64 then .error s!"Invalid key length in {keyPath}: expected 64 hex chars"
  else
    match Hex.decodeToSlice (utf8 hexStr) 32 with
    | .error e => .error s!"Invalid hex in key file: {e.text}"
    | .ok bs => .ok (copyInto bs zeroSeed)

def loadIdentity (keyPath : String) : VaultAction (Identity P) := do
  let text ← mapErr s!"Failed to read key file {keyPath}: " (Host.readToString (.ofString keyPath))
  match seedOf keyPath text with
  | .error e => throw (.err e)
  | .ok seed => return .fromSeed signingKeyOf seed

def saveIdentity (keyPath : String) (identity : Identity P) : VaultAction Unit :=
  mapErr "Failed to write key file: " (Host.write (.ofString keyPath) identity.hashHex.toUTF8)

/-- The directory of the key file. -/
def archivePath (keyPath : String) : DiskPath := (DiskPath.ofString keyPath).pop

end FileVault

namespace EnvVault

/-- What the text of the variable says. -/
def seedOf (varName text : String) : Except String (Block 32) :=
  if text = "" then .error "Key env var is empty"
  else
    match Hex.decode (utf8 text) with
    | .error e => .error s!"Invalid hex in {varName}: {e.text}"
    | .ok bs =>
      if bs.length ≠ 32 then .error s!"Invalid seed length in {varName}: expected 32 bytes"
      else .ok (copyInto bs zeroSeed)

def loadIdentity (varName : String) : VaultAction (Identity P) := do
  let h ← get
  match h.environment varName with
  | .error e => throw (.err s!"Env {varName} not set: {e}")
  | .ok text =>
    match seedOf varName text with
    | .error e => throw (.err e)
    | .ok seed => return .fromSeed signingKeyOf seed

/-- Nothing is written; the source says so in its log. -/
def saveIdentity (_varName : String) (_identity : Identity P) : VaultAction Unit := return ()

def archivePath : DiskPath := .ofString "/tmp/aether-archived-keys"

end EnvVault

/-- `dyn KeyVault` -/
inductive Vault where
  | file (keyPath : String)
  | env (varName : String)
  deriving DecidableEq

namespace Vault

def loadIdentity : Vault → VaultAction (Identity P)
  | file keyPath => FileVault.loadIdentity signingKeyOf keyPath
  | env varName => EnvVault.loadIdentity signingKeyOf varName

def saveIdentity (identity : Identity P) : Vault → VaultAction Unit
  | file keyPath => FileVault.saveIdentity keyPath identity
  | env varName => EnvVault.saveIdentity varName identity

def archivePath : Vault → DiskPath
  | file keyPath => FileVault.archivePath keyPath
  | env _ => EnvVault.archivePath

/-- What is archived is the public key, under its own name. -/
def archiveIdentity (identity : Identity P) (v : Vault) : VaultAction Unit :=
  let hex := Hex.encode identity.publicKeyBytes.toList
  mapErr "Failed to archive identity: " (Host.write (v.archivePath.join (hex ++ ".archived")) hex.toUTF8)

end Vault

/-! ### What comes of an operation -/

namespace Host

/-- What a read gives. -/
def readsTo (h : Host) (path : DiskPath) : Except String String :=
  match h.answers h.operations with
  | .done => h.textAt path
  | .failed text _ => .error text

theorem exec_readToString_any (h : Host) (path : DiskPath) :
    (readToString path).exec h =
      (match h.readsTo path with
        | .ok text => .ok text
        | .error e => .error (.err e), h.counted) := by
  rw [readToString, exec_get_bind, exec_set_bind, readsTo]
  cases h.answers h.operations with
  | failed text written => rfl
  | done =>
    simp only
    cases h.textAt path <;> rfl

theorem exec_write_done {h : Host} (hdone : h.answers h.operations = .done) (path : DiskPath) (content : ByteArray) :
    (write path content).exec h = (.ok (), h.holding path content) := by
  rw [write, exec_get_bind, hdone]
  rfl

/-- A write that fails leaves the file as it was, or some of the content. -/
def interrupted (h : Host) (path : DiskPath) (content : ByteArray) : Option Nat → Host
  | none => h.counted
  | some n => h.holding path (content.extract 0 n)

theorem exec_write_failed {h : Host} {text : String} {written : Option Nat}
    (hfailed : h.answers h.operations = .failed text written) (path : DiskPath) (content : ByteArray) :
    (write path content).exec h = (.error (.err text), h.interrupted path content written) := by
  rw [write, exec_get_bind, hfailed]
  cases written <;> rfl

end Host

/-! ### A host where operations are done -/

namespace Host
variable {h : Host}

/-- Nothing stands in the way of an operation. -/
def Working (h : Host) : Prop := ∀ n, h.answers n = .done

theorem exec_write (hworking : h.Working) (path : DiskPath) (content : ByteArray) :
    (write path content).exec h = (.ok (), h.holding path content) :=
  exec_write_done (hworking _) path content

/-- What was written is read. -/
theorem textAt_holding (h : Host) (path : DiskPath) (text : String) :
    (h.holding path text.toUTF8).textAt path = .ok text := by
  have htext : String.fromUTF8? text.toUTF8 = some text := dif_pos text.isValidUTF8
  rw [textAt, files_holding]
  simp only [htext]

end Host

theorem exec_mapErr {σ α : Type} (text : String) (m : Method String σ α) (s : σ) :
    (mapErr text m).exec s =
      match m.exec s with
      | (.ok a, t) => (.ok a, t)
      | (.error (.err e), t) => (.error (.err (text ++ e)), t)
      | (.error .panic, t) => (.error .panic, t) := by
  rw [mapErr, exec_tryCatch]
  rcases m.exec s with ⟨r, t⟩
  rcases r with (e | _) | a <;> rfl

namespace FileVault
variable {h : Host}

/-- The seed that is in the key file. -/
def seedAt (h : Host) (keyPath : String) : Except String (Block 32) :=
  match h.textAt (.ofString keyPath) with
  | .ok text => seedOf keyPath text
  | .error e => .error (s!"Failed to read key file {keyPath}: " ++ e)

/-- The seed that is read from the key file, if it is read. -/
def readSeed (h : Host) (keyPath : String) : Except String (Block 32) :=
  match h.readsTo (.ofString keyPath) with
  | .ok text => seedOf keyPath text
  | .error e => .error (s!"Failed to read key file {keyPath}: " ++ e)

theorem exec_loadIdentity_any (h : Host) (keyPath : String) :
    (loadIdentity signingKeyOf keyPath).exec h =
      (match readSeed h keyPath with
        | .ok seed => .ok (.fromSeed signingKeyOf seed)
        | .error e => .error (.err e), h.counted) := by
  rw [loadIdentity, exec_bind, exec_mapErr, Host.exec_readToString_any, readSeed]
  cases h.readsTo (.ofString keyPath) with
  | error e => rfl
  | ok text =>
    simp only
    cases seedOf keyPath text <;> rfl

theorem readSeed_working (hworking : h.Working) (keyPath : String) : readSeed h keyPath = seedAt h keyPath := by
  rw [readSeed, Host.readsTo, hworking]
  rfl

theorem exec_loadIdentity (hworking : h.Working) (keyPath : String) :
    (loadIdentity signingKeyOf keyPath).exec h =
      (match seedAt h keyPath with
        | .ok seed => .ok (.fromSeed signingKeyOf seed)
        | .error e => .error (.err e), h.counted) := by
  rw [exec_loadIdentity_any, readSeed_working hworking]

theorem exec_saveIdentity (hworking : h.Working) (keyPath : String) (identity : Identity P) :
    (saveIdentity keyPath identity).exec h =
      (.ok (), h.holding (.ofString keyPath) identity.hashHex.toUTF8) := by
  rw [saveIdentity, exec_mapErr, Host.exec_write hworking]

/-- **What is written is the hash, and what is read is a seed.** -/
theorem seedOf_hashHex (keyPath : String) (identity : Identity P) :
    seedOf keyPath identity.hashHex = .ok identity.identityHash := by
  have hlength : identity.identityHash.toList.length = 32 := identity.identityHash.toList_length
  have hsize : identity.hashHex.utf8ByteSize = 64 := by
    rw [← utf8_length, Identity.hashHex, Hex.encode_length, hlength]
  have hread : Hex.decodeToSlice (utf8 identity.hashHex) 32 = .ok identity.identityHash.toList := by
    have hback := Hex.decodeToSlice_encode identity.identityHash.toList
    rw [hlength] at hback
    exact hback
  have htrim : trim identity.hashHex = identity.hashHex := Hex.trim_encode _
  simp only [seedOf, htrim, hsize, hread, copyInto_toList, ne_eq, not_true_eq_false, if_false]

theorem seedAt_saved (h : Host) (keyPath : String) (identity : Identity P) :
    seedAt (h.holding (.ofString keyPath) identity.hashHex.toUTF8) keyPath = .ok identity.identityHash := by
  rw [seedAt, Host.textAt_holding]
  exact seedOf_hashHex keyPath identity

end FileVault

end

end Aether
