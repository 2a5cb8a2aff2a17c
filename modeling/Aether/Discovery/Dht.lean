import Aether.Discovery.Message
import Aether.Library.Words
import Aether.Library.Xor

/-! The distributed hash table (`discovery.rs`): records, and how far keys are apart.

Keys are numbers of 256 bits and their distance is the exclusive or, which is a metric
(`xorDistance_metric`). A record lives for a time its publisher chooses, so the time
at which it expires need not fit in a word (`isExpired_exact_iff`). JSON is a
parameter, as for peer information, and so is what the clock shows. -/
namespace Aether
open Octets

/-- `dht_key` -/
def dhtKey {P : Primitives} (identityHash : String) : Block 32 :=
  P.sha256 (ascii ['a', 'e', 't', 'h', 'e', 'r', '-', 'd', 'h', 't', ':'] ++ utf8 identityHash)

/-! ### Distance -/

def xorDistance (a b : Block 32) : Block 32 := List.Vector.map₂ (· ^^^ ·) a b

/-- `u32::from_be_bytes` of the first four octets. -/
def distanceOrder (distance : Block 32) : UInt32 :=
  UInt32.ofNat (ofBe [distance.get 0, distance.get 1, distance.get 2, distance.get 3])

/-- A key as a number, most significant octet first. -/
def keyValue (key : Block 32) : Nat := ofBe key.toList

theorem keyValue_xorDistance (a b : Block 32) : keyValue (xorDistance a b) = keyValue a ^^^ keyValue b :=
  ofBe_xor_block a b

/-- The distance of `a` and `c` differs where one of the others does, and nothing is carried. -/
theorem xorDistance_triangle (a b c : Block 32) :
    keyValue (xorDistance a c) ≤ keyValue (xorDistance a b) + keyValue (xorDistance b c) := by
  have hvia : keyValue a ^^^ keyValue c = (keyValue a ^^^ keyValue b) ^^^ (keyValue b ^^^ keyValue c) := by
    rw [Nat.xor_assoc, ← Nat.xor_assoc (keyValue b), Nat.xor_self, Nat.zero_xor]
  rw [keyValue_xorDistance, keyValue_xorDistance, keyValue_xorDistance, hvia]
  exact xor_le_add _ _

/-- The order is the number without its last 28 octets. -/
theorem distanceOrder_toNat (distance : Block 32) : (distanceOrder distance).toNat = keyValue distance / 256 ^ 28 := by
  have hfirst : [distance.get 0, distance.get 1, distance.get 2, distance.get 3] = distance.toList.take 4 := by
    obtain ⟨bs, hbs⟩ := distance
    match bs, hbs with
    | _ :: _ :: _ :: _ :: _, _ => rfl
  have hlt := ofBe_lt (distance.toList.take 4)
  rw [List.length_take, distance.toList_length] at hlt
  rw [distanceOrder, hfirst, UInt32.toNat_ofNat_of_lt' hlt, ofBe_take, distance.toList_length]
  rfl

/-- **The distance is a metric with one key at each distance**, and what keys are sorted by
does not reverse it. -/
theorem xorDistance_metric :
    (∀ a b : Block 32, (xorDistance a b).toList = List.replicate 32 0 ↔ a = b) ∧
    (∀ a b : Block 32, xorDistance a b = xorDistance b a) ∧
    (∀ a b c : Block 32, keyValue (xorDistance a c) ≤ keyValue (xorDistance a b) + keyValue (xorDistance b c)) ∧
    (∀ a d : Block 32, ∃! b, xorDistance a b = d) ∧
    (∀ d₁ d₂ : Block 32, keyValue d₁ ≤ keyValue d₂ → distanceOrder d₁ ≤ distanceOrder d₂) := by
  refine ⟨fun _ _ => xor_block_eq_zero, xor_block_comm, xorDistance_triangle, fun a d => ?_, fun d₁ d₂ h => ?_⟩
  · exact ⟨xorDistance a d, xor_block_eq_iff.mpr rfl, fun b hb => xor_block_eq_iff.mp hb⟩
  · rw [UInt32.le_iff_toNat_le, distanceOrder_toNat, distanceOrder_toNat]
    exact Nat.div_le_div_right h

/-! ### Records -/

structure DhtRecord (Addr : Type) where
  identityHash : String
  addresses : List Addr
  connectionId : UInt64
  /-- UNIX time. -/
  created : UInt64
  /-- In seconds. -/
  ttl : UInt64

/-- The `serde_json` crate on records. -/
structure DhtRecordJson (Addr : Type) where
  toVec : DhtRecord Addr → Except String Bytes
  fromSlice : Bytes → Except String (DhtRecord Addr)

namespace DhtRecord
variable {Addr : Type}

/-- `DhtRecord::new` -/
def new (identityHash : String) (addresses : List Addr) (connectionId ttl now : UInt64) : DhtRecord Addr :=
  { identityHash, addresses, connectionId, created := now, ttl }

def isExpired (build : Build) (now : UInt64) (record : DhtRecord Addr) : Result Bool := do
  let expiry ← build.add record.created record.ttl
  return decide (now ≥ expiry)

variable (json : DhtRecordJson Addr)

def encode (record : DhtRecord Addr) : Bytes :=
  match json.toVec record with
  | .ok data => data
  | .error _ => []

def decode (data : Bytes) : Result (DhtRecord Addr) :=
  match json.fromSlice data with
  | .ok record => .ok record
  | .error e => fail (.protocolViolation s!"Invalid DHT record: {e}")

/-! ### Expiry -/

/-- When a record expires, over the natural numbers. -/
def expiry (record : DhtRecord Addr) : Nat := record.created.toNat + record.ttl.toNat

/-- `is_expired` says what is true of the record. -/
def ExpiresExactly (build : Build) (now : UInt64) (record : DhtRecord Addr) : Prop :=
  record.isExpired build now = .ok (decide (record.expiry ≤ now.toNat))

theorem isExpired_of_lt {record : DhtRecord Addr} (h : record.expiry < 2 ^ 64) (build : Build) (now : UInt64) :
    ExpiresExactly build now record := by
  have hsum : (record.created + record.ttl).toNat = record.expiry := toNat_add_of_lt h
  rw [ExpiresExactly, isExpired, build.add_of_lt h, ← hsum]
  rfl

/-- A sum that wraps around is before now, which the true one never is. -/
theorem isExpired_wrapping {record : DhtRecord Addr} (h : 2 ^ 64 ≤ record.expiry) (now : UInt64) :
    ExpiresExactly .wrapping now record ↔ now.toNat < record.expiry % 2 ^ 64 := by
  have hnow : now.toNat < 2 ^ 64 := now.toNat_lt
  have hfalse : ¬ record.expiry ≤ now.toNat := Nat.not_le_of_lt (Nat.lt_of_lt_of_le hnow h)
  have hresult : record.isExpired .wrapping now = .ok (decide (now ≥ record.created + record.ttl)) := rfl
  have hsum : (record.created + record.ttl).toNat = record.expiry % 2 ^ 64 := UInt64.toNat_add _ _
  rw [ExpiresExactly, hresult, decide_eq_false hfalse, ← hsum]
  simp [UInt64.lt_iff_toNat_lt]

theorem isExpired_checked {record : DhtRecord Addr} (h : 2 ^ 64 ≤ record.expiry) (now : UInt64) :
    record.isExpired .checked now = .error .panic := by
  have hsum : ¬ record.created.toNat + record.ttl.toNat < 2 ^ 64 := Nat.not_lt_of_le h
  rw [isExpired, Build.add, decide_eq_false hsum, Build.guard_checked_false]
  rfl

/-- **Expiry is exact for the records whose expiry fits in a word**, and only for them; in a
build that does not check, also as long as now is before the expiry that is left of it. -/
theorem isExpired_exact_iff (record : DhtRecord Addr) (now : UInt64) :
    (ExpiresExactly .checked now record ↔ record.expiry < 2 ^ 64) ∧
    (ExpiresExactly .wrapping now record ↔ record.expiry < 2 ^ 64 ∨ now.toNat < record.expiry % 2 ^ 64) := by
  by_cases h : record.expiry < 2 ^ 64
  · exact ⟨iff_of_true (isExpired_of_lt h .checked now) h, iff_of_true (isExpired_of_lt h .wrapping now) (.inl h)⟩
  · have hle := Nat.le_of_not_lt h
    refine ⟨iff_of_false ?_ h, ?_⟩
    · rw [ExpiresExactly, isExpired_checked hle]
      nofun
    · rw [or_iff_right h]
      exact isExpired_wrapping hle now

/-- A record that is to stay for good. -/
def everlasting : DhtRecord Unit :=
  { identityHash := "", addresses := [], connectionId := 0, created := 1700000000, ttl := 18446744073709551615 }

/-- The record in JSON. -/
def everlastingText : String :=
  "\x7b\"identity_hash\":\"\",\"addresses\":[],\"connection_id\":0,\"created\":1700000000,\"ttl\":18446744073709551615\x7d"

/-- As much of JSON as is read here. -/
def everlastingJson : DhtRecordJson Unit where
  toVec _ := .ok (utf8 everlastingText)
  fromSlice data := if data = utf8 everlastingText then .ok everlasting else .error "expected value at line 1 column 1"

/-- It is received, and is expired at once or aborts the node. -/
theorem everlasting_expires :
    decode everlastingJson (utf8 everlastingText) = .ok everlasting ∧
      ¬ ExpiresExactly .checked 1700000100 everlasting ∧ ¬ ExpiresExactly .wrapping 1700000100 everlasting := by
  have hlong : 2 ^ 64 ≤ everlasting.expiry := by decide
  refine ⟨?_, ?_, ?_⟩
  · rw [decode, everlastingJson]
    simp only [if_true]
  · rw [ExpiresExactly, isExpired_checked hlong]
    nofun
  · rw [isExpired_wrapping hlong]
    decide

end DhtRecord

end Aether
