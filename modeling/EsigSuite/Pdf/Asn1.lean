import Mathlib.Algebra.GroupWithZero.Nat
import Mathlib.Data.List.Basic

/-!
# Buffers, hex and the ASN.1 view of node-forge

A parsed DER node keeps node-forge's two shapes: a primitive value is a byte
string, a constructed value a list of children. `Forge` collects what the
verifiers take from node-forge and `node:crypto`; it stays a parameter.
-/

namespace EsigSuite

abbrev Bytes := List UInt8

/-- A byte buffer. The length of a typed array is a safe integer. -/
structure Buffer where
  bytes : Bytes
  length_lt : bytes.length < 2 ^ 53

abbrev Buffer.length (b : Buffer) : Nat := b.bytes.length

theorem Buffer.ext {a b : Buffer} (h : a.bytes = b.bytes) : a = b := by
  cases a; cases b; cases h; rfl

-- ---------------------------------------------------------------------------
-- Hexadecimal
-- ---------------------------------------------------------------------------

instance neZero_sixteen : NeZero 16 := ⟨by decide⟩

/-- The value of a character of the class `[0-9a-fA-F]`. -/
def hexDigit? (c : UInt8) : Option (Fin 16) :=
  if 48 ≤ c ∧ c ≤ 57 then some (Fin.ofNat 16 (c.toNat - 48))
  else if 97 ≤ c ∧ c ≤ 102 then some (Fin.ofNat 16 (c.toNat - 87))
  else if 65 ≤ c ∧ c ≤ 70 then some (Fin.ofNat 16 (c.toNat - 55))
  else none

/-- `replace(/[^0-9a-fA-F]/g, "")`: only the hexadecimal digits stay. -/
def hexDigits (text : Bytes) : List (Fin 16) := text.filterMap hexDigit?

def hexByte (high low : Fin 16) : UInt8 := UInt8.ofNat (16 * high.val + low.val)

/-- `Buffer.from(hex, "hex")`: an odd last digit is dropped. -/
def fromHex : List (Fin 16) → Bytes
  | high :: low :: rest => hexByte high low :: fromHex rest
  | _ => []

def bytesToHex (bytes : Bytes) : List (Fin 16) :=
  bytes.flatMap fun b => [Fin.ofNat 16 (b.toNat / 16), Fin.ofNat 16 b.toNat]

/-- A digit of `toString("hex")`. -/
def hexChar (d : Fin 16) : UInt8 := UInt8.ofNat (if d.val < 10 then 48 + d.val else 87 + d.val)

theorem hexDigits_hexChar (digits : List (Fin 16)) : hexDigits (digits.map hexChar) = digits := by
  have hdigit : ∀ d : Fin 16, hexDigit? (hexChar d) = some d := by decide
  induction digits with
  | nil => rfl
  | cons d digits ih =>
    rw [hexDigits] at ih ⊢
    rw [List.map_cons, List.filterMap_cons_some (hdigit d), ih]

theorem hexByte_split (b : UInt8) :
    hexByte (Fin.ofNat 16 (b.toNat / 16)) (Fin.ofNat 16 b.toNat) = b := by
  have hb : b.toNat < 256 := b.toNat_lt
  apply UInt8.toNat_inj.mp
  simp only [hexByte, Fin.val_ofNat, UInt8.toNat_ofNat']
  omega

/-- `hexToBytes` undoes `bytesToHex`. -/
theorem fromHex_bytesToHex (bytes : Bytes) : fromHex (bytesToHex bytes) = bytes := by
  induction bytes with
  | nil => rfl
  | cons b rest ih =>
    change hexByte _ _ :: fromHex (bytesToHex rest) = b :: rest
    rw [hexByte_split, ih]

theorem length_fromHex (digits : List (Fin 16)) : (fromHex digits).length = digits.length / 2 := by
  induction digits using fromHex.induct with
  | case1 high low rest ih => simp only [fromHex, List.length_cons, ih]; omega
  | case2 digits h =>
    match digits, h with
    | [], _ => rfl
    | [_], _ => simp [fromHex]
    | high :: low :: rest, h => exact absurd rfl (h high low rest)

-- ---------------------------------------------------------------------------
-- Parsed DER
-- ---------------------------------------------------------------------------

inductive Asn1
  | primitive (tagClass type : Nat) (value : Bytes)
  | constructed (tagClass type : Nat) (children : List Asn1)

namespace Asn1

def tagClass : Asn1 → Nat
  | .primitive c .. | .constructed c .. => c

def type : Asn1 → Nat
  | .primitive _ t _ | .constructed _ t _ => t

/-- The value where `Array.isArray(node.value)`. -/
def children? : Asn1 → Option (List Asn1)
  | .primitive .. => none
  | .constructed _ _ cs => some cs

/-- The value where `typeof node.value === "string"`. -/
def string? : Asn1 → Option Bytes
  | .primitive _ _ v => some v
  | .constructed .. => none

mutual
def same : Asn1 → Asn1 → Bool
  | .primitive c t v, .primitive c' t' v' => c == c' && t == t' && v == v'
  | .constructed c t cs, .constructed c' t' cs' => c == c' && t == t' && sameChildren cs cs'
  | _, _ => false
def sameChildren : List Asn1 → List Asn1 → Bool
  | [], [] => true
  | node :: cs, node' :: cs' => same node node' && sameChildren cs cs'
  | _, _ => false
end

mutual
theorem same_iff : (node node' : Asn1) → (same node node' = true ↔ node = node')
  | .primitive c t v, .primitive c' t' v' => by simp [same, and_assoc]
  | .constructed c t cs, .constructed c' t' cs' => by
    simp [same, and_assoc, sameChildren_iff cs cs']
  | .primitive .., .constructed .. | .constructed .., .primitive .. => by simp [same]
theorem sameChildren_iff : (cs cs' : List Asn1) → (sameChildren cs cs' = true ↔ cs = cs')
  | [], [] => by simp [sameChildren]
  | node :: cs, node' :: cs' => by
    simp [sameChildren, same_iff node node', sameChildren_iff cs cs']
  | [], _ :: _ | _ :: _, [] => by simp [sameChildren]
end

instance : DecidableEq Asn1 := fun node node' => decidable_of_iff _ (same_iff node node')

def UNIVERSAL : Nat := 0x00
def CONTEXT_SPECIFIC : Nat := 0x80

def INTEGER : Nat := 2
def OCTETSTRING : Nat := 4
def OID : Nat := 6
def SEQUENCE : Nat := 16
def SET : Nat := 17
def GENERALIZEDTIME : Nat := 24

end Asn1

/-- What the verifiers read of an embedded certificate. -/
structure Certificate where
  commonName : Option String
  organization : Option String
  /-- `publicKey.verify(digest, signature)`, which may throw. -/
  verify : Bytes → Bytes → Except String Bool

/-- The functions taken from node-forge and `node:crypto`. `Except.error` is
a thrown error with its message. -/
structure Forge where
  fromDer : Bytes → Except String Asn1
  toDer : Asn1 → Except String Bytes
  derToOid : Bytes → Except String String
  /-- The certificates of `pkcs7.messageFromAsn1(root)`. -/
  certificates : Asn1 → Except String (List Certificate)
  sha256 : Bytes → Bytes

/-- `safeOid`. A constructed value is not a byte string and throws inside. -/
def safeOid (forge : Forge) (node : Asn1) : String :=
  match node.string? with
  | none => ""
  | some der =>
    match forge.derToOid der with
    | .ok oid => oid
    | .error _ => ""

end EsigSuite
