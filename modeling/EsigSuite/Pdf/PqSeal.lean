import EsigSuite.Lib.JsonRead
import EsigSuite.Lib.Utf8
import EsigSuite.Pdf.Asn1
import Mathlib.Data.List.Sort

/-!
# The hybrid seal

`esig-core/src/pq-seal.ts`: a seal is built from a record and read back as
whatever JSON the file holds, so verification works on JSON values. The
signature schemes are parameters.
-/

namespace EsigSuite

open Lib

/-- `digest("hex")` -/
def hexText (bytes : Bytes) : JsString :=
  (bytesToHex bytes).map fun d => UInt16.ofNat (if d.val < 10 then 48 + d.val else 87 + d.val)

-- ---------------------------------------------------------------------------
-- Constants
-- ---------------------------------------------------------------------------

def PQ_SEAL_VERSION : ℚ := 1
def PQ_SEAL_ALG : JsString := js "hybrid-ed25519-ml-dsa-65"
def MLDSA65_PUBLIC_LEN : Nat := 1952
def MLDSA65_SIGNATURE_LEN : Nat := 3309
def ED25519_RAW_PUBLIC_LEN : Nat := 32
def ED25519_SIGNATURE_LEN : Nat := 64
def UUAID_MAX_LEN : Nat := 255

/-- `[A-Za-z0-9_-]` -/
def isUuaidChar (unit : UInt16) : Bool :=
  (65 ≤ unit && unit ≤ 90) || (97 ≤ unit && unit ≤ 122) || (48 ≤ unit && unit ≤ 57) ||
    unit == 95 || unit == 45

def isUuaidSegment (segment : JsString) : Bool := segment ≠ [] && segment.all isUuaidChar

/-- `UUAID_ASSERTION_RE`: three or four segments after `uuaid:`. -/
def matchesUuaid (text : JsString) : Bool :=
  match text.splitOn 58 with
  | scheme :: segments =>
    scheme == js "uuaid" && (segments.length == 3 || segments.length == 4) &&
      segments.all isUuaidSegment
  | [] => false

def isWellFormedUuaidAssertion (text : JsString) : Bool :=
  text.length ≤ UUAID_MAX_LEN && matchesUuaid text

-- ---------------------------------------------------------------------------
-- Seals
-- ---------------------------------------------------------------------------

/-- A seal without the fields whose type has one value. -/
structure PqSeal where
  digest : JsString
  coveredBytes : ℚ
  signedAt : JsString
  keyId : JsString
  uuaid : Option JsString
  ed25519 : JsString
  mldsa65 : JsString
  mldsa65Fpr : JsString
  ed25519Sig : JsString
  mldsa65Sig : JsString
  /-- Every JavaScript number is a double. -/
  exact : Double.Exact coveredBytes

namespace PqSeal

def keys (s : PqSeal) : Json :=
  .object [(js "ed25519", .string s.ed25519), (js "mldsa65", .string s.mldsa65),
    (js "mldsa65Fpr", .string s.mldsa65Fpr)]

def sig (s : PqSeal) : Json :=
  .object [(js "ed25519", .string s.ed25519Sig), (js "mldsa65", .string s.mldsa65Sig)]

/-- The members before `uuaid`. -/
def head (s : PqSeal) : List (JsString × Json) :=
  [(js "v", .number (.finite PQ_SEAL_VERSION)), (js "alg", .string PQ_SEAL_ALG),
    (js "over", .string (js "sha256")), (js "digest", .string s.digest),
    (js "coveredBytes", .number (.finite s.coveredBytes)), (js "signedAt", .string s.signedAt),
    (js "keyId", .string s.keyId)]

def assertion (s : PqSeal) : List (JsString × Json) :=
  match s.uuaid with
  | none => []
  | some uuaid => [(js "uuaid", .string uuaid)]

/-- Every field except `sig`. -/
def payload (s : PqSeal) : List (JsString × Json) :=
  s.head ++ s.assertion ++ [(js "keys", s.keys)]

def toJson (s : PqSeal) : Json := .object (s.payload ++ [(js "sig", s.sig)])

end PqSeal

-- ---------------------------------------------------------------------------
-- The signing input
-- ---------------------------------------------------------------------------

/-- The order of `sort()` on strings. -/
def keyLe (a b : JsString × List Char) : Bool := !(b.1.lex a.1)

def memberText (member : JsString × List Char) : List Char :=
  Json.stringText member.1 ++ ':' :: member.2

mutual
def canonicalJson : Json → List Char
  | .array items => '[' :: (List.intercalate [','] (canonicalItems items) ++ [']'])
  | .object members =>
    let sorted := (canonicalMembers members).mergeSort keyLe
    '{' :: (List.intercalate [','] (sorted.map memberText) ++ ['}'])
  | value => Json.stringify value
def canonicalItems : List Json → List (List Char)
  | [] => []
  | item :: items => canonicalJson item :: canonicalItems items
def canonicalMembers : List (JsString × Json) → List (JsString × List Char)
  | [] => []
  | (key, value) :: members => (key, canonicalJson value) :: canonicalMembers members
end

def signingInput (payload : List (JsString × Json)) : Bytes :=
  Utf8.encode (canonicalJson (.object payload))

-- ---------------------------------------------------------------------------
-- Keys
-- ---------------------------------------------------------------------------

/-- The private keys by what they sign. -/
structure PqSigningKeys where
  ed25519PublicRaw : Bytes
  mldsa65PublicKey : Bytes
  ed25519Sign : Bytes → Except String Bytes
  mldsa65Sign : Bytes → Except String Bytes

structure PqPublicMaterial where
  ed25519 : JsString
  mldsa65 : JsString
  mldsa65Fpr : JsString
  keyId : JsString

section
variable (sha256 : Bytes → Bytes)

/-- The first 32 hexadecimal digits of a digest over both keys. -/
def keyIdOf (ed25519PublicRaw mldsa65PublicKey : Bytes) : JsString :=
  (hexText (sha256 (ed25519PublicRaw ++ mldsa65PublicKey))).take 32

def publicMaterialForKeys (keys : PqSigningKeys) : PqPublicMaterial where
  ed25519 := b64 keys.ed25519PublicRaw
  mldsa65 := b64 keys.mldsa65PublicKey
  mldsa65Fpr := hexText (sha256 keys.mldsa65PublicKey)
  keyId := keyIdOf sha256 keys.ed25519PublicRaw keys.mldsa65PublicKey

structure BuildPqSealInput where
  digestHex : JsString
  coveredBytes : Nat
  keys : PqSigningKeys
  /-- `toISOString()` of the given time or of now. -/
  signedAt : JsString
  uuaid : Option JsString

def isDigestHex (text : JsString) : Bool :=
  text.length == 64 && text.all fun unit => (48 ≤ unit && unit ≤ 57) || (97 ≤ unit && unit ≤ 102)

/-- The seal before it is signed. Lengths are safe integers. -/
def unsignedPqSeal (input : BuildPqSealInput) (h : input.coveredBytes < 2 ^ 53) : PqSeal :=
  let pub := publicMaterialForKeys sha256 input.keys
  { digest := input.digestHex, coveredBytes := input.coveredBytes, signedAt := input.signedAt,
    keyId := pub.keyId, uuaid := input.uuaid, ed25519 := pub.ed25519, mldsa65 := pub.mldsa65,
    mldsa65Fpr := pub.mldsa65Fpr, ed25519Sig := [], mldsa65Sig := [], exact := Double.exact_nat h }

def buildPqSeal (input : BuildPqSealInput) (h : input.coveredBytes < 2 ^ 53) :
    Except String PqSeal :=
  if ¬ isDigestHex input.digestHex then
    .error "buildPqSeal: digestHex must be 64 lowercase hex chars (SHA-256)"
  else if input.coveredBytes = 0 then
    .error "buildPqSeal: coveredBytes must be a positive integer"
  else if input.uuaid.any (!isWellFormedUuaidAssertion ·) then
    .error ("buildPqSeal: uuaid must be a well-formed UUAID (uuaid:<3-or-4 segments>)" ++
      " — refusing to sign a malformed identity claim")
  else do
    let unsigned := unsignedPqSeal sha256 input h
    let message := signingInput unsigned.payload
    let ed25519Sig ← input.keys.ed25519Sign message
    let mldsa65Sig ← input.keys.mldsa65Sign message
    return { unsigned with ed25519Sig := b64 ed25519Sig, mldsa65Sig := b64 mldsa65Sig }

end

-- ---------------------------------------------------------------------------
-- Verification
-- ---------------------------------------------------------------------------

/-- A certificate given as PEM text or as DER. -/
inductive SignerCert
  | pem (text : JsString)
  | der (bytes : Bytes)

/-- What verification takes from elsewhere: `node:crypto`, the ML-DSA package,
the reading of ML-DSA certificates and the coercions of the language. -/
structure PqHost where
  forge : Forge
  /-- public key, message, signature -/
  ed25519Verify : Bytes → Bytes → Bytes → Except String Bool
  /-- signature, message, public key -/
  mldsa65Verify : Bytes → Bytes → Bytes → Except String Bool
  certMatchesPqSeal : SignerCert → Json → Except String Bool
  toLowerCase : JsString → JsString
  /-- `Buffer.from` on a value that is not a string. -/
  bufferFrom : Option Json → Except String Bytes
  /-- The number of a value that is not one, if it has any. -/
  toNumber : Json → Option Double

structure PqSealVerification where
  ed25519 : Bool := false
  mldsa65 : Bool := false
  fingerprintOk : Bool := false
  keyIdOk : Bool := false
  uuaidOk : Bool := false
  ok : Bool := false

def isSealHeader (s : Json) : Bool :=
  isNumber PQ_SEAL_VERSION (member s "v") && isString PQ_SEAL_ALG (member s "alg") &&
    isString (js "sha256") (member s "over")

/-- An absent assertion asserts nothing. -/
def uuaidOk : Option Json → Bool
  | none => true
  | some (.string text) => isWellFormedUuaidAssertion text
  | some _ => false

/-- The seal minus `sig`. -/
def payloadOf : Json → List (JsString × Json)
  | .object members => members.filter (·.1 ≠ js "sig")
  | _ => []

/-- A verification that throws has not succeeded. -/
def caught : Except String Bool → Bool
  | .ok valid => valid
  | .error _ => false

def bufferOf (host : PqHost) : Option Json → Except String Bytes
  | some (.string text) => .ok (fromBase64 text)
  | value => host.bufferFrom value

/-- The `try` block. -/
def checkPqSealSignatures (host : PqHost) (s : Json) : Except String PqSealVerification := do
  if ¬ isSealHeader s then return {}
  let keys := member s "keys"
  let sig := member s "sig"
  let ed25519Pub ← bufferOf host (← property keys "ed25519")
  let mldsa65Pub ← bufferOf host (← property keys "mldsa65")
  let ed25519Sig ← bufferOf host (← property sig "ed25519")
  let mldsa65Sig ← bufferOf host (← property sig "mldsa65")
  if ed25519Pub.length ≠ ED25519_RAW_PUBLIC_LEN ∨ mldsa65Pub.length ≠ MLDSA65_PUBLIC_LEN ∨
      ed25519Sig.length ≠ ED25519_SIGNATURE_LEN ∨ mldsa65Sig.length ≠ MLDSA65_SIGNATURE_LEN then
    return {}
  let message := signingInput (payloadOf s)
  let fingerprintOk :=
    isString (hexText (host.forge.sha256 mldsa65Pub)) (← property keys "mldsa65Fpr")
  let keyIdOk := isString (keyIdOf host.forge.sha256 ed25519Pub mldsa65Pub) (member s "keyId")
  let uuaidOk := uuaidOk (member s "uuaid")
  let ed25519 := caught (host.ed25519Verify ed25519Pub message ed25519Sig)
  let mldsa65 := caught (host.mldsa65Verify mldsa65Sig message mldsa65Pub)
  return { ed25519, mldsa65, fingerprintOk, keyIdOk, uuaidOk,
           ok := ed25519 && mldsa65 && fingerprintOk && keyIdOk && uuaidOk }

def verifyPqSealSignatures (host : PqHost) (s : Json) : PqSealVerification :=
  match checkPqSealSignatures host s with
  | .ok result => result
  | .error _ => {}

-- ---------------------------------------------------------------------------
-- A built seal verifies
-- ---------------------------------------------------------------------------

theorem toJson_members (s : PqSeal) :
    isSealHeader s.toJson = true ∧ member s.toJson "digest" = some (.string s.digest) ∧
    member s.toJson "coveredBytes" = some (.number (.finite s.coveredBytes)) ∧
    member s.toJson "keyId" = some (.string s.keyId) ∧
    member s.toJson "uuaid" = s.uuaid.map .string ∧
    member s.toJson "keys" = some s.keys ∧ member s.toJson "sig" = some s.sig := by
  cases h : s.uuaid <;>
    simp +decide [PqSeal.toJson, PqSeal.payload, PqSeal.head, PqSeal.assertion, h, isSealHeader,
      member, isNumber, isString]

theorem payloadOf_toJson (s : PqSeal) : payloadOf s.toJson = s.payload := by
  cases h : s.uuaid <;>
    simp +decide [PqSeal.toJson, PqSeal.payload, PqSeal.head, PqSeal.assertion, h, payloadOf]

theorem property_keys (s : PqSeal) :
    property (some s.keys) "ed25519" = .ok (some (.string s.ed25519)) ∧
    property (some s.keys) "mldsa65" = .ok (some (.string s.mldsa65)) ∧
    property (some s.keys) "mldsa65Fpr" = .ok (some (.string s.mldsa65Fpr)) := by
  simp +decide [PqSeal.keys, property, member]

theorem property_sig (s : PqSeal) :
    property (some s.sig) "ed25519" = .ok (some (.string s.ed25519Sig)) ∧
    property (some s.sig) "mldsa65" = .ok (some (.string s.mldsa65Sig)) := by
  simp +decide [PqSeal.sig, property, member]

theorem buildPqSeal_ok (h : buildPqSeal sha256 input hlt = .ok s) :
    input.uuaid.all isWellFormedUuaidAssertion = true ∧ ∃ ed25519Sig mldsa65Sig,
      input.keys.ed25519Sign (signingInput (unsignedPqSeal sha256 input hlt).payload) =
        .ok ed25519Sig ∧
      input.keys.mldsa65Sign (signingInput (unsignedPqSeal sha256 input hlt).payload) =
        .ok mldsa65Sig ∧
      s = { unsignedPqSeal sha256 input hlt with
        ed25519Sig := b64 ed25519Sig, mldsa65Sig := b64 mldsa65Sig } := by
  unfold buildPqSeal at h
  split at h
  · cases h
  split at h
  · cases h
  split at h
  · cases h
  next huuaid =>
    dsimp only [bind, Except.bind, pure, Except.pure] at h
    split at h
    · cases h
    next ed25519Sig hed25519 =>
      split at h
      · cases h
      next mldsa65Sig hmldsa65 =>
        cases h
        refine ⟨?_, ed25519Sig, mldsa65Sig, hed25519, hmldsa65, rfl⟩
        cases hinput : input.uuaid <;> simp_all

/-- A key pair whose signatures the host accepts. -/
structure PqSigningKeys.Verified (host : PqHost) (keys : PqSigningKeys) : Prop where
  ed25519_length : keys.ed25519PublicRaw.length = ED25519_RAW_PUBLIC_LEN
  mldsa65_length : keys.mldsa65PublicKey.length = MLDSA65_PUBLIC_LEN
  ed25519 : ∀ message sig, keys.ed25519Sign message = .ok sig →
    sig.length = ED25519_SIGNATURE_LEN ∧
      host.ed25519Verify keys.ed25519PublicRaw message sig = .ok true
  mldsa65 : ∀ message sig, keys.mldsa65Sign message = .ok sig →
    sig.length = MLDSA65_SIGNATURE_LEN ∧
      host.mldsa65Verify sig message keys.mldsa65PublicKey = .ok true

/-- A built seal passes the signature checks when it is read back. -/
theorem verifyPqSealSignatures_built {host : PqHost}
    (h : buildPqSeal host.forge.sha256 input hlt = .ok s) (hkeys : input.keys.Verified host) :
    (verifyPqSealSignatures host s.toJson).ok = true := by
  obtain ⟨huuaid, ed25519Sig, mldsa65Sig, hed25519, hmldsa65, rfl⟩ := buildPqSeal_ok h
  obtain ⟨hlen, hvalid⟩ := hkeys.ed25519 _ _ hed25519
  obtain ⟨hlen', hvalid'⟩ := hkeys.mldsa65 _ _ hmldsa65
  generalize hs : { unsignedPqSeal host.forge.sha256 input hlt with
    ed25519Sig := b64 ed25519Sig, mldsa65Sig := b64 mldsa65Sig : PqSeal } = s
  obtain ⟨hheader, -, -, hkeyId, hassertion, hkeysMember, hsigMember⟩ := toJson_members s
  obtain ⟨hk1, hk2, hk3⟩ := property_keys s
  obtain ⟨hs1, hs2⟩ := property_sig s
  have hpayload : signingInput s.payload =
      signingInput (unsignedPqSeal host.forge.sha256 input hlt).payload := by
    rw [← hs]
    rfl
  have huuaidOk : uuaidOk (s.uuaid.map .string) = true := by
    rw [← hs]
    change uuaidOk (input.uuaid.map .string) = true
    cases hinput : input.uuaid with
    | none => rfl
    | some uuaid => simpa [hinput, uuaidOk] using huuaid
  have h1 : s.ed25519 = b64 input.keys.ed25519PublicRaw := by rw [← hs]; rfl
  have h2 : s.mldsa65 = b64 input.keys.mldsa65PublicKey := by rw [← hs]; rfl
  have h3 : s.ed25519Sig = b64 ed25519Sig := by rw [← hs]
  have h4 : s.mldsa65Sig = b64 mldsa65Sig := by rw [← hs]
  have h5 : s.mldsa65Fpr = hexText (host.forge.sha256 input.keys.mldsa65PublicKey) := by
    rw [← hs]; rfl
  have h6 : s.keyId = keyIdOf host.forge.sha256 input.keys.ed25519PublicRaw
      input.keys.mldsa65PublicKey := by rw [← hs]; rfl
  unfold verifyPqSealSignatures checkPqSealSignatures
  simp [hheader, hkeyId, hassertion, hkeysMember, hsigMember, hk1, hk2, hk3, hs1, hs2, bufferOf, h1,
    h2, h3, h4, h5, h6, fromBase64_b64, hkeys.ed25519_length, hkeys.mldsa65_length, hlen, hlen',
    payloadOf_toJson, hpayload, hvalid, hvalid', caught, isString, huuaidOk, bind, Except.bind,
    pure, Except.pure]

end EsigSuite
