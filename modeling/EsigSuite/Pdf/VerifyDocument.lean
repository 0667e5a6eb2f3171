import EsigSuite.Pdf.Coverage
import EsigSuite.Pdf.SealRoundTrip

/-!
# Verifying a document

`verifyPqSeal` and `verifyDocument` of `esig-core/src/pq-verify.ts`. A call may
throw where an option makes it read a field that is not a string.
-/

namespace EsigSuite

open Lib

-- ---------------------------------------------------------------------------
-- Verdicts
-- ---------------------------------------------------------------------------

inductive SealFailure
  | notFound
  | coveredBytes (covered : Option Json) (length : Nat)
  | digestMismatch
  | ed25519
  | mldsa65
  | fingerprint
  | keyId
  | uuaid
  | pinnedFingerprint
  | noUuaid
  | pinnedUuaid
  | certificate
  | outsideSignedRegion
  | required

/-- The text pushed onto `failures`, given `String(value)`. -/
def SealFailure.text (string : Option Json → String) : SealFailure → String
  | .notFound => "no post-quantum seal found"
  | .coveredBytes covered length =>
    "seal coveredBytes (" ++ string covered ++ ") is out of range for a " ++ toString length ++
      "-byte file"
  | .digestMismatch => "post-quantum digest does not match the document — content altered"
  | .ed25519 => "Ed25519 seal signature invalid"
  | .mldsa65 => "ML-DSA-65 seal signature invalid"
  | .fingerprint => "ML-DSA-65 fingerprint inconsistent with its public key"
  | .keyId => "seal keyId inconsistent with its public keys"
  | .uuaid => "seal carries a malformed UUAID assertion"
  | .pinnedFingerprint =>
    "post-quantum signer fingerprint does not match the expected (pinned) identity"
  | .noUuaid => "seal asserts no UUAID but one was expected"
  | .pinnedUuaid => "seal's asserted UUAID does not match the expected (pinned) identity"
  | .certificate =>
    "signer certificate is invalid or does not match the seal's post-quantum key"
  | .outsideSignedRegion =>
    "seal covers bytes beyond the classically-signed region (not RSA-protected)"
  | .required => "post-quantum seal required but none present"

structure PqSealVerdict where
  present : Bool
  ok : Bool
  digestBinds : Option Bool := none
  ed25519 : Option Bool := none
  mldsa65 : Option Bool := none
  fingerprintOk : Option Bool := none
  certIdentityOk : Option Bool := none
  alg : Option Json := none
  keyId : Option Json := none
  mldsa65Fpr : Option Json := none
  signedAt : Option Json := none
  coveredBytes : Option Json := none
  uuaid : Option Json := none
  uuaidMatches : Option Bool := none
  failures : List SealFailure

/-- An option that is empty is not set. -/
structure VerifyPqSealOptions where
  expectedMldsa65Fpr : JsString := []
  signerCert : Option SignerCert := none
  expectedUuaid : JsString := []

-- ---------------------------------------------------------------------------
-- The seal
-- ---------------------------------------------------------------------------

/-- `value?.key` -/
def property? (value : Option Json) (key : String) : Option Json :=
  value.bind (member · key)

/-- A covered length that is an integer within the file. -/
def coveredLength (length : Nat) : Option Json → Option Nat
  | some (.number (.finite x)) => if x.den = 1 ∧ 0 < x ∧ x ≤ length then some x.num.toNat else none
  | _ => none

/-- Step 1: the digest over the covered bytes. -/
def bindDigest (host : PqHost) (pdf : Buffer) (s : Json) : Bool × List SealFailure :=
  let covered := member s "coveredBytes"
  match coveredLength pdf.length covered with
  | none => (false, [.coveredBytes covered pdf.length])
  | some n =>
    if isString (hexText (host.forge.sha256 (pdf.bytes.take n))) (member s "digest") then (true, [])
    else (false, [.digestMismatch])

def signatureFailures (sigs : PqSealVerification) : List SealFailure :=
  (if sigs.ed25519 then [] else [.ed25519]) ++ (if sigs.mldsa65 then [] else [.mldsa65]) ++
    (if sigs.fingerprintOk then [] else [.fingerprint]) ++ (if sigs.keyIdOk then [] else [.keyId]) ++
    (if sigs.uuaidOk then [] else [.uuaid])

/-- Step 3: `(fpr ?? "").toLowerCase()` against the expected fingerprint. -/
def pinFingerprint (host : PqHost) (expected : JsString) (fpr : Option Json) :
    Except String (Bool × List SealFailure) :=
  if expected = [] then .ok (true, [])
  else do
    let text ← match fpr with
      | none | some .null => pure []
      | some (.string text) => pure text
      | some _ => throw "TypeError"
    if host.toLowerCase text = host.toLowerCase expected then return (true, [])
    else return (false, [.pinnedFingerprint])

/-- Step 3b: whether the assertion is the expected one. -/
def pinUuaid (expected : JsString) (uuaid : Option Json) : Option Bool × List SealFailure :=
  if expected = [] then (none, [])
  else if isString expected uuaid then (some true, [])
  else (some false, [if uuaid.isNone then .noUuaid else .pinnedUuaid])

def SignerCert.given : SignerCert → Bool
  | .pem text => text ≠ []
  | .der _ => true

/-- Step 4: whether the certificate is one of the seal's key. -/
def matchCert (host : PqHost) (s : Json) (signerCert : Option SignerCert) :
    Except String (Option Bool × List SealFailure) :=
  match signerCert.filter SignerCert.given with
  | none => .ok (none, [])
  | some cert => do
    let certOk ← host.certMatchesPqSeal cert s
    return (some certOk, if certOk then [] else [.certificate])

/-- Values that `!seal` is true of, null apart. -/
def isFalsy : Json → Bool
  | .null | .bool false => true
  | .number (.finite x) => x == 0
  | .string text => text == []
  | _ => false

def verifyPqSeal (host : PqHost) (pdf : Buffer) (opts : VerifyPqSealOptions) :
    Except String PqSealVerdict :=
  match (extractPqSeal pdf.bytes).filter (!isFalsy ·) with
  | none => .ok { present := false, ok := false, failures := [.notFound] }
  | some s => do
    let mldsa65Fpr := property? (member s "keys") "mldsa65Fpr"
    let (digestBinds, digestFailures) := bindDigest host pdf s
    let sigs := verifyPqSealSignatures host s
    let (fprOk, fprFailures) ← pinFingerprint host opts.expectedMldsa65Fpr mldsa65Fpr
    let (uuaidMatches, uuaidFailures) := pinUuaid opts.expectedUuaid (member s "uuaid")
    let (certIdentityOk, certFailures) ← matchCert host s opts.signerCert
    let identityOk := fprOk && uuaidMatches.getD true && certIdentityOk.getD true
    return {
      present := true
      ok := digestBinds && sigs.ok && identityOk
      digestBinds := some digestBinds
      ed25519 := some sigs.ed25519
      mldsa65 := some sigs.mldsa65
      fingerprintOk := some sigs.fingerprintOk
      certIdentityOk
      alg := member s "alg"
      keyId := member s "keyId"
      mldsa65Fpr
      signedAt := member s "signedAt"
      coveredBytes := member s "coveredBytes"
      uuaid := member s "uuaid"
      uuaidMatches
      failures := digestFailures ++ signatureFailures sigs ++ fprFailures ++ uuaidFailures ++
        certFailures }

-- ---------------------------------------------------------------------------
-- The document
-- ---------------------------------------------------------------------------

structure DocumentVerification where
  ok : Bool
  classical : VerifyResult
  postQuantum : PqSealVerdict

structure VerifyDocumentOptions extends VerifyPqSealOptions where
  requirePq : Bool := false

/-- `x > y` on numbers. -/
def exceeds : Double → Number → Bool
  | .finite x, .int n => n < x
  | .infinite false, .int _ => true
  | .finite _, .inf negative => negative
  | .infinite false, .inf negative => negative
  | _, _ => false

/-- `value > limit` on a value that is not null. -/
def valueExceeds (host : PqHost) (value : Json) (limit : Number) : Bool :=
  match value with
  | .number x => exceeds x limit
  | value => (host.toNumber value).any (exceeds · limit)

/-- The length the seal covers goes beyond the first signed range. -/
def beyondSignedRegion (host : PqHost) (classical : VerifyResult) (postQuantum : PqSealVerdict) :
    Bool :=
  match classical.byteRange, postQuantum.coveredBytes with
  | some _, some .null => false
  | some r, some covered => postQuantum.present && valueExceeds host covered (r.a + r.b)
  | _, _ => false

def verifyDocument (host : PqHost) (pdf : Buffer) (opts : VerifyDocumentOptions) :
    Except String DocumentVerification := do
  let classical := verifyPdfStructure host.forge pdf
  let found ← verifyPqSeal host pdf opts.toVerifyPqSealOptions
  let sealWithinSignedRegion := !beyondSignedRegion host classical found
  let checked :=
    if sealWithinSignedRegion then found
    else { found with failures := found.failures ++ [.outsideSignedRegion], ok := false }
  let postQuantum :=
    if opts.requirePq && !checked.present then
      { checked with failures := checked.failures ++ [.required] }
    else checked
  let pqSatisfied :=
    if postQuantum.present then postQuantum.ok && sealWithinSignedRegion else !opts.requirePq
  return { ok := classical.ok && pqSatisfied, classical, postQuantum }

end EsigSuite
