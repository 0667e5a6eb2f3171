import EsigSuite.Exchange.Multibase

/-!
# Proof verification

`esig-uaid-exch/src/verify.ts`: the key that a verification method names, the
check of one `DataIntegrityProof` and of both proofs of an exchange. A function
that throws gives the message of its error.
-/

namespace EsigSuite.Exchange

open Lib

-- ---------------------------------------------------------------------------
-- Keys
-- ---------------------------------------------------------------------------

def ED25519_MULTICODEC_PREFIX : Bytes := [0xed, 0x01]

def ALLOWED_JWK_FIELDS : List JsString := [js "kty", js "crv", js "x"]

/-- `JSON.stringify` in a template, where `undefined` stays what it is. -/
def stringified : Option Json → JsString
  | none => js "undefined"
  | some value => JsString.ofText (Json.stringify value)

def isLineTerminator (unit : UInt16) : Bool :=
  unit == 0x0a || unit == 0x0d || unit == 0x2028 || unit == 0x2029

/-- The first group of `/^did:key:([^#]+)(?:#.*)?$/` -/
def didKeyMatch (vm : JsString) : Option JsString :=
  if ¬ (js "did:key:").isPrefixOf vm then none
  else
    let rest := vm.drop (js "did:key:").length
    let id := rest.takeWhile (· != 35)
    let fragment := rest.dropWhile (· != 35)
    if id = [] ∨ fragment.any isLineTerminator then none else some id

def unsupportedMethod (vm : Option Json) : JsString :=
  js "unsupported verificationMethod: " ++ stringified vm

/-- `0x` and two hexadecimal digits at least. -/
def hexByte (byte : UInt8) : JsString :=
  js "0x" ++ JsString.ofText [Json.hexChar (byte.toNat / 16), Json.hexChar byte.toNat]

def publicKeyFromDidKey (vm : JsString) : Except JsString Bytes :=
  match didKeyMatch vm with
  | none => .error (unsupportedMethod (some (.string vm)))
  | some id =>
    match decodeMultibase (some (.string id)) with
    | .error message =>
      .error (js "unsupported did:key verificationMethod " ++ quoted vm ++ js ": " ++ message)
    | .ok decoded =>
      if decoded.length ≠ 34 ∨ decoded.take 2 ≠ ED25519_MULTICODEC_PREFIX then
        .error (js "unsupported did:key verificationMethod " ++ quoted vm ++
          js (": expected Ed25519 multicodec prefix 0xed 0x01 + 32 key bytes (34 bytes total), " ++
            "got ") ++ js (toString decoded.length) ++ js " bytes with prefix " ++
          hexByte (decoded.getD 0 0) ++ js " " ++ hexByte (decoded.getD 1 0))
      else .ok (decoded.drop 2)

/-- `Object.keys` of what is an object to `typeof`. -/
def objectKeys : Json → List JsString
  | .object members => members.map (·.1)
  | .array items => (List.range items.length).map fun i => js (toString i)
  | _ => []

def publicKeyFromVerificationMethod (vm : Option Json) : Except JsString Bytes :=
  match vm with
  | some (.string vm) => publicKeyFromDidKey vm
  | some value =>
    let extra := (objectKeys value).filter (¬ ALLOWED_JWK_FIELDS.contains ·)
    if extra ≠ [] then
      .error (js "unsupported Ed25519 JWK: unexpected extra field(s) " ++
        stringified (some (.array (extra.map .string))) ++
        js (" — only \x7bkty, crv, x\x7d is accepted (G6: no extra key material, e.g. a private " ++
          "\"d\")"))
    else
      match isString (js "OKP") (member value "kty") && isString (js "Ed25519") (member value "crv"),
          member value "x" with
      | true, some (.string x) =>
        match base64UrlDecode x with
        | .error message =>
          .error (js "unsupported Ed25519 JWK: invalid base64url \"x\" (" ++ message ++ js ")")
        | .ok raw =>
          if raw.length ≠ 32 then
            .error (js "unsupported Ed25519 JWK: expected 32-byte \"x\", got " ++
              js (toString raw.length))
          else .ok raw
      | _, _ => .error (unsupportedMethod vm)
  | none => .error (unsupportedMethod none)

-- ---------------------------------------------------------------------------
-- One proof
-- ---------------------------------------------------------------------------

/-- `node:crypto`. Keys are made of the bytes of a SubjectPublicKeyInfo. -/
structure ExchangeHost where
  KeyObject : Type
  sha256Hex : Bytes → JsString
  createPublicKey : Bytes → Except JsString KeyObject
  ed25519Verify : KeyObject → Bytes → Bytes → Bool

def ED25519_SPKI_PREFIX : Bytes :=
  [0x30, 0x2a, 0x30, 0x05, 0x06, 0x03, 0x2b, 0x65, 0x70, 0x03, 0x21, 0x00]

structure DataIntegrityProofOpts where
  publicKey : Option Bytes := none
  expectedProofPurpose : Option JsString := none

structure DataIntegrityVerifyResult where
  ok : Bool
  reason : Option JsString := none
  keyFingerprint : Option JsString := none
  verificationMethod : Json

/-- `value?.key` -/
def optional (value : Option Json) (key : String) : Option Json :=
  value.bind (member · key)

/-- The check of the signature, once there is a key. -/
def verifySignature (host : ExchangeHost) (document : JsValue) (proof : Option Json)
    (publicKey : Bytes) (verificationMethod : Json) : DataIntegrityVerifyResult :=
  if publicKey.length ≠ 32 then
    { ok := false, verificationMethod,
      reason := js "invalid public key length: expected 32 bytes, got " ++
        js (toString publicKey.length) }
  else
    let keyFingerprint := host.sha256Hex publicKey
    match decodeMultibase (optional proof "proofValue") with
    | .error message =>
      { ok := false, reason := js "bad multibase proofValue: " ++ message, keyFingerprint,
        verificationMethod }
    | .ok signature =>
      let sigOk : Except JsString Bool := do
        let keyObject ← host.createPublicKey (ED25519_SPKI_PREFIX ++ publicKey)
        let signedBytes ← jcsBytes document
        return host.ed25519Verify keyObject signedBytes signature
      match sigOk with
      | .error message =>
        { ok := false, reason := js "verification error: " ++ message, verificationMethod }
      | .ok false =>
        { ok := false, reason := js "signature verification failed", keyFingerprint,
          verificationMethod }
      | .ok true => { ok := true, keyFingerprint, verificationMethod }

/-- `opts.publicKey ?? publicKeyFromVerificationMethod(proof.verificationMethod)` -/
def resolveKey (passed : Option Bytes) (proof : Option Json) : Except JsString Bytes :=
  match passed with
  | some publicKey => .ok publicKey
  | none => publicKeyFromVerificationMethod (optional proof "verificationMethod")

def verifyDataIntegrityProof (host : ExchangeHost) (document : JsValue) (proof : Option Json)
    (opts : DataIntegrityProofOpts) : DataIntegrityVerifyResult :=
  let verificationMethod :=
    match optional proof "verificationMethod" with
    | none | some .null => .string []
    | some vm => vm
  if ¬ isString (js "DataIntegrityProof") (optional proof "type") then
    { ok := false, verificationMethod,
      reason := js "unsupported proof type: " ++ stringified (optional proof "type") }
  else if ¬ isString (js "eddsa-jcs-2022") (optional proof "cryptosuite") then
    { ok := false, verificationMethod,
      reason := js "unsupported cryptosuite: " ++ stringified (optional proof "cryptosuite") }
  else if opts.expectedProofPurpose.any (¬ isString · (optional proof "proofPurpose")) then
    { ok := false, verificationMethod,
      reason := js "proofPurpose mismatch: expected \"" ++ opts.expectedProofPurpose.getD [] ++
        js "\", got \"" ++ templateOf (optional proof "proofPurpose") ++ js "\"" }
  else
    match resolveKey opts.publicKey proof with
    | .error message => { ok := false, reason := message, verificationMethod }
    | .ok publicKey => verifySignature host document proof publicKey verificationMethod

def verifyChallengeProof (host : ExchangeHost) (challenge : JsValue) (proof : Option Json)
    (opts : DataIntegrityProofOpts) : DataIntegrityVerifyResult :=
  verifyDataIntegrityProof host challenge proof opts

-- ---------------------------------------------------------------------------
-- Both proofs of an exchange
-- ---------------------------------------------------------------------------

structure VerifyExchangeOpts where
  agentPublicKey : Option Bytes := none
  issuerPublicKey : Option Bytes := none

structure VerifyExchangeResult where
  ok : Bool
  agent : DataIntegrityVerifyResult
  issuer : DataIntegrityVerifyResult
  failures : List JsString

/-- `const { proof, ...documentBody } = exchange` -/
def documentBody : Json → JsValue
  | .object members => .ofJson (.object (members.filter (·.1 != js "proof")))
  | _ => .object []

def wrongProofCount (count : JsString) : VerifyExchangeResult :=
  let reason := js "expected exactly 2 proofs (agent, issuer), got " ++ count
  let unresolved : DataIntegrityVerifyResult :=
    { ok := false, reason, verificationMethod := .string [] }
  { ok := false, agent := unresolved, issuer := unresolved, failures := [reason] }

def failureOf (name : String) (result : DataIntegrityVerifyResult) : List JsString :=
  if result.ok then [] else [js name ++ js ": " ++ result.reason.getD (js "undefined")]

def verifyExchange (host : ExchangeHost) (exchange : Json) (opts : VerifyExchangeOpts) :
    VerifyExchangeResult :=
  match member exchange "proof" with
  | some (.array [agentProof, issuerProof]) =>
    let body := documentBody exchange
    let agent := verifyDataIntegrityProof host body (some agentProof)
      { publicKey := opts.agentPublicKey, expectedProofPurpose := js "authentication" }
    let issuer := verifyDataIntegrityProof host body (some issuerProof)
      { publicKey := opts.issuerPublicKey, expectedProofPurpose := js "assertionMethod" }
    { ok := agent.ok && issuer.ok, agent, issuer,
      failures := failureOf "agent" agent ++ failureOf "issuer" issuer }
  | some (.array proof) => wrongProofCount (js (toString proof.length))
  | _ => wrongProofCount (js "none")

-- ---------------------------------------------------------------------------
-- When a proof is accepted
-- ---------------------------------------------------------------------------

/-- The signature verifies under the key. -/
def Signed (host : ExchangeHost) (publicKey message signature : Bytes) : Prop :=
  publicKey.length = 32 ∧ ∃ keyObject,
    host.createPublicKey (ED25519_SPKI_PREFIX ++ publicKey) = .ok keyObject ∧
      host.ed25519Verify keyObject message signature = true

theorem verifySignature_ok {host : ExchangeHost} {document : JsValue} {proof : Option Json}
    {publicKey : Bytes} {vm : Json} :
    (verifySignature host document proof publicKey vm).ok = true ↔
      ∃ signature message, decodeMultibase (optional proof "proofValue") = .ok signature ∧
        jcsBytes document = .ok message ∧ Signed host publicKey message signature := by
  unfold verifySignature
  constructor
  · intro h
    split at h
    · cases h
    next hlength =>
      split at h
      · cases h
      next signature hsignature =>
        dsimp only at h
        split at h
        · cases h
        · cases h
        next hok =>
          cases hkey : host.createPublicKey (ED25519_SPKI_PREFIX ++ publicKey) with
          | error e => rw [hkey] at hok; cases hok
          | ok keyObject =>
            cases hbytes : jcsBytes document with
            | error e => rw [hkey, hbytes] at hok; cases hok
            | ok message =>
              rw [hkey, hbytes] at hok
              exact ⟨signature, message, hsignature, rfl, not_not.mp hlength, keyObject, hkey,
                Except.ok.inj hok⟩
  · rintro ⟨signature, message, hsignature, hbytes, hlength, keyObject, hkey, hverify⟩
    rw [if_neg (not_not.mpr hlength), hsignature]
    simp only [hkey, hbytes, bind, Except.bind, pure, Except.pure, hverify]

/-- The fields that a proof must have. -/
def Formed (proof : Option Json) (purpose : JsString) : Prop :=
  isString (js "DataIntegrityProof") (optional proof "type") = true ∧
    isString (js "eddsa-jcs-2022") (optional proof "cryptosuite") = true ∧
      isString purpose (optional proof "proofPurpose") = true

/-- A proof that is accepted is the signature of the document under its key. -/
theorem verifyDataIntegrityProof_ok {host : ExchangeHost} {document : JsValue}
    {proof : Option Json} {passed : Option Bytes} {purpose : JsString} :
    (verifyDataIntegrityProof host document proof
        { publicKey := passed, expectedProofPurpose := some purpose }).ok = true ↔
      Formed proof purpose ∧ ∃ publicKey signature message,
        resolveKey passed proof = .ok publicKey ∧
          decodeMultibase (optional proof "proofValue") = .ok signature ∧
            jcsBytes document = .ok message ∧ Signed host publicKey message signature := by
  unfold verifyDataIntegrityProof Formed
  constructor
  · intro h
    dsimp only at h
    split at h
    · cases h
    next htype =>
      split at h
      · cases h
      next hsuite =>
        split at h
        · cases h
        next hpurpose =>
          split at h
          · cases h
          next publicKey hkey =>
            obtain ⟨signature, message, hrest⟩ := verifySignature_ok.mp h
            have hpurpose' : isString purpose (optional proof "proofPurpose") = true := by
              simpa using hpurpose
            exact ⟨⟨not_not.mp htype, not_not.mp hsuite, hpurpose'⟩, publicKey, signature, message,
              hkey, hrest⟩
  · rintro ⟨⟨htype, hsuite, hpurpose⟩, publicKey, signature, message, hkey, hrest⟩
    have hverified (vm : Json) : (verifySignature host document proof publicKey vm).ok = true :=
      verifySignature_ok.mpr ⟨signature, message, hrest⟩
    simp only [htype, hsuite, hpurpose, hkey, hverified, Option.any_some, not_true_eq_false,
      if_false, decide_false, Bool.false_eq_true]

end EsigSuite.Exchange
