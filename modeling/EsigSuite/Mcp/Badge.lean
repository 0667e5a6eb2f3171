import EsigSuite.Exchange.Verify
import EsigSuite.Lib.JsRegex
import EsigSuite.Mcp.Identity
import EsigSuite.Pdf.PqSeal

/-!
# Badges and keys

`identity/badge.ts` on the JSON that the registry answers, and the other pure
functions that `identity/verify.ts` is given: the proof over a challenge, the
keys of proofs and credentials, and the identifier that a key derives.
-/

namespace EsigSuite.Badge

open Lib
open Exchange (ExchangeHost Signed)

/-- Beside `node:crypto` what is used of strings and dates: no time is one that
is not finite. -/
structure BadgeHost extends ExchangeHost where
  toLowerCase : JsString → JsString
  dateParse : JsString → Option Time
  toISOString : Time → JsString

-- ---------------------------------------------------------------------------
-- The badge
-- ---------------------------------------------------------------------------

/-- `BadgeError` by its reason, and any other error. -/
inductive BadgeFailure
  | badge (reason : String)
  | other (message : JsString)

def isHex (unit : UInt16) : Bool :=
  inRange 0x30 0x39 unit || inRange 0x41 0x46 unit || inRange 0x61 0x66 unit

/-- `Buffer.from(hex, "hex")` of hexadecimal digits. -/
def fromHex (hex : JsString) : List UInt8 :=
  Radix.pairs (hex.map fun unit => Char.ofNat unit.toNat)

def hexToBytes (hex : JsString) (bytes : Nat) : Except BadgeFailure (List UInt8) :=
  if hex.length ≠ bytes * 2 ∨ hex = [] ∨ ¬ hex.all isHex then .error (.badge "BADGE_MALFORMED")
  else .ok (fromHex hex)

def ed25519Verify (host : BadgeHost) (msg publicKey signature : List UInt8) : Bool :=
  match host.createPublicKey (Exchange.ED25519_SPKI_PREFIX ++ publicKey) with
  | .error _ => false
  | .ok key => host.ed25519Verify key msg signature

def isObject : Lib.Json → Bool
  | .object _ | .array _ => true
  | _ => false

/-- A badge with the fields that it must have. -/
structure BadgeEnvelope where
  payload : Lib.Json
  payloadHash : JsString
  freshUntil : JsString
  signatures : List Lib.Json

def badgeEnvelope (raw : Lib.Json) : Option BadgeEnvelope := do
  let payload ← member raw "payload"
  let subject ← member payload "subject"
  match member subject "uuaid", member payload "freshUntil", member raw "payloadHash",
      member raw "signatures" with
  | some (.string _), some (.string freshUntil), some (.string payloadHash),
      some (.array signatures) =>
    if signatures = [] then none
    else some { payload, payloadHash, freshUntil, signatures }
  | _, _, _, _ => none

/-- One entry of the loop: whether it is of the pinned key. -/
def checkSignature (host : BadgeHost) (msg : List UInt8) (pinned : JsString) (sig : Lib.Json) :
    Except BadgeFailure Bool :=
  if ¬ isObject sig then .error (.badge "BADGE_MALFORMED")
  else if ¬ isString (js "ed25519") (member sig "alg") then .ok false
  else
    match member sig "publicKey", member sig "signature" with
    | some (.string publicKey), some (.string signature) => do
      let ok := ed25519Verify host msg (← hexToBytes publicKey 32) (← hexToBytes signature 64)
      if ok then return host.toLowerCase publicKey = pinned
      else throw (.badge "BADGE_SIGNATURE_INVALID")
    | _, _ => .error (.badge "BADGE_MALFORMED")

/-- Its payload, where the badge is to be trusted. -/
def verifyRegistryBadge (host : BadgeHost) (raw : Lib.Json) (pinnedRegistryKey : JsString)
    (now : Time) : Except BadgeFailure Lib.Json :=
  match badgeEnvelope raw with
  | none => .error (.badge "BADGE_MALFORMED")
  | some env =>
    match Exchange.jcsBytes (.ofJson env.payload) with
    | .error message => .error (.other message)
    | .ok msg => do
      if js "0x" ++ host.sha256Hex msg ≠ host.toLowerCase env.payloadHash then
        throw (.badge "BADGE_HASH_MISMATCH")
      let pinned := host.toLowerCase pinnedRegistryKey
      let found ← env.signatures.mapM (checkSignature host msg pinned)
      if ¬ found.contains true then throw (.badge "BADGE_ISSUER_UNTRUSTED")
      match host.dateParse env.freshUntil with
      | none => throw (.badge "BADGE_STALE")
      | some freshUntilMs =>
        if freshUntilMs < now then throw (.badge "BADGE_STALE")
        else return env.payload

-- ---------------------------------------------------------------------------
-- As the checks of an identity have it
-- ---------------------------------------------------------------------------

/-- A string as text. One that is not well formed is no text that is asked for. -/
def text (s : JsString) : String :=
  let t := String.ofList (scalars s)
  if js t = s then t else ""

def textOf : Option Lib.Json → String
  | some (.string s) => text s
  | _ => ""

def presentationKey (subject : Option Lib.Json) : Option PresentationKey :=
  let key := Exchange.optional subject "presentationKey"
  if truthy key then
    some { alg := textOf (Exchange.optional key "alg"),
           publicKey := textOf (Exchange.optional key "publicKey") }
  else none

def badgePayload (payload : Lib.Json) : BadgePayload :=
  let subject := member payload "subject"
  { uuaid := textOf (Exchange.optional subject "uuaid"),
    presentationKey := presentationKey subject,
    status := textOf (member payload "status") }

/-- The reason that `verify.ts` gives for it. -/
def BadgeFailure.reason : BadgeFailure → String
  | .badge reason => reason
  | .other _ => "BADGE_MALFORMED"

def CHALLENGE_TYPE : JsString := js "esig-signer-challenge/v1"

def challengeDocument (host : BadgeHost) (payload : IdentityChallengePayload) : JsValue :=
  .object [
    (js "type", .string CHALLENGE_TYPE),
    (js "envelopeId", .string (js payload.envelopeId)),
    (js "signerId", .string (js payload.signerId)),
    (js "htmlSha256", .string (js payload.htmlSha256)),
    (js "nonce", .string (js payload.nonce)),
    (js "issuedAt", .string (host.toISOString payload.issuedAt)),
    (js "expiresAt", .string (host.toISOString payload.expiresAt))]

/-- The verification of a proof over a challenge. -/
def challengeResult (host : BadgeHost) (payload : IdentityChallengePayload) (proof : String) :
    Exchange.DataIntegrityVerifyResult :=
  Exchange.verifyChallengeProof host.toExchangeHost (challengeDocument host payload)
    (Lib.Json.parse proof.toList) { expectedProofPurpose := js "authentication" }

def methodOf (proof : String) : Option Lib.Json :=
  Exchange.optional (Lib.Json.parse proof.toList) "verificationMethod"

def trim (s : JsString) : JsString :=
  ((s.dropWhile isWhiteUnit).reverse.dropWhile isWhiteUnit).reverse

def publicKeyFromCredentialKey (publicKey : JsString) : Option (List UInt8) :=
  let trimmed := trim publicKey
  if (js "\x7b").isPrefixOf trimmed then
    (Lib.Json.parse (scalars trimmed)).bind fun parsed =>
      (Exchange.publicKeyFromVerificationMethod (some parsed)).toOption
  else (Exchange.publicKeyFromVerificationMethod (some (.string trimmed))).toOption

def FOUNDATION_AGENT_UUAID_PREFIX : JsString := js "uuaid:foundation:agent:"

/-- `[0-9a-f]` -/
def isLowerHex (unit : UInt16) : Bool := inRange 0x30 0x39 unit || inRange 0x61 0x66 unit

/-- `FOUNDATION_AGENT_UUAID_RE` -/
def isFoundationAgent (uuaid : JsString) : Bool :=
  FOUNDATION_AGENT_UUAID_PREFIX.isPrefixOf uuaid &&
    let groups := (uuaid.drop FOUNDATION_AGENT_UUAID_PREFIX.length).splitOn 0x2D
    groups.map (·.length) == [8, 4, 4, 4, 12] && groups.all (·.all isLowerHex)

/-- Of a key of 32 bytes. -/
def localIdFromEd25519Key (host : BadgeHost) (raw : List UInt8) : JsString :=
  let hex := (host.sha256Hex raw).take 32
  let part (start stop : Nat) := (hex.take stop).drop start
  part 0 8 ++ js "-" ++ part 8 12 ++ js "-" ++ part 12 16 ++ js "-" ++ part 16 20 ++ js "-" ++
    part 20 32

def uuaidFromEd25519Key (host : BadgeHost) (raw : List UInt8) : JsString :=
  FOUNDATION_AGENT_UUAID_PREFIX ++ localIdFromEd25519Key host raw

def identityChecks (host : BadgeHost) : IdentityChecks where
  isWellFormedUuaidAssertion uuaid := isWellFormedUuaidAssertion (js uuaid)
  verifyChallengeProof payload proof :=
    let result := challengeResult host payload proof
    if result.ok then .ok (text (result.keyFingerprint.getD []))
    else .error (text (result.reason.getD []))
  publicKeyFromProof proof :=
    (Exchange.publicKeyFromVerificationMethod (methodOf proof)).toOption.getD []
  publicKeyFromCredentialKey publicKey := publicKeyFromCredentialKey (js publicKey)
  isFoundationAgent uuaid := isFoundationAgent (js uuaid)
  uuaidFromEd25519Key raw := text (uuaidFromEd25519Key host raw)
  verifyRegistryBadge raw pinnedRegistryKey now :=
    match Lib.Json.parse raw.toList with
    | none => .error "BADGE_MALFORMED"
    | some raw =>
      match verifyRegistryBadge host raw (js pinnedRegistryKey) now with
      | .error failure => .error failure.reason
      | .ok payload => .ok (badgePayload payload)
  hexToBytes hex := (hexToBytes (js hex) 32).toOption

section
variable (host : BadgeHost)

@[simp] theorem identityChecks_wellFormed (uuaid : String) :
    (identityChecks host).isWellFormedUuaidAssertion uuaid =
      isWellFormedUuaidAssertion (js uuaid) := rfl

end

-- ---------------------------------------------------------------------------
-- When a badge is trusted
-- ---------------------------------------------------------------------------

end EsigSuite.Badge
