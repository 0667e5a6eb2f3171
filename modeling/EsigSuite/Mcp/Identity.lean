import EsigSuite.Envelope.Core
import Mathlib.Algebra.GroupWithZero.Nat
import Mathlib.Logic.Function.Basic

/-!
# Signer identity

`identity/types.ts`, `identity/challenge.ts` and `identity/verify.ts`: what is
kept of a signer's identity on the envelope, the challenge, and the check of a
proof against a level. Signature schemes, badges and the registry are
parameters.
-/

namespace EsigSuite

-- ---------------------------------------------------------------------------
-- Types
-- ---------------------------------------------------------------------------

namespace IdentityLevel

/-- `IDENTITY_LEVEL_ORDER` -/
def order : IdentityLevel → Nat
  | none => 0
  | L0 => 1
  | L1 => 2
  | L1p => 3
  | L2 => 4

end IdentityLevel

def maxIdentityLevel (a b : IdentityLevel) : IdentityLevel := if a.order ≥ b.order then a else b

/-- The text of a JSON value. -/
abbrev JsonText := String

structure SignerPolicy where
  expectedUuaid : Option String

/-- `Record<string, _>` is a function to options. -/
structure EnvelopeIdentityPolicy where
  minLevel : IdentityLevel
  signers : String → Option SignerPolicy
  registryUrl : Option String := none

structure SignerChallengeState where
  nonce : String
  issuedAt : Time
  expiresAt : Time
  consumed : Bool

structure SignerIdentityRegistryRecord where
  resolvedAt : Time
  credentialId : Option String := none
  credentialValid : Option Bool := none
  registrySnapshotDigest : Option String := none

structure SignerIdentityRecord where
  level : IdentityLevel
  uuaid : String
  keyFingerprint : Option String := none
  proofDigest : Option String := none
  credentialDigest : Option String := none
  verifiedAt : Time
  registry : Option SignerIdentityRegistryRecord := none

structure SignerIdentityState where
  challenge : Option SignerChallengeState := none
  verified : Option SignerIdentityRecord := none

structure EnvelopeIdentityMetadata where
  policy : Option EnvelopeIdentityPolicy := none
  signers : String → Option SignerIdentityState := fun _ => none

/-- `envelope.metadata`, of which only `mcp` is used. What neither the identity
nor the content pin reads (events, links, seal, document) is `rest`. -/
structure McpMetadata (ρ : Type) where
  htmlSha256 : Option String
  identity : EnvelopeIdentityMetadata
  rest : ρ

structure CredentialKey where
  publicKey : Option String
  keyId : Option String

structure UaidSigningCredential where
  id : String
  /-- `credentialSubject?.key` -/
  key : Option CredentialKey
  json : JsonText

structure IdentityProofInput where
  uuaid : String
  proof : Option JsonText := none
  credential : Option UaidSigningCredential := none

-- ---------------------------------------------------------------------------
-- The accessors of `metadata.mcp.identity`
-- ---------------------------------------------------------------------------

section
variable {ρ : Type} [Inhabited ρ]

def mcpBucket (envelope : Envelope (McpMetadata ρ)) : McpMetadata ρ :=
  envelope.metadata.getD ⟨none, {}, default⟩

def getEnvelopeIdentityPolicy (envelope : Envelope (McpMetadata ρ)) :
    Option EnvelopeIdentityPolicy :=
  (mcpBucket envelope).identity.policy

def getPinnedHtmlSha256 (envelope : Envelope (McpMetadata ρ)) : Option String :=
  (mcpBucket envelope).htmlSha256

def setEnvelopeIdentityPolicy (envelope : Envelope (McpMetadata ρ))
    (policy : EnvelopeIdentityPolicy) : Envelope (McpMetadata ρ) :=
  let mcp := mcpBucket envelope
  { envelope with metadata := some { mcp with identity := { mcp.identity with policy } } }

def getSignerIdentityState (envelope : Envelope (McpMetadata ρ)) (signerId : String) :
    Option SignerIdentityState :=
  (mcpBucket envelope).identity.signers signerId

def setSignerIdentityState (envelope : Envelope (McpMetadata ρ)) (signerId : String)
    (state : SignerIdentityState) : Envelope (McpMetadata ρ) :=
  let mcp := mcpBucket envelope
  { envelope with
    metadata := some { mcp with
      identity := { mcp.identity with
        signers := Function.update mcp.identity.signers signerId (some state) } } }

end

-- ---------------------------------------------------------------------------
-- What comes from outside
-- ---------------------------------------------------------------------------

structure IdentityChallengePayload where
  envelopeId : String
  signerId : String
  htmlSha256 : String
  nonce : String
  issuedAt : Time
  expiresAt : Time

inductive RegistryFailure
  /-- `RegistryNotFoundError` -/
  | notFound (message : String)
  | other (message : String)

structure PresentationKey where
  alg : String
  publicKey : String

structure BadgePayload where
  /-- `subject.uuaid` -/
  uuaid : String
  /-- `subject.presentationKey` -/
  presentationKey : Option PresentationKey
  status : String

structure CredentialStatus where
  valid : Bool
  active : Bool
  notExpired : Bool
  reason : Option String
  agentUuaid : Option String

structure RegistryClient (m : Type → Type) where
  badge : String → m (Except RegistryFailure JsonText)
  verifyCredential : String → m (Except RegistryFailure CredentialStatus)

/-- The pure functions of `uaid-exch`, `badge.ts` and `level.ts`. Keys are
lists of bytes. -/
structure IdentityChecks where
  isWellFormedUuaidAssertion : String → Bool
  /-- The fingerprint of the key, or why the proof is refused. -/
  verifyChallengeProof : IdentityChallengePayload → JsonText → Except String String
  publicKeyFromProof : JsonText → List UInt8
  publicKeyFromCredentialKey : String → Option (List UInt8)
  isFoundationAgent : String → Bool
  uuaidFromEd25519Key : List UInt8 → String
  /-- With the reason of a `BadgeError`. -/
  verifyRegistryBadge : JsonText → String → Time → Except String BadgePayload
  hexToBytes : String → Option (List UInt8)

structure IdentityEnv (m : Type → Type) extends IdentityChecks where
  persistIdentityBlob : JsonText → m String
  registry : Option (RegistryClient m)
  configuredRegistryUrl : Option String
  registrySigningKey : Option String

-- ---------------------------------------------------------------------------
-- The challenge
-- ---------------------------------------------------------------------------

section
variable {ρ : Type} [Inhabited ρ] {m : Type → Type} [Monad m] [MonadExceptOf Thrown m]

def IdentityChallengePayload.of (envelopeId signerId htmlSha256 : String)
    (challenge : SignerChallengeState) : IdentityChallengePayload :=
  { envelopeId, signerId, htmlSha256, nonce := challenge.nonce, issuedAt := challenge.issuedAt,
    expiresAt := challenge.expiresAt }

/-- `ChallengeError` -/
def challengeError (message : String) : Thrown := .error message

/-- A live challenge is handed out again. -/
def issueChallenge (store : EnvelopeStore (McpMetadata ρ) m) (env : EnvelopeEnv m)
    (tenantId envelopeId signerId : String) (ttlSec : Nat) : m IdentityChallengePayload := do
  let now ← env.now
  match ← store.findById tenantId envelopeId with
  | none => throw (challengeError ("envelope not found: " ++ envelopeId))
  | some envelope =>
    throwIf (¬ envelope.signers.any (·.id == signerId))
      (challengeError ("signer not found: " ++ signerId ++ " on envelope " ++ envelopeId))
    match getPinnedHtmlSha256 envelope with
    | none =>
      throw (challengeError ("envelope " ++ envelope.id ++
        " has no pinned base-html digest (metadata.mcp.htmlSha256) — cannot issue an identity " ++
        "challenge"))
    | some htmlSha256 =>
      let prior := (getSignerIdentityState envelope signerId).getD {}
      match prior.challenge.filter fun c => !c.consumed && c.expiresAt > now with
      | some existing => return .of envelope.id signerId htmlSha256 existing
      | none =>
        let nonce ← env.randomToken
        let challenge : SignerChallengeState :=
          { nonce, issuedAt := now, expiresAt := now + ttlSec * 1000, consumed := false }
        let _ ← store.update (setSignerIdentityState envelope signerId
          { prior with challenge := some challenge })
        return .of envelope.id signerId htmlSha256 challenge

/-- The re-validation of a fresh read: the challenge, or the reason. -/
def liveChallenge (state : Option SignerIdentityState) (nonce : String) (now : Time) :
    Except String SignerChallengeState :=
  match state.bind (·.challenge) with
  | none => .error "no challenge has been issued for this signer"
  | some challenge =>
    if challenge.consumed then .error "challenge nonce already consumed"
    else if challenge.nonce ≠ nonce then
      .error "nonce does not match the currently issued challenge"
    else if challenge.expiresAt ≤ now then .error "challenge has expired"
    else .ok challenge

/-- Consumes the nonce and records the identity in one write, with the given
number of attempts left. -/
def finalizeAttempts (store : EnvelopeStore (McpMetadata ρ) m) (now : Time)
    (tenantId envelopeId signerId nonce : String) (record : SignerIdentityRecord) :
    Nat → m (Except String Unit)
  | 0 => return .error "could not finalize identity verification (concurrent update contention)"
  | attempts + 1 => do
    match ← store.findById tenantId envelopeId with
    | none => return .error ("envelope not found: " ++ envelopeId)
    | some envelope =>
      let state := getSignerIdentityState envelope signerId
      match liveChallenge state nonce now with
      | .error reason => return .error reason
      | .ok challenge =>
        let written := setSignerIdentityState envelope signerId
          { challenge := some { challenge with consumed := true }, verified := some record }
        let outcome ← tryCatchThe Thrown (do let _ ← store.update written; return none)
          fun e => return some e
        match outcome with
        | none => return .ok ()
        | some e =>
          if attempts = 0 then throw e
          else finalizeAttempts store now tenantId envelopeId signerId nonce record attempts

def MAX_FINALIZE_ATTEMPTS : Nat := 5

def finalizeChallenge (store : EnvelopeStore (McpMetadata ρ) m) (env : EnvelopeEnv m)
    (tenantId envelopeId signerId nonce : String) (record : SignerIdentityRecord) :
    m (Except String Unit) := do
  let now ← env.now
  finalizeAttempts store now tenantId envelopeId signerId nonce record MAX_FINALIZE_ATTEMPTS

-- ---------------------------------------------------------------------------
-- Verification
-- ---------------------------------------------------------------------------

structure VerifySignerIdentityInput where
  tenantId : String
  envelopeId : String
  signerId : String
  minLevel : IdentityLevel
  expectedUuaid : Option String
  proof : Option IdentityProofInput
  pinnedRegistryUrl : Option String

def identityError (input : VerifySignerIdentityInput) (reason : String) (uuaid : Option String) :
    Thrown :=
  .identity reason uuaid input.minLevel

/-- L0: the proof, if its uuaid is well formed and the pinned one. -/
def checkUuaid (ienv : IdentityEnv m) (input : VerifySignerIdentityInput) :
    m IdentityProofInput := do
  match input.proof with
  | none => throw (identityError input "IDENTITY_PROOF_REQUIRED" none)
  | some proof =>
    throwIf (¬ ienv.isWellFormedUuaidAssertion proof.uuaid)
      (identityError input "L0_MALFORMED_UUAID" proof.uuaid)
    throwIf (input.expectedUuaid ≠ none ∧ input.expectedUuaid ≠ some proof.uuaid)
      (identityError input "L0_UUAID_MISMATCH" proof.uuaid)
    return proof

/-- `persistL0Record`, with the given number of attempts left. -/
def persistL0Attempts (store : EnvelopeStore (McpMetadata ρ) m)
    (tenantId envelopeId signerId : String) (record : SignerIdentityRecord) : Nat → m Unit
  | 0 => return ()
  | attempts + 1 => do
    match ← store.findById tenantId envelopeId with
    | none => throw (.identity "ENVELOPE_NOT_FOUND" record.uuaid record.level)
    | some envelope =>
      let state := (getSignerIdentityState envelope signerId).getD {}
      let written := setSignerIdentityState envelope signerId
        { state with verified := some record }
      let outcome ← tryCatchThe Thrown (do let _ ← store.update written; return none)
        fun e => return some e
      match outcome with
      | none => return ()
      | some e =>
        if attempts = 0 then throw e
        else persistL0Attempts store tenantId envelopeId signerId record attempts

def MAX_L0_PERSIST_ATTEMPTS : Nat := 5

/-- The challenge and the proof over it: the challenge, and the fingerprint of
the key. -/
def checkChallengeProof (store : EnvelopeStore (McpMetadata ρ) m) (env : EnvelopeEnv m)
    (ienv : IdentityEnv m) (input : VerifySignerIdentityInput) (uuaid : String) (proof : JsonText) :
    m (SignerChallengeState × String) := do
  match ← store.findById input.tenantId input.envelopeId with
  | none => throw (identityError input "ENVELOPE_NOT_FOUND" uuaid)
  | some envelope =>
    match (getSignerIdentityState envelope input.signerId).bind (·.challenge) with
    | none => throw (identityError input "L1_NO_CHALLENGE" uuaid)
    | some challenge =>
      throwIf challenge.consumed (identityError input "L1_NONCE_CONSUMED" uuaid)
      throwIf (challenge.expiresAt ≤ (← env.now)) (identityError input "L1_CHALLENGE_EXPIRED" uuaid)
      match getPinnedHtmlSha256 envelope with
      | none => throw (identityError input "ENVELOPE_MISSING_HTML_DIGEST" uuaid)
      | some htmlSha256 =>
        match ienv.verifyChallengeProof (.of envelope.id input.signerId htmlSha256 challenge)
            proof with
        | .error _ => throw (identityError input "L1_PROOF_INVALID" uuaid)
        | .ok keyFingerprint => return (challenge, keyFingerprint)

def MAX_UNTRUSTED_IDENTITY_STRING_LEN : Nat := 256

/-- `assertSafeIdentityString`; lengths are in UTF-16 units. -/
def assertSafeIdentityString (input : VerifySignerIdentityInput) (value : String)
    (uuaid : String) : m Unit := do
  let units := (value.toList.map fun c => if c.val < 0x10000 then 1 else 2).sum
  throwIf (units > MAX_UNTRUSTED_IDENTITY_STRING_LEN)
    (identityError input "L1_UNSAFE_IDENTITY_STRING" uuaid)
  throwIf (value.toList.any fun c => c.val ≤ 0x1f || c.val == 0x7f)
    (identityError input "L1_UNSAFE_IDENTITY_STRING" uuaid)

def assertSafeOptional (input : VerifySignerIdentityInput) (value : Option String)
    (uuaid : String) : m Unit :=
  match value with
  | none => pure ()
  | some value => assertSafeIdentityString input value uuaid

/-- A presented credential names the key of the proof. Its digest. -/
def checkCredential (ienv : IdentityEnv m) (input : VerifySignerIdentityInput) (uuaid : String)
    (proofRawKey : List UInt8) : Option UaidSigningCredential → m (Option String)
  | none => return none
  | some credential => do
    assertSafeIdentityString input credential.id uuaid
    match credential.key.bind (·.publicKey) with
    | none => throw (identityError input "L1_CREDENTIAL_KEY_MISSING" uuaid)
    | some publicKey =>
      throwIf (publicKey = "") (identityError input "L1_CREDENTIAL_KEY_MISSING" uuaid)
      assertSafeOptional input (credential.key.bind (·.keyId)) uuaid
      match ienv.publicKeyFromCredentialKey publicKey with
      | none => throw (identityError input "L1_CREDENTIAL_KEY_UNSUPPORTED" uuaid)
      | some credentialRawKey =>
        throwIf (proofRawKey ≠ credentialRawKey)
          (identityError input "L1_CREDENTIAL_KEY_MISMATCH" uuaid)
        return some (← ienv.persistIdentityBlob credential.json)

/-- L1p where the uuaid is a `foundation:agent` one; it must then be the one of
the key. -/
def agentLevel (ienv : IdentityEnv m) (input : VerifySignerIdentityInput) (uuaid : String)
    (proofRawKey : List UInt8) : m IdentityLevel :=
  if ienv.isFoundationAgent uuaid then
    if ienv.uuaidFromEd25519Key proofRawKey = uuaid then pure .L1p
    else throw (identityError input "L1P_KEY_UUAID_MISMATCH" uuaid)
  else pure .L1

def localLevel (ienv : IdentityEnv m) (input : VerifySignerIdentityInput) (uuaid : String)
    (proofRawKey : List UInt8) : m IdentityLevel := do
  let level ← agentLevel ienv input uuaid proofRawKey
  throwIf (input.minLevel = .L1p ∧ level ≠ .L1p) (identityError input "L1P_REQUIRED" uuaid)
  return level

/-- A registry that knows the uuaid under another key is not overruled. -/
def checkDisagreement (env : EnvelopeEnv m) (ienv : IdentityEnv m)
    (input : VerifySignerIdentityInput) (uuaid : String) (proofRawKey : List UInt8)
    (level : IdentityLevel) : m Unit := do
  match ienv.registry, ienv.registrySigningKey with
  | some registry, some registrySigningKey =>
    if level = .L1p ∧ input.minLevel ≠ .L2 then
      match ← registry.badge uuaid with
      | .error _ => pure ()
      | .ok badgeRaw =>
        match ienv.verifyRegistryBadge badgeRaw registrySigningKey (← env.now) with
        | .error _ => pure ()
        | .ok badge =>
          match badge.presentationKey with
          | none => pure ()
          | some key =>
            if badge.uuaid = uuaid ∧ key.alg = "ed25519" then
              match ienv.hexToBytes key.publicKey with
              | none => pure ()
              | some badgeKeyBytes =>
                throwIf (proofRawKey ≠ badgeKeyBytes)
                  (identityError input "L2_L1P_DISAGREEMENT" uuaid)
            else pure ()
    else pure ()
  | _, _ => pure ()

/-- The registry's badge for the uuaid attests the key. The badge itself. -/
def checkBadge (env : EnvelopeEnv m) (ienv : IdentityEnv m) (input : VerifySignerIdentityInput)
    (uuaid : String) (proofRawKey : List UInt8) (registry : RegistryClient m) : m JsonText := do
  throwIf (input.pinnedRegistryUrl ≠ none ∧ input.pinnedRegistryUrl ≠ ienv.configuredRegistryUrl)
    (identityError input "L2_REGISTRY_URL_CHANGED" uuaid)
  match ienv.registrySigningKey with
  | none => throw (identityError input "L2_NO_REGISTRY_KEY" uuaid)
  | some registrySigningKey =>
    match ← registry.badge uuaid with
    | .error (.notFound _) => throw (identityError input "L2_UUAID_NOT_FOUND" uuaid)
    | .error (.other _) => throw (identityError input "L2_REGISTRY_UNAVAILABLE" uuaid)
    | .ok badgeRaw =>
      match ienv.verifyRegistryBadge badgeRaw registrySigningKey (← env.now) with
      | .error reason => throw (identityError input ("L2_" ++ reason) uuaid)
      | .ok badge =>
        throwIf (badge.uuaid ≠ uuaid) (identityError input "L2_BADGE_SUBJECT_MISMATCH" uuaid)
        throwIf (badge.status ≠ "active") (identityError input "L2_UUAID_NOT_ACTIVE" uuaid)
        match badge.presentationKey with
        | none => throw (identityError input "L2_KEY_NOT_BOUND" uuaid)
        | some key =>
          throwIf (key.alg ≠ "ed25519") (identityError input "L2_BADGE_MALFORMED" uuaid)
          match ienv.hexToBytes key.publicKey with
          | none => throw (identityError input "L2_BADGE_MALFORMED" uuaid)
          | some badgeKeyBytes =>
            throwIf (proofRawKey ≠ badgeKeyBytes) (identityError input "L2_KEY_MISMATCH" uuaid)
            return badgeRaw

/-- The registry vouches for a presented credential. -/
def checkCredentialStatus (input : VerifySignerIdentityInput) (uuaid : String)
    (registry : RegistryClient m) (record : SignerIdentityRegistryRecord) :
    Option UaidSigningCredential → m SignerIdentityRegistryRecord
  | none => return record
  | some credential => do
    match ← registry.verifyCredential credential.id with
    | .error _ => throw (identityError input "L2_CREDENTIAL_UNAVAILABLE" uuaid)
    | .ok verified =>
      assertSafeOptional input verified.reason uuaid
      throwIf (¬ (verified.valid ∧ verified.active ∧ verified.notExpired))
        (identityError input "L2_CREDENTIAL_INVALID" uuaid)
      throwIf (verified.agentUuaid ≠ some uuaid)
        (identityError input "L2_CREDENTIAL_UUAID_MISMATCH" uuaid)
      return { record with credentialId := some credential.id, credentialValid := some true }

/-- The L2 part, on a record of the local checks. -/
def checkRegistry (env : EnvelopeEnv m) (ienv : IdentityEnv m) (input : VerifySignerIdentityInput)
    (proof : IdentityProofInput) (proofRawKey : List UInt8) (record : SignerIdentityRecord) :
    m SignerIdentityRecord := do
  if input.minLevel = .L2 then
    match ienv.registry with
    | none => throw (identityError input "L2_NO_REGISTRY" proof.uuaid)
    | some registry =>
      let badgeRaw ← checkBadge env ienv input proof.uuaid proofRawKey registry
      let resolvedAt ← env.now
      let registrySnapshotDigest ← ienv.persistIdentityBlob badgeRaw
      let registryRecord ← checkCredentialStatus input proof.uuaid registry
        { resolvedAt, registrySnapshotDigest := some registrySnapshotDigest } proof.credential
      return { record with level := .L2, registry := some registryRecord }
  else return record

def verifySignerIdentity (store : EnvelopeStore (McpMetadata ρ) m) (env : EnvelopeEnv m)
    (ienv : IdentityEnv m) (input : VerifySignerIdentityInput) :
    m (Option SignerIdentityRecord) := do
  if input.minLevel = .none then return none
  else
    let proof ← checkUuaid ienv input
    if input.minLevel = .L0 then
      let verifiedAt ← env.now
      let record : SignerIdentityRecord := { level := .L0, uuaid := proof.uuaid, verifiedAt }
      persistL0Attempts store input.tenantId input.envelopeId input.signerId record
        MAX_L0_PERSIST_ATTEMPTS
      return some record
    else
      match proof.proof with
      | none => throw (identityError input "L1_PROOF_REQUIRED" proof.uuaid)
      | some json =>
        let (challenge, keyFingerprint) ←
          checkChallengeProof store env ienv input proof.uuaid json
        let proofRawKey := ienv.publicKeyFromProof json
        let credentialDigest ← checkCredential ienv input proof.uuaid proofRawKey proof.credential
        let proofDigest ← ienv.persistIdentityBlob json
        let verifiedAt ← env.now
        let level ← localLevel ienv input proof.uuaid proofRawKey
        checkDisagreement env ienv input proof.uuaid proofRawKey level
        let record ← checkRegistry env ienv input proof proofRawKey
          { level, uuaid := proof.uuaid, keyFingerprint := some keyFingerprint,
            proofDigest := some proofDigest, credentialDigest, verifiedAt }
        match ← finalizeChallenge store env input.tenantId input.envelopeId input.signerId
            challenge.nonce record with
        | .error _ => throw (identityError input "L1_FINALIZE_FAILED" proof.uuaid)
        | .ok () => return some record

end

end EsigSuite
