import EsigSuite.Mcp.Identity

/-!
# The envelope service

What `EnvelopeService` of `envelopes.ts` does with signers' identities: the
policy at creation, the challenge, the gate in front of a signature, and the
proofs relayed out of band. Audit rows, events, links and seals are seen only
as writes of the rest of the metadata.
-/

namespace EsigSuite

inductive EventType
  | signer_identity_rejected
  | signer_identity_verified
  | envelope_signed
  | envelope_completed
  | envelope_declined
  | envelope_voided
  | envelope_expired
  | envelope_sealed
  | envelope_seal_failed
  | envelope_created
  | envelope_viewed
  | envelope_reminder_sent
  deriving DecidableEq

structure Config where
  tenant : String
  maxSigners : Nat
  identityMinLevel : IdentityLevel
  uuaidRegistryUrl : Option String
  uuaidRegistrySigningKey : Option String
  identityChallengeTtlSec : Nat

structure EnvelopeServiceDeps (ρ : Type) (m : Type → Type) where
  config : Config
  envelopeStore : EnvelopeStore (McpMetadata ρ) m
  /-- The same store, in the part of `sign` after the gate. The argument records
  whether the gate had found the signer ready. -/
  gatedStore : Bool → EnvelopeStore (McpMetadata ρ) m
  env : EnvelopeEnv m
  identity : IdentityEnv m
  /-- `auditStore.insert` -/
  audit : m Unit
  /-- The metadata after an event, and whether old events were trimmed. -/
  noted : EventType → Option String → Envelope (McpMetadata ρ) → ρ × Bool
  expiredEmitted : Envelope (McpMetadata ρ) → Bool
  sha256 : String → String

variable {ρ : Type} [Inhabited ρ] {m : Type → Type} [Monad m] [MonadExceptOf Thrown m]

-- ---------------------------------------------------------------------------
-- Events
-- ---------------------------------------------------------------------------

def withRest (envelope : Envelope (McpMetadata ρ)) (rest : ρ) : Envelope (McpMetadata ρ) :=
  { envelope with metadata := some { mcpBucket envelope with rest } }

/-- Events that were dropped are put on record. -/
def auditTrimmed (deps : EnvelopeServiceDeps ρ m) (trimmed : Bool) : m Unit :=
  if trimmed then deps.audit else pure ()

/-- `appendEvent`, with the given number of attempts left. `build` gives the
edited envelope. -/
def appendAttempts (deps : EnvelopeServiceDeps ρ m) (envelopeId : String)
    (build : Envelope (McpMetadata ρ) → Option (Envelope (McpMetadata ρ) × Bool)) : Nat → m Unit
  | 0 => throw (.error ("could not append event for envelope " ++ envelopeId ++
      " (concurrent update contention)"))
  | attempts + 1 => do
    match ← deps.envelopeStore.findById deps.config.tenant envelopeId with
    | none => throw (.error ("envelope not found: " ++ envelopeId))
    | some envelope =>
      match build envelope with
      | none => return ()
      | some (edited, trimmed) =>
        let outcome ← tryCatchThe Thrown
          (do let _ ← deps.envelopeStore.update edited
              auditTrimmed deps trimmed
              return none)
          fun e => return some e
        match outcome with
        | none => return ()
        | some e =>
          if attempts = 0 then throw e
          else appendAttempts deps envelopeId build attempts

def MAX_ATTEMPTS : Nat := 5

def appendEvent (deps : EnvelopeServiceDeps ρ m) (envelopeId : String)
    (build : Envelope (McpMetadata ρ) → Option (Envelope (McpMetadata ρ) × Bool)) : m Unit :=
  appendAttempts deps envelopeId build MAX_ATTEMPTS

/-- Never throws. -/
def emit (deps : EnvelopeServiceDeps ρ m) (envelopeId : String) (type : EventType)
    (signerId : Option String) : m Unit :=
  tryCatchThe Thrown
    (appendEvent deps envelopeId fun e =>
      let (rest, trimmed) := deps.noted type signerId e
      some (withRest e rest, trimmed))
    fun _ => return ()

/-- `expireOne` of the scheduler. -/
def expireOne (deps : EnvelopeServiceDeps ρ m) (envelopeId : String) : m Unit := do
  let now ← deps.env.now
  appendEvent deps envelopeId fun e =>
    let past := e.live && e.expiresAt.any (· ≤ now)
    if !past && e.status != .expired then none
    else if deps.expiredEmitted e then none
    else
      let (rest, trimmed) := deps.noted .envelope_expired none e
      let expired := if past then { e with status := .expired } else e
      some (withRest expired rest, trimmed)

-- ---------------------------------------------------------------------------
-- Creation
-- ---------------------------------------------------------------------------

/-- An entry of `identity.signers`. -/
structure IdentitySigner where
  signerId : Option String := none
  index : Option Int := none
  uuaid : String

structure CreateEnvelopeArgs (ρ : Type) where
  title : String
  html : String
  signers : List SignerInput
  expiresAt : Option Time := none
  /-- `identity.minLevel` -/
  minLevel : Option IdentityLevel := none
  /-- `identity.signers` -/
  identitySigners : List IdentitySigner := []
  rest : ρ

def effectiveMinLevel (config : Config) (args : CreateEnvelopeArgs ρ) : IdentityLevel :=
  maxIdentityLevel config.identityMinLevel (args.minLevel.getD .none)

def checkIdentitySigner (identity : IdentityEnv m) (signers : Nat) (s : IdentitySigner) :
    m Unit := do
  throwIf (¬ identity.isWellFormedUuaidAssertion s.uuaid)
    (.error ("identity.signers[].uuaid is not a well-formed uuaid: \"" ++ s.uuaid ++ "\""))
  throwIf (s.signerId.isSome = s.index.isSome)
    (.error "each identity.signers[] entry needs exactly one of signerId or index")
  match s.index with
  | none => pure ()
  | some index =>
    throwIf (index < 0 ∨ index ≥ signers)
      (.error ("identity.signers[].index " ++ toString index ++ " is out of range for " ++
        toString signers ++ " signer(s)"))

def checkIdentityArgs (deps : EnvelopeServiceDeps ρ m) (args : CreateEnvelopeArgs ρ) : m Unit := do
  let level := effectiveMinLevel deps.config args
  throwIf (level = .L2 ∧ deps.config.uuaidRegistryUrl = none)
    (.error ("identity level L2 requires ESIG_MCP_UUAID_REGISTRY_URL (https://...) to be configured " ++
      "on this server — refusing to create this envelope (fail closed)."))
  throwIf (level = .L2 ∧ deps.config.uuaidRegistrySigningKey = none)
    (.error ("identity level L2 requires ESIG_MCP_UUAID_REGISTRY_SIGNING_KEY (the pinned UUAID " ++
      "registry Ed25519 public key, 64 hex chars) to be configured on this server — refusing to " ++
      "create this envelope (fail closed)."))
  args.identitySigners.forM (checkIdentitySigner deps.identity args.signers.length)

/-- `s.signerId ?? envelope.signers[s.index!].id`; the index was checked. -/
def pinnedSigner (envelope : Envelope (McpMetadata ρ)) (s : IdentitySigner) : String :=
  match s.signerId with
  | some signerId => signerId
  | none => ((s.index.bind fun i => envelope.signers[i.toNat]?).map (·.id)).getD ""

def policySigners (envelope : Envelope (McpMetadata ρ)) (identitySigners : List IdentitySigner) :
    String → Option SignerPolicy :=
  identitySigners.foldl
    (fun signers s =>
      Function.update signers (pinnedSigner envelope s) (some ⟨some s.uuaid⟩))
    fun _ => none

def identityPolicy (config : Config) (args : CreateEnvelopeArgs ρ)
    (envelope : Envelope (McpMetadata ρ)) : EnvelopeIdentityPolicy :=
  let minLevel := effectiveMinLevel config args
  { minLevel, signers := policySigners envelope args.identitySigners,
    registryUrl := if minLevel = .L2 then config.uuaidRegistryUrl else none }

/-- Until the envelope and its tokens are handed out. -/
def create (deps : EnvelopeServiceDeps ρ m) (args : CreateEnvelopeArgs ρ) :
    m (Envelope (McpMetadata ρ) × List SigningToken) := do
  throwIf (args.signers = []) (.error "at least one signer is required")
  throwIf (args.signers.length > deps.config.maxSigners)
    (.error ("too many signers (" ++ toString args.signers.length ++ ") — this server's cap is " ++
      toString deps.config.maxSigners ++ " (ESIG_MCP_MAX_SIGNERS)."))
  checkIdentityArgs deps args
  let (envelope, signingTokens) ← createEnvelope deps.envelopeStore deps.env
    { tenantId := deps.config.tenant, title := args.title, html := args.html,
      signers := args.signers, expiresAt := args.expiresAt,
      metadata := some { htmlSha256 := some (deps.sha256 args.html), identity := {},
                         rest := args.rest } }
  if effectiveMinLevel deps.config args ≠ .none ∨ args.identitySigners.length > 0 then
    let envelope ← deps.envelopeStore.update
      (setEnvelopeIdentityPolicy envelope (identityPolicy deps.config args envelope))
    return (envelope, signingTokens)
  else return (envelope, signingTokens)

-- ---------------------------------------------------------------------------
-- Signing
-- ---------------------------------------------------------------------------

def minLevelOf (envelope : Envelope (McpMetadata ρ)) : IdentityLevel :=
  ((getEnvelopeIdentityPolicy envelope).map (·.minLevel)).getD .none

def expectedUuaidOf (envelope : Envelope (McpMetadata ρ)) (signerId : String) : Option String :=
  ((getEnvelopeIdentityPolicy envelope).bind (·.signers signerId)).bind (·.expectedUuaid)

def verifiedOf (envelope : Envelope (McpMetadata ρ)) (signerId : String) :
    Option SignerIdentityRecord :=
  (getSignerIdentityState envelope signerId).bind (·.verified)

/-- `preVerifiedOk` -/
def satisfies (record : SignerIdentityRecord) (minLevel : IdentityLevel)
    (expectedUuaid : Option String) : Bool :=
  decide (minLevel.order ≤ record.level.order) &&
    (expectedUuaid == none || expectedUuaid == some record.uuaid)

def verifyInput (deps : EnvelopeServiceDeps ρ m) (envelope : Envelope (McpMetadata ρ))
    (signerId : String) (proof : Option IdentityProofInput) : VerifySignerIdentityInput where
  tenantId := deps.config.tenant
  envelopeId := envelope.id
  signerId
  minLevel := minLevelOf envelope
  expectedUuaid := expectedUuaidOf envelope signerId
  proof
  pinnedRegistryUrl := (getEnvelopeIdentityPolicy envelope).bind (·.registryUrl)

def rejected (deps : EnvelopeServiceDeps ρ m) (envelopeId signerId : String) : Thrown → m Unit
  | .identity .. => do
    deps.audit
    emit deps envelopeId .signer_identity_rejected (some signerId)
  | _ => pure ()

/-- What `sign` does between the gate and the signature, for a signer who is
ready. -/
def verifyAtGate (deps : EnvelopeServiceDeps ρ m) (envelope : Envelope (McpMetadata ρ))
    (signer : EnvelopeSigner) (proof : Option IdentityProofInput) : m Unit := do
  let minLevel := minLevelOf envelope
  if minLevel = .none then return ()
  else if (verifiedOf envelope signer.id).any
      (satisfies · minLevel (expectedUuaidOf envelope signer.id)) then
    deps.audit
  else
    let record ← tryCatchThe Thrown
      (verifySignerIdentity deps.envelopeStore deps.env deps.identity
        (verifyInput deps envelope signer.id proof))
      fun e => do
        rejected deps envelope.id signer.id e
        throw e
    match record with
    | none => return ()
    | some _ =>
      deps.audit
      emit deps envelope.id .signer_identity_verified (some signer.id)

/-- `gate.status === "ok"` -/
def TokenResolution.ready : TokenResolution μ → Bool
  | .ok .. => true
  | _ => false

def gateCheck (deps : EnvelopeServiceDeps ρ m) (proof : Option IdentityProofInput) :
    TokenResolution (McpMetadata ρ) → m Unit
  | .ok envelope _ signer => verifyAtGate deps envelope signer proof
  | _ => pure ()

def TokenResolution.signerId : TokenResolution μ → Option String
  | .ok _ _ signer | .not_your_turn _ _ signer _ | .already_signed _ _ signer
  | .closed _ _ _ signer => some signer.id
  | .invalid => none

def emitCompleted (deps : EnvelopeServiceDeps ρ m) (envelope : Envelope (McpMetadata ρ)) : m Unit :=
  if envelope.status = .completed then emit deps envelope.id .envelope_completed none else pure ()

/-- Up to the seal, which writes no identity and no signer. -/
def sign (deps : EnvelopeServiceDeps ρ m) (token signatureImageDataUrl : String)
    (identityProof : Option IdentityProofInput) : m (Envelope (McpMetadata ρ)) := do
  let gate ← resolveSigningToken deps.envelopeStore deps.env token
  gateCheck deps identityProof gate
  let signedAt ← deps.env.now
  let envelope ← recordSignature (deps.gatedStore gate.ready) deps.env token signatureImageDataUrl
    (some signedAt)
  deps.audit
  emit deps envelope.id .envelope_signed gate.signerId
  emitCompleted deps envelope
  let refreshed ← deps.envelopeStore.findById deps.config.tenant envelope.id
  return refreshed.getD envelope

-- ---------------------------------------------------------------------------
-- The other calls
-- ---------------------------------------------------------------------------

def issueIdentityChallenge (deps : EnvelopeServiceDeps ρ m) (envelopeId signerId : String) :
    m IdentityChallengePayload := do
  let payload ← issueChallenge deps.envelopeStore deps.env deps.config.tenant envelopeId signerId
    deps.config.identityChallengeTtlSec
  deps.audit
  return payload

structure IdentityProofEvent where
  envelopeId : String
  signerId : String
  uuaid : String
  proof : JsonText
  credential : Option UaidSigningCredential

def acceptPreVerifiedIdentity (deps : EnvelopeServiceDeps ρ m) (evt : IdentityProofEvent) :
    m (Option SignerIdentityRecord) := do
  match ← deps.envelopeStore.findById deps.config.tenant evt.envelopeId with
  | none => return none
  | some envelope =>
    if minLevelOf envelope = .none then return none
    else
      tryCatchThe Thrown
        (do
          let record ← verifySignerIdentity deps.envelopeStore deps.env deps.identity
            (verifyInput deps envelope evt.signerId
              (some { uuaid := evt.uuaid, proof := some evt.proof, credential := evt.credential }))
          match record with
          | none => return record
          | some _ =>
            deps.audit
            emit deps evt.envelopeId .signer_identity_verified (some evt.signerId)
            return record)
        fun
          | .identity .. => do
            deps.audit
            return none
          | e => throw e

def decline (deps : EnvelopeServiceDeps ρ m) (token : String) (reason : Option String) :
    m (Envelope (McpMetadata ρ)) := do
  let envelope ← declineEnvelope deps.envelopeStore deps.env token reason
  let signer := envelope.signers.find? (·.status == .declined)
  deps.audit
  emit deps envelope.id .envelope_declined (signer.map (·.id))
  return envelope

/-- `void` -/
def voidService (deps : EnvelopeServiceDeps ρ m) (envelopeId : String) :
    m (Envelope (McpMetadata ρ)) := do
  let envelope ← voidEnvelope deps.envelopeStore deps.env deps.config.tenant envelopeId
  deps.audit
  emit deps envelope.id .envelope_voided none
  return envelope

/-- `updateWithRetry` of the reminders and the seal: any write of the rest of
the metadata. -/
def updateRest (deps : EnvelopeServiceDeps ρ m) (envelopeId : String)
    (mutate : Envelope (McpMetadata ρ) → Option ρ) : m Unit :=
  appendEvent deps envelopeId fun e => (mutate e).map fun rest => (withRest e rest, false)

end EsigSuite
