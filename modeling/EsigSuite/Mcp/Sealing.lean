import EsigSuite.Mcp.EnvelopeService

/-!
# Signing, declining and sealing with their records

`sign`, `decline`, `seal` and `reseal` of `EnvelopeService`, with their audit
rows, the document storage and the seal's own write of the envelope. Rendering,
certificates and the signature over the bytes are calls to the outside.
-/

namespace EsigSuite

inductive SealStatus
  | sealed
  | failed
  deriving DecidableEq

/-- `metadata.mcp.seal` -/
structure EnvelopeSealState where
  status : SealStatus
  attempts : Nat
  error : Option Thrown := none
  lastAttemptAt : Option Time := none
  sealedPdfPath : Option String := none
  sealedAt : Option Time := none

structure EnvelopeDocumentMeta where
  docId : String
  sha256 : String

/-- The part of `metadata.mcp` that sealing reads and writes. `other` is what it
does not touch. -/
structure SealMetadata (ρ : Type) where
  document : Option EnvelopeDocumentMeta := none
  sealedPdfUrl : Option String := none
  certFingerprint : Option String := none
  pqSealed : Option Bool := none
  pqKeyId : Option String := none
  pqMldsa65Fpr : Option String := none
  sealState : Option EnvelopeSealState := none
  other : ρ

instance {ρ : Type} [Inhabited ρ] : Inhabited (SealMetadata ρ) := ⟨{ other := default }⟩

abbrev ServiceEnvelope (ρ : Type) := Envelope (McpMetadata (SealMetadata ρ))

inductive EnvelopePhase
  | open_ (status : EnvelopeStatus)
  | awaiting_seal
  | seal_failed
  | sealed
  deriving DecidableEq

inductive AuditAction
  | envelope_signed
  | envelope_declined
  | envelope_voided
  | envelope_reseal_requested
  | envelope_seal_failed
  | envelope_completed
  | envelope_created
  | envelope_viewed
  | envelope_expired
  | envelope_reminder_sent
  | envelope_reminder_failed
  | events_trimmed
  | signer_challenge_issued
  | signer_identity_preverified_used
  | signer_identity_verified
  | signer_identity_rejected
  | signer_pillar_unregistered
  deriving DecidableEq

inductive AuditMetadata
  | none
  | signed (status : EnvelopeStatus)
  | declined (signerId : Option String) (hasReason : Bool)
  | resealRequested (previousAttempts : Nat)
  | sealFailed (error : Thrown) (attempts : Nat)
  /-- The post-quantum part is the key and its fingerprint. -/
  | completed (postQuantum : Option (Option String × Option String)) (attempts : Nat)
  | created (signerCount : Nat) (deliveryFailures : List (String × Option String))
  | signer (signerId : String)
  | identity (signerId : String) (reason : Option String) (uuaid : Option String)
      (level : IdentityLevel)
  | reminder (signerId : String) (ok : Bool) (messageId detail : Option String)
  | trimmed (trimmedIds : List String)

structure AuditLogEntry where
  tenantId : String
  action : AuditAction
  targetTable : String := "envelope"
  targetId : String
  certId : Option String := none
  certFingerprint : Option String := none
  signedPdfUrl : Option String := none
  metadata : AuditMetadata

structure ActiveCert where
  id : String
  certFingerprint : String
  keyPem : String
  certPem : String

structure SignPdfInput where
  pdf : List UInt8
  cert : ActiveCert
  reason : String
  name : String
  signingTime : Time
  /-- `pqSeal.keys`, by their text. -/
  pqKeys : Option String

/-- A signed document says what was signed, with which certificate and when. -/
structure SignedPdf where
  input : SignPdfInput
  bytes : List UInt8
  pqSealed : Bool
  pqKeyId : Option String
  pqMldsa65Fpr : Option String

structure SealingDeps (ρ : Type) (m : Type → Type) extends
    EnvelopeServiceDeps (SealMetadata ρ) m where
  subjectName : String
  auditStore : AuditLogEntry → m Unit
  /-- The same store, where a seal records its outcome. -/
  sealStore : EnvelopeStore (McpMetadata (SealMetadata ρ)) m
  /-- `documents.get`, where a document store is configured. -/
  documents : Option (String → m (List UInt8))
  sha256Bytes : List UInt8 → String
  /-- `composeEnvelopeHtml` with the attestations. -/
  composed : ServiceEnvelope ρ → Except Thrown String
  render : String → m (List UInt8)
  ensureActiveCert : m ActiveCert
  /-- Where `config.pq` is set. -/
  ensureActivePqKeys : Option (m String)
  signPdf : SignPdfInput → m SignedPdf
  /-- The failures of `verifyPdfSignature`. -/
  verifyPdfSignature : SignedPdf → List String
  /-- `pdfStorage.upload` -/
  upload : String → SignedPdf → m String

namespace Service

variable {ρ : Type} [Inhabited ρ] {m : Type → Type} [Monad m] [MonadExceptOf Thrown m]

def sealMeta (envelope : ServiceEnvelope ρ) : SealMetadata ρ := (mcpBucket envelope).rest

def withSealMeta (envelope : ServiceEnvelope ρ) (meta' : SealMetadata ρ) : ServiceEnvelope ρ :=
  withRest envelope meta'

def derivePhase (envelope : ServiceEnvelope ρ) : EnvelopePhase :=
  if envelope.status ≠ .completed then .open_ envelope.status
  else
    match (sealMeta envelope).sealState with
    | none => .awaiting_seal
    | some state =>
      match state.status with
      | .sealed => .sealed
      | .failed => .seal_failed

-- ---------------------------------------------------------------------------
-- Sealing
-- ---------------------------------------------------------------------------

/-- The bytes to sign, with the reason and the name of the signature. -/
def toSign (deps : SealingDeps ρ m) (envelope : ServiceEnvelope ρ) :
    m (List UInt8 × String × String) :=
  match (sealMeta envelope).document with
  | some doc =>
    match deps.documents with
    | none =>
      throw (.error ("no document store configured — cannot seal PDF envelope " ++ envelope.id))
    | some get => do
      let pdf ← get doc.docId
      throwIf (deps.sha256Bytes pdf ≠ doc.sha256)
        (.error ("content binding check failed for envelope " ++ envelope.id ++
          ": document sha256 at seal time (" ++ deps.sha256Bytes pdf ++
          ") does not match the value pinned at creation (" ++ doc.sha256 ++ ")."))
      return (pdf,
        "Signed via e-sig envelope " ++ envelope.id ++ " by " ++ toString envelope.signers.length ++
          " signer(s)",
        ", ".intercalate (envelope.signers.map (·.name)))
  | none => do
    let pinned := getPinnedHtmlSha256 envelope
    let actual := deps.sha256 envelope.html
    throwIf (pinned ≠ some actual)
      (.error ("content binding check failed for envelope " ++ envelope.id ++
        ": base html sha256 at seal time (" ++ actual ++
        ") does not match the value pinned at creation (" ++ pinned.getD "none" ++ ")."))
    match deps.composed envelope with
    | .error e => throw e
    | .ok html =>
      let pdf ← deps.render html
      return (pdf, "Envelope completed", deps.subjectName)

def pqKeys (deps : SealingDeps ρ m) : m (Option String) :=
  match deps.ensureActivePqKeys with
  | none => pure none
  | some ensure => some <$> ensure

def sealedPath (tenant envelopeId : String) : String := tenant ++ "/" ++ envelopeId ++ "/sealed.pdf"

/-- What a seal has uploaded, and where. -/
structure Artifact where
  uploadedUrl : String
  signed : SignedPdf

/-- The `try` of `seal`. -/
def produce (deps : SealingDeps ρ m) (envelope : ServiceEnvelope ρ) : m Artifact := do
  let (pdf, reason, name) ← toSign deps envelope
  let cert ← deps.ensureActiveCert
  let pqKeys ← pqKeys deps
  let signedAt ← deps.env.now
  let signed ← deps.signPdf { pdf, cert, reason, name, signingTime := signedAt, pqKeys }
  let failures := deps.verifyPdfSignature signed
  throwIf (failures ≠ [])
    (.error ("self-verification failed for envelope " ++ envelope.id ++ ": " ++
      "; ".intercalate failures))
  let uploadedUrl ← deps.upload (sealedPath deps.config.tenant envelope.id) signed
  return { uploadedUrl, signed }

def attemptsOf (envelope : ServiceEnvelope ρ) : Nat :=
  ((sealMeta envelope).sealState.map (·.attempts)).getD 0

def failedSeal (envelope : ServiceEnvelope ρ) (error : Thrown) (lastAttemptAt : Time) :
    ServiceEnvelope ρ :=
  withSealMeta envelope
    { sealMeta envelope with
      sealState := some
        { status := .failed, attempts := attemptsOf envelope + 1, error, lastAttemptAt } }

def sealedSeal (envelope : ServiceEnvelope ρ) (artifact : Artifact) : ServiceEnvelope ρ :=
  withSealMeta envelope
    { sealMeta envelope with
      sealedPdfUrl := artifact.uploadedUrl
      certFingerprint := artifact.signed.input.cert.certFingerprint
      pqSealed := artifact.signed.pqSealed
      pqKeyId := artifact.signed.pqKeyId
      pqMldsa65Fpr := artifact.signed.pqMldsa65Fpr
      sealState := some
        { status := .sealed, attempts := attemptsOf envelope + 1,
          sealedPdfPath := artifact.uploadedUrl,
          sealedAt := artifact.signed.input.signingTime } }

/-- The part of `seal` after the `try`; the receipt it writes is best effort. -/
def recordSeal (deps : SealingDeps ρ m) (envelope : ServiceEnvelope ρ) :
    Except Thrown Artifact → m (ServiceEnvelope ρ)
  | .error e => do
    let lastAttemptAt ← deps.env.now
    let updated ← deps.sealStore.update (failedSeal envelope e lastAttemptAt)
    deps.auditStore
      { tenantId := deps.config.tenant, action := .envelope_seal_failed, targetId := envelope.id,
        metadata := .sealFailed e (attemptsOf envelope + 1) }
    emit deps.toEnvelopeServiceDeps envelope.id .envelope_seal_failed none
    return updated
  | .ok artifact => do
    let updated ← deps.sealStore.update (sealedSeal envelope artifact)
    deps.auditStore
      { tenantId := deps.config.tenant, action := .envelope_completed, targetId := envelope.id,
        certId := artifact.signed.input.cert.id,
        certFingerprint := artifact.signed.input.cert.certFingerprint,
        signedPdfUrl := artifact.uploadedUrl,
        metadata := .completed
          (if artifact.signed.pqSealed then some (artifact.signed.pqKeyId, artifact.signed.pqMldsa65Fpr)
           else none) (attemptsOf envelope + 1) }
    emit deps.toEnvelopeServiceDeps envelope.id .envelope_sealed none
    return updated

/-- `seal` -/
def sealEnvelope (deps : SealingDeps ρ m) (envelope : ServiceEnvelope ρ) : m (ServiceEnvelope ρ) := do
  let outcome ← tryCatchThe Thrown (do return .ok (← produce deps envelope))
    fun e => return .error e
  recordSeal deps envelope outcome

/-- `reseal`, of a rate limiter that lets the call pass. -/
def reseal (deps : SealingDeps ρ m) (envelopeId : String) : m (ServiceEnvelope ρ) := do
  match ← deps.envelopeStore.findById deps.config.tenant envelopeId with
  | none => throw (.error ("envelope not found: " ++ envelopeId))
  | some envelope =>
    throwIf (envelope.status ≠ .completed)
      (.error ("envelope " ++ envelopeId ++ " is not completed yet"))
    throwIf ((sealMeta envelope).sealState.map (·.status) = some .sealed)
      (.error ("envelope " ++ envelopeId ++ " is already sealed"))
    deps.auditStore
      { tenantId := deps.config.tenant, action := .envelope_reseal_requested,
        targetId := envelopeId, metadata := .resealRequested (attemptsOf envelope) }
    sealEnvelope deps envelope

-- ---------------------------------------------------------------------------
-- Signing and declining
-- ---------------------------------------------------------------------------

def sign (deps : SealingDeps ρ m) (token signatureImageDataUrl : String)
    (identityProof : Option IdentityProofInput) : m (ServiceEnvelope ρ) := do
  let gate ← resolveSigningToken deps.envelopeStore deps.env token
  gateCheck deps.toEnvelopeServiceDeps identityProof gate
  let signedAt ← deps.env.now
  let envelope ← recordSignature (deps.gatedStore gate.ready) deps.env token signatureImageDataUrl
    (some signedAt)
  deps.auditStore
    { tenantId := deps.config.tenant, action := .envelope_signed, targetId := envelope.id,
      metadata := .signed envelope.status }
  emit deps.toEnvelopeServiceDeps envelope.id .envelope_signed gate.signerId
  emitCompleted deps.toEnvelopeServiceDeps envelope
  let refreshed ← deps.envelopeStore.findById deps.config.tenant envelope.id
  let envelope := refreshed.getD envelope
  if envelope.status = .completed then sealEnvelope deps envelope else return envelope

def decline (deps : SealingDeps ρ m) (token : String) (reason : Option String) :
    m (ServiceEnvelope ρ) := do
  let envelope ← declineEnvelope deps.envelopeStore deps.env token reason
  let signer := envelope.signers.find? (·.status == .declined)
  deps.auditStore
    { tenantId := deps.config.tenant, action := .envelope_declined, targetId := envelope.id,
      metadata := .declined (signer.map (·.id)) reason.isSome }
  emit deps.toEnvelopeServiceDeps envelope.id .envelope_declined (signer.map (·.id))
  return envelope

end Service

end EsigSuite
