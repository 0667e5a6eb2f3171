import EsigSuite.Mcp.ServiceEvents
import EsigSuite.Mcp.SignRoutes

/-!
# The calls of the service

`create`, `sign`, `decline`, `void` and the other methods of `EnvelopeService`
with their audit rows, events and stored links, and the threads that make them.
The identity checks are those of `Identity`, over the same store.
-/

namespace EsigSuite.Mcp

open Lib

section
variable {ι : Type} (server : Server) (who : ι)

-- ---------------------------------------------------------------------------
-- What the functions of the core are given
-- ---------------------------------------------------------------------------

def env : EnvelopeEnv (M ι) where
  now := now
  randomToken := ExceptT.lift (Prog.perform Op.random)
  randomUUID := randomUUID
  hashToken := server.hashToken
  assertImageDataUrl := server.assertImageDataUrl

def registryClient : RegistryClient (M ι) where
  badge uuaid := ExceptT.lift (Prog.perform (Op.badge uuaid))
  verifyCredential id := ExceptT.lift (Prog.perform (Op.verifyCredential id))

def identityEnv : IdentityEnv (M ι) :=
  { server.checks with
    persistIdentityBlob := fun json => ExceptT.mk (Prog.perform (Op.persistIdentityBlob json))
    registry := server.config.uuaidRegistryUrl.map fun _ => registryClient
    configuredRegistryUrl := server.config.uuaidRegistryUrl
    registrySigningKey := server.config.uuaidRegistrySigningKey }

variable {server} in
/-- The only registry client there is. -/
theorem registry_eq {registry : RegistryClient (M ι)}
    (h : (identityEnv server).registry = some registry) : registry = registryClient := by
  obtain ⟨_, -, rfl⟩ := Option.map_eq_some_iff.mp
    (show server.config.uuaidRegistryUrl.map (fun _ => registryClient) = some registry from h)
  rfl

/-- What creation up to the policy and the input of a verification take. Neither
audits nor notes an event. -/
def identityDeps : EnvelopeServiceDeps (SealMetadata Bookkeeping) (M ι) where
  config := server.config.toConfig
  envelopeStore := store ⟨who, .plain⟩
  gatedStore _ := store ⟨who, .plain⟩
  env := env server
  identity := identityEnv server
  audit := pure ()
  noted _ _ e := (Service.sealMeta e, false)
  expiredEmitted e := (expiredEmittedAt e).isSome
  sha256 := server.sha256

-- ---------------------------------------------------------------------------
-- Creation
-- ---------------------------------------------------------------------------

structure CreateArgs where
  title : String
  html : String
  signers : List SignerInput
  expiresAt : Option Time := none
  message : Option String := none
  minLevel : Option IdentityLevel := none
  identitySigners : List IdentitySigner := []

/-- What is inserted, with the note and nothing else kept yet. -/
def CreateArgs.sanitized (args : CreateArgs) : CreateEnvelopeArgs (SealMetadata Bookkeeping) :=
  { title := args.title, html := server.sanitizeEnvelopeHtml args.html, signers := args.signers,
    expiresAt := args.expiresAt, minLevel := args.minLevel, identitySigners := args.identitySigners,
    rest := { other := { message := args.message.bind Service.cleanReason } } }

def recordUnregistered (e : McpEnvelope) (indices : List Nat) : M ι McpEnvelope :=
  if indices = [] then return e
  else do
    let ids := indices.filterMap fun i => (e.signers[i]?).map (·.id)
    let e ← (store ⟨who, .plain⟩).update
      (withBook e { bookOf e with pillarUnregisteredSignerIds := ids })
    ids.forM fun signerId => audit server .signer_pillar_unregistered e.id (.signer signerId)
    return e

def deliveryLink (e : McpEnvelope) (t : SigningToken) : DeliveryLink :=
  let signer := signerById e t.signerId
  ⟨t.signerId, (signer.map (·.name)).getD "", (signer.map (·.email)).getD "",
    server.config.baseUrl ++ "/sign/" ++ t.token⟩

def encryptLink (l : DeliveryLink) : M ι (String × String) := do
  return (l.signerId, ← ExceptT.lift (Prog.perform (Op.encryptLink l.url)))

def persistLinks (e : McpEnvelope) (links : List DeliveryLink) : M ι McpEnvelope :=
  if server.config.delivery = "email" ∧ server.config.durationsMs ≠ [] then do
    let encryptedLinks ← links.mapM encryptLink
    (store ⟨who, .plain⟩).update (withLinks e encryptedLinks)
  else return e

def create (args : CreateArgs) : M ι (McpEnvelope × List Receipt) := do
  let unregistered ← ExceptT.mk (Prog.perform Op.admission)
  let (e, signingTokens) ← EsigSuite.create (identityDeps server who) (args.sanitized server)
  let e ← recordUnregistered server who e unregistered
  let links := signingTokens.map (deliveryLink server e)
  let e ← persistLinks server who e links
  let receipts ← deliver ⟨who, .plain⟩ ⟨e.id, e.title, (bookOf e).message, e.expiresAt⟩ links
  audit server .envelope_created e.id
    (.created e.signers.length
      ((receipts.filter fun r => !r.ok).map fun r => (r.signerId, r.detail)))
  emitPlain server who e.id fun e =>
    { type := .envelope_created, envelopeId := e.id, phase := derivePhase e,
      data := .created e.signers.length server.config.delivery }
  return (e, receipts)

-- ---------------------------------------------------------------------------
-- The identity of a signer
-- ---------------------------------------------------------------------------

/-- The event of a signer, who is looked up again. -/
def emitSigner (envelopeId signerId : String) (fallback : Option EnvelopeSigner) (type : EventType)
    (data : EventData) : M ι Unit :=
  emitPlain server who envelopeId fun e =>
    { type, envelopeId := e.id, phase := derivePhase e,
      signer := ((signerById e signerId).or fallback).map eventSigner, data }

def rejectedIdentity (envelopeId : String) (signer : EnvelopeSigner) : Thrown → M ι Unit
  | .identity reason uuaid level => do
    audit server .signer_identity_rejected envelopeId
      (.identity signer.id (some reason) uuaid level)
    emitSigner server who envelopeId signer.id (some signer) .signer_identity_rejected
      (.rejected reason level)
  | _ => return ()

def verifiedIdentity (envelopeId signerId : String) (fallback : Option EnvelopeSigner)
    (record : SignerIdentityRecord) : M ι Unit := do
  audit server .signer_identity_verified envelopeId
    (.identity signerId none (some record.uuaid) record.level)
  emitSigner server who envelopeId signerId fallback .signer_identity_verified
    (.verified record.level)

def verifyIdentity (e : McpEnvelope) (signerId : String) (proof : Option IdentityProofInput) :
    M ι (Option SignerIdentityRecord) :=
  verifySignerIdentity (store ⟨who, .plain⟩) (env server) (identityEnv server)
    (verifyInput (identityDeps server who) e signerId proof)

def verifyAtGate (e : McpEnvelope) (signer : EnvelopeSigner) (proof : Option IdentityProofInput) :
    M ι Unit := do
  let minLevel := minLevelOf e
  if minLevel = .none then return ()
  else
    match (verifiedOf e signer.id).filter
        (satisfies · minLevel (expectedUuaidOf e signer.id)) with
    | some existing =>
      audit server .signer_identity_preverified_used e.id
        (.identity signer.id none (some existing.uuaid) existing.level)
    | none =>
      let record ← tryCatchThe Thrown (verifyIdentity server who e signer.id proof) fun error => do
        rejectedIdentity server who e.id signer error
        throw error
      match record with
      | none => return ()
      | some record => verifiedIdentity server who e.id signer.id (some signer) record

def gateCheck (proof : Option IdentityProofInput) :
    TokenResolution (McpMetadata (SealMetadata Bookkeeping)) → M ι Unit
  | .ok e _ signer => verifyAtGate server who e signer proof
  | _ => return ()

def issueIdentityChallenge (envelopeId signerId : String) : M ι IdentityChallengePayload := do
  takeRate
  let payload ← issueChallenge (store ⟨who, .plain⟩) (env server) server.config.tenant envelopeId
    signerId server.config.identityChallengeTtlSec
  audit server .signer_challenge_issued envelopeId (.signer signerId)
  return payload

def acceptPreVerifiedIdentity (evt : IdentityProofEvent) : M ι (Option SignerIdentityRecord) := do
  match ← (store ⟨who, .plain⟩).findById server.config.tenant evt.envelopeId with
  | none => return none
  | some e =>
    if minLevelOf e = .none then return none
    else
      tryCatchThe Thrown
        (do
          match ← verifySignerIdentity (store ⟨who, .plain⟩) (env server) (identityEnv server)
              { verifyInput (identityDeps server who) e evt.signerId
                  (some { uuaid := evt.uuaid, proof := some evt.proof,
                          credential := evt.credential }) with
                envelopeId := evt.envelopeId } with
          | none => return none
          | some record =>
            verifiedIdentity server who evt.envelopeId evt.signerId none record
            return some record)
        fun
          | .identity reason uuaid level => do
            audit server .signer_identity_rejected evt.envelopeId
              (.identity evt.signerId (some reason) uuaid level)
            return none
          | error => throw error

-- ---------------------------------------------------------------------------
-- Sealing
-- ---------------------------------------------------------------------------

/-- `seal`, where composing, rendering, signing and uploading is one outside
call. -/
def sealEnvelope (e : McpEnvelope) : M ι McpEnvelope := do
  match ← ExceptT.lift (Prog.perform (Op.produce e)) with
  | .error error =>
    let lastAttemptAt ← now
    let updated ← (store ⟨who, .seal⟩).update (Service.failedSeal e error lastAttemptAt)
    audit server .envelope_seal_failed e.id (.sealFailed error (Service.attemptsOf e + 1))
    emitPlain server who e.id fun fresh =>
      { type := .envelope_seal_failed, envelopeId := fresh.id, phase := derivePhase fresh,
        data := .seal_failed (Service.attemptsOf e + 1) }
    return updated
  | .ok artifact =>
    let updated ← (store ⟨who, .seal⟩).update (Service.sealedSeal e artifact)
    auditInsert
      { auditEntry server .envelope_completed e.id
          (.completed
            (if artifact.signed.pqSealed then
              some (artifact.signed.pqKeyId, artifact.signed.pqMldsa65Fpr) else none)
            (Service.attemptsOf e + 1)) with
        certId := artifact.signed.input.cert.id
        certFingerprint := artifact.signed.input.cert.certFingerprint
        signedPdfUrl := artifact.uploadedUrl }
    emitPlain server who e.id fun fresh =>
      { type := .envelope_sealed, envelopeId := fresh.id, phase := derivePhase fresh,
        data := .sealed artifact.signed.pqSealed }
    return updated

def reseal (envelopeId : String) : M ι McpEnvelope := do
  match ← (store ⟨who, .plain⟩).findById server.config.tenant envelopeId with
  | none => throw (.error ("envelope not found: " ++ envelopeId))
  | some e =>
    throwIf (e.status ≠ .completed)
      (.error ("envelope " ++ envelopeId ++ " is not completed yet"))
    throwIf ((Service.sealMeta e).sealState.map (·.status) = some .sealed)
      (.error ("envelope " ++ envelopeId ++ " is already sealed"))
    takeRate
    audit server .envelope_reseal_requested envelopeId
      (.resealRequested (((Service.sealMeta e).sealState.map (·.attempts)).getD 0))
    sealEnvelope server who e

-- ---------------------------------------------------------------------------
-- Signing, declining, voiding, viewing
-- ---------------------------------------------------------------------------

def emitSigned (envelopeId : String) (signerId : Option String) : M ι Unit :=
  let event (e : McpEnvelope) : EsigEventInput :=
    { type := .envelope_signed, envelopeId := e.id, phase := derivePhase e,
      signer := (signerId.bind (signerById e)).map eventSigner }
  match signerId with
  | none => emitPlain server who envelopeId event
  | some signerId => emitErasing server who envelopeId (some signerId) event

def emitCompleted (e : McpEnvelope) : M ι Unit :=
  if e.status = .completed then
    emitErasing server who e.id none fun fresh =>
      { type := .envelope_completed, envelopeId := fresh.id, phase := derivePhase fresh }
  else return ()

def sign (token signatureImageDataUrl : String) (identityProof : Option IdentityProofInput) :
    M ι McpEnvelope := do
  let gate ← resolveSigningToken (store ⟨who, .plain⟩) (env server) token
  gateCheck server who identityProof gate
  let signedAt ← now
  let e ← recordSignature (store ⟨who, .sign gate.signerId⟩) (env server) token
    signatureImageDataUrl (some signedAt)
  audit server .envelope_signed e.id (.signed e.status)
  emitSigned server who e.id gate.signerId
  emitCompleted server who e
  let refreshed ← (store ⟨who, .plain⟩).findById server.config.tenant e.id
  let e := refreshed.getD e
  if e.status = .completed then sealEnvelope server who e else return e

def decline (token : String) (reason : Option String) : M ι McpEnvelope := do
  let e ← declineEnvelope (store ⟨who, .plain⟩) (env server) token reason
  let signer := e.signers.find? (·.status == .declined)
  audit server .envelope_declined e.id (.declined (signer.map (·.id)) reason.isSome)
  emitErasing server who e.id none fun fresh =>
    { type := .envelope_declined, envelopeId := fresh.id, phase := derivePhase fresh,
      signer := (((signer.map (·.id)).bind (signerById fresh)).or signer).map eventSigner,
      data := .declined reason.isSome }
  return e

def void (envelopeId : String) : M ι McpEnvelope := do
  let e ← voidEnvelope (store ⟨who, .void⟩) (env server) server.config.tenant envelopeId
  audit server .envelope_voided e.id .none
  emitErasing server who e.id none fun fresh =>
    { type := .envelope_voided, envelopeId := fresh.id, phase := derivePhase fresh }
  return e

def buildViewed (signerId : String) : Build ι := fun e =>
  match signerById e signerId with
  | none => return none
  | some signer =>
    if ((bookOf e).viewed signerId).isSome then return none
    else do
      let at_ ← now
      let viewed :=
        withBook e
          { bookOf e with viewed := Function.update (bookOf e).viewed signerId (some at_) }
      return some (viewed,
        { type := .envelope_viewed, envelopeId := e.id, phase := derivePhase e,
          signer := some (eventSigner signer) })

/-- Never throws. -/
def recordViewed (envelopeId signerId : String) : M ι Unit := do
  match ← emit server who (fun _ => .note) envelopeId (buildViewed signerId) with
  | none => return ()
  | some _ => isolated (audit server .envelope_viewed envelopeId (.signer signerId))

-- ---------------------------------------------------------------------------
-- Threads
-- ---------------------------------------------------------------------------

inductive Call
  | create (args : CreateArgs)
  | resolve (token : String)
  | recordViewed (envelopeId signerId : String)
  | issueIdentityChallenge (envelopeId signerId : String)
  | acceptPreVerifiedIdentity (evt : IdentityProofEvent)
  | sign (token signatureImageDataUrl : String) (identityProof : Option IdentityProofInput)
  | decline (token : String) (reason : Option String)
  | void (envelopeId : String)
  | reseal (envelopeId : String)
  | sendReminder (envelopeId : String) (signerId : Option String)
  | schedulerTick (purge : Bool)

def perform : Call → M ι Unit
  | .create args => discard (create server who args)
  | .resolve token => discard (resolveSigningToken (store ⟨who, .plain⟩) (env server) token)
  | .recordViewed envelopeId signerId => recordViewed server who envelopeId signerId
  | .issueIdentityChallenge envelopeId signerId =>
    discard (issueIdentityChallenge server who envelopeId signerId)
  | .acceptPreVerifiedIdentity evt => discard (acceptPreVerifiedIdentity server who evt)
  | .sign token image proof => discard (sign server who token image proof)
  | .decline token reason => discard (decline server who token reason)
  | .void envelopeId => discard (void server who envelopeId)
  | .reseal envelopeId => discard (reseal server who envelopeId)
  | .sendReminder envelopeId signerId => discard (sendReminder server who envelopeId signerId)
  | .schedulerTick purge => schedulerTick server who purge

/-- A call in progress; what it throws goes to its caller. -/
def thread (call : Call) : Prog (Op ι) Res (Except Thrown Unit) := (perform server who call).run

end

end EsigSuite.Mcp
