import EsigSuite.Envelope.Model

/-!
# Creating, resolving, signing, declining and voiding

The functions of `envelope.ts`, over any store. A `signer` the source holds on
to is a reference into `envelope.signers`; here it travels with its index.
-/

namespace EsigSuite

variable {μ : Type} {m : Type → Type} [Monad m] [MonadExceptOf Thrown m]

-- ---------------------------------------------------------------------------
-- Creation
-- ---------------------------------------------------------------------------

/-- The characters `String.prototype.trim` removes. -/
def isTrimmed (c : Char) : Bool :=
  c.val ∈ [0x9, 0xa, 0xb, 0xc, 0xd, 0x20, 0xa0, 0x1680, 0x2028, 0x2029, 0x202f, 0x205f, 0x3000,
    0xfeff] || (0x2000 ≤ c.val && c.val ≤ 0x200a)

/-- `!text.trim()` -/
def blank (text : String) : Bool := text.toList.all isTrimmed

structure SignerInput where
  name : String
  email : String
  roleLabel : Option String := none
  order : Option Rat := none
  deriving DecidableEq

structure CreateEnvelopeInput (μ : Type) where
  tenantId : String
  title : String
  html : String
  signers : List SignerInput
  expiresAt : Option Time := none
  metadata : Option μ := none

structure SigningToken where
  signerId : String
  email : String
  token : String

def invalidInput (message : String) : Thrown := .envelope .invalid_input message

def throwIf (bad : Prop) [Decidable bad] (error : Thrown) : m Unit :=
  if bad then throw error else pure ()

/-- The callback of `input.signers.map`. -/
def createSigner (env : EnvelopeEnv m) (s : SignerInput) : m (EnvelopeSigner × SigningToken) := do
  throwIf (blank s.name) (invalidInput "signer name must be non-empty")
  throwIf (!s.email.toList.contains '@')
    (invalidInput ("signer email looks invalid: " ++ s.email))
  let order := s.order.getD 1
  throwIf (order.den ≠ 1 ∨ order < 1) (invalidInput "signer order must be a positive integer")
  let token ← env.randomToken
  let id ← env.randomUUID
  return ({ id, name := s.name, email := s.email, roleLabel := s.roleLabel, order := order.num,
            status := .pending, tokenHash := env.hashToken token },
          { signerId := id, email := s.email, token })

def checkExpiresAt (env : EnvelopeEnv m) : Option Time → m Unit
  | none => pure ()
  | some expiresAt => do
    throwIf (expiresAt ≤ (← env.now)) (invalidInput "expiresAt must be in the future")

def createEnvelope (store : EnvelopeStore μ m) (env : EnvelopeEnv m)
    (input : CreateEnvelopeInput μ) : m (Envelope μ × List SigningToken) := do
  throwIf (input.tenantId = "") (invalidInput "tenantId is required")
  throwIf (blank input.html) (invalidInput "html must be non-empty")
  throwIf (input.signers = []) (invalidInput "at least one signer is required")
  checkExpiresAt env input.expiresAt
  let created ← input.signers.mapM (createSigner env)
  let id ← env.randomUUID
  let createdAt ← env.now
  let envelope ← store.insert
    { id, tenantId := input.tenantId, title := input.title, html := input.html, status := .sent,
      signers := created.map (·.1), createdAt, expiresAt := input.expiresAt,
      metadata := input.metadata }
  return (envelope, created.map (·.2))

-- ---------------------------------------------------------------------------
-- Token resolution
-- ---------------------------------------------------------------------------

inductive ClosedStatus
  | completed
  | voided
  | expired
  deriving DecidableEq, Repr

inductive TokenResolution (μ : Type)
  | ok (envelope : Envelope μ) (index : Nat) (signer : EnvelopeSigner)
  | not_your_turn (envelope : Envelope μ) (index : Nat) (signer : EnvelopeSigner)
      (waitingOn : List EnvelopeSigner)
  | already_signed (envelope : Envelope μ) (index : Nat) (signer : EnvelopeSigner)
  | closed (status : ClosedStatus) (envelope : Envelope μ) (index : Nat) (signer : EnvelopeSigner)
  | invalid

namespace Envelope

/-- `sent` or `partially_signed`. -/
def live (e : Envelope μ) : Bool := e.status == .sent || e.status == .partially_signed

/-- The first signer with this token hash, and where it stands. -/
def signerOf (e : Envelope μ) (tokenHash : String) : Option (Nat × EnvelopeSigner) := do
  let index ← e.signers.findIdx? (·.tokenHash == tokenHash)
  let signer ← e.signers[index]?
  return (index, signer)

def waitingOn (e : Envelope μ) (signer : EnvelopeSigner) : List EnvelopeSigner :=
  e.signers.filter fun s => s.order < signer.order ∧ s.status ≠ .signed

/-- What a token of a live envelope resolves to. -/
def liveResolution (e : Envelope μ) (index : Nat) (signer : EnvelopeSigner) : TokenResolution μ :=
  if signer.status = .signed then .already_signed e index signer
  else
    match e.waitingOn signer with
    | [] => .ok e index signer
    | waiting => .not_your_turn e index signer waiting

/-- The branches of `resolveSigningToken` after lazy expiry. -/
def resolution (e : Envelope μ) (index : Nat) (signer : EnvelopeSigner) : TokenResolution μ :=
  match e.status with
  | .completed => .closed .completed e index signer
  | .voided => .closed .voided e index signer
  | .expired => .closed .expired e index signer
  | .sent | .partially_signed => e.liveResolution index signer

/-- Assigning to the fields of the signer at `index`. -/
def setSigner (e : Envelope μ) (index : Nat) (f : EnvelopeSigner → EnvelopeSigner) : Envelope μ :=
  { e with signers := e.signers.modify index f }

end Envelope

def resolveSigningToken (store : EnvelopeStore μ m) (env : EnvelopeEnv m) (token : String) :
    m (TokenResolution μ) := do
  match ← store.findByTokenHash (env.hashToken token) with
  | none => return .invalid
  | some envelope =>
    match envelope.signerOf (env.hashToken token) with
    | none => return .invalid
    | some (index, signer) =>
      match envelope.live, envelope.expiresAt with
      | true, some expiresAt =>
        if expiresAt ≤ (← env.now) then
          let envelope ← store.update { envelope with status := .expired }
          return .closed .expired envelope index signer
        else return envelope.resolution index signer
      | _, _ => return envelope.resolution index signer

-- ---------------------------------------------------------------------------
-- Signing, declining, voiding
-- ---------------------------------------------------------------------------

def ClosedStatus.text : ClosedStatus → String
  | .completed => "completed"
  | .voided => "voided"
  | .expired => "expired"

def notSignable (status : ClosedStatus) : Thrown :=
  .envelope .not_signable ("envelope is " ++ status.text)

/-- The envelope after the assignments of `recordSignature`. -/
def Envelope.signed (e : Envelope μ) (index : Nat) (image : String) (signedAt completedAt : Time) :
    Envelope μ :=
  let e := e.setSigner index fun s =>
    { s with status := .signed, signedAt := some signedAt, signatureImageDataUrl := some image }
  if e.signers.all (·.status == .signed) then
    { e with status := .completed, completedAt := some completedAt }
  else { e with status := .partially_signed }

def recordSignature (store : EnvelopeStore μ m) (env : EnvelopeEnv m)
    (token signatureImageDataUrl : String) (signedAt : Option Time) : m (Envelope μ) := do
  match ← resolveSigningToken store env token with
  | .invalid => throw (.envelope .invalid_token "unknown signing token")
  | .not_your_turn _ _ _ waitingOn =>
    throw (.envelope .not_your_turn
      ("waiting on " ++ toString waitingOn.length ++ " earlier signer(s)"))
  | .already_signed .. => throw (.envelope .already_signed "token already used")
  | .closed status .. => throw (notSignable status)
  | .ok envelope index _ =>
    match env.assertImageDataUrl signatureImageDataUrl with
    | none =>
      throw (invalidInput
        "signatureImageDataUrl must be a base64 image data URL (data:image/png;base64,…)")
    | some image =>
      let signedAt ← match signedAt with
        | some t => pure t
        | none => env.now
      -- `completedAt` is read only where the envelope completes.
      let completedAt ← env.now
      store.update (envelope.signed index image signedAt completedAt)

/-- The envelope after the assignments of `declineEnvelope`. -/
def Envelope.declined (e : Envelope μ) (index : Nat) (reason : Option String)
    (declinedAt voidedAt : Time) : Envelope μ :=
  { e.setSigner index fun s =>
      { s with status := .declined, declinedAt := some declinedAt, declineReason := reason } with
    status := .voided, voidedAt := some voidedAt }

def declineEnvelope (store : EnvelopeStore μ m) (env : EnvelopeEnv m) (token : String)
    (reason : Option String) : m (Envelope μ) := do
  let cannotDecline : Thrown := .envelope .not_signable "cannot decline after signing"
  match ← resolveSigningToken store env token with
  | .invalid => throw (.envelope .invalid_token "unknown signing token")
  | .already_signed .. => throw cannotDecline
  | .closed .completed .. => throw cannotDecline
  | .closed status .. => throw (notSignable status)
  | .ok envelope index _ | .not_your_turn envelope index _ _ =>
    let declinedAt ← env.now
    let voidedAt ← env.now
    store.update (envelope.declined index reason declinedAt voidedAt)

def voidEnvelope (store : EnvelopeStore μ m) (env : EnvelopeEnv m) (tenantId envelopeId : String) :
    m (Envelope μ) := do
  match ← store.findById tenantId envelopeId with
  | none => throw (invalidInput "envelope not found")
  | some envelope =>
    throwIf (envelope.status = .completed)
      (.envelope .not_signable "cannot void a completed envelope")
    let voidedAt ← env.now
    store.update { envelope with status := .voided, voidedAt := some voidedAt }

end EsigSuite
