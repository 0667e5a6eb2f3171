import Mathlib.Data.Rat.Defs

/-!
# Envelopes

The data of `esig-core/src/envelope.ts`. The `metadata` an application hangs
on an envelope is a type parameter.
-/

namespace EsigSuite

/-- Milliseconds since the epoch. -/
abbrev Time := Int

inductive EnvelopeStatus
  | sent
  | partially_signed
  | completed
  | voided
  | expired
  deriving DecidableEq, Repr

inductive EnvelopeSignerStatus
  | pending
  | signed
  | declined
  deriving DecidableEq, Repr

structure EnvelopeSigner where
  id : String
  name : String
  email : String
  roleLabel : Option String
  /-- 1-based; equal values sign in parallel. -/
  order : Int
  status : EnvelopeSignerStatus
  tokenHash : String
  signedAt : Option Time := none
  signatureImageDataUrl : Option String := none
  declinedAt : Option Time := none
  declineReason : Option String := none
  deriving DecidableEq, Repr

structure Envelope (μ : Type) where
  id : String
  tenantId : String
  title : String
  html : String
  status : EnvelopeStatus
  signers : List EnvelopeSigner
  createdAt : Time
  expiresAt : Option Time
  completedAt : Option Time := none
  voidedAt : Option Time := none
  metadata : Option μ
  /-- The own property `__mcpRev` with which a store may stamp the object. -/
  mcpRev : Option Nat := none
  deriving DecidableEq, Repr

inductive EnvelopeErrorCode
  | invalid_input
  | invalid_token
  | not_your_turn
  | already_signed
  | not_signable
  | not_complete
  deriving DecidableEq, Repr

/-- The ladder of `identity/types.ts`. -/
inductive IdentityLevel
  | none
  | L0
  | L1
  | L1p
  | L2
  deriving DecidableEq, Repr

/-- What may be thrown while an envelope is worked on. -/
inductive Thrown
  | envelope (code : EnvelopeErrorCode) (message : String)
  | conflict (envelopeId message : String)
  | identity (reason : String) (uuaid : Option String) (level : IdentityLevel)
  | error (message : String)
  deriving DecidableEq, Repr

/-- `EnvelopeStore`, in whatever monad its implementation runs. -/
structure EnvelopeStore (μ : Type) (m : Type → Type) where
  insert : Envelope μ → m (Envelope μ)
  update : Envelope μ → m (Envelope μ)
  findById : String → String → m (Option (Envelope μ))
  findByTokenHash : String → m (Option (Envelope μ))

/-- What the envelope functions take from `node:crypto`, the clock and
`signature-block.ts`. -/
structure EnvelopeEnv (m : Type → Type) where
  now : m Time
  randomToken : m String
  randomUUID : m String
  hashToken : String → String
  /-- `assertImageDataUrl`: the compacted URL, or a throw. -/
  assertImageDataUrl : String → Option String

end EsigSuite
