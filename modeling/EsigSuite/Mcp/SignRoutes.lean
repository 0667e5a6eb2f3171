import EsigSuite.Mcp.Sealing
import Mathlib.Algebra.GroupWithZero.Nat

/-!
# The routes that sign and decline

`POST /sign/<token>` and `POST /sign/<token>/decline` of `http.ts`. A request is
what the route looks at: the token, the limiter's answer, the content type and
the parsed body.
-/

namespace EsigSuite

inductive RequestBody (β : Type)
  /-- `readBody` or `JSON.parse` threw. -/
  | unreadable (message : String)
  /-- The JSON value `null`, whose fields cannot be read. -/
  | null
  | read (body : β)

structure Request (β : Type) where
  /-- `decodeURIComponent` of the path's part, if it does not throw. -/
  token : Option String
  /-- `limiter.allow` -/
  allowed : Bool
  /-- The content type begins with `application/json`. -/
  json : Bool
  body : RequestBody β

inductive ProofField
  | absent
  /-- Not an object with a string `uuaid`. -/
  | malformed
  | given (proof : IdentityProofInput)

structure SignBody where
  /-- Where it is a string. -/
  signatureImageDataUrl : Option String
  /-- `consent === true` -/
  consent : Bool
  identityProof : ProofField

inductive ReasonField
  | absent
  /-- Not a string. -/
  | malformed
  | given (reason : String)

structure DeclineBody where
  reason : ReasonField

inductive ResponseBody
  | error (message : String)
  /-- `messageOf(e)`, with the reason of an identity error. -/
  | failed (e : Thrown)
  | unsealed (envelopeId : String)
  | signed (status : EnvelopeStatus) (envelopeId : String) (sealedPdf : Option String)
  | declined (status : EnvelopeStatus) (envelopeId : String)

structure Response where
  status : Nat
  body : ResponseBody

def statusForSignError : Thrown → Nat
  | .identity .. => 403
  | .conflict .. => 409
  | .envelope .invalid_token _ => 404
  | .envelope .invalid_input _ => 400
  | .envelope .already_signed _ | .envelope .not_your_turn _ | .envelope .not_signable _
  | .envelope .not_complete _ => 409
  | .error _ => 500

def refuse (status : Nat) (message : String) : Response := ⟨status, .error message⟩

def failedResponse (e : Thrown) : Response := ⟨statusForSignError e, .failed e⟩

def tooMany : Response :=
  refuse 429 "too many requests to /sign — please wait a moment and try again"

def isControl (c : Char) : Bool := c.toNat ≤ 0x1F || c.toNat == 0x7F

/-- `replace(/[\x00-\x1f\x7f]/g, "").trim()` -/
def stripControlChars (text : String) : String :=
  let kept := (text.toList.filter fun c => !isControl c).dropWhile isTrimmed
  String.ofList (kept.reverse.dropWhile isTrimmed).reverse

/-- `length`, in UTF-16 units. -/
def textLength (text : String) : Nat :=
  (text.toList.map fun c => if c.toNat < 0x10000 then 1 else 2).sum

namespace Service

variable {ρ : Type} [Inhabited ρ] {m : Type → Type} [Monad m] [MonadExceptOf Thrown m]

/-- What the two routes check before they look at the body. -/
def withBody {β : Type} (request : Request β) (next : String → β → m Response) : m Response :=
  match request.token with
  | none => return refuse 500 "internal error"
  | some token =>
    if ¬ request.allowed then return tooMany
    else if ¬ request.json then return refuse 415 "content-type must be application/json"
    else
      match request.body with
      | .unreadable message => return refuse 400 ("invalid request body: " ++ message)
      | .null => return refuse 500 "internal error"
      | .read body => next token body

/-- A throw of the service becomes the response. -/
def responding (x : m Response) : m Response :=
  tryCatchThe Thrown x fun e => return failedResponse e

def signResponse (envelope : ServiceEnvelope ρ) : Response :=
  if derivePhase envelope = .seal_failed ∨ derivePhase envelope = .awaiting_seal then
    ⟨202, .unsealed envelope.id⟩
  else ⟨200, .signed envelope.status envelope.id (sealMeta envelope).sealedPdfUrl⟩

def signFor (deps : SealingDeps ρ m) (token image : String)
    (identityProof : Option IdentityProofInput) : m Response :=
  responding do return signResponse (← sign deps token image identityProof)

def postSign (deps : SealingDeps ρ m) (request : Request SignBody) : m Response :=
  withBody request fun token body =>
    match body.signatureImageDataUrl with
    | none => return refuse 400 "signatureImageDataUrl (string) is required"
    | some image =>
      if image = "" then return refuse 400 "signatureImageDataUrl (string) is required"
      else if ¬ body.consent then return refuse 400 "consent must be true"
      else
        match body.identityProof with
        | .malformed =>
          return refuse 400
            "identityProof.uuaid (string) is required when identityProof is present"
        | .absent => signFor deps token image none
        | .given proof => signFor deps token image (some proof)

def declineFor (deps : SealingDeps ρ m) (token : String) (reason : Option String) : m Response :=
  responding do
    let envelope ← decline deps token reason
    return ⟨200, .declined envelope.status envelope.id⟩

/-- `stripControlChars(reason) || undefined` -/
def cleanReason (reason : String) : Option String :=
  if stripControlChars reason = "" then none else some (stripControlChars reason)

def postDecline (deps : SealingDeps ρ m) (request : Request DeclineBody) : m Response :=
  withBody request fun token body =>
    match body.reason with
    | .absent => declineFor deps token none
    | .malformed => return refuse 400 "reason must be a string of at most 500 characters"
    | .given reason =>
      if textLength reason > 500 then
        return refuse 400 "reason must be a string of at most 500 characters"
      else declineFor deps token (cleanReason reason)

end Service

end EsigSuite
