import EsigSuite.Lib.JsonRead
import EsigSuite.Lib.JsNumber
import EsigSuite.Lib.OrderedMap
import EsigSuite.Lib.Utf8

/-!
# Bearer tokens

`esig-gateway/src/auth.ts`: a token is verified against a key of the JWKS and
its `jti` recorded. The key lookup and the cryptography are asked from outside.
-/

namespace EsigSuite.Gateway

open Lib

-- ---------------------------------------------------------------------------
-- Errors and configuration
-- ---------------------------------------------------------------------------

inductive GatewayErrorCode
  | bad_request
  | unsupported_media_type
  | payload_too_large
  | unauthenticated
  | forbidden
  | unknown_tenant
  | unknown_alias
  | stale_timestamp
  | not_found
  | method_not_allowed
  | too_many_requests
  | sign_failed
  | render_failed
  | timeout
  | not_ready
  | internal
  deriving DecidableEq

inductive GatewayThrown
  | gatewayError (code : GatewayErrorCode) (detail : JsString)
  /-- Of the language or the crypto library. -/
  | other (text : String)
  deriving DecidableEq

def unauthenticated (detail : JsString) : GatewayThrown := .gatewayError .unauthenticated detail

structure JwtAuthConfig where
  issuer : JsString
  audience : JsString
  maxLifetimeSec : Double
  clockSkewSec : Double
  requiredScope : JsString

-- ---------------------------------------------------------------------------
-- Replay cache
-- ---------------------------------------------------------------------------

/-- `maxEntries` is 10000 in the gateway. -/
structure ReplayCache where
  maxEntries : Nat
  seen : List (JsString × JsNumber) := []

namespace ReplayCache

def sweep (cache : ReplayCache) (now : Double) : ReplayCache :=
  { cache with seen := cache.seen.filter fun entry => !JsNumber.le entry.2 (some now) }

/-- The first of the entries as the cache sorts them. -/
def oldest (cache : ReplayCache) : Option (JsString × JsNumber) :=
  cache.seen.find? fun a =>
    cache.seen.all fun b => !JsNumber.lt (some (.finite 0)) (JsNumber.sub a.2 b.2)

def makeRoom (cache : ReplayCache) : ReplayCache :=
  if cache.seen.length ≥ cache.maxEntries then
    match cache.oldest with
    | some oldest => { cache with seen := OrderedMap.delete cache.seen oldest.1 }
    | none => cache
  else cache

/-- The jti was used and has not expired yet. -/
def live (cache : ReplayCache) (jti : JsString) (now : Double) : Bool :=
  (OrderedMap.get cache.seen jti).any fun existing => JsNumber.lt (some now) existing

def use (cache : ReplayCache) (jti : JsString) (expiresAtMs : JsNumber) (now : Double) :
    Except GatewayThrown Unit × ReplayCache :=
  let cache := cache.sweep now
  if cache.live jti now then (.error (unauthenticated (js "jti replay: " ++ jti)), cache)
  else
    let cache := cache.makeRoom
    (.ok (), { cache with seen := OrderedMap.set cache.seen jti expiresAtMs })

end ReplayCache

-- ---------------------------------------------------------------------------
-- JWT verification
-- ---------------------------------------------------------------------------

inductive SUPPORTED_ALGS
  | RS256
  | PS256
  | ES256
  deriving DecidableEq

def supportedAlg : Option Json → Option SUPPORTED_ALGS
  | some (.string alg) =>
    if alg = js "RS256" then some .RS256
    else if alg = js "PS256" then some .PS256
    else if alg = js "ES256" then some .ES256
    else none
  | _ => none

/-- What comes from `node:crypto`. `verify` may throw. -/
structure CryptoHost (Key : Type) where
  createPublicKey : Json → Option Key
  asymmetricKeyType : Key → JsString
  verify : SUPPORTED_ALGS → Key → List UInt8 → List UInt8 → Except String Bool

/-- White space of `\s`. -/
def isWhiteSpace (unit : UInt16) : Bool :=
  (9 ≤ unit && unit ≤ 13) || unit == 32 || unit == 0xA0 || unit == 0x1680 ||
    (0x2000 ≤ unit && unit ≤ 0x200A) || unit == 0x2028 || unit == 0x2029 || unit == 0x202F ||
    unit == 0x205F || unit == 0x3000 || unit == 0xFEFF

/-- `text.split(/\s+/).filter(Boolean)` -/
def words (text : JsString) : List JsString := (text.splitOnP isWhiteSpace).filter (· ≠ [])

def scopesOf (claims : Json) : List Json :=
  match member claims "scope" with
  | some (.string scope) => (words scope).map .string
  | _ =>
    match member claims "scp" with
    | some (.array scp) => scp
    | some (.string scp) => (words scp).map .string
    | _ => []

/-- `list.includes(text)` -/
def includesString (items : List Json) (text : JsString) : Bool :=
  items.any fun item => isString text (some item)

def numberOf (claims : Json) (key : String) : Option Double :=
  match member claims key with
  | some (.number x) => some x
  | _ => none

def stringClaim (claims : Json) (key : String) : Option JsString :=
  match member claims key with
  | some (.string s) => if s = [] then none else some s
  | _ => none

def msOf (x : Double) : JsNumber := JsNumber.mul (some x) (some (.finite 1000))

def refuse (bad : Bool) (detail : JsString) : Except GatewayThrown Unit :=
  if bad then .error (unauthenticated detail) else .ok ()

def demand {α : Type} (value : Option α) (detail : JsString) : Except GatewayThrown α :=
  match value with
  | some value => .ok value
  | none => .error (unauthenticated detail)

@[simp] theorem refuse_false (detail : JsString) : refuse false detail = .ok () := rfl

@[simp] theorem demand_some {α : Type} (value : α) (detail : JsString) :
    demand (some value) detail = .ok value := rfl

def propertyOf (value : Json) (key : String) : Except GatewayThrown (Option Json) :=
  match property (some value) key with
  | .ok found => .ok found
  | .error text => .error (.other text)

/-- The checks of the claims, which give the jti and when it expires. -/
def checkClaims (cfg : JwtAuthConfig) (now : Double) (claims : Json) :
    Except GatewayThrown (JsString × JsNumber) := do
  let skewMs := msOf cfg.clockSkewSec
  let iss ← propertyOf claims "iss"
  refuse (!isString cfg.issuer iss) (js "iss mismatch: " ++ templateOf iss)
  let aud := member claims "aud"
  let auds := match aud with
    | some (.array aud) => aud
    | none => []
    | some aud => [aud]
  refuse (!includesString auds cfg.audience) (js "aud mismatch: " ++ templateOf aud)
  let _ ← demand (stringClaim claims "sub") (js "missing sub")
  let exp ← demand (numberOf claims "exp") (js "missing exp")
  let iat ← demand (numberOf claims "iat") (js "missing iat")
  refuse (JsNumber.le (JsNumber.add (msOf exp) skewMs) (some now)) (js "token expired")
  refuse (JsNumber.lt (some now) (JsNumber.sub (msOf iat) skewMs)) (js "token issued in the future")
  refuse ((numberOf claims "nbf").any fun nbf => JsNumber.lt (some now) (JsNumber.sub (msOf nbf) skewMs))
    (js "token not yet valid")
  let lifetime := JsNumber.sub (some exp) (some iat)
  refuse (JsNumber.lt (some cfg.maxLifetimeSec) lifetime)
    (js "token lifetime " ++ JsString.ofText (JsNumber.text lifetime) ++ js "s exceeds max")
  let jti ← demand (stringClaim claims "jti") (js "missing jti")
  refuse (!includesString (scopesOf claims) cfg.requiredScope)
    (js "missing scope " ++ cfg.requiredScope)
  refuse (match member claims "tenant" with
    | none | some (.string _) => false
    | some _ => true) (js "tenant claim must be a string")
  return (jti, JsNumber.add (msOf exp) skewMs)

def b64u (part : JsString) : List UInt8 := fromBase64 part

def parseSegment (raw : JsString) : Option Json := Json.parse (Utf8.decode (b64u raw))

/-- `Buffer.from(text, "ascii")` -/
def asciiBytes (text : JsString) : List UInt8 := text.map UInt16.toUInt8

/-- The key of the token's header, of the type that its algorithm asks for. -/
def keyFor {Key : Type} (host : CryptoHost Key) (jwks : Option Json → Except GatewayThrown Json)
    (header : Json) : Except GatewayThrown (SUPPORTED_ALGS × Key) := do
  let headerAlg ← propertyOf header "alg"
  let alg ← demand (supportedAlg headerAlg) (js "unsupported alg " ++ templateOf headerAlg)
  let jwk ← jwks (member header "kid")
  let jwkAlg ← propertyOf jwk "alg"
  refuse (truthy jwkAlg && supportedAlg jwkAlg ≠ some alg)
    (js "alg " ++ templateOf headerAlg ++ js " does not match JWK alg " ++ templateOf jwkAlg)
  let key ← demand (host.createPublicKey jwk) (js "unusable JWKS key")
  let type := host.asymmetricKeyType key
  let expectedType := if alg = .ES256 then js "ec" else js "rsa"
  refuse (type ≠ expectedType && !(expectedType = js "rsa" && type = js "rsa-pss"))
    (js "key type " ++ type ++ js " does not match alg " ++ templateOf headerAlg)
  return (alg, key)

/-- Everything but the replay. -/
def checkToken {Key : Type} (host : CryptoHost Key) (cfg : JwtAuthConfig)
    (jwks : Option Json → Except GatewayThrown Json) (token : JsString) (now : Double) :
    Except GatewayThrown (Json × JsString × JsNumber) :=
  match token.splitOn 46 with
  | [rawHeader, rawPayload, rawSig] =>
    match parseSegment rawHeader, parseSegment rawPayload with
    | some header, some claims => do
      let (alg, key) ← keyFor host jwks header
      match host.verify alg key (asciiBytes (rawHeader ++ js "." ++ rawPayload)) (b64u rawSig) with
      | .error text => throw (.other text)
      | .ok false => throw (unauthenticated (js "JWT signature verification failed"))
      | .ok true => do
        let (jti, expiresAtMs) ← checkClaims cfg now claims
        return (claims, jti, expiresAtMs)
    | _, _ => .error (unauthenticated (js "malformed JWT segments"))
  | _ => .error (unauthenticated (js "malformed JWT"))

def verifyJwt {Key : Type} (host : CryptoHost Key) (cfg : JwtAuthConfig)
    (jwks : Option Json → Except GatewayThrown Json) (token : JsString) (now : Double)
    (replay : ReplayCache) : Except GatewayThrown Json × ReplayCache :=
  match checkToken host cfg jwks token now with
  | .error thrown => (.error thrown, replay)
  | .ok (claims, jti, expiresAtMs) =>
    match replay.use jti expiresAtMs now with
    | (.error thrown, replay) => (.error thrown, replay)
    | (.ok (), replay) => (.ok claims, replay)

end EsigSuite.Gateway
