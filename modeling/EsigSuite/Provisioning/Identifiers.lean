import EsigSuite.Provisioning.Domain

/-!
# Deterministic identifiers

The identifiers that `domain.ts` derives from a subscription with the hashes of
`node:crypto`.
-/

namespace EsigSuite.Provisioning

/-- `createHash(..)` of `node:crypto`. -/
structure Hashing where
  /-- of a UTF-8 text, as lowercase hex -/
  sha256Hex : String → String
  sha1 : List UInt8 → List UInt8

def ProvisioningStep.text : ProvisioningStep → String
  | .resolve_tenant => "resolve_tenant"
  | .owner_membership => "owner_membership"
  | .plan_entitlement => "plan_entitlement"
  | .api_credential => "api_credential"
  | .storage_namespace => "storage_namespace"
  | .activation_metadata => "activation_metadata"
  | .mark_ready => "mark_ready"

def DeploymentMode.text : DeploymentMode → String
  | .shared => "shared"
  | .dedicated => "dedicated"

variable (h : Hashing)

def digestIdentifier (space value : String) : Except SafeProvisioningError String :=
  if value = "" then .error ⟨.INVALID_ORDER, false⟩
  else
    .ok (String.ofList
      ((h.sha256Hex ("e-sig-cloud:v1:" ++ space ++ ":" ++ value)).toList.take 24))

/-- The private namespace of tenant ids. -/
def tenantNamespace : List UInt8 :=
  [0x6f, 0x5f, 0x1d, 0xfa, 0xe2, 0x29, 0x5a, 0xed, 0xa5, 0x8b, 0x31, 0x44, 0x77, 0x28, 0xf1, 0xc2]

def hexByte (byte : UInt8) : List Char :=
  [Nat.digitChar (byte.toNat / 16), Nat.digitChar (byte.toNat % 16)]

/-- The version and the variant of a name-based UUID. -/
def uuidBytes (bytes : List UInt8) : List UInt8 :=
  ((bytes.take 16).modify 6 fun byte => (byte &&& 0x0f) ||| 0x50).modify 8
    fun byte => (byte &&& 0x3f) ||| 0x80

def uuidText (bytes : List UInt8) : String :=
  let hex := bytes.flatMap hexByte
  let part (start stop : Nat) := String.ofList ((hex.take stop).drop start)
  part 0 8 ++ "-" ++ part 8 12 ++ "-" ++ part 12 16 ++ "-" ++ part 16 20 ++ "-" ++ part 20 32

def deterministicTenantId (subscriptionId : String) (mode : DeploymentMode) :
    Except SafeProvisioningError String :=
  if subscriptionId = "" then .error ⟨.INVALID_ORDER, false⟩
  else
    .ok (uuidText (uuidBytes (h.sha1 (tenantNamespace ++
      ("e-sig-cloud:v1:tenant:" ++ mode.text ++ ":" ++ subscriptionId).toUTF8.data.toList))))

def deterministicJobId (subscriptionId : String) : Except SafeProvisioningError String :=
  ("job_" ++ ·) <$> digestIdentifier h "job" subscriptionId

def deterministicResourceKey (subscriptionId : String) (step : ProvisioningStep)
    (kind opaqueId : String) : Except SafeProvisioningError String :=
  ("resource_" ++ ·) <$>
    digestIdentifier h ("resource:" ++ step.text ++ ":" ++ kind) (subscriptionId ++ ":" ++ opaqueId)

def deterministicCredentialHandoffId (subscriptionId : String) (activationGeneration : Nat) :
    Except SafeProvisioningError String :=
  let identity :=
    if activationGeneration = 0 then subscriptionId
    else subscriptionId ++ ":activation:" ++ toString activationGeneration
  ("handoff_" ++ ·) <$> digestIdentifier h "credential-handoff" identity

end EsigSuite.Provisioning
