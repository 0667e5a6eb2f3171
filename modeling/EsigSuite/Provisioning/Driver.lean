import EsigSuite.Provisioning.Orchestrator

/-!
# The provider driver

`ProviderProvisioningDriver`: the steps of a job as calls of a provider, whose
state the driver keeps in snapshot resources of rising generation.
-/

namespace EsigSuite.Provisioning

open Lib

variable {E : Outside}

-- ---------------------------------------------------------------------------
-- Providers
-- ---------------------------------------------------------------------------

structure ProvisioningRequest where
  subscriptionId : String
  customerId : String
  ownerSubject : String
  planCode : PlanId
  region : String
  deriving DecidableEq, Repr

inductive ProviderStatus
  | provisioning
  | ready
  | suspended
  | disabled
  deriving DecidableEq, Repr

/-- What only the resources of one mode have. -/
inductive ProviderIdentity
  | shared (storageNamespace credentialId : String)
  | dedicated (projectRef projectName stackId stackName : String)
  deriving DecidableEq, Repr

structure ProviderResources where
  subscriptionId : String
  tenantId : String
  identity : ProviderIdentity
  status : ProviderStatus
  deriving DecidableEq, Repr

def ProviderIdentity.mode : ProviderIdentity → DeploymentMode
  | .shared .. => .shared
  | .dedicated .. => .dedicated

abbrev ProviderResources.mode (resources : ProviderResources) : DeploymentMode :=
  resources.identity.mode

structure ProvisioningResult where
  resources : ProviderResources
  created : Bool
  oneTimeCredential : Option OneTimeCredential
  deriving DecidableEq, Repr

inductive UnknownOutcome
  | absent
  | suspended
  | disabled
  deriving DecidableEq, Repr

/-- `UnknownCompensationResult` and `UnknownSuspensionResult`. -/
structure UnknownResult where
  mode : DeploymentMode
  tenantId : String
  outcome : UnknownOutcome
  deriving DecidableEq, Repr

/-- The methods of a provider that the driver calls. The result of a reissue
always has a credential. -/
structure ProvisioningProvider (E : Outside) where
  mode : DeploymentMode
  provision : ProvisioningRequest → Option ProviderResources → M E ProvisioningResult
  reissueCredential :
    ProvisioningRequest → ProviderResources → M E (ProviderResources × OneTimeCredential)
  markReady : ProvisioningRequest → ProviderResources → M E ProviderResources
  resume : ProvisioningRequest → ProviderResources → M E ProvisioningResult
  suspend : ProvisioningRequest → ProviderResources → M E ProviderResources
  compensate : ProvisioningRequest → ProviderResources → M E ProviderResources
  compensateUnknown : ProvisioningRequest → M E UnknownResult
  suspendUnknown : ProvisioningRequest → M E UnknownResult

-- ---------------------------------------------------------------------------
-- Snapshots
-- ---------------------------------------------------------------------------

def PROVIDER_STATE_RESOURCE_KIND : String := "provider_state_v1"

/-- The parts of the resources that a snapshot names. -/
inductive SnapshotIdentity
  | shared (credentialId : String)
  | dedicated (projectRef stackId : String)
  deriving DecidableEq, Repr

structure ProviderSnapshot where
  generation : Nat
  identity : SnapshotIdentity
  status : ProviderStatus
  deriving DecidableEq, Repr

/-- What `decodeSnapshot` asks of the identifiers. -/
def SnapshotIdentity.nonEmpty : SnapshotIdentity → Bool
  | .shared credentialId => credentialId != ""
  | .dedicated projectRef stackId => projectRef != "" && stackId != ""

def validGeneration (generation : Nat) : Bool := generation < 2 ^ 53

/-- `JSON.stringify` in base64url, and back. A text of more than 512 characters
is not made. -/
structure SnapshotCodec where
  encode : ProviderSnapshot → Option String
  decode : String → Option ProviderSnapshot
  decode_encode : validGeneration snapshot.generation = true → snapshot.identity.nonEmpty = true →
    encode snapshot = some text → decode text = some snapshot

structure ProviderIdentifiers where
  tenantId : String
  storageNamespace : String
  projectName : String
  stackName : String

section
variable (rt : Runtime)

def subscriptionDigest (subscriptionId : String) : List Char :=
  (rt.hashing.sha256Hex ("e-sig:subscription:" ++ subscriptionId)).toList

def deriveProviderIdentifiers (subscriptionId : String) (mode : DeploymentMode) :
    Except SafeProvisioningError ProviderIdentifiers := do
  let tenantId ← deterministicTenantId rt.hashing subscriptionId mode
  pure
    { tenantId
      storageNamespace := tenantId ++ "/"
      projectName := "esig-" ++ String.ofList ((subscriptionDigest rt subscriptionId).take 20)
      stackName :=
        "esig-dedicated-" ++ String.ofList ((subscriptionDigest rt subscriptionId).take 24) }

end

def snapshotIdentity : ProviderIdentity → SnapshotIdentity
  | .shared _ credentialId => .shared credentialId
  | .dedicated projectRef _ stackId _ => .dedicated projectRef stackId

/-- The identity that a snapshot stands for. -/
def restoreIdentity (identifiers : ProviderIdentifiers) : SnapshotIdentity → ProviderIdentity
  | .shared credentialId => .shared identifiers.storageNamespace credentialId
  | .dedicated projectRef stackId =>
    .dedicated projectRef identifiers.projectName stackId identifiers.stackName

def SnapshotIdentity.mode : SnapshotIdentity → DeploymentMode
  | .shared _ => .shared
  | .dedicated .. => .dedicated

structure Reconstructed where
  resources : ProviderResources
  generation : Nat
  deriving DecidableEq, Repr

def sameProviderIdentity (left right : ProviderResources) (allowSharedCredentialRotation : Bool) :
    Bool :=
  left.subscriptionId == right.subscriptionId && left.tenantId == right.tenantId &&
    match left.identity, right.identity with
    | .shared storageNamespace credentialId, .shared storageNamespace' credentialId' =>
      storageNamespace == storageNamespace' &&
        (allowSharedCredentialRotation || credentialId == credentialId')
    | .dedicated projectRef projectName stackId stackName,
        .dedicated projectRef' projectName' stackId' stackName' =>
      projectRef == projectRef' && projectName == projectName' && stackId == stackId' &&
        stackName == stackName'
    | _, _ => false

def sameProviderResources (left right : ProviderResources) : Bool :=
  sameProviderIdentity left right false && left.status == right.status

def nextGeneration (prior : Option Reconstructed) (resources : ProviderResources) : Nat :=
  match prior with
  | none => 0
  | some prior =>
    if sameProviderResources prior.resources resources then prior.generation
    else prior.generation + 1

def PROVIDER_RESPONSE_INVALID : SafeProvisioningError := ⟨.PROVIDER_RESPONSE_INVALID, false⟩

def PROVIDER_CONFLICT : SafeProvisioningError := ⟨.PROVIDER_CONFLICT, false⟩

def snapshotResource (codec : SnapshotCodec) (resources : ProviderResources) (generation : Nat) :
    Except SafeProvisioningError StepResourceInput :=
  if !validGeneration generation then .error PROVIDER_RESPONSE_INVALID
  else
    match codec.encode ⟨generation, snapshotIdentity resources.identity, resources.status⟩ with
    | none => .error PROVIDER_RESPONSE_INVALID
    | some opaqueId => .ok ⟨PROVIDER_STATE_RESOURCE_KIND, opaqueId, .mutable⟩

def decodeSnapshot (codec : SnapshotCodec) (opaqueId : String) :
    Except SafeProvisioningError ProviderSnapshot :=
  match codec.decode opaqueId with
  | none => .error PROVIDER_RESPONSE_INVALID
  | some snapshot => .ok snapshot

def compensationStatus : ProvisioningStep → MutableResourceStatus
  | .api_credential => .revoked
  | .plan_entitlement | .activation_metadata | .mark_ready => .disabled
  | .resolve_tenant | .owner_membership | .storage_namespace => .quarantined

-- ---------------------------------------------------------------------------
-- The driver
-- ---------------------------------------------------------------------------

structure ProviderProvisioningDriver (E : Outside) where
  provider : ProvisioningProvider E
  region : String
  codec : SnapshotCodec

namespace ProviderProvisioningDriver

variable (driver : ProviderProvisioningDriver E) (rt : Runtime)

def mode : DeploymentMode := driver.provider.mode

/-- `#request`, of an order with its identity. -/
def request (order : OrderRecord) : ProvisioningRequest where
  subscriptionId := order.subscriptionId
  customerId := order.customerId.getD ""
  ownerSubject := order.ownerSubject.getD ""
  planCode := order.plan.getD .starter
  region := driver.region

def validateInputIdentity (order : OrderRecord) (jobTenantId : String) :
    Except SafeProvisioningError Unit := do
  if order.mode ≠ some driver.mode then throw ⟨.MODE_MISMATCH, false⟩
  let tenantId ← deterministicTenantId rt.hashing order.subscriptionId driver.mode
  if jobTenantId ≠ tenantId then throw PROVIDER_CONFLICT

def identityValid (identifiers : ProviderIdentifiers) : ProviderIdentity → Bool
  | .shared storageNamespace credentialId =>
    storageNamespace == identifiers.storageNamespace && credentialId != ""
  | .dedicated projectRef projectName stackId stackName =>
    projectName == identifiers.projectName && stackName == identifiers.stackName &&
      projectRef != "" && stackId != ""

def validateProviderResources (resources : ProviderResources) (request : ProvisioningRequest)
    (jobTenantId : String) : Except SafeProvisioningError Unit := do
  let identifiers ← deriveProviderIdentifiers rt request.subscriptionId driver.mode
  if resources.mode ≠ driver.mode ∨ resources.subscriptionId ≠ request.subscriptionId ∨
      resources.tenantId ≠ jobTenantId ∨ resources.tenantId ≠ identifiers.tenantId ∨
      !identityValid identifiers resources.identity then
    throw PROVIDER_RESPONSE_INVALID

/-- The newest of the snapshots, of which there must be one only. -/
def latestSnapshot (snapshots : List ProviderSnapshot) :
    Except SafeProvisioningError (Option ProviderSnapshot) :=
  match snapshots.filter fun snapshot =>
      snapshot.generation == snapshots.foldl (fun g snapshot => max g snapshot.generation) 0 with
  | [] => .ok none
  | latest :: rest => if rest.all (· == latest) then .ok (some latest) else .error PROVIDER_CONFLICT

def reconstruct (records : List ResourceRecord) (request : ProvisioningRequest) :
    Except SafeProvisioningError (Option Reconstructed) := do
  let snapshots ← (records.filter (·.kind == PROVIDER_STATE_RESOURCE_KIND)).mapM fun record =>
    decodeSnapshot driver.codec record.opaqueId
  match ← latestSnapshot snapshots with
  | none => pure none
  | some snapshot =>
    if snapshot.identity.mode ≠ driver.mode then throw PROVIDER_CONFLICT
    else
      let identifiers ← deriveProviderIdentifiers rt request.subscriptionId driver.mode
      let resources : ProviderResources :=
        { subscriptionId := request.subscriptionId
          tenantId := identifiers.tenantId
          identity := restoreIdentity identifiers snapshot.identity
          status := snapshot.status }
      driver.validateProviderResources rt resources request identifiers.tenantId
      pure (some ⟨resources, snapshot.generation⟩)

def validateOneTimeCredential (value : OneTimeCredential) (resources : ProviderResources) :
    Except SafeProvisioningError Unit :=
  let matched :=
    match resources.identity with
    | .shared _ credentialId => value.id == credentialId
    | .dedicated .. => true
  if value.id = "" ∨ value.plaintext = "" ∨ !matched then .error PROVIDER_RESPONSE_INVALID
  else .ok ()

/-- The checks of `credential`, if there is one. -/
def validateOptionalCredential (value : Option OneTimeCredential) (resources : ProviderResources)
    (handoffCompleted : Bool) : Except SafeProvisioningError Unit :=
  match value with
  | none => .ok ()
  | some credential => do
    validateOneTimeCredential credential resources
    if handoffCompleted then throw PROVIDER_RESPONSE_INVALID

/-- The snapshot that follows `prior`, and a credential if one was made. -/
def stepResult (prior : Option Reconstructed) (resources : ProviderResources)
    (oneTimeCredential : Option OneTimeCredential) : Except SafeProvisioningError StepExecutionResult := do
  let snapshot ← snapshotResource driver.codec resources (nextGeneration prior resources)
  pure ⟨[snapshot], oneTimeCredential⟩

/-- The tenant of an earlier activation is resumed. -/
def resumeTenant (input : StepInput) (request : ProvisioningRequest) (prior : Reconstructed) :
    M E StepExecutionResult := do
  if input.credentialHandoffCompleted then
    -- the snapshot was stored before the credential was published, and another
    -- resume would rotate the credential away from the published one
    if prior.resources.status ≠ .provisioning then fail .PROVIDER_RESPONSE_INVALID false
    else
      let snapshot ← orThrow (snapshotResource driver.codec prior.resources prior.generation)
      pure ⟨[snapshot], none⟩
  else
    let result ← driver.provider.resume request prior.resources
    orThrow (driver.validateProviderResources rt result.resources request input.job.tenantId)
    match result.oneTimeCredential with
    | none => fail .PROVIDER_RESPONSE_INVALID false
    | some credential =>
      if result.resources.status ≠ .provisioning ∨
          !sameProviderIdentity prior.resources result.resources (driver.mode == .shared) then
        fail .PROVIDER_RESPONSE_INVALID false
      else
        orThrow (validateOneTimeCredential credential result.resources)
        orThrow (driver.stepResult (some prior) result.resources (some credential))

def rotated (left right : ProviderResources) : Bool :=
  match left.identity, right.identity with
  | .shared _ credentialId, .shared _ credentialId' => credentialId != credentialId'
  | _, _ => true

/-- The tenant has been created, but its credential was not handed off. -/
def reissueTenant (input : StepInput) (request : ProvisioningRequest) (prior : Reconstructed) :
    M E StepExecutionResult := do
  let (resources, credential) ← driver.provider.reissueCredential request prior.resources
  orThrow (driver.validateProviderResources rt resources request input.job.tenantId)
  if !sameProviderIdentity prior.resources resources (driver.mode == .shared) ∨
      (driver.mode = .shared ∧ !rotated prior.resources resources) then
    fail .PROVIDER_RESPONSE_INVALID false
  else
    orThrow (validateOneTimeCredential credential resources)
    orThrow (driver.stepResult (some prior) resources (some credential))

def provisionTenant (input : StepInput) (request : ProvisioningRequest)
    (prior : Option Reconstructed) : M E StepExecutionResult := do
  let result ← driver.provider.provision request (prior.map (·.resources))
  orThrow (driver.validateProviderResources rt result.resources request input.job.tenantId)
  if prior.any (fun prior => !sameProviderIdentity prior.resources result.resources false) ∨
      result.resources.status = .disabled then
    fail .PROVIDER_RESPONSE_INVALID false
  else
    orThrow (validateOptionalCredential result.oneTimeCredential result.resources
      input.credentialHandoffCompleted)
    orThrow (driver.stepResult prior result.resources result.oneTimeCredential)

def provisionOrReissue (input : StepInput) : M E StepExecutionResult := do
  let request := driver.request input.order
  let prior ← orThrow (driver.reconstruct rt input.resources request)
  match prior with
  | none => driver.provisionTenant rt input request none
  | some prior =>
    if input.job.activationGeneration > 0 then driver.resumeTenant rt input request prior
    else if !input.credentialHandoffCompleted then driver.reissueTenant rt input request prior
    else driver.provisionTenant rt input request (some prior)

def markReady (input : StepInput) : M E StepExecutionResult := do
  let request := driver.request input.order
  let prior ← orThrow (driver.reconstruct rt input.resources request)
  match prior with
  | none => fail .PROVIDER_RESPONSE_INVALID false
  | some prior =>
    let ready ← driver.provider.markReady request prior.resources
    orThrow (driver.validateProviderResources rt ready request input.job.tenantId)
    if ready.status ≠ .ready ∨ !sameProviderIdentity prior.resources ready false then
      fail .PROVIDER_RESPONSE_INVALID false
    else orThrow (driver.stepResult (some prior) ready none)

def executeStep (input : StepInput) : M E StepExecutionResult := do
  orThrow (driver.validateInputIdentity rt input.order input.job.tenantId)
  match input.step with
  | .api_credential => driver.provisionOrReissue rt input
  | .mark_ready => driver.markReady rt input
  | _ => pure ⟨[], none⟩

/-- The effect on a tenant of which no snapshot is stored. -/
def compensateUnknownTenant (input : StepInput) (request : ProvisioningRequest)
    (targetStatus : ProviderStatus) : M E Unit := do
  let result ←
    if targetStatus = .suspended then driver.provider.suspendUnknown request
    else driver.provider.compensateUnknown request
  let target : UnknownOutcome := if targetStatus = .suspended then .suspended else .disabled
  if result.mode ≠ driver.mode ∨ result.tenantId ≠ input.job.tenantId ∨
      (result.outcome ≠ .absent ∧ result.outcome ≠ target) then
    fail .PROVIDER_RESPONSE_INVALID false
  else pure ()

/-- The effect on the tenant of a snapshot, as the next one. -/
def compensateTenant (input : StepInput) (request : ProvisioningRequest)
    (targetStatus : ProviderStatus) (prior : Reconstructed) : M E StepResourceInput := do
  let transitioned ←
    if targetStatus = .suspended then driver.provider.suspend request prior.resources
    else driver.provider.compensate request prior.resources
  orThrow (driver.validateProviderResources rt transitioned request input.job.tenantId)
  if transitioned.status ≠ targetStatus ∨
      !sameProviderIdentity prior.resources transitioned false then
    fail .PROVIDER_RESPONSE_INVALID false
  else
    orThrow (snapshotResource driver.codec transitioned (nextGeneration (some prior) transitioned))

/-- The new snapshot, if the provider is called and had one. -/
def applyLifecycle (input : StepInput) (request : ProvisioningRequest)
    (targetStatus : ProviderStatus) (prior : Option Reconstructed) :
    M E (List StepResourceInput) :=
  match prior with
  | none => do
    driver.compensateUnknownTenant input request targetStatus
    pure []
  | some prior => do
    let snapshot ← driver.compensateTenant rt input request targetStatus prior
    pure [snapshot]

/-- `inactiveLifecycleReceipt` -/
def inactiveLifecycleReceipt (resources : List ResourceRecord) : Bool :=
  resources.any fun resource =>
    resource.kind == PROVIDER_STATE_RESOURCE_KIND &&
      match resource.retention with
      | .mutable status => status != .active
      | .immutable_evidence => false

/-- The provider is to be called. -/
def needsLifecycle (resources : List ResourceRecord) (targetStatus : ProviderStatus)
    (prior : Option Reconstructed) : Bool :=
  prior.map (·.resources.status) != some targetStatus &&
    !(inactiveLifecycleReceipt resources &&
      prior.map (·.resources.status) != some .suspended)

def targetStatus (order : OrderRecord) : ProviderStatus :=
  if order.billingState = .past_due then .suspended else .disabled

def compensateStep (input : StepInput) : M E StepCompensationResult := do
  orThrow (driver.validateInputIdentity rt input.order input.job.tenantId)
  let request := driver.request input.order
  let prior ← orThrow (driver.reconstruct rt input.resources request)
  let resources ←
    if needsLifecycle input.resources (targetStatus input.order) prior then
      driver.applyLifecycle rt input request (targetStatus input.order) prior
    else pure []
  pure
    { resources
      dispositions :=
        (input.stepResources.filter (·.retention != .immutable_evidence)).map fun resource =>
          ⟨resource.resourceKey, compensationStatus input.step⟩ }

def toProvisioningDriver : ProvisioningDriver E where
  mode := driver.mode
  requiresCredentialHandoff := true
  executeStep := driver.executeStep rt
  compensateStep := driver.compensateStep rt

end ProviderProvisioningDriver

end EsigSuite.Provisioning
