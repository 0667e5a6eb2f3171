import EsigSuite.Provisioning.Driver
import EsigSuite.Provisioning.Migrations

/-!
# The dedicated provider

`DedicatedProvisioningProvider` of `providers/dedicated.ts`: a project of the
Management API, a CloudFormation stack and a tenant row in the database of the
project. The three systems are a state. Every call of them is an `await`, at
which a process may stop, with or without the effect of the call.
-/

namespace EsigSuite.Provisioning.Dedicated

open Bootstrapper (ProviderErrorCode DEDICATED_REQUIRED_MIGRATIONS)
open Lib

-- ---------------------------------------------------------------------------
-- Errors
-- ---------------------------------------------------------------------------

structure ProviderError where
  code : ProviderErrorCode
  operation : String
  retryable : Bool := false
  deriving DecidableEq

/-- The process stops, or an error is thrown. -/
inductive Halt
  | stopped
  | thrown (error : ProviderError)
  deriving DecidableEq

-- ---------------------------------------------------------------------------
-- The systems
-- ---------------------------------------------------------------------------

structure SupabaseProject where
  ref : String
  name : String
  status : String
  deriving DecidableEq

/-- `StackStatus` of CloudFormation. -/
inductive StackStatus
  | CREATE_IN_PROGRESS
  | CREATE_FAILED
  | CREATE_COMPLETE
  | ROLLBACK_IN_PROGRESS
  | ROLLBACK_FAILED
  | ROLLBACK_COMPLETE
  | DELETE_IN_PROGRESS
  | DELETE_FAILED
  | DELETE_COMPLETE
  | UPDATE_IN_PROGRESS
  | UPDATE_COMPLETE_CLEANUP_IN_PROGRESS
  | UPDATE_COMPLETE
  | UPDATE_FAILED
  | UPDATE_ROLLBACK_IN_PROGRESS
  | UPDATE_ROLLBACK_FAILED
  | UPDATE_ROLLBACK_COMPLETE_CLEANUP_IN_PROGRESS
  | UPDATE_ROLLBACK_COMPLETE
  | REVIEW_IN_PROGRESS
  deriving DecidableEq

/-- `status.endsWith("_IN_PROGRESS")` -/
def isStackInProgress : StackStatus → Bool
  | .CREATE_IN_PROGRESS | .ROLLBACK_IN_PROGRESS | .DELETE_IN_PROGRESS | .UPDATE_IN_PROGRESS
  | .UPDATE_COMPLETE_CLEANUP_IN_PROGRESS | .UPDATE_ROLLBACK_IN_PROGRESS
  | .UPDATE_ROLLBACK_COMPLETE_CLEANUP_IN_PROGRESS | .REVIEW_IN_PROGRESS => true
  | _ => false

/-- It ends in `_FAILED` or starts with `ROLLBACK_`, `DELETE_` or
`UPDATE_ROLLBACK_`. -/
def isFailedStackStatus : StackStatus → Bool
  | .CREATE_FAILED | .ROLLBACK_FAILED | .DELETE_FAILED | .UPDATE_FAILED | .UPDATE_ROLLBACK_FAILED
  | .ROLLBACK_IN_PROGRESS | .ROLLBACK_COMPLETE | .DELETE_IN_PROGRESS | .DELETE_COMPLETE
  | .UPDATE_ROLLBACK_IN_PROGRESS | .UPDATE_ROLLBACK_COMPLETE_CLEANUP_IN_PROGRESS
  | .UPDATE_ROLLBACK_COMPLETE => true
  | _ => false

structure Stack where
  name : String
  stackId : String
  status : StackStatus
  parameters : List (String × String)
  tags : List (String × String)
  deriving DecidableEq

inductive TenantStatus
  | provisioning
  | ready
  | suspended
  | disabled
  deriving DecidableEq

structure DedicatedTenantIdentity where
  subscriptionId : String
  tenantId : String
  projectRef : String
  stackId : String
  deriving DecidableEq

structure TenantRow where
  identity : DedicatedTenantIdentity
  status : TenantStatus
  deriving DecidableEq

structure Cloud where
  project : Option SupabaseProject
  /-- How often the project will be reported as not healthy yet. -/
  healthPolls : Nat
  /-- How often a project that is being paused will be described as such. -/
  pausePolls : Nat
  migrated : Bool
  stack : Option Stack
  /-- How often an operation on the stack will be described as in progress. -/
  stackPolls : Nat
  tenant : Option TenantRow
  deriving DecidableEq

/-- The systems, and the process that calls them. -/
structure Process where
  cloud : Cloud
  /-- How often the process can wait until its deadline. -/
  waits : Nat
  /-- How many more calls are answered, if the process stops at all. -/
  stop : Option Nat
  /-- The call at which the process stops has its effect. -/
  lost : Bool
  deriving DecidableEq

/-- What the systems choose, and the configuration of the provider. -/
structure Setting where
  rt : Runtime
  toLowerCase : String → String
  databasePassword : Option String
  projectRef : String
  stackId : String
  stackId_ne : stackId ≠ ""
  healthPolls : Nat
  pausePolls : Nat
  createPolls : Nat
  updatePolls : Nat
  waits : Nat

/-- Nothing was created. -/
def Cloud.empty : Cloud where
  project := none
  healthPolls := 0
  pausePolls := 0
  migrated := false
  stack := none
  stackPolls := 0
  tenant := none

abbrev P := ExceptT Halt (StateM Process)

def fail (code : ProviderErrorCode) (operation : String) : P α :=
  throwThe Halt (.thrown { code, operation })

def failRetryable (code : ProviderErrorCode) (operation : String) : P α :=
  throwThe Halt (.thrown { code, operation, retryable := true })

/-- An `await`. -/
def call (answer : Cloud → Except ProviderError α × Cloud) : P α :=
  ExceptT.mk fun process =>
    match process.stop with
    | some 0 =>
      (.error .stopped,
        { process with
          cloud := if process.lost then (answer process.cloud).2 else process.cloud })
    | stop =>
      ((answer process.cloud).1.mapError .thrown,
        { process with cloud := (answer process.cloud).2, stop := stop.map (· - 1) })

-- ---------------------------------------------------------------------------
-- The Management API
-- ---------------------------------------------------------------------------

section
variable (s : Setting)

def findProjectByName (projectName : String) : P (Option SupabaseProject) :=
  call fun cloud => (.ok (cloud.project.filter (·.name == projectName)), cloud)

/-- A project that is being paused becomes inactive. -/
def Cloud.settleProject (cloud : Cloud) : Cloud :=
  match cloud.project with
  | some project =>
    if project.status = "PAUSING" then
      if cloud.pausePolls = 0 then { cloud with project := some { project with status := "INACTIVE" } }
      else { cloud with pausePolls := cloud.pausePolls - 1 }
    else cloud
  | none => cloud

def describeProject (projectRef : String) : P (Option SupabaseProject) :=
  call fun cloud => (.ok (cloud.settleProject.project.filter (·.ref == projectRef)), cloud.settleProject)

/-- `POST /v1/projects`, with none for a conflict. -/
def createProject (projectName : String) : P (Option SupabaseProject) :=
  call fun cloud =>
    match cloud.project with
    | some _ => (.ok none, cloud)
    | none =>
      let project : SupabaseProject := ⟨s.projectRef, projectName, "COMING_UP"⟩
      (.ok (some project), { cloud with project := some project, healthPolls := s.healthPolls })

/-- All services are healthy. -/
def projectHealth (projectRef : String) : P (Option Unit) :=
  call fun cloud =>
    match cloud.project.filter (·.ref == projectRef) with
    | none => (.error { code := .PROVIDER_NOT_FOUND, operation := "dedicated.project.health" }, cloud)
    | some _ =>
      if cloud.healthPolls = 0 then (.ok (some ()), cloud)
      else (.ok none, { cloud with healthPolls := cloud.healthPolls - 1 })

/-- `POST /v1/projects/{ref}/pause` -/
def requestPause (projectRef : String) : P Unit :=
  call fun cloud =>
    match cloud.project.filter (·.ref == projectRef) with
    | none => (.error { code := .PROVIDER_NOT_FOUND, operation := "dedicated.project.pause" }, cloud)
    | some project =>
      (.ok (), { cloud with project := some { project with status := "PAUSING" }, pausePolls := s.pausePolls })

-- ---------------------------------------------------------------------------
-- CloudFormation
-- ---------------------------------------------------------------------------

/-- An operation in progress completes. -/
def Cloud.settleStack (cloud : Cloud) : Cloud :=
  match cloud.stack with
  | some stack =>
    if cloud.stackPolls ≠ 0 then { cloud with stackPolls := cloud.stackPolls - 1 }
    else
      match stack.status with
      | .CREATE_IN_PROGRESS => { cloud with stack := some { stack with status := .CREATE_COMPLETE } }
      | .UPDATE_IN_PROGRESS => { cloud with stack := some { stack with status := .UPDATE_COMPLETE } }
      | _ => cloud
  | none => cloud

def describeStack (stackName : String) : P (Option Stack) :=
  call fun cloud => (.ok (cloud.settleStack.stack.filter (·.name == stackName)), cloud.settleStack)

/-- `CreateStackCommand`, with `false` for `AlreadyExistsException`. -/
def createStack (stackName : String) (parameters tags : List (String × String)) : P Bool :=
  call fun cloud =>
    match cloud.stack with
    | some _ => (.ok false, cloud)
    | none =>
      let stack : Stack := ⟨stackName, s.stackId, .CREATE_IN_PROGRESS, parameters, tags⟩
      (.ok true, { cloud with stack := some stack, stackPolls := s.createPolls })

def setParameter (parameters : List (String × String)) (key value : String) : List (String × String) :=
  parameters.map fun parameter => if parameter.1 = key then (key, value) else parameter

def stackParameter (stack : Stack) (key : String) : Option String :=
  (stack.parameters.find? (·.1 == key)).map (·.2)

/-- `UpdateStackCommand` of `SigningEnabled`, with `false` where there is nothing
to update. -/
def updateStack (stackName signingEnabled : String) : P Bool :=
  call fun cloud =>
    match cloud.stack.filter (·.name == stackName) with
    | none => (.error { code := .PROVIDER_RESOURCE_FAILED, operation := "dedicated.stack.disable" }, cloud)
    | some stack =>
      if isStackInProgress stack.status then
        (.error { code := .PROVIDER_RESOURCE_FAILED, operation := "dedicated.stack.disable" }, cloud)
      else if stackParameter stack "SigningEnabled" = some signingEnabled then (.ok false, cloud)
      else
        (.ok true,
          { cloud with
            stack := some
              { stack with
                status := .UPDATE_IN_PROGRESS
                parameters := setParameter stack.parameters "SigningEnabled" signingEnabled }
            stackPolls := s.updatePolls })

-- ---------------------------------------------------------------------------
-- The tenant bootstrapper
-- ---------------------------------------------------------------------------

def applyMigrations (projectRef : String) : P (List JsString) :=
  call fun cloud =>
    match cloud.project.filter (·.ref == projectRef) with
    | none => (.error { code := .PROVIDER_NOT_FOUND, operation := "migration.ledger" }, cloud)
    | some _ => (.ok DEDICATED_REQUIRED_MIGRATIONS, { cloud with migrated := true })

structure DedicatedTenantProvisioningResult where
  tenantId : String
  status : TenantStatus
  created : Bool
  oneTimeCredential : Option OneTimeCredential
  deriving DecidableEq

/-- A tenant that is new comes with a credential. -/
def provisionTenant (credential : OneTimeCredential) (identity : DedicatedTenantIdentity) :
    P DedicatedTenantProvisioningResult :=
  call fun cloud =>
    if cloud.project.filter (·.ref == identity.projectRef) = none ∨ !cloud.migrated then
      (.error { code := .PROVIDER_NOT_FOUND, operation := "tenant.provision" }, cloud)
    else
      match cloud.tenant with
      | none =>
        (.ok ⟨identity.tenantId, .provisioning, true, some credential⟩,
          { cloud with tenant := some ⟨identity, .provisioning⟩ })
      | some tenant =>
        if tenant.identity ≠ identity ∨ tenant.status = .suspended ∨ tenant.status = .disabled then
          (.error { code := .PROVIDER_CONFLICT, operation := "tenant.provision" }, cloud)
        else (.ok ⟨identity.tenantId, tenant.status, false, none⟩, cloud)

structure DedicatedTenantStateResult where
  tenantId : String
  status : TenantStatus
  deriving DecidableEq

/-- `disableTenant` and `suspendTenant`: the row of the tenant takes the status,
and a disabled one keeps its own. -/
def setTenantState (identity : DedicatedTenantIdentity) (status : TenantStatus) (operation : String) :
    P DedicatedTenantStateResult :=
  call fun cloud =>
    if cloud.project.filter (·.ref == identity.projectRef) = none ∨ !cloud.migrated then
      (.error { code := .PROVIDER_NOT_FOUND, operation }, cloud)
    else
      match cloud.tenant.filter (·.identity == identity) with
      | none => (.error { code := .PROVIDER_NOT_FOUND, operation }, cloud)
      | some tenant =>
        if tenant.status = .disabled ∧ status ≠ .disabled then
          (.error { code := .PROVIDER_RESPONSE_INVALID, operation }, cloud)
        else
          (.ok ⟨identity.tenantId, status⟩, { cloud with tenant := some { tenant with status } })

def disableTenant (identity : DedicatedTenantIdentity) : P DedicatedTenantStateResult :=
  setTenantState identity .disabled "tenant.disable"

def suspendTenant (identity : DedicatedTenantIdentity) : P DedicatedTenantStateResult :=
  setTenantState identity .suspended "tenant.suspend"

-- ---------------------------------------------------------------------------
-- Requests
-- ---------------------------------------------------------------------------

def isOpaqueIdChar (c : Char) : Bool :=
  c.isAlphanum || c == '_' || c == '.' || c == ':' || c == '-'

/-- `/^[A-Za-z0-9][A-Za-z0-9_.:-]*$/`, of at most 200 characters. -/
def opaqueIdValid (value : String) : Bool :=
  value.toList.length ≤ 200 && value.toList.head?.any Char.isAlphanum &&
    value.toList.all isOpaqueIdChar

/-- `\s` -/
def isWhite (c : Char) : Bool :=
  ('\t' ≤ c && c ≤ '\r') || c == ' ' || c == '\u00a0' || c == '\u1680' ||
    ('\u2000' ≤ c && c ≤ '\u200a') || c == '\u2028' || c == '\u2029' || c == '\u202f' ||
    c == '\u205f' || c == '\u3000' || c == '\ufeff'

/-- `value.trim()` -/
def trim (value : String) : List Char :=
  ((value.toList.dropWhile isWhite).reverse.dropWhile isWhite).reverse

/-- `/^[^\s@]+@[^\s@]+$/`, of at most 254 characters. -/
def ownerEmailValid (normalized : String) : Bool :=
  utf16Length normalized ≤ 254 && !normalized.toList.any isWhite &&
    match normalized.toList.splitOn '@' with
    | [localPart, domain] => localPart != [] && domain != []
    | _ => false

/-- `/^[a-z]{2}(?:-[a-z]+)+-\d$/` -/
def regionValid (region : String) : Bool :=
  match region.toList.splitOn '-' with
  | country :: rest =>
    country.length == 2 && country.all Char.isLower && 2 ≤ rest.length &&
      (rest.dropLast.all fun part => part != [] && part.all Char.isLower) &&
      (rest.getLast?.any fun part => part.length == 1 && part.all Char.isDigit)
  | [] => false

def requestValid (request : ProvisioningRequest) : Bool :=
  opaqueIdValid request.subscriptionId && opaqueIdValid request.customerId &&
    ownerEmailValid (s.toLowerCase (String.ofList (trim request.ownerSubject))) &&
    regionValid request.region

def validateProvisioningRequest (request : ProvisioningRequest) : P Unit :=
  if requestValid s request then pure () else fail .PROVIDER_INVALID_REQUEST "validate"

/-- The region of the project, which the Management API chooses within. -/
def smartRegionFor (region : String) : Option String :=
  let starts (code : String) : Bool := code.toList.isPrefixOf region.toList
  if starts "us-" || starts "ca-" || starts "sa-" then some "americas"
  else if starts "eu-" || starts "me-" || starts "af-" then some "emea"
  else if starts "ap-" then some "apac"
  else none

/-- The identifiers of a validated request, whose subscription is not empty. -/
def identifiersFor (request : ProvisioningRequest) : P ProviderIdentifiers :=
  match deriveProviderIdentifiers s.rt request.subscriptionId .dedicated with
  | .ok identifiers => pure identifiers
  | .error _ => fail .PROVIDER_INVALID_REQUEST "validate"

-- ---------------------------------------------------------------------------
-- Waiting
-- ---------------------------------------------------------------------------

/-- `#deadline` -/
def deadline : P Unit := modify fun process => { process with waits := s.waits }

/-- `#sleep` is an `await` as well. -/
def waitOrTimeout (operation : String) : P Unit := do
  if (← get).waits = 0 then failRetryable .PROVIDER_TIMEOUT operation
  else
    call fun cloud => (.ok (), cloud)
    modify fun process => { process with waits := process.waits - 1 }

/-- A retryable error is no result yet. -/
def attempt (x : P (Option α)) : P (Option α) :=
  tryCatchThe Halt x fun
    | .thrown error => if error.retryable then pure none else throwThe Halt (.thrown error)
    | .stopped => throwThe Halt .stopped

/-- `while (true)`. The deadline ends it before the fuel does. -/
def pollFor (x : P (Option α)) (operation : String) : Nat → P α
  | 0 => failRetryable .PROVIDER_TIMEOUT operation
  | fuel + 1 => do
    match ← attempt x with
    | some a => pure a
    | none => do
      waitOrTimeout operation
      pollFor x operation fuel

def poll (x : P (Option α)) (operation : String) : P α := do
  pollFor x operation ((← get).waits + 1)

-- ---------------------------------------------------------------------------
-- Projects
-- ---------------------------------------------------------------------------

structure ProjectResolution where
  project : SupabaseProject
  created : Bool

def resolveDatabasePassword : P String := do
  match ← call fun cloud => (.ok s.databasePassword, cloud) with
  | none => failRetryable .PROVIDER_TRANSIENT "dedicated.project.create"
  | some password =>
    if utf16Length password < 16 then fail .PROVIDER_INVALID_REQUEST "dedicated.project.create"
    else pure password

/-- `#ensureProject`, after the project of `prior` was not found. -/
def ensureNamedProject (request : ProvisioningRequest) (projectName : String) :
    P ProjectResolution := do
  match ← findProjectByName projectName with
  | some project => pure ⟨project, false⟩
  | none =>
    let _ ← resolveDatabasePassword s
    if (smartRegionFor request.region).isNone then fail .PROVIDER_INVALID_REQUEST "validate"
    else
      match ← createProject s projectName with
      | none =>
        match ← findProjectByName projectName with
        | none => fail .PROVIDER_CONFLICT "dedicated.project.create"
        | some project => pure ⟨project, false⟩
      | some project =>
        if project.name ≠ projectName then fail .PROVIDER_CONFLICT "dedicated.project.create"
        else pure ⟨project, true⟩

def ensureProject (request : ProvisioningRequest) (projectName : String)
    (priorProjectRef : Option String) : P ProjectResolution :=
  match priorProjectRef.filter (· ≠ "") with
  | none => ensureNamedProject s request projectName
  | some ref => do
    match ← describeProject ref with
    | none => ensureNamedProject s request projectName
    | some project =>
      if project.name = projectName then pure ⟨project, false⟩
      else fail .PROVIDER_CONFLICT "dedicated.project.describe"

def waitForProjectHealth (projectRef : String) : P Unit :=
  poll (projectHealth projectRef) "dedicated.project.health"

def pauseProject (projectRef : String) : P Unit := do
  match ← describeProject projectRef with
  | none => fail .PROVIDER_NOT_FOUND "dedicated.project.pause"
  | some project =>
    if project.status = "INACTIVE" then pure ()
    else
      requestPause s projectRef
      poll (do
        match ← describeProject projectRef with
        | some current => pure (if current.status = "INACTIVE" then some () else none)
        | none => pure none) "dedicated.project.pause"

-- ---------------------------------------------------------------------------
-- Stacks
-- ---------------------------------------------------------------------------

def stackTag (stack : Stack) (key : String) : Option String :=
  (stack.tags.find? (·.1 == key)).map (·.2)

def validateStackIdentity (stack : Stack) (request : ProvisioningRequest) (tenantId : String) :
    P Unit :=
  if stackTag stack "e-sig:managed-by" ≠ some "cloud-provisioning" ∨
      stackTag stack "e-sig:subscription-id" ≠ some request.subscriptionId ∨
      stackTag stack "e-sig:tenant-id" ≠ some tenantId then
    fail .PROVIDER_CONFLICT "dedicated.stack.describe"
  else pure ()

/-- One look of `#waitForReadyStack`. -/
def readyStack (stackName : String) (request : ProvisioningRequest) (tenantId : String) :
    P (Option Stack) := do
  match ← describeStack stackName with
  | none => pure none
  | some stack =>
    validateStackIdentity stack request tenantId
    if stack.status = .CREATE_COMPLETE ∨ stack.status = .UPDATE_COMPLETE then pure (some stack)
    else if isFailedStackStatus stack.status then
      fail .PROVIDER_RESOURCE_FAILED "dedicated.stack.describe"
    else pure none

def waitForReadyStack (stackName : String) (request : ProvisioningRequest) (tenantId : String) :
    P Stack :=
  poll (readyStack stackName request tenantId) "dedicated.stack.describe"

structure StackResolution where
  stack : Stack
  created : Bool

def ensureStack (request : ProvisioningRequest) (projectRef : String)
    (identifiers : ProviderIdentifiers) : P StackResolution := do
  match ← describeStack identifiers.stackName with
  | some existing =>
    validateStackIdentity existing request identifiers.tenantId
    let stack ← waitForReadyStack identifiers.stackName request identifiers.tenantId
    pure ⟨stack, false⟩
  | none =>
    let created ← createStack s identifiers.stackName
      [("TenantId", identifiers.tenantId), ("SubscriptionId", request.subscriptionId),
        ("SupabaseProjectRef", projectRef), ("SigningEnabled", "true")]
      [("e-sig:managed-by", "cloud-provisioning"),
        ("e-sig:subscription-id", request.subscriptionId),
        ("e-sig:tenant-id", identifiers.tenantId)]
    let stack ← waitForReadyStack identifiers.stackName request identifiers.tenantId
    pure ⟨stack, created⟩

/-- One look of `#waitForDisabledStack`. -/
def disabledStack (stackName : String) (request : ProvisioningRequest) (tenantId : String) :
    P (Option Unit) := do
  match ← describeStack stackName with
  | none => pure none
  | some stack =>
    validateStackIdentity stack request tenantId
    if isFailedStackStatus stack.status then fail .PROVIDER_RESOURCE_FAILED "dedicated.stack.disable"
    else if !isStackInProgress stack.status ∧ stackParameter stack "SigningEnabled" = some "false" then
      pure (some ())
    else pure none

def waitForDisabledStack (stackName : String) (request : ProvisioningRequest) (tenantId : String) :
    P Unit :=
  poll (disabledStack stackName request tenantId) "dedicated.stack.disable"

/-- `#disableStack`, once the stack is not in progress. -/
def disableSettledStack (request : ProvisioningRequest) (stackName : String)
    (identifiers : ProviderIdentifiers) (stack : Stack) : P Unit := do
  if stackParameter stack "SigningEnabled" = some "false" then pure ()
  else if !(← updateStack s stackName "false") then pure ()
  else waitForDisabledStack stackName request identifiers.tenantId

def disableStack (request : ProvisioningRequest) (stackName : String)
    (identifiers : ProviderIdentifiers) : P Unit := do
  match ← describeStack stackName with
  | none => fail .PROVIDER_NOT_FOUND "dedicated.stack.disable"
  | some stack =>
    validateStackIdentity stack request identifiers.tenantId
    if isStackInProgress stack.status then
      let stack ← waitForReadyStack stackName request identifiers.tenantId
      disableSettledStack s request stackName identifiers stack
    else disableSettledStack s request stackName identifiers stack

-- ---------------------------------------------------------------------------
-- Provisioning
-- ---------------------------------------------------------------------------

structure DedicatedProviderResources where
  subscriptionId : String
  tenantId : String
  projectRef : String
  projectName : String
  stackId : String
  stackName : String
  status : TenantStatus
  deriving DecidableEq

structure DedicatedProvisioningResult where
  resources : DedicatedProviderResources
  created : Bool
  oneTimeCredential : Option OneTimeCredential

def validatePrior (prior : Option DedicatedProviderResources) (request : ProvisioningRequest)
    (identifiers : ProviderIdentifiers) : P Unit :=
  if prior.any fun prior =>
      prior.subscriptionId != request.subscriptionId || prior.tenantId != identifiers.tenantId ||
        prior.projectName != identifiers.projectName || prior.stackName != identifiers.stackName ||
        prior.status == .disabled || prior.status == .suspended then
    fail .PROVIDER_CONFLICT "validate"
  else pure ()

def validateMigrationResult (appliedMigrations : List JsString) : P Unit :=
  if appliedMigrations.length ≠ DEDICATED_REQUIRED_MIGRATIONS.length ∨
      !DEDICATED_REQUIRED_MIGRATIONS.all appliedMigrations.contains then
    fail .PROVIDER_RESPONSE_INVALID "validate"
  else pure ()

def validateTenantProvisioningResult (result : DedicatedTenantProvisioningResult) (tenantId : String)
    (prior : Option DedicatedProviderResources) : P Unit :=
  let expectedStatus : TenantStatus :=
    if prior.any (·.status == .ready) then .ready else .provisioning
  if result.tenantId ≠ tenantId ∨ result.status ≠ expectedStatus ∨
      (result.created ∧ prior.isSome) ∨ (result.created ∧ result.oneTimeCredential.isNone) ∨
      result.oneTimeCredential.any (fun credential => credential.id == "" || credential.plaintext == "")
  then
    fail .PROVIDER_RESPONSE_INVALID "validate"
  else pure ()

/-- The tenant, in the project and the stack that were found or made. -/
def provisionInto (request : ProvisioningRequest) (identifiers : ProviderIdentifiers)
    (prior : Option DedicatedProviderResources) (credential : OneTimeCredential)
    (projectResolution : ProjectResolution) (stackResolution : StackResolution) :
    P DedicatedProvisioningResult := do
  let projectRef := projectResolution.project.ref
  let stackId := stackResolution.stack.stackId
  if prior.any fun prior => prior.projectRef != projectRef || prior.stackId != stackId then
    fail .PROVIDER_CONFLICT "validate"
  else if stackId = "" then fail .PROVIDER_RESPONSE_INVALID "dedicated.stack.describe"
  else
    let tenantResult ← provisionTenant credential
      ⟨request.subscriptionId, identifiers.tenantId, projectRef, stackId⟩
    validateTenantProvisioningResult tenantResult identifiers.tenantId prior
    pure
      { created := projectResolution.created || stackResolution.created || tenantResult.created
        resources :=
          { subscriptionId := request.subscriptionId
            tenantId := identifiers.tenantId
            projectRef
            projectName := identifiers.projectName
            stackId
            stackName := identifiers.stackName
            status := tenantResult.status }
        oneTimeCredential := tenantResult.oneTimeCredential }

def provision (request : ProvisioningRequest) (prior : Option DedicatedProviderResources)
    (credential : OneTimeCredential) : P DedicatedProvisioningResult := do
  validateProvisioningRequest s request
  let identifiers ← identifiersFor s request
  validatePrior prior request identifiers
  deadline s
  let projectResolution ← ensureProject s request identifiers.projectName (prior.map (·.projectRef))
  waitForProjectHealth projectResolution.project.ref
  let appliedMigrations ← applyMigrations projectResolution.project.ref
  validateMigrationResult appliedMigrations
  let stackResolution ← ensureStack s request projectResolution.project.ref identifiers
  provisionInto request identifiers prior credential projectResolution stackResolution

-- ---------------------------------------------------------------------------
-- Unknown tenants
-- ---------------------------------------------------------------------------

def unknownResult (identifiers : ProviderIdentifiers) (outcome : UnknownOutcome) : UnknownResult :=
  ⟨.dedicated, identifiers.tenantId, outcome⟩

def validateTenantStateResult (result : DedicatedTenantStateResult) (tenantId : String)
    (expectedStatus : TenantStatus) : P Unit :=
  if result.tenantId ≠ tenantId ∨ result.status ≠ expectedStatus then
    fail .PROVIDER_RESPONSE_INVALID "validate"
  else pure ()

/-- What is thrown for a missing resource is caught. -/
def unlessMissing (x : P Unit) : P Unit :=
  tryCatchThe Halt x fun
    | .thrown error =>
      if error.code = .PROVIDER_NOT_FOUND then pure () else throwThe Halt (.thrown error)
    | .stopped => throwThe Halt .stopped

/-- The tenant of a project and a stack that were both found. -/
def disableFoundTenant (request : ProvisioningRequest) (identifiers : ProviderIdentifiers)
    (project : SupabaseProject) (stack : Stack) : P Unit := do
  if stack.stackId = "" then fail .PROVIDER_RESPONSE_INVALID "dedicated.stack.describe"
  else if stackParameter stack "SupabaseProjectRef" ≠ some project.ref then
    fail .PROVIDER_CONFLICT "dedicated.stack.describe"
  else
    unlessMissing do
      let tenantState ← disableTenant
        ⟨request.subscriptionId, identifiers.tenantId, project.ref, stack.stackId⟩
      validateTenantStateResult tenantState identifiers.tenantId .disabled

/-- The steps of `compensateUnknown` for what was found. -/
def disableFound (request : ProvisioningRequest) (identifiers : ProviderIdentifiers) :
    Option SupabaseProject → Option Stack → P Unit
  | none, none => pure ()
  | some project, none => unlessMissing (pauseProject s project.ref)
  | none, some stack => do
    validateStackIdentity stack request identifiers.tenantId
    unlessMissing (disableStack s request identifiers.stackName identifiers)
  | some project, some stack => do
    validateStackIdentity stack request identifiers.tenantId
    disableFoundTenant request identifiers project stack
    unlessMissing (disableStack s request identifiers.stackName identifiers)
    unlessMissing (pauseProject s project.ref)

def compensateUnknown (request : ProvisioningRequest) : P UnknownResult := do
  validateProvisioningRequest s request
  let identifiers ← identifiersFor s request
  deadline s
  let project ← findProjectByName identifiers.projectName
  let stack ← describeStack identifiers.stackName
  if project.isNone ∧ stack.isNone then pure (unknownResult identifiers .absent)
  else
    disableFound s request identifiers project stack
    pure (unknownResult identifiers .disabled)

/-- The steps of `suspendUnknown` for what was found. -/
def suspendFound (request : ProvisioningRequest) (identifiers : ProviderIdentifiers) :
    Option SupabaseProject → Option Stack → P UnknownResult
  | none, none => pure (unknownResult identifiers .absent)
  | some project, some stack => do
    validateStackIdentity stack request identifiers.tenantId
    if stackParameter stack "SupabaseProjectRef" ≠ some project.ref then
      fail .PROVIDER_CONFLICT "dedicated.stack.describe"
    else
      let tenantState ← suspendTenant
        ⟨request.subscriptionId, identifiers.tenantId, project.ref, stack.stackId⟩
      validateTenantStateResult tenantState identifiers.tenantId .suspended
      disableStack s request identifiers.stackName identifiers
      pure (unknownResult identifiers .suspended)
  | _, _ => fail .PROVIDER_CONFLICT "validate"

def suspendUnknown (request : ProvisioningRequest) : P UnknownResult := do
  validateProvisioningRequest s request
  let identifiers ← identifiersFor s request
  deadline s
  let project ← findProjectByName identifiers.projectName
  let stack ← describeStack identifiers.stackName
  suspendFound s request identifiers project stack

end

end EsigSuite.Provisioning.Dedicated
