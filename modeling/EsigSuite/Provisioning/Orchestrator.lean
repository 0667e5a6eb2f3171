import EsigSuite.Provisioning.Calls

/-!
# The orchestrator

`orchestrator.ts`: an event is reduced into its order and brings the job in line
with it, and a worker runs the job under an execution lease.
-/

namespace EsigSuite.Provisioning

open Lib

variable {E : Outside} (rt : Runtime)

-- ---------------------------------------------------------------------------
-- Events
-- ---------------------------------------------------------------------------

inductive EventProcessingStatus
  | claimed
  | ignored
  deriving DecidableEq, Repr

structure ProvisioningQueueMessage where
  subscriptionId : String
  jobId : String
  deriving DecidableEq, Repr

structure EventProcessingResult where
  status : EventProcessingStatus
  order : Option OrderRecord
  job : Option ProvisioningJob
  queueMessage : Option ProvisioningQueueMessage

def queueMessage (job : ProvisioningJob) : ProvisioningQueueMessage :=
  ⟨job.subscriptionId, job.jobId⟩

def isTerminalBilling (order : OrderRecord) : Bool := order.billingState.terminal

def saveUpdatedJob (current next : ProvisioningJob) : M E ProvisioningJob := do
  match ← attempt (Store.putJob next (some current.version)) with
  | .ok job => pure job
  | .error e =>
    if (sanitizeProvisioningError e).code = .STORE_CONFLICT then throwThe Thrown .jobVersionConflict
    else throwThe Thrown e

/-- The step whose effect may be under way without a checkpoint. -/
def potentiallyInFlightStep (job : ProvisioningJob) : Option ProvisioningStep :=
  if job.operation = .provisioning ∧ (job.state = .running ∨ job.state = .failed) then
    nextProvisioningStep job
  else none

def compensationOf (job : ProvisioningJob) (resources : List ResourceRecord)
    (operation : ProvisioningOperation) : ProvisioningJob :=
  beginCompensation job (resources.map (·.step) ++ (potentiallyInFlightStep job).toList) operation

/-- The rounds of `transitionToCompensation`. -/
def transitionRounds (operation : ProvisioningOperation) : Nat → ProvisioningJob → M E ProvisioningJob
  | 0, _ => fail .STORE_CONFLICT true
  | rounds + 1, current => do
    let resources ← Store.listResources current.subscriptionId
    let next := compensationOf current resources operation
    if next = current then pure current
    else
      match ← attempt (saveUpdatedJob current next) with
      | .ok job => pure job
      | .error .jobVersionConflict =>
        match ← Store.getJob current.subscriptionId with
        | none => fail .STORE_CONFLICT false
        | some latest => transitionRounds operation rounds latest
      | .error e => throwThe Thrown e

def transitionToCompensation (initialJob : ProvisioningJob) (operation : ProvisioningOperation) :
    M E ProvisioningJob :=
  transitionRounds operation 3 initialJob

def ORDER_CAS_ATTEMPTS : Nat := 4

/-- The attempts of `reduceAndStoreOrder`, from the order that was read. -/
def reduceAttempts (event : OrderEvent) : Nat → Option OrderRecord → M E (Option OrderRecord)
  | 0, _ => fail .STORE_CONFLICT true
  | attempts + 1, current => do
    let reduction ← orThrow ((reduceBillingEvent rt.collation current (.accepted event)).mapError
      fun code => ⟨code, false⟩)
    match reduction.order with
    | none => pure none
    | some order =>
      match ← attempt (Store.putOrder event order (current.map (·.version))) with
      | .ok stored => pure (some stored)
      | .error e =>
        if (sanitizeProvisioningError e).code ≠ .STORE_CONFLICT then throwThe Thrown e
        else if attempts = 0 then fail .STORE_CONFLICT true
        else do
          let current ← Store.getOrder order.subscriptionId
          reduceAttempts event attempts current

def reduceAndStoreOrder (event : OrderEvent) : M E (Option OrderRecord) := do
  let current ← Store.getOrder event.subscriptionId
  reduceAttempts rt event ORDER_CAS_ATTEMPTS current

/-- The job of a past due, canceled or refunded order. -/
def compensateJob (order : OrderRecord) (existingJob : ProvisioningJob) :
    M E EventProcessingResult := do
  let operation := if order.billingState = .past_due then .suspension else .compensation
  let job ← transitionToCompensation existingJob operation
  let shouldQueue := job.state = .compensating ∧ existingJob.state ≠ .compensating
  pure ⟨.claimed, order, job, if shouldQueue then some (queueMessage job) else none⟩

/-- The job of a provisionable order that has one. -/
def resumeJob (order : OrderRecord) (existingJob : ProvisioningJob) : M E EventProcessingResult :=
  if existingJob.operation = .suspension then do
    let resumed ← orThrow (resumeProvisioningJob existingJob)
    let stored ← saveUpdatedJob existingJob resumed
    pure ⟨.claimed, order, stored, queueMessage stored⟩
  else pure ⟨.claimed, order, existingJob, none⟩

/-- The first job of a provisionable order. -/
def createJob (order : OrderRecord) (retryPolicy : RetryPolicy) : M E EventProcessingResult := do
  let job ← orThrow (createProvisioningJob rt.hashing order retryPolicy)
  match ← attempt (Store.putJob job none) with
  | .ok storedJob => pure ⟨.claimed, order, storedJob, queueMessage storedJob⟩
  | .error e =>
    if (sanitizeProvisioningError e).code ≠ .STORE_CONFLICT then throwThe Thrown e
    else
      match ← Store.getJob order.subscriptionId with
      | none => throwThe Thrown e
      | some concurrentJob => pure ⟨.claimed, order, concurrentJob, none⟩

/-- The job is brought in line with the order that was stored. -/
def reconcileJob (event : OrderEvent) (order : OrderRecord) (retryPolicy : RetryPolicy) :
    M E EventProcessingResult := do
  let existingJob ← Store.getJob event.subscriptionId
  if order.billingState = .past_due ∨ isTerminalBilling order then
    match existingJob with
    | none => pure ⟨.claimed, order, none, none⟩
    | some existingJob => compensateJob order existingJob
  else if !isProvisionableOrder order then pure ⟨.claimed, order, existingJob, none⟩
  else
    match existingJob with
    | some existingJob => resumeJob order existingJob
    | none => createJob rt order retryPolicy

def processOrderEvent (event : OrderEvent) (retryPolicy : RetryPolicy) :
    M E EventProcessingResult := do
  match ← reduceAndStoreOrder rt event with
  | none => pure ⟨.ignored, none, none, none⟩
  | some order => reconcileJob rt event order retryPolicy

/-- Apply an event whose immutable claim was written before it was enqueued. -/
def processClaimedStripeEvent (event : NormalizedStripeEvent) (retryPolicy : RetryPolicy) :
    M E EventProcessingResult :=
  match event with
  | .ignored .. => pure ⟨.ignored, none, none, none⟩
  | .accepted event => processOrderEvent rt event retryPolicy

-- ---------------------------------------------------------------------------
-- Drivers
-- ---------------------------------------------------------------------------

inductive StepResourceRetention
  | mutable
  | immutable_evidence
  deriving DecidableEq, Repr

structure StepResourceInput where
  kind : String
  opaqueId : String
  retention : StepResourceRetention
  deriving DecidableEq, Repr

structure OneTimeCredential where
  id : String
  plaintext : String
  deriving DecidableEq, Repr

/-- `StepExecutionInput` and `StepCompensationInput`. -/
structure StepInput where
  step : ProvisioningStep
  order : OrderRecord
  job : ProvisioningJob
  resources : List ResourceRecord
  stepResources : List ResourceRecord
  credentialHandoffCompleted : Bool

structure StepExecutionResult where
  resources : List StepResourceInput
  oneTimeCredential : Option OneTimeCredential

structure ResourceDisposition where
  resourceKey : String
  status : MutableResourceStatus
  deriving DecidableEq, Repr

structure StepCompensationResult where
  resources : List StepResourceInput
  dispositions : List ResourceDisposition

structure ProvisioningDriver (E : Outside) where
  mode : DeploymentMode
  requiresCredentialHandoff : Bool
  executeStep : StepInput → M E StepExecutionResult
  compensateStep : StepInput → M E StepCompensationResult

structure OneTimeCredentialHandoffInput where
  handoffId : String
  jobId : String
  subscriptionId : String
  activationGeneration : Nat
  publicationGeneration : Nat
  fencingToken : Nat
  credential : OneTimeCredential
  deriving DecidableEq, Repr

structure OneTimeCredentialHandoff (E : Outside) where
  describePublication : OneTimeCredentialHandoffInput → CredentialSecretPublication
  createImmutable : OneTimeCredentialHandoffInput → M E CredentialSecretPublication
  verifyPublication : CredentialHandoffPointer → M E Bool

-- ---------------------------------------------------------------------------
-- The execution lease
-- ---------------------------------------------------------------------------

structure RunProvisioningJobInput (E : Outside) where
  driver : ProvisioningDriver E
  subscriptionId : String
  now : Int
  executionOwnerId : String
  executionLeaseDurationMs : Int
  credentialHandoff : Option (OneTimeCredentialHandoff E)

structure LeasedRunProvisioningJobInput (E : Outside) extends RunProvisioningJobInput E where
  lease : JobExecutionLease

section
variable (input : LeasedRunProvisioningJobInput E)

/-- A renewal, without which the lease counts as lost. -/
def assertOwned : M E Unit := do
  let now ← clock
  match ← attempt (Store.renewJobExecutionLease input.lease now input.executionLeaseDurationMs) with
  | .ok _ => pure ()
  | .error _ => throwThe Thrown .executionLeaseLost

/-- The clock of a fenced write. -/
def fence : M E Int := do
  assertOwned input
  clock

-- ---------------------------------------------------------------------------
-- Resources and receipts
-- ---------------------------------------------------------------------------

def kindCharacter (c : Char) (first : Bool) : Bool :=
  ('a' ≤ c && c ≤ 'z') || ('A' ≤ c && c ≤ 'Z') || ('0' ≤ c && c ≤ '9') ||
    (!first && (c == '_' || c == '.' || c == ':' || c == '-'))

/-- `/^[a-z0-9][a-z0-9_.:-]{0,127}$/i` -/
def kindIsSafe (kind : String) : Bool :=
  match kind.toList with
  | [] => false
  | c :: rest => kindCharacter c true && rest.length ≤ 127 && rest.all (kindCharacter · false)

/-- The length of a text in UTF-16 units. -/
def utf16Length (text : String) : Nat :=
  (text.toList.map fun c => if c.toNat < 0x10000 then 1 else 2).sum

def resourceInputIsSafe (resource : StepResourceInput) : Bool :=
  kindIsSafe resource.kind && 0 < utf16Length resource.opaqueId &&
    utf16Length resource.opaqueId ≤ 512 &&
    resource.opaqueId.toList.all fun c => c != '\r' && c != '\n' && c != Char.ofNat 0

def persistStepResource (job : ProvisioningJob) (step : ProvisioningStep)
    (resource : StepResourceInput) : M E Unit := do
  if !resourceInputIsSafe resource then fail .PROVIDER_RESPONSE_INVALID false
  else
    let resourceKey ← orThrow
      (deterministicResourceKey rt.hashing job.subscriptionId step resource.kind resource.opaqueId)
    Store.putResource
      { resourceKey
        subscriptionId := job.subscriptionId
        step
        kind := resource.kind
        opaqueId := resource.opaqueId
        retention :=
          match resource.retention with
          | .immutable_evidence => .immutable_evidence
          | .mutable => .mutable .active }

def persistStepResources (job : ProvisioningJob) (step : ProvisioningStep)
    (resources : List StepResourceInput) : M E Unit :=
  resources.forM (persistStepResource rt job step)

def CREDENTIAL_HANDOFF_KIND : String := "credential_handoff_receipt"

def handoffIdOf (job : ProvisioningJob) : Except SafeProvisioningError String :=
  deterministicCredentialHandoffId rt.hashing job.subscriptionId job.activationGeneration

def hasCredentialHandoffReceipt (resources : List ResourceRecord) (job : ProvisioningJob) :
    Except SafeProvisioningError Bool := do
  let expectedHandoffId ← handoffIdOf rt job
  pure (resources.any fun resource =>
    resource.step == .api_credential && resource.kind == CREDENTIAL_HANDOFF_KIND &&
      resource.opaqueId == expectedHandoffId && resource.retention == .mutable .active)

def persistCredentialHandoffReceipt (job : ProvisioningJob) (handoffId : String) : M E Unit := do
  let resourceKey ← orThrow (deterministicResourceKey rt.hashing job.subscriptionId .api_credential
    CREDENTIAL_HANDOFF_KIND handoffId)
  Store.putResource
    { resourceKey
      subscriptionId := job.subscriptionId
      step := .api_credential
      kind := CREDENTIAL_HANDOFF_KIND
      opaqueId := handoffId
      retention := .mutable .active }

def pointerMatchesJob (pointer : CredentialHandoffPointer) (job : ProvisioningJob) :
    Except SafeProvisioningError Bool := do
  let handoffId ← handoffIdOf rt job
  pure (pointer.subscriptionId == job.subscriptionId && pointer.jobId == job.jobId &&
    pointer.activationGeneration == job.activationGeneration && pointer.handoffId == handoffId)

-- ---------------------------------------------------------------------------
-- The credential handoff
-- ---------------------------------------------------------------------------

structure PreparedCredentialHandoff where
  completed : Bool
  pointer : Option CredentialHandoffPointer

/-- A publication whose secret was verified is made authoritative. -/
def completeHandoff (job : ProvisioningJob) (handoffId : String)
    (pointer : CredentialHandoffPointer) : M E PreparedCredentialHandoff := do
  let pointer ←
    if pointer.state = .pending then do
      let now ← fence input
      Store.publishCredentialHandoff ⟨pointer, input.lease, now⟩
    else pure pointer
  persistCredentialHandoffReceipt rt job handoffId
  pure ⟨true, pointer⟩

/-- A new publication generation is begun. -/
def beginHandoff (job : ProvisioningJob) (handoffId : String)
    (pointer : Option CredentialHandoffPointer) : M E PreparedCredentialHandoff := do
  if pointer.any (·.state == .revoked) then fail .CREDENTIAL_HANDOFF_REQUIRED false
  else
    let now ← fence input
    let pointer ← Store.beginCredentialHandoff
      { handoffId
        subscriptionId := job.subscriptionId
        jobId := job.jobId
        activationGeneration := job.activationGeneration
        publicationGeneration := pointer.elim 0 (·.publicationGeneration + 1)
        fencingToken := input.lease.fencingToken
        state := .pending
        secretId := none
        publicationId := none
        credentialId := none }
      input.lease now (pointer.map (·.publicationGeneration))
    pure ⟨false, pointer⟩

def prepareCredentialHandoff (job : ProvisioningJob) (step : ProvisioningStep)
    (handoffCompleted : Bool) : M E PreparedCredentialHandoff := do
  if step ≠ .api_credential ∨ !input.driver.requiresCredentialHandoff then
    pure ⟨handoffCompleted, none⟩
  else
    match input.credentialHandoff with
    | none => fail .CREDENTIAL_HANDOFF_REQUIRED false
    | some handoff =>
      let handoffId ← orThrow (handoffIdOf rt job)
      match ← Store.getCredentialHandoffPointer job.subscriptionId handoffId with
      | none => beginHandoff input job handoffId none
      | some pointer =>
        let matched ← orThrow (pointerMatchesJob rt pointer job)
        if !matched then fail .CREDENTIAL_HANDOFF_REQUIRED false
        else if pointer.state ≠ .revoked ∧ pointerHasPublication pointer then
          let verified ← handoff.verifyPublication pointer
          if verified then completeHandoff rt input job handoffId pointer
          else beginHandoff input job handoffId (some pointer)
        else beginHandoff input job handoffId (some pointer)

def handoffInput (job : ProvisioningJob) (pointer : CredentialHandoffPointer)
    (credential : OneTimeCredential) : OneTimeCredentialHandoffInput where
  handoffId := pointer.handoffId
  jobId := job.jobId
  subscriptionId := job.subscriptionId
  activationGeneration := job.activationGeneration
  publicationGeneration := pointer.publicationGeneration
  fencingToken := pointer.fencingToken
  credential

def publishCredential (handoff : OneTimeCredentialHandoff E) (job : ProvisioningJob)
    (pointer : CredentialHandoffPointer) (credential : OneTimeCredential) : M E Unit := do
  let publicationInput := handoffInput job pointer credential
  let descriptor := handoff.describePublication publicationInput
  let now ← fence input
  let bound ← Store.bindCredentialHandoff ⟨pointer, input.lease, now⟩ descriptor
  let created ← handoff.createImmutable publicationInput
  if created ≠ descriptor then fail .CREDENTIAL_HANDOFF_REQUIRED false
  else
    let now ← fence input
    discard (Store.publishCredentialHandoff ⟨bound, input.lease, now⟩)
    persistCredentialHandoffReceipt rt job pointer.handoffId

def publishCredentialIfNeeded (job : ProvisioningJob) (step : ProvisioningStep)
    (prepared : PreparedCredentialHandoff) (result : StepExecutionResult) : M E Unit :=
  if result.oneTimeCredential.isSome ∧ step ≠ .api_credential then
    fail .PROVIDER_RESPONSE_INVALID false
  else if step ≠ .api_credential ∨ !input.driver.requiresCredentialHandoff then pure ()
  else if prepared.completed then
    if result.oneTimeCredential.isSome then fail .PROVIDER_RESPONSE_INVALID false else pure ()
  else
    match input.credentialHandoff, prepared.pointer with
    | some handoff, some pointer =>
      match result.oneTimeCredential with
      | some credential => publishCredential rt input handoff job pointer credential
      | none => fail .CREDENTIAL_REISSUE_REQUIRED true
    | _, _ => fail .CREDENTIAL_HANDOFF_REQUIRED false

-- ---------------------------------------------------------------------------
-- Runs
-- ---------------------------------------------------------------------------

inductive ProvisioningRunStatus
  | ready
  | disabled
  | failed
  | deferred
  | exhausted
  | not_found
  deriving DecidableEq, Repr

structure ProvisioningRunResult where
  status : ProvisioningRunStatus
  job : Option ProvisioningJob
  deriving DecidableEq

def runResultOf : Option ProvisioningJob → ProvisioningRunResult
  | none => ⟨.not_found, none⟩
  | some job =>
    if job.state = .ready then ⟨.ready, job⟩
    else if job.state = .disabled then ⟨.disabled, job⟩
    else if job.state = .failed ∧ job.retryExhausted then ⟨.exhausted, job⟩
    else ⟨.deferred, job⟩

def currentRunResult (subscriptionId : String) : M E ProvisioningRunResult := do
  let job ← Store.getJob subscriptionId
  pure (runResultOf job)

/-- The failure is recorded in the job. `recover` is `recoverJobConflict`. -/
def saveFailure (recover : M E ProvisioningRunResult) (job : ProvisioningJob)
    (failure : SafeProvisioningError) : M E ProvisioningRunResult := do
  let failed ← orThrow (failProvisioningAttempt job failure input.now)
  match ← attempt (saveUpdatedJob job failed) with
  | .ok job => pure ⟨.failed, job⟩
  | .error .jobVersionConflict => recover
  | .error e => throwThe Thrown e

/-- The `catch` of both loops. -/
def roundFailed (recover : M E ProvisioningRunResult) (job : ProvisioningJob) :
    Thrown → M E ProvisioningRunResult
  | .executionLeaseLost => throwThe Thrown .executionLeaseLost
  | .jobVersionConflict => recover
  | .failure e => saveFailure input recover job e

/-- What the driver is given for a step. -/
def stepInput (step : ProvisioningStep) (order : OrderRecord) (job : ProvisioningJob)
    (resources : List ResourceRecord) (credentialHandoffCompleted : Bool) : StepInput where
  step
  order
  job
  resources
  stepResources := resources.filter (·.step == step)
  credentialHandoffCompleted

def executeProvisioningStep (order : OrderRecord) (job : ProvisioningJob)
    (step : ProvisioningStep) : M E ProvisioningJob := do
  let resources ← Store.listResources job.subscriptionId
  let stepResources := resources.filter (·.step == step)
  let handoffCompleted ← orThrow (hasCredentialHandoffReceipt rt stepResources job)
  if step = .api_credential ∧ input.driver.requiresCredentialHandoff ∧ !handoffCompleted ∧
      input.credentialHandoff.isNone then
    -- fail before the provider can create plaintext with nowhere safe to go
    fail .CREDENTIAL_HANDOFF_REQUIRED false
  else
    let prepared ← prepareCredentialHandoff rt input job step handoffCompleted
    let result ← input.driver.executeStep (stepInput step order job resources prepared.completed)
    assertOwned input
    persistStepResources rt job step result.resources
    publishCredentialIfNeeded rt input job step prepared result
    assertOwned input
    let next ← orThrow (completeProvisioningStep job step)
    saveUpdatedJob job next

/-- One round of the loop: the job after the next step, unless there is none. -/
def provisioningRound (order : OrderRecord) (job : ProvisioningJob) :
    M E (Option ProvisioningJob) := do
  assertOwned input
  match nextProvisioningStep job with
  | none => pure none
  | some step => some <$> executeProvisioningStep rt input order job step

/-- The loops go on while the job is in a state, for as many rounds as there are
steps. -/
def stepLoop (going done : ProvisioningState) (status : ProvisioningRunStatus)
    (round : ProvisioningJob → M E (Option ProvisioningJob))
    (caught : ProvisioningJob → Thrown → M E ProvisioningRunResult) :
    Nat → ProvisioningJob → M E ProvisioningRunResult
  | 0, job => pure ⟨if job.state = done then status else .failed, job⟩
  | rounds + 1, job => do
    if job.state ≠ going then pure ⟨if job.state = done then status else .failed, job⟩
    else
      match ← attempt (round job) with
      | .ok (some next) => stepLoop going done status round caught rounds next
      | .ok none => pure ⟨.failed, job⟩
      | .error e => caught job e

def LOOP_ROUNDS : Nat := PROVISIONING_STEPS.length + 1

def runProvisioningSteps (recover : M E ProvisioningRunResult) (order : OrderRecord)
    (job : ProvisioningJob) : M E ProvisioningRunResult :=
  stepLoop .running .ready .ready (provisioningRound rt input order) (roundFailed input recover)
    LOOP_ROUNDS job

/-- The status that a step requires of its disposition. -/
def requiredStatus : ProvisioningStep → Option MutableResourceStatus
  | .api_credential => some .revoked
  | .plan_entitlement | .activation_metadata | .mark_ready => some .disabled
  | .resolve_tenant | .owner_membership | .storage_namespace => none

def applyDisposition (dispositions : List ResourceDisposition) (resource : ResourceRecord) :
    M E Unit :=
  if resource.retention = .immutable_evidence then pure ()
  else
    match dispositions.find? (·.resourceKey == resource.resourceKey) with
    | none => fail .PROVIDER_RESPONSE_INVALID false
    | some disposition =>
      if (requiredStatus resource.step).any (· ≠ disposition.status) then
        fail .PROVIDER_RESPONSE_INVALID false
      else Store.putResource { resource with retention := .mutable disposition.status }

def applyCompensationDispositions (resources : List ResourceRecord)
    (dispositions : List ResourceDisposition) : M E Unit :=
  if !(dispositions.map (·.resourceKey)).Nodup then fail .PROVIDER_RESPONSE_INVALID false
  else if dispositions.any fun disposition =>
      !resources.any (·.resourceKey == disposition.resourceKey) then
    fail .PROVIDER_RESPONSE_INVALID false
  else resources.forM (applyDisposition dispositions)

/-- The pointer of the current activation is revoked before provider access. -/
def revokePointer (job : ProvisioningJob) : M E Unit := do
  let handoffId ← orThrow (handoffIdOf rt job)
  match ← Store.getCredentialHandoffPointer job.subscriptionId handoffId with
  | none => pure ()
  | some pointer =>
    if pointer.state = .revoked then pure ()
    else
      let matched ← orThrow (pointerMatchesJob rt pointer job)
      if !matched then fail .CREDENTIAL_HANDOFF_REQUIRED false
      else
        let now ← fence input
        discard (Store.revokeCredentialHandoff ⟨pointer, input.lease, now⟩)

def executeCompensationStep (order : OrderRecord) (job : ProvisioningJob)
    (step : ProvisioningStep) : M E ProvisioningJob := do
  let resources ← Store.listResources job.subscriptionId
  let stepResources := resources.filter (·.step == step)
  revokePointer rt input job
  let completed ← orThrow (hasCredentialHandoffReceipt rt stepResources job)
  let result ← input.driver.compensateStep (stepInput step order job resources completed)
  assertOwned input
  persistStepResources rt job step result.resources
  applyCompensationDispositions stepResources result.dispositions
  assertOwned input
  let next ← orThrow (completeCompensationStep job step)
  saveUpdatedJob job next

def compensationRound (order : OrderRecord) (job : ProvisioningJob) :
    M E (Option ProvisioningJob) := do
  assertOwned input
  match nextCompensationStep job with
  | none => pure none
  | some step => some <$> executeCompensationStep rt input order job step

def runCompensationSteps (recover : M E ProvisioningRunResult) (order : OrderRecord)
    (job : ProvisioningJob) : M E ProvisioningRunResult :=
  stepLoop .compensating .disabled .disabled (compensationRound rt input order)
    (roundFailed input recover) LOOP_ROUNDS job

/-- The started job is worked on. -/
def workOnJob (recover : M E ProvisioningRunResult) (order : OrderRecord) (job : ProvisioningJob) :
    M E ProvisioningRunResult :=
  if some input.driver.mode ≠ order.mode then
    saveFailure input recover job ⟨.MODE_MISMATCH, false⟩
  else if job.operation = .compensation ∨ job.operation = .suspension then
    if !hasProvisioningIdentity order then saveFailure input recover job ⟨.INVALID_ORDER, false⟩
    else runCompensationSteps rt input recover order job
  else if !isProvisionableOrder order then
    saveFailure input recover job ⟨.INVALID_ORDER, false⟩
  else runProvisioningSteps rt input recover order job

def startJob (recover : M E ProvisioningRunResult) (order : OrderRecord) (job : ProvisioningJob) :
    M E ProvisioningRunResult := do
  let started ← orThrow (startProvisioningAttempt job input.now)
  if started = job then workOnJob rt input recover order job
  else
    match ← attempt (saveUpdatedJob job started) with
    | .ok job => workOnJob rt input recover order job
    | .error .jobVersionConflict => recover
    | .error e => throwThe Thrown e

/-- The run of a job in line with its order: done, deferred or started. -/
def runReconciled (recover : M E ProvisioningRunResult) (order : OrderRecord)
    (job : ProvisioningJob) : M E ProvisioningRunResult :=
  if job.state = .ready then pure ⟨.ready, job⟩
  else if job.state = .disabled then pure ⟨.disabled, job⟩
  else if job.state = .failed ∧ job.retryExhausted then pure ⟨.exhausted, job⟩
  else if job.state = .failed ∧ !job.nextRetryAt.any (· ≤ input.now) then pure ⟨.deferred, job⟩
  else startJob rt input recover order job

/-- The body of `runProvisioningJobInternal`. -/
def runOnce (recover : M E ProvisioningRunResult) : M E ProvisioningRunResult := do
  assertOwned input
  let order ← Store.getOrder input.subscriptionId
  let job ← Store.getJob input.subscriptionId
  match order, job with
  | some order, some job =>
    if order.billingState = .past_due ∨ isTerminalBilling order then
      let operation := if order.billingState = .past_due then .suspension else .compensation
      match ← attempt (transitionToCompensation job operation) with
      | .ok job => runReconciled rt input recover order job
      | .error e =>
        if (sanitizeProvisioningError e).code = .STORE_CONFLICT then recover else throwThe Thrown e
    else runReconciled rt input recover order job
  | _, _ => pure ⟨.not_found, none⟩

/-- A conflict starts the run over, as often as `conflictsRemaining`. -/
def runProvisioningJobInternal : Nat → M E ProvisioningRunResult
  | 0 => runOnce rt input (currentRunResult input.subscriptionId)
  | conflictsRemaining + 1 => runOnce rt input (runProvisioningJobInternal conflictsRemaining)

end

/-- Resume one persisted job. It performs no cloud calls except through driver. -/
def runProvisioningJob (input : RunProvisioningJobInput E) : M E ProvisioningRunResult := do
  let now ← clock
  match ← Store.acquireJobExecutionLease input.subscriptionId input.executionOwnerId now
      input.executionLeaseDurationMs with
  | .held => currentRunResult input.subscriptionId
  | .acquired lease =>
    let result ← attempt (do
      match ← attempt (runProvisioningJobInternal rt { input with lease } 2) with
      | .error .executionLeaseLost => currentRunResult input.subscriptionId
      | result => rethrow result)
    Store.releaseJobExecutionLease lease
    rethrow result

-- ---------------------------------------------------------------------------
-- The worker
-- ---------------------------------------------------------------------------

/-- What `createProvisioningWorkerHandler` is given. -/
structure ProvisioningWorkerDependencies (E : Outside) where
  driverFor : DeploymentMode → M E (ProvisioningDriver E)
  credentialHandoff : Option (OneTimeCredentialHandoff E)
  executionLeaseDurationMs : Int

/-- `processRecord` of `worker.ts`, for the event of a parsed message. What is
thrown, or a job that is not done, leaves the message in the queue. -/
def processRecord (dependencies : ProvisioningWorkerDependencies E) (executionOwnerId : String)
    (event : OrderEvent) : M E Unit := do
  let transition ← processClaimedStripeEvent rt (.accepted event) DEFAULT_RETRY_POLICY
  if transition.status = .ignored ∨ transition.job.isNone then pure ()
  else
    match transition.order.bind (·.mode) with
    | none => fail .UNEXPECTED_FAILURE false
    | some mode =>
      let driver ← dependencies.driverFor mode
      let now ← clock
      let result ← runProvisioningJob rt
        { driver
          subscriptionId := event.subscriptionId
          now
          executionOwnerId
          executionLeaseDurationMs := dependencies.executionLeaseDurationMs
          credentialHandoff := dependencies.credentialHandoff }
      if result.status = .ready ∨ result.status = .disabled then pure ()
      else fail .UNEXPECTED_FAILURE false

end EsigSuite.Provisioning
