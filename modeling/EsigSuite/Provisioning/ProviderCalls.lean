import EsigSuite.Provisioning.Driver
import EsigSuite.Provisioning.RunRule

/-!
# The calls of a provider

A deployment whose driver is the provider driver: each method of the provider is
one call, answered in any way. The order that the driver compensates a step with
is told first, which has no effect.
-/

namespace EsigSuite.Provisioning

open Lib
open Lib.Calls (All)

-- ---------------------------------------------------------------------------
-- Calls
-- ---------------------------------------------------------------------------

inductive ProviderCall
  | provision (request : ProvisioningRequest) (current : Option ProviderResources)
  | reissueCredential (request : ProvisioningRequest) (current : ProviderResources)
  | markReady (request : ProvisioningRequest) (current : ProviderResources)
  | resume (request : ProvisioningRequest) (current : ProviderResources)
  | suspend (request : ProvisioningRequest) (current : ProviderResources)
  | compensate (request : ProvisioningRequest) (current : ProviderResources)
  | compensateUnknown (request : ProvisioningRequest)
  | suspendUnknown (request : ProvisioningRequest)
  deriving DecidableEq, Repr

namespace ProviderCall

def Answer : ProviderCall → Type
  | .provision .. | .resume .. => Provisioning.Answer ProvisioningResult
  | .reissueCredential .. => Provisioning.Answer (ProviderResources × OneTimeCredential)
  | .markReady .. | .suspend .. | .compensate .. => Provisioning.Answer ProviderResources
  | .compensateUnknown _ | .suspendUnknown _ => Provisioning.Answer UnknownResult

def request : ProviderCall → ProvisioningRequest
  | .provision request _ | .reissueCredential request _ | .markReady request _ | .resume request _
  | .suspend request _ | .compensate request _ | .compensateUnknown request
  | .suspendUnknown request => request

/-- The tenant cannot be used again. -/
def irreversible : ProviderCall → Bool
  | .compensate .. | .compensateUnknown _ => true
  | _ => false

end ProviderCall

inductive DeploymentCall
  | provider (call : ProviderCall)
  | compensating (order : OrderRecord)
  | createImmutable (input : OneTimeCredentialHandoffInput)
  | verifyPublication (pointer : CredentialHandoffPointer)

def DeploymentCall.Answer : DeploymentCall → Type
  | .provider call => call.Answer
  | .compensating _ => Unit
  | .createImmutable _ => Provisioning.Answer CredentialSecretPublication
  | .verifyPublication _ => Provisioning.Answer Bool

def deployment : Outside := ⟨DeploymentCall, DeploymentCall.Answer⟩

-- ---------------------------------------------------------------------------
-- Programs
-- ---------------------------------------------------------------------------

def callProvider (call : ProviderCall) : Prog (Op deployment) Op.Res call.Answer :=
  Prog.perform (Op.outside (DeploymentCall.provider call) : Op deployment)

def callingProvider (mode : DeploymentMode) : ProvisioningProvider deployment where
  mode
  provision request current := ask (callProvider (.provision request current))
  reissueCredential request current := ask (callProvider (.reissueCredential request current))
  markReady request current := ask (callProvider (.markReady request current))
  resume request current := ask (callProvider (.resume request current))
  suspend request current := ask (callProvider (.suspend request current))
  compensate request current := ask (callProvider (.compensate request current))
  compensateUnknown request := ask (callProvider (.compensateUnknown request))
  suspendUnknown request := ask (callProvider (.suspendUnknown request))

def callingHandoff (describe : OneTimeCredentialHandoffInput → CredentialSecretPublication) :
    OneTimeCredentialHandoff deployment where
  describePublication := describe
  createImmutable input :=
    ask (Prog.perform (Op.outside (DeploymentCall.createImmutable input) : Op deployment))
  verifyPublication pointer :=
    ask (Prog.perform (Op.outside (DeploymentCall.verifyPublication pointer) : Op deployment))

/-- What a worker of a deployment is started with. -/
structure Worker where
  mode : DeploymentMode
  region : String
  codec : SnapshotCodec
  describePublication : Option (OneTimeCredentialHandoffInput → CredentialSecretPublication)
  subscriptionId : String
  now : Int
  executionOwnerId : String
  executionLeaseDurationMs : Int

namespace Worker

variable (worker : Worker) (rt : Runtime)

def providerDriver : ProviderProvisioningDriver deployment :=
  ⟨callingProvider worker.mode, worker.region, worker.codec⟩

def driver : ProvisioningDriver deployment :=
  let driver := worker.providerDriver.toProvisioningDriver rt
  { driver with
    compensateStep := fun input => do
      ExceptT.lift
        (Prog.perform (Op.outside (DeploymentCall.compensating input.order) : Op deployment))
      driver.compensateStep input }

def input : RunProvisioningJobInput deployment where
  driver := worker.driver rt
  subscriptionId := worker.subscriptionId
  now := worker.now
  executionOwnerId := worker.executionOwnerId
  executionLeaseDurationMs := worker.executionLeaseDurationMs
  credentialHandoff := worker.describePublication.map callingHandoff

end Worker

/-- The handling of an event, or a run of a job. -/
inductive Task
  | event (event : NormalizedStripeEvent) (retryPolicy : RetryPolicy)
  | job (worker : Worker)

inductive TaskResult
  | event (result : EventProcessingResult)
  | job (result : ProvisioningRunResult)

def Task.run (rt : Runtime) : Task → M deployment TaskResult
  | .event e retryPolicy => .event <$> processClaimedStripeEvent rt e retryPolicy
  | .job worker => .job <$> runProvisioningJob rt (worker.input rt)

-- ---------------------------------------------------------------------------
-- The log
-- ---------------------------------------------------------------------------

/-- A call of the provider, and the billing state that was stored then. -/
structure Invocation where
  call : ProviderCall
  billingState : Option BillingState
  deriving DecidableEq, Repr

def invocation (call : ProviderCall) (store : InMemoryProvisioningStore) : Invocation :=
  ⟨call, (store.getOrder call.request.subscriptionId).map (·.billingState)⟩

def logged : deployment.Exec (List Invocation)
  | .provider call, store, log, _, log' => log' = log ++ [invocation call store]
  | .compensating _, _, log, _, log' => log' = log
  | .createImmutable _, _, log, _, log' => log' = log
  | .verifyPublication _, _, log, _, log' => log' = log

-- ---------------------------------------------------------------------------
-- Who calls the provider
-- ---------------------------------------------------------------------------

namespace ProviderProvisioningDriver

variable {E : Outside} {C : Op E → Prop} (driver : ProviderProvisioningDriver E) (rt : Runtime)

theorem executeStep_calls (input : StepInput)
    (hprovision : ∀ current, All C (driver.provider.provision (driver.request input.order) current))
    (hreissue : ∀ current,
      All C (driver.provider.reissueCredential (driver.request input.order) current))
    (hready : ∀ current, All C (driver.provider.markReady (driver.request input.order) current))
    (hresume : ∀ current, All C (driver.provider.resume (driver.request input.order) current)) :
    All C (driver.executeStep rt input) := by
  have hprovisionTenant (prior : Option Reconstructed) :
      All C (driver.provisionTenant rt input (driver.request input.order) prior) := by
    refine .bind (hprovision _) fun result => .bind (orThrow_calls _) fun _ => ?_
    split
    · trivial
    · exact .bind (orThrow_calls _) fun _ => orThrow_calls _
  refine .bind (orThrow_calls _) fun _ => ?_
  split
  · refine .bind (orThrow_calls _) fun prior => ?_
    cases prior with
    | none => exact hprovisionTenant _
    | some prior =>
      dsimp only
      split
      · unfold resumeTenant
        split
        · split
          · trivial
          · exact .bind (orThrow_calls _) fun _ => trivial
        refine .bind (hresume _) fun result => .bind (orThrow_calls _) fun _ => ?_
        split
        · trivial
        split
        · trivial
        · exact .bind (orThrow_calls _) fun _ => orThrow_calls _
      split
      · refine .bind (hreissue _) fun result => .bind (orThrow_calls _) fun _ => ?_
        split
        · trivial
        · exact .bind (orThrow_calls _) fun _ => orThrow_calls _
      · exact hprovisionTenant _
  · refine .bind (orThrow_calls _) fun prior => ?_
    cases prior with
    | none => trivial
    | some prior =>
      refine .bind (hready _) fun ready => .bind (orThrow_calls _) fun _ => ?_
      split
      · trivial
      · exact orThrow_calls _
  · trivial

/-- A tenant is reconstructed from a snapshot. -/
theorem reconstruct_some {driver : ProviderProvisioningDriver E} {rt : Runtime}
    {records : List ResourceRecord} {request : ProvisioningRequest} {prior : Reconstructed}
    (h : driver.reconstruct rt records request = .ok (some prior)) :
    ∃ record ∈ records, record.kind = PROVIDER_STATE_RESOURCE_KIND := by
  by_contra hnone
  have hempty : records.filter (·.kind == PROVIDER_STATE_RESOURCE_KIND) = [] := by
    refine List.filter_eq_nil_iff.mpr fun record hrecord hkind => hnone ⟨record, hrecord, ?_⟩
    simpa using hkind
  unfold reconstruct at h
  rw [hempty] at h
  cases h

theorem snapshotResource_kind {codec : SnapshotCodec} {resources : ProviderResources}
    {generation : Nat} {snapshot : StepResourceInput}
    (h : snapshotResource codec resources generation = .ok snapshot) :
    snapshot.kind = PROVIDER_STATE_RESOURCE_KIND := by
  unfold snapshotResource at h
  split at h
  · cases h
  split at h
  · cases h
  · cases h
    rfl

theorem compensateUnknownTenant_calls {input : StepInput} {request : ProvisioningRequest}
    {target : ProviderStatus}
    (hsuspend : target = .suspended → All C (driver.provider.suspendUnknown request))
    (hdisable : target ≠ .suspended → All C (driver.provider.compensateUnknown request)) :
    All C (driver.compensateUnknownTenant input request target) := by
  unfold compensateUnknownTenant
  split
  · rename_i htarget
    refine .bind (hsuspend htarget) fun _ => ?_
    dsimp only
    split <;> trivial
  · rename_i htarget
    refine .bind (hdisable htarget) fun _ => ?_
    dsimp only
    split <;> trivial

/-- The methods that take a step back depend on the state of the order alone. -/
theorem compensateStep_calls (input : StepInput)
    (hsuspend : targetStatus input.order = .suspended →
      (∀ current, All C (driver.provider.suspend (driver.request input.order) current)) ∧
        All C (driver.provider.suspendUnknown (driver.request input.order)))
    (hdisable : targetStatus input.order ≠ .suspended →
      (∀ current, All C (driver.provider.compensate (driver.request input.order) current)) ∧
        All C (driver.provider.compensateUnknown (driver.request input.order))) :
    All C (driver.compensateStep rt input) := by
  refine .bind (orThrow_calls _) fun _ => .bind (orThrow_calls _) fun prior => ?_
  have hlifecycle : All C (driver.applyLifecycle rt input (driver.request input.order)
      (targetStatus input.order) prior) := by
    cases prior with
    | none =>
      exact .bind (compensateUnknownTenant_calls driver (fun h => (hsuspend h).2)
        fun h => (hdisable h).2) fun _ => trivial
    | some prior =>
      refine .bind ?_ fun _ => trivial
      unfold compensateTenant
      split
      · rename_i htarget
        refine .bind ((hsuspend htarget).1 _) fun _ => .bind (orThrow_calls _) fun _ => ?_
        split
        · trivial
        · exact orThrow_calls _
      · rename_i htarget
        refine .bind ((hdisable htarget).1 _) fun _ => .bind (orThrow_calls _) fun _ => ?_
        split
        · trivial
        · exact orThrow_calls _
  dsimp only
  split
  · exact .bind hlifecycle fun _ => trivial
  · trivial

end ProviderProvisioningDriver

end EsigSuite.Provisioning
