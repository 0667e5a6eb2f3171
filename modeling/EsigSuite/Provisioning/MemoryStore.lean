import EsigSuite.Provisioning.BillingReducer
import EsigSuite.Provisioning.Identifiers
import Mathlib.Data.List.Sort
import Mathlib.Logic.Function.Basic

/-!
# The in-memory store

`InMemoryProvisioningStore`, each operation as the transition of the state it
makes, with the value or the error it answers.
-/

namespace EsigSuite.Provisioning

structure InMemoryProvisioningStore where
  orders : String → Option OrderRecord
  jobs : String → Option ProvisioningJob
  executionLeases : String → Option JobExecutionLease
  credentialHandoffs : String → Option CredentialHandoffPointer
  /-- The values of the map, in the order of insertion. -/
  resources : List ResourceRecord

abbrev Outcome (σ α : Type) := Except SafeProvisioningError α × σ

def STORE_CONFLICT : SafeProvisioningError := ⟨.STORE_CONFLICT, false⟩

def RETRYABLE_CONFLICT : SafeProvisioningError := ⟨.STORE_CONFLICT, true⟩

/-- `assertLeaseInput` does not throw. -/
def leaseInputValid (subscriptionId ownerId : String) (now leaseDurationMs : Int) : Bool :=
  subscriptionId ≠ "" && ownerId ≠ "" && now < 2 ^ 53 && 0 ≤ now && leaseDurationMs < 2 ^ 53 &&
    1 ≤ leaseDurationMs && now ≤ 2 ^ 53 - 1 - leaseDurationMs

def pointerHasPublication (value : CredentialHandoffPointer) : Bool :=
  value.secretId.isSome && value.publicationId.isSome && value.credentialId.isSome

def samePointerGeneration (left right : CredentialHandoffPointer) : Bool :=
  left.handoffId == right.handoffId && left.subscriptionId == right.subscriptionId &&
    left.jobId == right.jobId && left.activationGeneration == right.activationGeneration &&
    left.publicationGeneration == right.publicationGeneration &&
    left.fencingToken == right.fencingToken

def samePublication (left right : CredentialHandoffPointer) : Bool :=
  left.secretId == right.secretId && left.publicationId == right.publicationId &&
    left.credentialId == right.credentialId

theorem pointerHasPublication_eq {left right : CredentialHandoffPointer}
    (h : samePublication left right = true) :
    pointerHasPublication left = pointerHasPublication right := by
  simp only [samePublication, Bool.and_eq_true, beq_iff_eq] at h
  simp only [pointerHasPublication, h]

def sameResourceIdentity (existing resource : ResourceRecord) : Bool :=
  existing.subscriptionId == resource.subscriptionId && existing.step == resource.step &&
    existing.kind == resource.kind && existing.opaqueId == resource.opaqueId &&
    match existing.retention, resource.retention with
    | .mutable _, .mutable _ | .immutable_evidence, .immutable_evidence => true
    | _, _ => false

namespace InMemoryProvisioningStore

def initial : InMemoryProvisioningStore where
  orders _ := none
  jobs _ := none
  executionLeases _ := none
  credentialHandoffs _ := none
  resources := []

variable (store : InMemoryProvisioningStore)

-- ---------------------------------------------------------------------------
-- Orders and jobs
-- ---------------------------------------------------------------------------

def getOrder (subscriptionId : String) : Option OrderRecord := store.orders subscriptionId

def setOrder (order : OrderRecord) : InMemoryProvisioningStore :=
  { store with orders := Function.update store.orders order.subscriptionId (some order) }

def putOrder (order : OrderRecord) (expectedVersion : Option Nat) :
    Outcome InMemoryProvisioningStore OrderRecord :=
  match store.orders order.subscriptionId with
  | none =>
    if expectedVersion.isSome || order.version ≠ 0 then (.error RETRYABLE_CONFLICT, store)
    else (.ok order, store.setOrder order)
  | some existing =>
    if expectedVersion ≠ some existing.version || expectedVersion ≠ some order.version then
      (.error RETRYABLE_CONFLICT, store)
    else if existing.billingState.terminal && order.billingState ≠ existing.billingState &&
        !(existing.billingState == .canceled && order.billingState == .refunded) then
      (.error STORE_CONFLICT, store)
    else
      let stored := { order with version := existing.version + 1 }
      (.ok stored, store.setOrder stored)

def getJob (subscriptionId : String) : Option ProvisioningJob := store.jobs subscriptionId

def setJob (job : ProvisioningJob) : InMemoryProvisioningStore :=
  { store with jobs := Function.update store.jobs job.subscriptionId (some job) }

def putJob (h : Hashing) (job : ProvisioningJob) (expectedVersion : Option Nat) :
    Outcome InMemoryProvisioningStore ProvisioningJob :=
  match deterministicJobId h job.subscriptionId with
  | .error e => (.error e, store)
  | .ok jobId =>
    if job.jobId ≠ jobId then (.error STORE_CONFLICT, store)
    else
      match store.jobs job.subscriptionId with
      | none =>
        if expectedVersion.isSome || job.version ≠ 0 then (.error STORE_CONFLICT, store)
        else (.ok job, store.setJob job)
      | some existing =>
        if existing.jobId ≠ job.jobId || expectedVersion ≠ some existing.version ||
            expectedVersion ≠ some job.version then
          (.error STORE_CONFLICT, store)
        else
          let stored := { job with version := existing.version + 1 }
          (.ok stored, store.setJob stored)

-- ---------------------------------------------------------------------------
-- Execution leases
-- ---------------------------------------------------------------------------

def setLease (lease : JobExecutionLease) : InMemoryProvisioningStore :=
  { store with
    executionLeases := Function.update store.executionLeases lease.subscriptionId (some lease) }

def acquireJobExecutionLease (subscriptionId ownerId : String) (now leaseDurationMs : Int) :
    Outcome InMemoryProvisioningStore JobExecutionLeaseClaimResult :=
  if !leaseInputValid subscriptionId ownerId now leaseDurationMs then
    (.error ⟨.INVALID_STATE, false⟩, store)
  else
    let existing := store.executionLeases subscriptionId
    if existing.any fun lease => lease.expiresAt > now then (.ok .held, store)
    else
      let lease : JobExecutionLease :=
        { subscriptionId
          ownerId
          fencingToken := (existing.elim 0 (·.fencingToken)) + 1
          expiresAt := now + leaseDurationMs }
      (.ok (.acquired lease), store.setLease lease)

def renewJobExecutionLease (lease : JobExecutionLease) (now leaseDurationMs : Int) :
    Outcome InMemoryProvisioningStore JobExecutionLease :=
  if !leaseInputValid lease.subscriptionId lease.ownerId now leaseDurationMs then
    (.error ⟨.INVALID_STATE, false⟩, store)
  else
    match store.executionLeases lease.subscriptionId with
    | none => (.error RETRYABLE_CONFLICT, store)
    | some existing =>
      if existing.ownerId ≠ lease.ownerId || existing.fencingToken ≠ lease.fencingToken ||
          existing.expiresAt ≤ now then
        (.error RETRYABLE_CONFLICT, store)
      else
        let renewed := { existing with expiresAt := now + leaseDurationMs }
        (.ok renewed,
          { store with
            executionLeases :=
              Function.update store.executionLeases lease.subscriptionId (some renewed) })

def releaseJobExecutionLease (lease : JobExecutionLease) : Outcome InMemoryProvisioningStore Unit :=
  match store.executionLeases lease.subscriptionId with
  | none => (.ok (), store)
  | some existing =>
    if existing.ownerId = lease.ownerId ∧ existing.fencingToken = lease.fencingToken then
      -- the fence counter is preserved, so that a stale token is never reused
      (.ok (),
        { store with
          executionLeases :=
            Function.update store.executionLeases lease.subscriptionId
              (some { existing with expiresAt := 0 }) })
    else (.ok (), store)

/-- `#assertActiveLease` does not throw. -/
def activeLease (lease : JobExecutionLease) (now : Int) : Bool :=
  (store.executionLeases lease.subscriptionId).any fun existing =>
    existing.ownerId == lease.ownerId && existing.fencingToken == lease.fencingToken &&
      !(existing.expiresAt ≤ now : Bool)

-- ---------------------------------------------------------------------------
-- Credential handoff
-- ---------------------------------------------------------------------------

def getCredentialHandoffPointer (subscriptionId handoffId : String) :
    Option CredentialHandoffPointer :=
  (store.credentialHandoffs handoffId).filter fun pointer =>
    pointer.subscriptionId == subscriptionId

def setPointer (pointer : CredentialHandoffPointer) : InMemoryProvisioningStore :=
  { store with
    credentialHandoffs :=
      Function.update store.credentialHandoffs pointer.handoffId (some pointer) }

/-- A pointer write under an active lease: `change` is the pointer to be
stored in place of the existing one, if it is allowed. -/
def changePointer (lease : JobExecutionLease) (now : Int) (handoffId : String)
    (change : Option CredentialHandoffPointer → Option CredentialHandoffPointer) :
    Outcome InMemoryProvisioningStore CredentialHandoffPointer :=
  if !store.activeLease lease now then (.error RETRYABLE_CONFLICT, store)
  else
    match change (store.credentialHandoffs handoffId) with
    | none => (.error RETRYABLE_CONFLICT, store)
    | some pointer => (.ok pointer, store.setPointer pointer)

def validNew (pointer : CredentialHandoffPointer) (expectedPublicationGeneration : Option Nat) :
    Option CredentialHandoffPointer → Bool
  | none => expectedPublicationGeneration.isNone && pointer.publicationGeneration == 0
  | some _ => false

def validReplacement (pointer : CredentialHandoffPointer)
    (expectedPublicationGeneration : Option Nat) : Option CredentialHandoffPointer → Bool
  | none => false
  | some existing =>
    expectedPublicationGeneration == some existing.publicationGeneration &&
      pointer.publicationGeneration == existing.publicationGeneration + 1 &&
      existing.state != .revoked

def beginCredentialHandoff (pointer : CredentialHandoffPointer) (lease : JobExecutionLease)
    (now : Int) (expectedPublicationGeneration : Option Nat) :
    Outcome InMemoryProvisioningStore CredentialHandoffPointer :=
  store.changePointer lease now pointer.handoffId fun existing =>
    if (!validNew pointer expectedPublicationGeneration existing &&
          !validReplacement pointer expectedPublicationGeneration existing) ||
        pointer.state ≠ .pending || pointer.subscriptionId ≠ lease.subscriptionId ||
        pointer.fencingToken ≠ lease.fencingToken || pointer.secretId.isSome ||
        pointer.publicationId.isSome || pointer.credentialId.isSome then
      none
    else some pointer

def bindCredentialHandoff (input : CredentialHandoffMutationInput)
    (publication : CredentialSecretPublication) :
    Outcome InMemoryProvisioningStore CredentialHandoffPointer :=
  store.changePointer input.lease input.now input.pointer.handoffId fun
    | none => none
    | some existing =>
      let bound :=
        { existing with
          secretId := some publication.secretId
          publicationId := some publication.publicationId
          credentialId := some publication.credentialId }
      if !samePointerGeneration existing input.pointer || existing.state ≠ .pending ||
          (pointerHasPublication existing && !samePublication existing bound) then
        none
      else some bound

def publishCredentialHandoff (input : CredentialHandoffMutationInput) :
    Outcome InMemoryProvisioningStore CredentialHandoffPointer :=
  store.changePointer input.lease input.now input.pointer.handoffId fun
    | none => none
    | some existing =>
      if !samePointerGeneration existing input.pointer || !pointerHasPublication existing ||
          !samePublication existing input.pointer ||
          (existing.state ≠ .pending && existing.state ≠ .published) then
        none
      else some { existing with state := .published }

def revokeCredentialHandoff (input : CredentialHandoffMutationInput) :
    Outcome InMemoryProvisioningStore CredentialHandoffPointer :=
  store.changePointer input.lease input.now input.pointer.handoffId fun
    | none => none
    | some existing =>
      if !samePointerGeneration existing input.pointer then none
      else some { existing with state := .revoked }

-- ---------------------------------------------------------------------------
-- Resources
-- ---------------------------------------------------------------------------

def listResources (c : Collation) (subscriptionId : String) : List ResourceRecord :=
  (store.resources.filter (·.subscriptionId == subscriptionId)).insertionSort fun left right =>
    c.localeCompare left.resourceKey right.resourceKey ≤ 0

/-- `Map.set` -/
def setResource (resource : ResourceRecord) : InMemoryProvisioningStore :=
  { store with
    resources :=
      if store.resources.any (·.resourceKey == resource.resourceKey) then
        store.resources.map fun existing =>
          if existing.resourceKey = resource.resourceKey then resource else existing
      else store.resources ++ [resource] }

def putResource (h : Hashing) (resource : ResourceRecord) :
    Outcome InMemoryProvisioningStore Unit :=
  match deterministicResourceKey h resource.subscriptionId resource.step resource.kind
      resource.opaqueId with
  | .error e => (.error e, store)
  | .ok expectedKey =>
    if resource.resourceKey ≠ expectedKey then (.error STORE_CONFLICT, store)
    else
      match store.resources.find? (·.resourceKey == resource.resourceKey) with
      | none => (.ok (), store.setResource resource)
      | some existing =>
        if !sameResourceIdentity existing resource then (.error STORE_CONFLICT, store)
        else if existing.retention = .immutable_evidence then (.ok (), store)
        else (.ok (), store.setResource resource)

end InMemoryProvisioningStore

end EsigSuite.Provisioning
