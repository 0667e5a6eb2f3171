import Mathlib.Order.Basic

/-!
# Orders, events and jobs

The data of `infra/provisioning/src/domain.ts` that the order reducer, the
stores and the orchestrator work on.
-/

namespace EsigSuite.Provisioning

inductive DeploymentMode
  | shared
  | dedicated
  deriving DecidableEq, Repr

inductive PlanId
  | starter
  | team
  | scale
  deriving DecidableEq, Repr

inductive BillingState
  | pending
  | active
  | past_due
  | canceled
  | refunded
  deriving DecidableEq, Repr

abbrev NonRefundedBillingState := { state : BillingState // state ≠ .refunded }

theorem BillingState.pending_ne_refunded : BillingState.pending ≠ .refunded := by decide

theorem BillingState.active_ne_refunded : BillingState.active ≠ .refunded := by decide

theorem BillingState.past_due_ne_refunded : BillingState.past_due ≠ .refunded := by decide

theorem BillingState.canceled_ne_refunded : BillingState.canceled ≠ .refunded := by decide

inductive SafeErrorCode
  | INVALID_EVENT
  | INVALID_ORDER
  | INVALID_STATE
  | INVALID_STEP_ORDER
  | MODE_MISMATCH
  | STORE_CONFLICT
  | PROVIDER_UNAVAILABLE
  | PROVIDER_INVALID_REQUEST
  | PROVIDER_AUTH_FAILED
  | PROVIDER_RATE_LIMITED
  | PROVIDER_CONFLICT
  | PROVIDER_NOT_FOUND
  | PROVIDER_TRANSIENT
  | PROVIDER_TIMEOUT
  | PROVIDER_RESPONSE_INVALID
  | PROVIDER_RESOURCE_FAILED
  | CREDENTIAL_HANDOFF_REQUIRED
  | CREDENTIAL_REISSUE_REQUIRED
  | COMPENSATION_FAILED
  | UNEXPECTED_FAILURE
  deriving DecidableEq, Repr

/-- What is thrown, with `retryable = false` as the default. -/
structure SafeProvisioningError where
  code : SafeErrorCode
  retryable : Bool
  deriving DecidableEq, Repr

-- ---------------------------------------------------------------------------
-- Events
-- ---------------------------------------------------------------------------

/-- The accepted event types, with the state the two status-bearing ones
carry. -/
inductive AcceptedStripeEventType
  | checkoutSessionCompleted
  | invoicePaid
  | invoicePaymentFailed
  | subscriptionCreated (billingState : NonRefundedBillingState)
  | subscriptionUpdated (billingState : NonRefundedBillingState)
  | subscriptionDeleted
  | chargeRefunded
  deriving DecidableEq

structure NormalizedStripeEventBase where
  eventId : String
  createdAt : Int
  payloadDigest : String
  deriving DecidableEq

structure NormalizedOrderMetadata where
  customerId : Option String
  ownerSubject : Option String
  mode : Option DeploymentMode
  plan : Option PlanId
  deriving DecidableEq

/-- `Exclude<NormalizedStripeEvent, { type: "ignored" }>`. -/
structure OrderEvent extends NormalizedStripeEventBase, NormalizedOrderMetadata where
  subscriptionId : String
  type : AcceptedStripeEventType
  deriving DecidableEq

inductive NormalizedStripeEvent
  | ignored (base : NormalizedStripeEventBase) (originalType : String)
      (subscriptionId : Option String)
  | accepted (event : OrderEvent)
  deriving DecidableEq

def NormalizedStripeEvent.base : NormalizedStripeEvent → NormalizedStripeEventBase
  | .ignored base .. => base
  | .accepted event => event.toNormalizedStripeEventBase

-- ---------------------------------------------------------------------------
-- Orders
-- ---------------------------------------------------------------------------

structure EventCursor where
  createdAt : Int
  precedence : Nat
  eventId : String
  deriving DecidableEq

structure OrderRecord extends NormalizedOrderMetadata where
  version : Nat
  subscriptionId : String
  billingState : BillingState
  latestEventCreatedAt : Int
  latestEventId : String
  /-- Cursor of the event that currently determines `billingState`. -/
  stateCursor : EventCursor
  deriving DecidableEq

def hasProvisioningIdentity (order : OrderRecord) : Bool :=
  order.customerId.any (· ≠ "") && order.ownerSubject.any (· ≠ "") && order.mode.isSome &&
    order.plan.isSome

def isProvisionableOrder (order : OrderRecord) : Bool :=
  order.billingState == .active && hasProvisioningIdentity order &&
    (order.mode == some .shared || order.plan == some .scale)

-- ---------------------------------------------------------------------------
-- Jobs
-- ---------------------------------------------------------------------------

inductive ProvisioningState
  | queued
  | running
  | ready
  | failed
  | compensating
  | disabled
  deriving DecidableEq, Repr

inductive ProvisioningStep
  | resolve_tenant
  | owner_membership
  | plan_entitlement
  | api_credential
  | storage_namespace
  | activation_metadata
  | mark_ready
  deriving DecidableEq, Repr

def PROVISIONING_STEPS : List ProvisioningStep :=
  [.resolve_tenant, .owner_membership, .plan_entitlement, .api_credential, .storage_namespace,
    .activation_metadata, .mark_ready]

inductive ProvisioningOperation
  | provisioning
  | suspension
  | compensation
  deriving DecidableEq, Repr

structure RetryPolicy where
  maxAttempts : Nat
  baseDelayMs : Nat
  maxDelayMs : Nat
  deriving DecidableEq, Repr

def DEFAULT_RETRY_POLICY : RetryPolicy := ⟨5, 1000, 60000⟩

structure ProvisioningJob where
  version : Nat
  jobId : String
  subscriptionId : String
  tenantId : String
  activationGeneration : Nat
  state : ProvisioningState
  operation : ProvisioningOperation
  completedSteps : List ProvisioningStep
  compensatedSteps : List ProvisioningStep
  attempt : Nat
  retryPolicy : RetryPolicy
  retryExhausted : Bool
  nextRetryAt : Option Int
  lastErrorCode : Option SafeErrorCode
  deriving DecidableEq, Repr

structure JobExecutionLease where
  subscriptionId : String
  ownerId : String
  fencingToken : Nat
  expiresAt : Int
  deriving DecidableEq, Repr

inductive JobExecutionLeaseClaimResult
  | acquired (lease : JobExecutionLease)
  | held
  deriving DecidableEq, Repr

-- ---------------------------------------------------------------------------
-- Resources
-- ---------------------------------------------------------------------------

inductive MutableResourceStatus
  | active
  | revoked
  | disabled
  | quarantined
  deriving DecidableEq, Repr

/-- `retention`, with the `status` it allows. -/
inductive Retention
  | mutable (status : MutableResourceStatus)
  | immutable_evidence
  deriving DecidableEq, Repr

structure ResourceRecord where
  resourceKey : String
  subscriptionId : String
  step : ProvisioningStep
  kind : String
  opaqueId : String
  retention : Retention
  deriving DecidableEq, Repr

-- ---------------------------------------------------------------------------
-- Credential handoff
-- ---------------------------------------------------------------------------

structure CredentialSecretPublication where
  secretId : String
  publicationId : String
  credentialId : String
  deriving DecidableEq, Repr

inductive CredentialHandoffState
  | pending
  | published
  | revoked
  deriving DecidableEq, Repr

structure CredentialHandoffPointer where
  handoffId : String
  subscriptionId : String
  jobId : String
  activationGeneration : Nat
  publicationGeneration : Nat
  fencingToken : Nat
  state : CredentialHandoffState
  secretId : Option String
  publicationId : Option String
  credentialId : Option String
  deriving DecidableEq, Repr

structure CredentialHandoffMutationInput where
  pointer : CredentialHandoffPointer
  lease : JobExecutionLease
  now : Int
  deriving DecidableEq, Repr

end EsigSuite.Provisioning
