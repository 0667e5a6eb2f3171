import EsigSuite.Provisioning.MemoryStore

/-!
# The DynamoDB store

The lease and handoff operations of `DynamoProvisioningStore`: conditional
writes on the items of one table. A write whose condition fails changes
nothing, and a transaction makes all of its writes or none.
-/

namespace EsigSuite.Provisioning

/-- The `JOB_EXECUTION_LEASE#` items by subscription, and the
`CREDENTIAL_HANDOFF#` items by subscription and handoff. -/
structure DynamoProvisioningStore where
  leaseItems : String → Option JobExecutionLease
  handoffItems : String → String → Option CredentialHandoffPointer

namespace DynamoProvisioningStore

def initial : DynamoProvisioningStore where
  leaseItems _ := none
  handoffItems _ _ := none

/-- `validLease`, with `2 ^ 53` as the first unsafe integer. -/
def validLease (lease : JobExecutionLease) (subscriptionId ownerId : String)
    (fencingToken : Option Nat) : Bool :=
  lease.subscriptionId == subscriptionId && lease.ownerId == ownerId &&
    lease.fencingToken < 2 ^ 53 && 0 < lease.fencingToken &&
    fencingToken.all (lease.fencingToken == ·) && lease.expiresAt < 2 ^ 53 && 0 < lease.expiresAt

variable (store : DynamoProvisioningStore)

def setLeaseItem (subscriptionId : String) (item : JobExecutionLease) : DynamoProvisioningStore :=
  { store with leaseItems := Function.update store.leaseItems subscriptionId (some item) }

def acquireJobExecutionLease (subscriptionId ownerId : String) (now leaseDurationMs : Int) :
    Outcome DynamoProvisioningStore JobExecutionLeaseClaimResult :=
  if !leaseInputValid subscriptionId ownerId now leaseDurationMs then
    (.error ⟨.INVALID_STATE, false⟩, store)
  else
    let item := store.leaseItems subscriptionId
    -- attribute_not_exists(pk) OR expiresAt <= :now
    if !item.all fun lease => lease.expiresAt ≤ now then (.ok .held, store)
    else
      let updated : JobExecutionLease :=
        { subscriptionId
          ownerId
          fencingToken := item.elim 0 (·.fencingToken) + 1
          expiresAt := now + leaseDurationMs }
      let store' := store.setLeaseItem subscriptionId updated
      if !validLease updated subscriptionId ownerId none then (.error RETRYABLE_CONFLICT, store')
      else (.ok (.acquired updated), store')

/-- `ownerId = :ownerId AND fencingToken = :fencingToken` -/
def ownedBy (lease : JobExecutionLease) : Option JobExecutionLease → Bool
  | none => false
  | some item => item.ownerId == lease.ownerId && item.fencingToken == lease.fencingToken

def renewJobExecutionLease (lease : JobExecutionLease) (now leaseDurationMs : Int) :
    Outcome DynamoProvisioningStore JobExecutionLease :=
  if !leaseInputValid lease.subscriptionId lease.ownerId now leaseDurationMs then
    (.error ⟨.INVALID_STATE, false⟩, store)
  else
    match store.leaseItems lease.subscriptionId with
    | none => (.error RETRYABLE_CONFLICT, store)
    | some item =>
      if !ownedBy lease (some item) || item.expiresAt ≤ now then (.error RETRYABLE_CONFLICT, store)
      else
        let renewed := { item with expiresAt := now + leaseDurationMs }
        let store' := store.setLeaseItem lease.subscriptionId renewed
        if !validLease renewed lease.subscriptionId lease.ownerId (some lease.fencingToken) then
          (.error RETRYABLE_CONFLICT, store')
        else (.ok renewed, store')

def releaseJobExecutionLease (lease : JobExecutionLease) : Outcome DynamoProvisioningStore Unit :=
  match store.leaseItems lease.subscriptionId with
  | none => (.ok (), store)
  | some item =>
    -- a stale owner must not expire its successor's lease
    if !ownedBy lease (some item) then (.ok (), store)
    else (.ok (), store.setLeaseItem lease.subscriptionId { item with expiresAt := 0 })

/-- The lease is checked and the pointer is put where `condition` holds of the
stored item. -/
def transactPointerPut (pointer : CredentialHandoffPointer) (lease : JobExecutionLease) (now : Int)
    (condition : Option CredentialHandoffPointer → Bool) :
    Outcome DynamoProvisioningStore CredentialHandoffPointer :=
  let leaseItem := store.leaseItems lease.subscriptionId
  if ownedBy lease leaseItem && leaseItem.all (·.expiresAt > now) &&
      condition (store.handoffItems pointer.subscriptionId pointer.handoffId) then
    (.ok pointer,
      { store with
        handoffItems :=
          Function.update store.handoffItems pointer.subscriptionId
            (Function.update (store.handoffItems pointer.subscriptionId) pointer.handoffId
              (some pointer)) })
  else (.error RETRYABLE_CONFLICT, store)

def beginCredentialHandoff (pointer : CredentialHandoffPointer) (lease : JobExecutionLease)
    (now : Int) (expectedPublicationGeneration : Option Nat) :
    Outcome DynamoProvisioningStore CredentialHandoffPointer :=
  if pointer.state ≠ .pending || pointer.subscriptionId ≠ lease.subscriptionId ||
      pointer.fencingToken ≠ lease.fencingToken ||
      pointer.publicationGeneration ≠ expectedPublicationGeneration.elim 0 (· + 1) then
    (.error RETRYABLE_CONFLICT, store)
  else
    store.transactPointerPut pointer lease now fun item =>
      match expectedPublicationGeneration, item with
      | none, item => item.isNone
      | some _, none => false
      | some expected, some item => item.publicationGeneration == expected && item.state != .revoked

/-- `publicationGeneration = :generation AND fencingToken = :pointerFence` -/
def sameFence (pointer item : CredentialHandoffPointer) : Bool :=
  item.publicationGeneration == pointer.publicationGeneration &&
    item.fencingToken == pointer.fencingToken

def bindCredentialHandoff (input : CredentialHandoffMutationInput)
    (publication : CredentialSecretPublication) :
    Outcome DynamoProvisioningStore CredentialHandoffPointer :=
  let bound :=
    { input.pointer with
      secretId := some publication.secretId
      publicationId := some publication.publicationId
      credentialId := some publication.credentialId }
  store.transactPointerPut bound input.lease input.now fun
    | none => false
    | some item =>
      sameFence input.pointer item && item.state == .pending &&
        (item.secretId.isNone || samePublication item bound)

def publishCredentialHandoff (input : CredentialHandoffMutationInput) :
    Outcome DynamoProvisioningStore CredentialHandoffPointer :=
  if !pointerHasPublication input.pointer then (.error RETRYABLE_CONFLICT, store)
  else
    store.transactPointerPut { input.pointer with state := .published } input.lease input.now fun
      | none => false
      | some item =>
        sameFence input.pointer item && (item.state == .pending || item.state == .published) &&
          samePublication item input.pointer

def revokeCredentialHandoff (input : CredentialHandoffMutationInput) :
    Outcome DynamoProvisioningStore CredentialHandoffPointer :=
  store.transactPointerPut { input.pointer with state := .revoked } input.lease input.now fun
    | none => false
    | some item => sameFence input.pointer item

end DynamoProvisioningStore

end EsigSuite.Provisioning
