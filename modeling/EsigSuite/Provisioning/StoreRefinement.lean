import EsigSuite.Provisioning.DynamoStore
import EsigSuite.Provisioning.JobInvariant

/-!
# The two stores side by side

`refines_iff`: the calls on orders and handoffs for which the DynamoDB table
answers as the in-memory store does, and keeps the same records. The stores
part where a call's own object says something else than the stored record.
-/

namespace EsigSuite.Provisioning

-- ---------------------------------------------------------------------------
-- The table
-- ---------------------------------------------------------------------------

/-- With the `ORDER#` items by subscription. -/
structure DynamoProvisioningTable extends DynamoProvisioningStore where
  orderItems : String → Option OrderRecord

namespace DynamoProvisioningTable

def initial : DynamoProvisioningTable where
  toDynamoProvisioningStore := .initial
  orderItems _ := none

variable (table : DynamoProvisioningTable)

def putOrder (order : OrderRecord) (expectedVersion : Option Nat) :
    Outcome DynamoProvisioningTable OrderRecord :=
  if order.version ≠ expectedVersion.getD 0 then (.error STORE_CONFLICT, table)
  else
    let item := table.orderItems order.subscriptionId
    let stored : OrderRecord :=
      match expectedVersion with
      | none => order
      | some expected => { order with version := expected + 1 }
    let condition : Bool :=
      match expectedVersion with
      -- attribute_not_exists(pk) AND attribute_not_exists(sk)
      | none => item.isNone
      | some expected => item.any (·.version == expected)
    if condition then
      (.ok stored,
        { table with
          orderItems := Function.update table.orderItems order.subscriptionId (some stored) })
    else (.error RETRYABLE_CONFLICT, table)

/-- The operations on the other items leave the orders. -/
def onHandoffs (f : DynamoProvisioningStore → Outcome DynamoProvisioningStore α) :
    Outcome DynamoProvisioningTable α :=
  let (answer, store) := f table.toDynamoProvisioningStore
  (answer, { table with toDynamoProvisioningStore := store })

end DynamoProvisioningTable

-- ---------------------------------------------------------------------------
-- Calls
-- ---------------------------------------------------------------------------

inductive StoreRecord
  | order (order : OrderRecord)
  | pointer (pointer : CredentialHandoffPointer)

inductive RecordCall
  | putOrder (order : OrderRecord) (expectedVersion : Option Nat)
  | beginCredentialHandoff (pointer : CredentialHandoffPointer) (lease : JobExecutionLease)
      (now : Int) (expectedPublicationGeneration : Option Nat)
  | bindCredentialHandoff (input : CredentialHandoffMutationInput)
      (publication : CredentialSecretPublication)
  | publishCredentialHandoff (input : CredentialHandoffMutationInput)
  | revokeCredentialHandoff (input : CredentialHandoffMutationInput)

/-- What is answered, and what is left. -/
def Outcome.map (f : α → β) (outcome : Outcome σ α) : Outcome σ β :=
  (outcome.1.map f, outcome.2)

def RecordCall.memory (store : InMemoryProvisioningStore) :
    RecordCall → Outcome InMemoryProvisioningStore StoreRecord
  | .putOrder order expected => (store.putOrder order expected).map .order
  | .beginCredentialHandoff pointer lease now expected =>
    (store.beginCredentialHandoff pointer lease now expected).map .pointer
  | .bindCredentialHandoff input publication =>
    (store.bindCredentialHandoff input publication).map .pointer
  | .publishCredentialHandoff input => (store.publishCredentialHandoff input).map .pointer
  | .revokeCredentialHandoff input => (store.revokeCredentialHandoff input).map .pointer

def RecordCall.dynamo (table : DynamoProvisioningTable) :
    RecordCall → Outcome DynamoProvisioningTable StoreRecord
  | .putOrder order expected => (table.putOrder order expected).map .order
  | .beginCredentialHandoff pointer lease now expected =>
    (table.onHandoffs (·.beginCredentialHandoff pointer lease now expected)).map .pointer
  | .bindCredentialHandoff input publication =>
    (table.onHandoffs (·.bindCredentialHandoff input publication)).map .pointer
  | .publishCredentialHandoff input =>
    (table.onHandoffs (·.publishCredentialHandoff input)).map .pointer
  | .revokeCredentialHandoff input =>
    (table.onHandoffs (·.revokeCredentialHandoff input)).map .pointer

/-- A call, with the execution leases that other calls have left by then. -/
structure RecordStep where
  leases : String → Option JobExecutionLease
  call : RecordCall

def RecordStep.memory (step : RecordStep) (store : InMemoryProvisioningStore) :
    Outcome InMemoryProvisioningStore StoreRecord :=
  step.call.memory { store with executionLeases := step.leases }

def RecordStep.dynamo (step : RecordStep) (table : DynamoProvisioningTable) :
    Outcome DynamoProvisioningTable StoreRecord :=
  step.call.dynamo { table with leaseItems := step.leases }

-- ---------------------------------------------------------------------------
-- Refinement
-- ---------------------------------------------------------------------------

/-- The same orders and the same handoffs are read from both. -/
structure SameRecords (store : InMemoryProvisioningStore) (table : DynamoProvisioningTable) :
    Prop where
  orders : store.orders = table.orderItems
  handoffs : ∀ subscriptionId handoffId,
    store.getCredentialHandoffPointer subscriptionId handoffId =
      table.handoffItems subscriptionId handoffId

structure Agree (memory : Outcome InMemoryProvisioningStore StoreRecord)
    (dynamo : Outcome DynamoProvisioningTable StoreRecord) : Prop where
  succeeds : memory.1.isOk = dynamo.1.isOk
  records : SameRecords memory.2 dynamo.2

/-- The stores agree on one call after the other. -/
def Refines : List RecordStep → InMemoryProvisioningStore → DynamoProvisioningTable → Prop
  | [], _, _ => True
  | step :: steps, store, table =>
    Agree (step.memory store) (step.dynamo table) ∧
      Refines steps (step.memory store).2 (step.dynamo table).2

-- ---------------------------------------------------------------------------
-- Calls that say what is stored
-- ---------------------------------------------------------------------------

/-- A canceled or refunded order would become something else than refunded. -/
def leavesTerminal (existing order : OrderRecord) : Bool :=
  existing.billingState.terminal && order.billingState ≠ existing.billingState &&
    !(existing.billingState == .canceled && order.billingState == .refunded)

def unpublished (pointer : CredentialHandoffPointer) : Bool :=
  pointer.secretId.isNone && pointer.publicationId.isNone && pointer.credentialId.isNone

def CredentialHandoffPointer.withPublication (pointer : CredentialHandoffPointer)
    (publication : CredentialSecretPublication) : CredentialHandoffPointer :=
  { pointer with
    secretId := some publication.secretId
    publicationId := some publication.publicationId
    credentialId := some publication.credentialId }

def sameActivation (left right : CredentialHandoffPointer) : Bool :=
  left.jobId == right.jobId && left.activationGeneration == right.activationGeneration

/-- The pointer is one that its lease may begin. -/
def mayBegin (pointer : CredentialHandoffPointer) (lease : JobExecutionLease)
    (expectedPublicationGeneration : Option Nat) : Bool :=
  pointer.state == .pending && pointer.subscriptionId == lease.subscriptionId &&
    pointer.fencingToken == lease.fencingToken &&
    pointer.publicationGeneration == expectedPublicationGeneration.elim 0 (· + 1)

/-- The stored pointer has the generation and the fence of the given one. -/
def InMemoryProvisioningStore.fenced (store : InMemoryProvisioningStore)
    (pointer existing : CredentialHandoffPointer) : Prop :=
  store.getCredentialHandoffPointer pointer.subscriptionId pointer.handoffId = some existing ∧
    DynamoProvisioningStore.sameFence pointer existing = true

/-- What a call passes agrees with what is stored. -/
def RecordCall.Faithful (store : InMemoryProvisioningStore) : RecordCall → Prop
  | .putOrder order expected =>
    ∀ existing, store.orders order.subscriptionId = some existing →
      expected = some existing.version → order.version = existing.version →
      leavesTerminal existing order = false
  | .beginCredentialHandoff pointer lease now expected =>
    store.activeLease lease now = true → mayBegin pointer lease expected = true →
      match store.credentialHandoffs pointer.handoffId with
      | none => expected = none → unpublished pointer = true
      | some existing =>
        let replaces := expected = some existing.publicationGeneration ∧ existing.state ≠ .revoked
        if existing.subscriptionId = pointer.subscriptionId then
          replaces → unpublished pointer = true
        else expected ≠ none ∧ (replaces → unpublished pointer = false)
  | .bindCredentialHandoff input publication =>
    store.activeLease input.lease input.now = true →
      ∀ existing, store.fenced input.pointer existing → existing.state = .pending →
      (existing.secretId = none ∨
        samePublication existing (input.pointer.withPublication publication) = true) →
      sameActivation existing input.pointer = true ∧ input.pointer.state = .pending
  | .publishCredentialHandoff input =>
    store.activeLease input.lease input.now = true → pointerHasPublication input.pointer = true →
      ∀ existing, store.fenced input.pointer existing → existing.state ≠ .revoked →
      samePublication existing input.pointer = true → sameActivation existing input.pointer = true
  | .revokeCredentialHandoff input =>
    store.activeLease input.lease input.now = true →
      ∀ existing, store.fenced input.pointer existing →
      sameActivation existing input.pointer = true ∧ samePublication existing input.pointer = true

/-- Every call agrees with what the in-memory store holds when it is made. -/
def AllFaithful : List RecordStep → InMemoryProvisioningStore → Prop
  | [], _ => True
  | step :: steps, store =>
    step.call.Faithful { store with executionLeases := step.leases } ∧
      AllFaithful steps (step.memory store).2

-- ---------------------------------------------------------------------------
-- One pointer write
-- ---------------------------------------------------------------------------

section
variable {store : InMemoryProvisioningStore} {table : DynamoProvisioningTable}

open DynamoProvisioningStore (ownedBy)

theorem activeLease_eq (hleases : store.executionLeases = table.leaseItems)
    (lease : JobExecutionLease) (now : Int) :
    (ownedBy lease (table.leaseItems lease.subscriptionId) &&
      (table.leaseItems lease.subscriptionId).all (·.expiresAt > now)) =
      store.activeLease lease now := by
  unfold InMemoryProvisioningStore.activeLease
  rw [hleases]
  cases table.leaseItems lease.subscriptionId with
  | none => rfl
  | some item =>
    have hlater : decide (now < item.expiresAt) = !decide (item.expiresAt ≤ now) := by
      simp only [← not_le, decide_not]
    simp [ownedBy, hlater]

theorem getCredentialHandoffPointer_setPointer (pointer : CredentialHandoffPointer)
    (subscriptionId handoffId : String) :
    (store.setPointer pointer).getCredentialHandoffPointer subscriptionId handoffId =
      if handoffId = pointer.handoffId then
        if pointer.subscriptionId = subscriptionId then some pointer else none
      else store.getCredentialHandoffPointer subscriptionId handoffId := by
  unfold InMemoryProvisioningStore.getCredentialHandoffPointer InMemoryProvisioningStore.setPointer
  by_cases hid : handoffId = pointer.handoffId
  · simp [hid, Option.filter]
  · simp [hid]

/-- Both stores write, and the pointer is the subscription's own. -/
theorem sameRecords_put (same : SameRecords store table)
    (pointer changed : CredentialHandoffPointer) (hid : changed.handoffId = pointer.handoffId)
    (hown : ∀ existing, store.credentialHandoffs pointer.handoffId = some existing →
      existing.subscriptionId = pointer.subscriptionId) :
    SameRecords (store.setPointer changed)
        { table with
          handoffItems :=
            Function.update table.handoffItems pointer.subscriptionId
              (Function.update (table.handoffItems pointer.subscriptionId) pointer.handoffId
                (some pointer)) } ↔
      changed = pointer := by
  constructor
  · intro h
    have hread := h.handoffs pointer.subscriptionId pointer.handoffId
    rw [getCredentialHandoffPointer_setPointer] at hread
    simp only [hid, Function.update_self, if_true] at hread
    split at hread
    · exact Option.some.inj hread
    · cases hread
  · rintro rfl
    refine ⟨same.orders, fun subscriptionId handoffId => ?_⟩
    rw [getCredentialHandoffPointer_setPointer]
    by_cases hsub : subscriptionId = changed.subscriptionId
    · subst hsub
      by_cases hid : handoffId = changed.handoffId
      · simp [hid]
      · simp [hid, same.handoffs]
    · have hother : table.handoffItems subscriptionId changed.handoffId = none := by
        rw [← same.handoffs, InMemoryProvisioningStore.getCredentialHandoffPointer]
        cases hstored : store.credentialHandoffs changed.handoffId with
        | none => rfl
        | some existing => simp [hown existing hstored, Ne.symm hsub]
      by_cases hid : handoffId = changed.handoffId
      · simp [hid, hsub, Ne.symm hsub, hother]
      · simp [hid, hsub, same.handoffs]

theorem changePointer_refused
    {change : Option CredentialHandoffPointer → Option CredentialHandoffPointer}
    (h : change (store.credentialHandoffs handoffId) = none) :
    store.changePointer lease now handoffId change = (.error RETRYABLE_CONFLICT, store) := by
  unfold InMemoryProvisioningStore.changePointer
  rw [h]
  exact ite_self _

variable (same : SameRecords store table) (hleases : store.executionLeases = table.leaseItems)
include same hleases

/-- The stores agree on a pointer write when they let the same pointer in. -/
theorem pointerWrite_agree {pointer : CredentialHandoffPointer}
    {change : Option CredentialHandoffPointer → Option CredentialHandoffPointer}
    {condition : Option CredentialHandoffPointer → Bool}
    (hid : ∀ changed, change (store.credentialHandoffs pointer.handoffId) = some changed →
      changed.handoffId = pointer.handoffId)
    (hown : ∀ existing, store.credentialHandoffs pointer.handoffId = some existing →
      change (some existing) ≠ none → condition (table.handoffItems pointer.subscriptionId
        pointer.handoffId) = true → existing.subscriptionId = pointer.subscriptionId) :
    Agree ((store.changePointer lease now pointer.handoffId change).map .pointer)
        ((table.onHandoffs (·.transactPointerPut pointer lease now condition)).map .pointer) ↔
      (store.activeLease lease now = true →
        change (store.credentialHandoffs pointer.handoffId) =
          if condition (store.getCredentialHandoffPointer pointer.subscriptionId
            pointer.handoffId) then some pointer else none) := by
  unfold InMemoryProvisioningStore.changePointer DynamoProvisioningTable.onHandoffs
    DynamoProvisioningStore.transactPointerPut
  dsimp only
  rw [activeLease_eq hleases, same.handoffs]
  cases hactive : store.activeLease lease now with
  | false => simpa [Outcome.map, Except.map, Except.isOk] using Agree.mk rfl same
  | true =>
    cases hallowed : condition (table.handoffItems pointer.subscriptionId pointer.handoffId) with
    | false =>
      cases hchange : change (store.credentialHandoffs pointer.handoffId) with
      | none => simpa [Outcome.map, Except.map, Except.isOk] using Agree.mk rfl same
      | some changed => exact iff_of_false (fun h => nomatch h.succeeds) (by simp)
    | true =>
      cases hchange : change (store.credentialHandoffs pointer.handoffId) with
      | none => exact iff_of_false (fun h => nomatch h.succeeds) (by simp)
      | some changed =>
        have hput := sameRecords_put same pointer changed (hid changed hchange)
          fun existing hstored => hown existing hstored (by simp [← hstored, hchange]) hallowed
        refine Iff.trans ⟨fun h => hput.mp h.records, fun h => ⟨rfl, hput.mpr h⟩⟩ ?_
        simp

-- ---------------------------------------------------------------------------
-- A call that changes the stored pointer
-- ---------------------------------------------------------------------------

/-- A pointer is stored under its handoff, with all of a publication or none. -/
structure KeptPointer (handoffId : String) (pointer : CredentialHandoffPointer) : Prop where
  handoffId : pointer.handoffId = handoffId
  publication : unpublished pointer = true ∨ pointerHasPublication pointer = true

omit same hleases in
theorem samePointerGeneration_eq (existing pointer : CredentialHandoffPointer)
    (hid : existing.handoffId = pointer.handoffId)
    (hsub : existing.subscriptionId = pointer.subscriptionId) :
    samePointerGeneration existing pointer =
      (DynamoProvisioningStore.sameFence pointer existing && sameActivation existing pointer) := by
  simp only [samePointerGeneration, DynamoProvisioningStore.sameFence, sameActivation, hid, hsub,
    beq_self_eq_true, Bool.true_and]
  ac_rfl

omit same hleases in
theorem samePointerGeneration_of_fenced {pointer existing : CredentialHandoffPointer}
    (hkept : ∀ handoffId existing, store.credentialHandoffs handoffId = some existing →
      KeptPointer handoffId existing)
    (h : store.fenced pointer existing) (hactivation : sameActivation existing pointer = true) :
    samePointerGeneration existing pointer = true := by
  obtain ⟨hread, hfence⟩ := h
  obtain ⟨hstored, hsub⟩ := Option.filter_eq_some_iff.mp hread
  rw [samePointerGeneration_eq existing pointer (hkept _ _ hstored).handoffId (beq_iff_eq.mp hsub),
    hfence, hactivation]
  rfl

omit same hleases in
/-- Pointers of one generation differ in their state and their publication. -/
theorem pointer_eq_iff {left right : CredentialHandoffPointer}
    (h : samePointerGeneration left right = true) :
    left = right ↔ left.state = right.state ∧ samePublication left right = true := by
  constructor
  · rintro rfl
    simp [samePublication]
  · cases left
    cases right
    simp_all [samePointerGeneration, samePublication]

omit same hleases in
theorem refuse_eq {refused allowed : Bool} {pointer : CredentialHandoffPointer}
    (h : refused = !allowed) :
    (if refused then none else some pointer) = if allowed then some pointer else none := by
  subst h
  cases allowed <;> rfl

/-- The in-memory store makes `result existing` of a pointer of the same
generation, the table puts `written` in place of one with the same fence. -/
theorem mutation_agree {pointer written : CredentialHandoffPointer}
    {change : Option CredentialHandoffPointer → Option CredentialHandoffPointer}
    {condition : Option CredentialHandoffPointer → Bool}
    (result : CredentialHandoffPointer → CredentialHandoffPointer)
    (allowed guard : CredentialHandoffPointer → Bool)
    (hkept : ∀ existing, store.credentialHandoffs pointer.handoffId = some existing →
      KeptPointer pointer.handoffId existing)
    (hwritten : written.handoffId = pointer.handoffId ∧
      written.subscriptionId = pointer.subscriptionId)
    (hresult : ∀ existing, (result existing).handoffId = existing.handoffId)
    (hnone : change none = none ∧ condition none = false)
    (hchange : ∀ existing, change (some existing) =
      if samePointerGeneration existing pointer && allowed existing then some (result existing)
      else none)
    (hcondition : ∀ existing, condition (some existing) =
      (DynamoProvisioningStore.sameFence pointer existing && guard existing))
    (himplies : ∀ existing, store.credentialHandoffs pointer.handoffId = some existing →
      allowed existing = true → guard existing = true) :
    Agree ((store.changePointer lease now pointer.handoffId change).map .pointer)
        ((table.onHandoffs (·.transactPointerPut written lease now condition)).map .pointer) ↔
      (store.activeLease lease now = true →
        ∀ existing, store.fenced pointer existing → guard existing = true →
          sameActivation existing pointer = true ∧ allowed existing = true ∧
            result existing = written) := by
  obtain ⟨hwrittenId, hwrittenSub⟩ := hwritten
  rw [← hwrittenId]
  refine (pointerWrite_agree same hleases ?_ ?_).trans (imp_congr_right fun _ => ?_)
  · intro changed h
    rw [hwrittenId] at h ⊢
    cases hstored : store.credentialHandoffs pointer.handoffId with
    | none => rw [hstored, hnone.1] at h; cases h
    | some existing =>
      rw [hstored, hchange] at h
      split at h
      · cases h
        exact (hresult existing).trans (hkept existing hstored).handoffId
      · cases h
  · intro existing hstored h _
    rw [hchange] at h
    split at h
    · rename_i hsame
      simp only [samePointerGeneration, Bool.and_eq_true, beq_iff_eq] at hsame
      exact hsame.1.1.1.1.1.2.trans hwrittenSub.symm
    · exact absurd rfl h
  rw [hwrittenId, hwrittenSub]
  unfold InMemoryProvisioningStore.fenced InMemoryProvisioningStore.getCredentialHandoffPointer
  cases hstored : store.credentialHandoffs pointer.handoffId with
  | none => simp [hnone]
  | some existing =>
    have hid := (hkept existing hstored).handoffId
    by_cases hsub : existing.subscriptionId = pointer.subscriptionId
    · have himplies := himplies existing hstored
      rw [hchange, samePointerGeneration_eq existing pointer hid hsub]
      simp only [Option.filter_some, hsub, beq_self_eq_true, if_true, Option.some.injEq, and_imp,
        forall_eq', hcondition]
      generalize DynamoProvisioningStore.sameFence pointer existing = fence
      generalize sameActivation existing pointer = activation
      revert himplies
      cases allowed existing <;> cases guard existing <;> cases fence <;> cases activation <;> simp
    · have hother : samePointerGeneration existing pointer = false := by
        simp [samePointerGeneration, hsub]
      have hunseen : Option.filter (·.subscriptionId == pointer.subscriptionId) (some existing) =
          none := by simp [hsub]
      simp [hchange, hother, hunseen, hnone.2]

-- ---------------------------------------------------------------------------
-- Each call
-- ---------------------------------------------------------------------------

omit hleases in
theorem sameRecords_setOrder (stored : OrderRecord) :
    SameRecords (store.setOrder stored)
      { table with
        orderItems := Function.update store.orders stored.subscriptionId (some stored) } :=
  ⟨rfl, same.handoffs⟩

omit hleases in
theorem putOrder_faithful (order : OrderRecord) (expected : Option Nat) :
    Agree (RecordCall.memory store (.putOrder order expected))
        (RecordCall.dynamo table (.putOrder order expected)) ↔
      RecordCall.Faithful store (.putOrder order expected) := by
  simp only [RecordCall.memory, RecordCall.dynamo, RecordCall.Faithful,
    InMemoryProvisioningStore.putOrder, DynamoProvisioningTable.putOrder]
  rw [← same.orders]
  cases expected with
  | none =>
    by_cases hversion : order.version = 0
    · cases hstored : store.orders order.subscriptionId with
      | none =>
        exact iff_of_true (by simpa [hversion] using ⟨rfl, sameRecords_setOrder same order⟩) (by simp)
      | some existing => exact iff_of_true (by simpa [hversion] using ⟨rfl, same⟩) (by simp)
    · cases hstored : store.orders order.subscriptionId with
      | none => exact iff_of_true (by simpa [hversion] using ⟨rfl, same⟩) (by simp)
      | some existing => exact iff_of_true (by simpa [hversion] using ⟨rfl, same⟩) (by simp)
  | some expected =>
    cases hstored : store.orders order.subscriptionId with
    | none =>
      by_cases hversion : order.version = expected
      · exact iff_of_true (by simpa [hversion] using ⟨rfl, same⟩) (by simp)
      · exact iff_of_true (by simpa [hversion] using ⟨rfl, same⟩) (by simp)
    | some existing =>
      by_cases hversion : order.version = expected
      · subst hversion
        by_cases hcurrent : existing.version = order.version
        · have hfold : (existing.billingState.terminal &&
              decide (order.billingState ≠ existing.billingState) &&
              !(existing.billingState == .canceled && order.billingState == .refunded)) =
              leavesTerminal existing order := rfl
          simp only [hfold]
          cases hleaves : leavesTerminal existing order with
          | false =>
            exact iff_of_true
              (by simpa [hcurrent] using
                ⟨rfl, sameRecords_setOrder same { order with version := order.version + 1 }⟩)
              (by simp [hleaves])
          | true =>
            refine iff_of_false (fun h => ?_) (by simp [hcurrent, hleaves])
            have hsucceeds := h.succeeds
            simp [hcurrent, Outcome.map, Except.map, Except.isOk, Except.toBool] at hsucceeds
        · exact iff_of_true (by simpa [hcurrent, Ne.symm hcurrent] using ⟨rfl, same⟩)
            (by simp [Ne.symm hcurrent])
      · refine iff_of_true (by simpa [hversion, Ne.symm hversion] using ⟨rfl, same⟩) ?_
        rintro _ - hexpected hcurrent
        exact absurd (hcurrent.trans (Option.some.inj hexpected).symm) hversion

omit same hleases in
/-- What may not begin is refused whatever is stored. -/
theorem beginCredentialHandoff_refused {pointer : CredentialHandoffPointer}
    {existing : Option CredentialHandoffPointer} (h : mayBegin pointer lease expected = false) :
    (if (!InMemoryProvisioningStore.validNew pointer expected existing &&
          !InMemoryProvisioningStore.validReplacement pointer expected existing) ||
        pointer.state ≠ .pending || pointer.subscriptionId ≠ lease.subscriptionId ||
        pointer.fencingToken ≠ lease.fencingToken || pointer.secretId.isSome ||
        pointer.publicationId.isSome || pointer.credentialId.isSome then
      none
    else some pointer) = none := by
  refine if_pos ?_
  by_contra hallowed
  simp only [Bool.or_eq_true, Bool.and_eq_true, Bool.not_eq_true', decide_eq_true_eq, not_or,
    ne_eq, not_not, Option.not_isSome_iff_eq_none, not_and, Bool.not_eq_false] at hallowed
  obtain ⟨⟨⟨⟨⟨⟨hfits, hstate⟩, hsub⟩, hfence⟩, -⟩, -⟩, -⟩ := hallowed
  have hgeneration : pointer.publicationGeneration = expected.elim 0 (· + 1) := by
    cases existing with
    | none =>
      cases expected with
      | none => simpa [InMemoryProvisioningStore.validNew,
          InMemoryProvisioningStore.validReplacement] using hfits
      | some expected => simp [InMemoryProvisioningStore.validNew,
          InMemoryProvisioningStore.validReplacement] at hfits
    | some existing =>
      have hreplaces := hfits rfl
      simp only [InMemoryProvisioningStore.validReplacement, Bool.and_eq_true, beq_iff_eq]
        at hreplaces
      rw [hreplaces.1.1]
      exact hreplaces.1.2
  simp [mayBegin, hstate, hsub, hfence, hgeneration] at h

section
variable (hkept : ∀ handoffId existing, store.credentialHandoffs handoffId = some existing →
  KeptPointer handoffId existing)

omit hkept in
theorem beginCredentialHandoff_faithful (pointer : CredentialHandoffPointer)
    (lease : JobExecutionLease) (now : Int) (expected : Option Nat) :
    Agree (RecordCall.memory store (.beginCredentialHandoff pointer lease now expected))
        (RecordCall.dynamo table (.beginCredentialHandoff pointer lease now expected)) ↔
      RecordCall.Faithful store (.beginCredentialHandoff pointer lease now expected) := by
  simp only [RecordCall.memory, RecordCall.dynamo, RecordCall.Faithful,
    InMemoryProvisioningStore.beginCredentialHandoff,
    DynamoProvisioningStore.beginCredentialHandoff]
  have hrefuse : (decide (pointer.state ≠ .pending) ||
      decide (pointer.subscriptionId ≠ lease.subscriptionId) ||
      decide (pointer.fencingToken ≠ lease.fencingToken) ||
      decide (pointer.publicationGeneration ≠ expected.elim 0 (· + 1))) =
      !mayBegin pointer lease expected := by
    simp only [mayBegin, Bool.not_and, ne_eq, decide_not, beq_eq_decide]
  simp only [hrefuse]
  cases hmay : mayBegin pointer lease expected with
  | false =>
    rw [changePointer_refused (beginCredentialHandoff_refused hmay)]
    exact iff_of_true ⟨rfl, same⟩ (by simp)
  | true =>
    simp only [mayBegin, Bool.and_eq_true, beq_iff_eq] at hmay
    obtain ⟨⟨⟨hstate, hsub⟩, hfence⟩, hgeneration⟩ := hmay
    simp only [hstate, ← hsub, ← hfence, ne_eq, not_true_eq_false, decide_false, Bool.or_false,
      Bool.not_true, Bool.false_eq_true, if_false, forall_const]
    refine Iff.trans (pointerWrite_agree same hleases ?_ ?_) (imp_congr_right fun _ => ?_)
    · intro changed h
      split at h
      · cases h
      · cases h
        rfl
    · intro existing hstored h hcondition
      by_contra hother
      rw [← same.handoffs, InMemoryProvisioningStore.getCredentialHandoffPointer, hstored,
        Option.filter_some, if_neg (by simpa using hother)] at hcondition
      cases expected with
      | none => simp [InMemoryProvisioningStore.validNew, InMemoryProvisioningStore.validReplacement] at h
      | some expected => simp at hcondition
    · unfold InMemoryProvisioningStore.getCredentialHandoffPointer
      cases hstored : store.credentialHandoffs pointer.handoffId with
      | none =>
        cases expected with
        | none =>
          simp [InMemoryProvisioningStore.validNew, InMemoryProvisioningStore.validReplacement,
            unpublished, hgeneration]
        | some expected =>
          simp [InMemoryProvisioningStore.validNew, InMemoryProvisioningStore.validReplacement]
      | some existing =>
        by_cases hown : existing.subscriptionId = pointer.subscriptionId
        · have hitem : Option.filter (·.subscriptionId == pointer.subscriptionId)
              (some existing) = some existing := by simp [hown]
          cases expected with
          | none =>
            simp [InMemoryProvisioningStore.validNew, InMemoryProvisioningStore.validReplacement,
              hown]
          | some expected =>
            simp only [hitem]
            by_cases hreplaces : expected = existing.publicationGeneration ∧
              existing.state ≠ .revoked
            · obtain ⟨hexpected, hlive⟩ := hreplaces
              simp [InMemoryProvisioningStore.validNew,
                InMemoryProvisioningStore.validReplacement, hown, hexpected, unpublished,
                hgeneration, hlive]
            · simp only [not_and, not_not] at hreplaces
              simp only [InMemoryProvisioningStore.validNew,
                InMemoryProvisioningStore.validReplacement]
              by_cases hexpected : expected = existing.publicationGeneration
              · simp [hown, hexpected, hreplaces hexpected]
              · simp [hown, hexpected, Ne.symm hexpected]
        · have hitem : Option.filter (·.subscriptionId == pointer.subscriptionId)
              (some existing) = none := by simp [hown]
          cases expected with
          | none =>
            simp [InMemoryProvisioningStore.validNew, InMemoryProvisioningStore.validReplacement,
              hown, hitem]
          | some expected =>
            by_cases hreplaces : expected = existing.publicationGeneration ∧
              existing.state ≠ .revoked
            · obtain ⟨hexpected, hlive⟩ := hreplaces
              simp [InMemoryProvisioningStore.validNew, InMemoryProvisioningStore.validReplacement,
                hown, hitem, hexpected, hlive, hgeneration, unpublished]
              cases pointer.credentialId <;> simp
            · simp only [not_and, not_not] at hreplaces
              simp only [InMemoryProvisioningStore.validNew,
                InMemoryProvisioningStore.validReplacement]
              by_cases hexpected : expected = existing.publicationGeneration
              · simp [hown, hitem, hexpected, hreplaces hexpected]
              · simp [hown, hitem, hexpected]

include hkept

theorem bindCredentialHandoff_faithful (input : CredentialHandoffMutationInput)
    (publication : CredentialSecretPublication) :
    Agree (RecordCall.memory store (.bindCredentialHandoff input publication))
        (RecordCall.dynamo table (.bindCredentialHandoff input publication)) ↔
      RecordCall.Faithful store (.bindCredentialHandoff input publication) := by
  unfold RecordCall.memory RecordCall.dynamo InMemoryProvisioningStore.bindCredentialHandoff
    DynamoProvisioningStore.bindCredentialHandoff
  refine Iff.trans (mutation_agree same hleases (·.withPublication publication)
    (fun existing => existing.state == .pending && (!pointerHasPublication existing ||
      samePublication existing (existing.withPublication publication)))
    (fun existing => existing.state == .pending && (existing.secretId.isNone ||
      samePublication existing (input.pointer.withPublication publication)))
    (hkept _) ⟨rfl, rfl⟩ (fun _ => rfl) ⟨rfl, rfl⟩ (fun existing => ?_) (fun existing => ?_)
    (fun existing hstored h => ?_)) ?_
  · refine refuse_eq ?_
    simp only [Bool.not_and, Bool.not_or, Bool.not_not, Bool.or_assoc, ne_eq, decide_not,
      beq_eq_decide]
    rfl
  · simp only [Bool.and_assoc]
    rfl
  · simp only [Bool.and_eq_true, Bool.or_eq_true] at h ⊢
    refine h.imp_right fun hpublication => ?_
    rcases (hkept _ _ hstored).publication with hnone | hpublished
    · simp only [unpublished, Bool.and_eq_true] at hnone
      exact .inl hnone.1.1
    · exact .inr (hpublication.resolve_left (by simp [hpublished]))
  refine imp_congr_right fun _ => forall_congr' fun existing => imp_congr_right fun hfenced => ?_
  simp only [Bool.and_eq_true, Bool.or_eq_true, beq_iff_eq, Option.isNone_iff_eq_none]
  constructor
  · intro h hstate hpublication
    obtain ⟨hactivation, -, hwritten⟩ := h ⟨hstate, hpublication⟩
    have hkeeps : existing.state = input.pointer.state := congrArg (·.state) hwritten
    exact ⟨hactivation, hkeeps ▸ hstate⟩
  · rintro h ⟨hstate, hpublication⟩
    obtain ⟨hactivation, hpending⟩ := h hstate hpublication
    have hbefore := samePointerGeneration_of_fenced hkept hfenced hactivation
    have hsame : samePointerGeneration (existing.withPublication publication)
        (input.pointer.withPublication publication) = true := hbefore
    refine ⟨hactivation, ⟨hstate, hpublication.imp_left fun hnone => ?_⟩, ?_⟩
    · simp [pointerHasPublication, hnone]
    · exact (pointer_eq_iff hsame).mpr ⟨hstate.trans hpending.symm,
        by simp [samePublication, CredentialHandoffPointer.withPublication]⟩

theorem publishCredentialHandoff_faithful (input : CredentialHandoffMutationInput) :
    Agree (RecordCall.memory store (.publishCredentialHandoff input))
        (RecordCall.dynamo table (.publishCredentialHandoff input)) ↔
      RecordCall.Faithful store (.publishCredentialHandoff input) := by
  simp only [RecordCall.memory, RecordCall.dynamo, RecordCall.Faithful,
    InMemoryProvisioningStore.publishCredentialHandoff,
    DynamoProvisioningStore.publishCredentialHandoff]
  cases hpublished : pointerHasPublication input.pointer with
  | false =>
    rw [changePointer_refused]
    · exact iff_of_true ⟨rfl, same⟩ (by simp)
    · cases store.credentialHandoffs input.pointer.handoffId with
      | none => rfl
      | some existing =>
        cases hpublication : samePublication existing input.pointer with
        | false => simp [hpublication]
        | true =>
          rw [← pointerHasPublication_eq hpublication] at hpublished
          simp [hpublished]
  | true =>
    simp only [Bool.not_true, Bool.false_eq_true, if_false, forall_const]
    refine Iff.trans (mutation_agree same hleases ({ · with state := .published })
      (fun existing => pointerHasPublication existing && samePublication existing input.pointer &&
        (existing.state == .pending || existing.state == .published))
      (fun existing => (existing.state == .pending || existing.state == .published) &&
        samePublication existing input.pointer)
      (hkept _) ⟨rfl, rfl⟩ (fun _ => rfl) ⟨rfl, rfl⟩ (fun existing => ?_) (fun existing => ?_)
      (fun existing hstored h => ?_)) ?_
    · refine refuse_eq ?_
      simp only [Bool.not_and, Bool.not_or, Bool.or_assoc, ne_eq, decide_not, beq_eq_decide]
    · simp only [Bool.and_assoc]
    · simp only [Bool.and_eq_true] at h ⊢
      exact ⟨h.2, h.1.2⟩
    refine imp_congr_right fun _ => forall_congr' fun existing => imp_congr_right fun hfenced => ?_
    have hlive : (existing.state == .pending || existing.state == .published) = true ↔
        existing.state ≠ .revoked := by
      cases existing.state <;> decide
    simp only [Bool.and_eq_true, hlive]
    constructor
    · intro h hstate hpublication
      exact (h ⟨hstate, hpublication⟩).1
    · rintro h ⟨hstate, hpublication⟩
      have hactivation := h hstate hpublication
      have hbefore := samePointerGeneration_of_fenced hkept hfenced hactivation
      have hsame : samePointerGeneration { existing with state := .published }
          { input.pointer with state := .published } = true := hbefore
      exact ⟨hactivation,
        ⟨⟨(pointerHasPublication_eq hpublication).trans hpublished, hpublication⟩, hstate⟩,
        (pointer_eq_iff hsame).mpr ⟨rfl, hpublication⟩⟩

theorem revokeCredentialHandoff_faithful (input : CredentialHandoffMutationInput) :
    Agree (RecordCall.memory store (.revokeCredentialHandoff input))
        (RecordCall.dynamo table (.revokeCredentialHandoff input)) ↔
      RecordCall.Faithful store (.revokeCredentialHandoff input) := by
  unfold RecordCall.memory RecordCall.dynamo InMemoryProvisioningStore.revokeCredentialHandoff
    DynamoProvisioningStore.revokeCredentialHandoff
  refine Iff.trans (mutation_agree same hleases ({ · with state := .revoked }) (fun _ => true)
    (fun _ => true) (hkept _) ⟨rfl, rfl⟩ (fun _ => rfl) ⟨rfl, rfl⟩ (fun existing => ?_)
    (fun existing => ?_) (fun _ _ h => h)) ?_
  · exact refuse_eq (by simp)
  · exact (Bool.and_true _).symm
  refine imp_congr_right fun _ => forall_congr' fun existing => imp_congr_right fun hfenced => ?_
  simp only [true_implies, true_and]
  refine and_congr_right fun hactivation => ?_
  have hbefore := samePointerGeneration_of_fenced hkept hfenced hactivation
  have hsame : samePointerGeneration { existing with state := .revoked }
      { input.pointer with state := .revoked } = true := hbefore
  exact (pointer_eq_iff hsame).trans (and_iff_right rfl)

theorem RecordCall.faithful_iff (call : RecordCall) :
    Agree (call.memory store) (call.dynamo table) ↔ call.Faithful store := by
  cases call with
  | putOrder order expected => exact putOrder_faithful same order expected
  | beginCredentialHandoff pointer lease now expected =>
    exact beginCredentialHandoff_faithful same hleases pointer lease now expected
  | bindCredentialHandoff input publication =>
    exact bindCredentialHandoff_faithful same hleases hkept input publication
  | publishCredentialHandoff input => exact publishCredentialHandoff_faithful same hleases hkept input
  | revokeCredentialHandoff input => exact revokeCredentialHandoff_faithful same hleases hkept input

end

end

-- ---------------------------------------------------------------------------
-- Every sequence of calls
-- ---------------------------------------------------------------------------

/-- Every pointer of the in-memory store is one that it lets in. -/
def PointersKept (store : InMemoryProvisioningStore) : Prop :=
  ∀ handoffId existing, store.credentialHandoffs handoffId = some existing →
    KeptPointer handoffId existing

theorem changePointer_kept {store : InMemoryProvisioningStore} (kept : PointersKept store)
    {change : Option CredentialHandoffPointer → Option CredentialHandoffPointer}
    (h : ∀ changed, change (store.credentialHandoffs handoffId) = some changed →
      KeptPointer handoffId changed) :
    PointersKept (store.changePointer lease now handoffId change).2 := by
  unfold InMemoryProvisioningStore.changePointer
  split
  · exact kept
  · split
    · exact kept
    · rename_i changed hchanged
      have hput := h changed hchanged
      intro other existing hstored
      simp only [InMemoryProvisioningStore.setPointer, hput.handoffId] at hstored
      by_cases hother : other = handoffId
      · rw [hother, Function.update_self] at hstored
        cases hstored
        exact hother ▸ hput
      · rw [Function.update_of_ne hother] at hstored
        exact kept other existing hstored

theorem RecordCall.memory_kept {store : InMemoryProvisioningStore} (kept : PointersKept store)
    (call : RecordCall) : PointersKept (call.memory store).2 := by
  cases call with
  | putOrder order expected =>
    have hsame : (store.putOrder order expected).2.credentialHandoffs = store.credentialHandoffs := by
      unfold InMemoryProvisioningStore.putOrder
      repeat' split
      all_goals rfl
    intro handoffId existing hstored
    exact kept handoffId existing (congrFun hsame handoffId ▸ hstored)
  | beginCredentialHandoff pointer lease now expected =>
    refine changePointer_kept kept fun changed h => ?_
    split at h
    · cases h
    · rename_i hallowed
      cases h
      refine ⟨rfl, .inl ?_⟩
      simp only [Bool.or_eq_true, not_or, Option.not_isSome_iff_eq_none] at hallowed
      obtain ⟨⟨⟨-, hsecret⟩, hpublication⟩, hcredential⟩ := hallowed
      simp [unpublished, hsecret, hpublication, hcredential]
  | bindCredentialHandoff input publication =>
    refine changePointer_kept kept fun changed h => ?_
    cases hstored : store.credentialHandoffs input.pointer.handoffId with
    | none => rw [hstored] at h; cases h
    | some existing =>
      rw [hstored] at h
      simp only at h
      split at h
      · cases h
      · cases h
        exact ⟨(kept _ _ hstored).handoffId, .inr rfl⟩
  | publishCredentialHandoff input =>
    refine changePointer_kept kept fun changed h => ?_
    cases hstored : store.credentialHandoffs input.pointer.handoffId with
    | none => rw [hstored] at h; cases h
    | some existing =>
      rw [hstored] at h
      simp only at h
      split at h
      · cases h
      · cases h
        have hbefore := kept _ _ hstored
        exact ⟨hbefore.handoffId, hbefore.publication⟩
  | revokeCredentialHandoff input =>
    refine changePointer_kept kept fun changed h => ?_
    cases hstored : store.credentialHandoffs input.pointer.handoffId with
    | none => rw [hstored] at h; cases h
    | some existing =>
      rw [hstored] at h
      simp only at h
      split at h
      · cases h
      · cases h
        have hbefore := kept _ _ hstored
        exact ⟨hbefore.handoffId, hbefore.publication⟩

theorem refines_iff_from {store : InMemoryProvisioningStore} {table : DynamoProvisioningTable}
    (steps : List RecordStep) (same : SameRecords store table) (kept : PointersKept store) :
    Refines steps store table ↔ AllFaithful steps store := by
  induction steps generalizing store table with
  | nil => exact Iff.rfl
  | cons step steps ih =>
    have same' : SameRecords { store with executionLeases := step.leases }
        { table with leaseItems := step.leases } := ⟨same.orders, same.handoffs⟩
    have kept' : PointersKept { store with executionLeases := step.leases } := kept
    have hstep := RecordCall.faithful_iff same' rfl kept' step.call
    have hkept : PointersKept (step.memory store).2 := RecordCall.memory_kept kept' step.call
    constructor
    · rintro ⟨hagree, hrest⟩
      exact ⟨hstep.mp hagree, (ih hagree.records hkept).mp hrest⟩
    · rintro ⟨hfaithful, hrest⟩
      have hagree := hstep.mpr hfaithful
      exact ⟨hagree, (ih hagree.records hkept).mpr hrest⟩

/-- The table does what the in-memory store does on exactly the sequences
whose calls agree with what is stored. -/
theorem refines_iff (steps : List RecordStep) :
    Refines steps .initial .initial ↔ AllFaithful steps .initial :=
  refines_iff_from steps ⟨rfl, fun _ _ => rfl⟩ fun _ _ h => absurd h.symm (Option.some_ne_none _)

namespace Sample

/-- A canceled order is stored, and put back as a paid one. -/
def canceledThenPaid : List RecordStep :=
  [⟨fun _ => none, .putOrder { paidOrder with version := 0, billingState := .canceled } none⟩,
    ⟨fun _ => none, .putOrder { paidOrder with version := 0 } (some 0)⟩]

end Sample

theorem canceledThenPaid_parts : ¬ Refines Sample.canceledThenPaid .initial .initial := by
  rintro ⟨-, ⟨hsucceeds, -⟩, -⟩
  exact absurd hsucceeds (by decide)

end EsigSuite.Provisioning
