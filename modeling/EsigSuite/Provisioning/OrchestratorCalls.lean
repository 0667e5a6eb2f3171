import EsigSuite.Provisioning.Orchestrator
import EsigSuite.Provisioning.StoreEffects

/-!
# Who calls what

Only the reduction of an event stores orders. All the rest of the orchestrator
makes other calls of the store, and what its driver and its handoff call.
-/

namespace EsigSuite.Provisioning

open Lib
open Lib.Calls (All)

variable {E : Outside} {rt : Runtime} {C : Op E → Prop}

/-- `C` has every call of the store that writes none but these tables. -/
def Admits (tables : List StoreTable) (C : Op E → Prop) : Prop :=
  ∀ op : Op E, op.inside = true → op.writes.all (tables.contains ·) = true → C op

theorem Admits.mono {tables tables' : List StoreTable} (hC : Admits tables' C)
    (h : tables.all (tables'.contains ·) = true) : Admits tables C := by
  intro op hinside hwrites
  refine hC op hinside ?_
  cases htable : op.writes with
  | none => rfl
  | some table =>
    rw [htable] at hwrites
    exact List.all_eq_true.mp h table (List.contains_iff_mem.mp hwrites)

/-- A call that writes at most one table. -/
theorem Admits.call {tables : List StoreTable} (hC : Admits tables C) (op : Op E)
    (hinside : op.inside = true)
    (h : op.writes.all (tables.contains ·) = true) : C op :=
  hC op hinside h

theorem clock_calls (hC : Admits [] C) : All C (clock : M E Int) :=
  .lift (.perform (hC.call _ rfl rfl))

theorem getOrder_calls (hC : Admits [] C) (subscriptionId : String) :
    All C (Store.getOrder subscriptionId : M E _) :=
  ask_calls (.perform (hC.call _ rfl rfl))

theorem getJob_calls (hC : Admits [] C) (subscriptionId : String) :
    All C (Store.getJob subscriptionId : M E _) :=
  ask_calls (.perform (hC.call _ rfl rfl))

theorem listResources_calls (hC : Admits [] C) (subscriptionId : String) :
    All C (Store.listResources subscriptionId : M E _) :=
  ask_calls (.perform (hC.call _ rfl rfl))

theorem getCredentialHandoffPointer_calls (hC : Admits [] C) (subscriptionId handoffId : String) :
    All C (Store.getCredentialHandoffPointer subscriptionId handoffId : M E _) :=
  ask_calls (.perform (hC.call _ rfl rfl))

theorem putJob_calls (hC : Admits [.jobs] C) (job : ProvisioningJob) (v : Option Nat) :
    All C (Store.putJob job v : M E _) :=
  ask_calls (.perform (hC.call _ rfl rfl))

theorem putResource_calls {resource : ResourceRecord} (h : C (.putResource resource)) :
    All C (Store.putResource resource : M E _) :=
  ask_calls (.perform h)

-- ---------------------------------------------------------------------------
-- Events
-- ---------------------------------------------------------------------------

theorem saveUpdatedJob_calls (hC : Admits [.jobs] C) (current next : ProvisioningJob) :
    All C (saveUpdatedJob current next : M E _) := by
  refine .bind (attempt_calls (putJob_calls hC _ _)) fun r => ?_
  match r with
  | .ok _ => trivial
  | .error _ => dsimp only; split <;> trivial

theorem transitionRounds_calls (hC : Admits [.jobs] C) (operation : ProvisioningOperation)
    (rounds : Nat) (current : ProvisioningJob) :
    All C (transitionRounds operation rounds current : M E _) := by
  induction rounds generalizing current with
  | zero => trivial
  | succ rounds ih =>
    refine .bind (listResources_calls (hC.mono rfl) _) fun resources => ?_
    dsimp only
    split
    · trivial
    refine .bind (attempt_calls (saveUpdatedJob_calls hC _ _)) fun r => ?_
    match r with
    | .ok _ => trivial
    | .error .jobVersionConflict =>
      refine .bind (getJob_calls (hC.mono rfl) _) fun latest => ?_
      match latest with
      | none => trivial
      | some latest => exact ih latest
    | .error (.failure _) => trivial
    | .error .executionLeaseLost => trivial

theorem transitionToCompensation_calls (hC : Admits [.jobs] C) (job : ProvisioningJob)
    (operation : ProvisioningOperation) :
    All C (transitionToCompensation job operation : M E _) :=
  transitionRounds_calls hC operation 3 job

theorem reconcileJob_calls (hC : Admits [.jobs] C) (event : OrderEvent) (order : OrderRecord)
    (retryPolicy : RetryPolicy) :
    All C (reconcileJob rt event order retryPolicy : M E _) := by
  refine .bind (getJob_calls (hC.mono rfl) _) fun existingJob => ?_
  split
  · match existingJob with
    | none => trivial
    | some job => exact .bind (transitionToCompensation_calls hC _ _) fun _ => trivial
  split
  · trivial
  match existingJob with
  | some job =>
    dsimp only [resumeJob]
    split
    · exact .bind (orThrow_calls _) fun _ => .bind (saveUpdatedJob_calls hC _ _) fun _ => trivial
    · trivial
  | none =>
    refine .bind (orThrow_calls _) fun job => .bind (attempt_calls (putJob_calls hC _ _)) fun r => ?_
    match r with
    | .ok _ => trivial
    | .error _ =>
      dsimp only
      split
      · trivial
      · refine .bind (getJob_calls (hC.mono rfl) _) fun concurrentJob => ?_
        cases concurrentJob <;> trivial

theorem reduceAttempts_calls (hC : Admits [] C)
    (hput : ∀ (event : OrderEvent) order v, C (.putOrder event order v)) (event : OrderEvent)
    (attempts : Nat) (current : Option OrderRecord) :
    All C (reduceAttempts rt event attempts current : M E _) := by
  induction attempts generalizing current with
  | zero => trivial
  | succ attempts ih =>
    refine .bind (orThrow_calls _) fun reduction => ?_
    split
    · trivial
    refine .bind (attempt_calls (ask_calls (.perform (hput _ _ _)))) fun r => ?_
    match r with
    | .ok _ => trivial
    | .error _ =>
      dsimp only
      split
      · trivial
      split
      · trivial
      · exact .bind (getOrder_calls (hC.mono rfl) _) fun _ => ih _

theorem processClaimedStripeEvent_calls (hC : Admits [.jobs] C)
    (hput : ∀ (event : OrderEvent) order v, C (.putOrder event order v))
    (event : NormalizedStripeEvent) (retryPolicy : RetryPolicy) :
    All C (processClaimedStripeEvent rt event retryPolicy : M E _) := by
  cases event with
  | ignored => trivial
  | accepted event =>
    refine .bind (.bind (getOrder_calls (hC.mono rfl) _) fun _ =>
      reduceAttempts_calls (hC.mono rfl) hput _ _ _) fun o => ?_
    cases o with
    | none => trivial
    | some order => exact reconcileJob_calls hC _ _ _

-- ---------------------------------------------------------------------------
-- Runs
-- ---------------------------------------------------------------------------

theorem assertOwned_calls (hC : Admits [.executionLeases] C)
    (input : LeasedRunProvisioningJobInput E) : All C (assertOwned input) := by
  refine .bind (clock_calls (hC.mono rfl)) fun now => .bind (attempt_calls ?_) fun r => ?_
  · exact ask_calls (.perform (hC.call _ rfl rfl))
  · cases r <;> trivial

theorem fence_calls (hC : Admits [.executionLeases] C) (input : LeasedRunProvisioningJobInput E) :
    All C (fence input) :=
  .bind (assertOwned_calls hC input) fun _ => clock_calls (hC.mono rfl)

theorem persistStepResources_calls {job : ProvisioningJob} {step : ProvisioningStep}
    {resources : List StepResourceInput}
    (hput : ∀ resource : ResourceRecord, resource.subscriptionId = job.subscriptionId →
      resource.step = step → (∃ input ∈ resources, resource.kind = input.kind ∧
        resource.opaqueId = input.opaqueId) → C (.putResource resource)) :
    All C (persistStepResources rt job step resources : M E _) := by
  refine .forM fun input hinput => ?_
  unfold persistStepResource
  split
  · trivial
  · exact .bind (orThrow_calls _) fun _ =>
      putResource_calls (hput _ rfl rfl ⟨input, hinput, rfl, rfl⟩)

/-- `C` has the calls that store a receipt. -/
def AdmitsReceipts (C : Op E → Prop) : Prop :=
  ∀ resource : ResourceRecord, resource.kind = CREDENTIAL_HANDOFF_KIND → C (.putResource resource)

theorem persistCredentialHandoffReceipt_calls (hreceipts : AdmitsReceipts C) (job : ProvisioningJob)
    (handoffId : String) : All C (persistCredentialHandoffReceipt rt job handoffId : M E _) :=
  .bind (orThrow_calls _) fun _ => putResource_calls (hreceipts _ rfl)

theorem publishCredentialHandoff_calls (hC : Admits [.credentialHandoffs] C)
    (input : CredentialHandoffMutationInput) :
    All C (Store.publishCredentialHandoff input : M E _) :=
  ask_calls (.perform (hC.call _ rfl rfl))

theorem completeHandoff_calls (hC : Admits [.executionLeases, .credentialHandoffs] C)
    (hreceipts : AdmitsReceipts C) (input : LeasedRunProvisioningJobInput E) (job : ProvisioningJob)
    (handoffId : String) (pointer : CredentialHandoffPointer) :
    All C (completeHandoff rt input job handoffId pointer) := by
  unfold completeHandoff
  split
  · refine .bind (fence_calls (hC.mono rfl) input) fun _ =>
      .bind (publishCredentialHandoff_calls (hC.mono rfl) _) fun _ => ?_
    exact .bind (persistCredentialHandoffReceipt_calls hreceipts _ _) fun _ => trivial
  · exact .bind (.pure _) fun _ =>
      .bind (persistCredentialHandoffReceipt_calls hreceipts _ _) fun _ => trivial

theorem beginHandoff_calls (hC : Admits [.executionLeases, .credentialHandoffs] C)
    (input : LeasedRunProvisioningJobInput E) (job : ProvisioningJob) (handoffId : String)
    (pointer : Option CredentialHandoffPointer) :
    All C (beginHandoff input job handoffId pointer) := by
  unfold beginHandoff
  split
  · trivial
  · refine .bind (fence_calls (hC.mono rfl) input) fun _ => .bind ?_ fun _ => trivial
    exact ask_calls (.perform (hC.call _ rfl rfl))

/-- A handoff that makes no other calls than `C`. -/
structure HandoffCalls (C : Op E → Prop) (handoff : OneTimeCredentialHandoff E) : Prop where
  createImmutable : ∀ input, All C (handoff.createImmutable input)
  verifyPublication : ∀ pointer, All C (handoff.verifyPublication pointer)

theorem prepareCredentialHandoff_calls (hC : Admits [.executionLeases, .credentialHandoffs] C)
    (hreceipts : AdmitsReceipts C) (input : LeasedRunProvisioningJobInput E)
    (hhandoff : ∀ handoff, input.credentialHandoff = some handoff → HandoffCalls C handoff)
    (job : ProvisioningJob) (step : ProvisioningStep) (handoffCompleted : Bool) :
    All C (prepareCredentialHandoff rt input job step handoffCompleted) := by
  unfold prepareCredentialHandoff
  split
  · trivial
  cases hsome : input.credentialHandoff with
  | none => trivial
  | some handoff =>
    refine .bind (orThrow_calls _) fun handoffId =>
      .bind (getCredentialHandoffPointer_calls (hC.mono rfl) _ _) fun pointer => ?_
    cases pointer with
    | none => exact beginHandoff_calls hC _ _ _ _
    | some pointer =>
      refine .bind (orThrow_calls _) fun matched => ?_
      split
      · trivial
      split
      · refine .bind ((hhandoff handoff hsome).verifyPublication _) fun verified => ?_
        split
        · exact completeHandoff_calls hC hreceipts _ _ _ _
        · exact beginHandoff_calls hC _ _ _ _
      · exact beginHandoff_calls hC _ _ _ _

theorem publishCredential_calls (hC : Admits [.executionLeases, .credentialHandoffs] C)
    (hreceipts : AdmitsReceipts C) (input : LeasedRunProvisioningJobInput E)
    {handoff : OneTimeCredentialHandoff E} (hhandoff : HandoffCalls C handoff)
    (job : ProvisioningJob) (pointer : CredentialHandoffPointer) (credential : OneTimeCredential) :
    All C (publishCredential rt input handoff job pointer credential) := by
  refine .bind (fence_calls (hC.mono rfl) input) fun _ =>
    .bind (ask_calls (.perform (hC.call _ rfl rfl))) fun _ =>
    .bind (hhandoff.createImmutable _) fun _ => ?_
  split
  · trivial
  · refine .bind (fence_calls (hC.mono rfl) input) fun _ => .bind ?_ fun _ =>
      persistCredentialHandoffReceipt_calls hreceipts _ _
    exact .map (publishCredentialHandoff_calls (hC.mono rfl) _)

theorem publishCredentialIfNeeded_calls (hC : Admits [.executionLeases, .credentialHandoffs] C)
    (hreceipts : AdmitsReceipts C) (input : LeasedRunProvisioningJobInput E)
    (hhandoff : ∀ handoff, input.credentialHandoff = some handoff → HandoffCalls C handoff)
    (job : ProvisioningJob) (step : ProvisioningStep) (prepared : PreparedCredentialHandoff)
    (result : StepExecutionResult) :
    All C (publishCredentialIfNeeded rt input job step prepared result) := by
  unfold publishCredentialIfNeeded
  split
  · trivial
  split
  · trivial
  split
  · split <;> trivial
  split
  · rename_i handoff pointer hsome _
    split
    · exact publishCredential_calls hC hreceipts input (hhandoff handoff hsome) _ _ _
    · trivial
  · trivial

theorem provisioningRound_calls
    (hC : Admits [.jobs, .executionLeases, .credentialHandoffs, .resources] C)
    (input : LeasedRunProvisioningJobInput E)
    (hdriver : ∀ stepInput, All C (input.driver.executeStep stepInput))
    (hhandoff : ∀ handoff, input.credentialHandoff = some handoff → HandoffCalls C handoff)
    (order : OrderRecord) (job : ProvisioningJob) :
    All C (provisioningRound rt input order job) := by
  have hreceipts : AdmitsReceipts C := fun _ _ => hC.call _ rfl rfl
  have howned := assertOwned_calls (hC.mono rfl) input
  refine .bind howned fun _ => ?_
  split
  · trivial
  rename_i step _
  refine .map (.bind (listResources_calls (hC.mono rfl) _) fun resources =>
    .bind (orThrow_calls _) fun completed => ?_)
  split
  · trivial
  refine .bind (prepareCredentialHandoff_calls (hC.mono rfl) hreceipts input hhandoff _ _ _)
    fun prepared => .bind (hdriver _) fun result => .bind howned fun _ => ?_
  refine .bind (persistStepResources_calls fun _ _ _ _ => hC.call _ rfl rfl) fun _ =>
    .bind (publishCredentialIfNeeded_calls (hC.mono rfl) hreceipts input hhandoff _ _ _ _) fun _ => ?_
  exact .bind howned fun _ => .bind (orThrow_calls _) fun _ => saveUpdatedJob_calls (hC.mono rfl) _ _

theorem revokePointer_calls (hC : Admits [.executionLeases, .credentialHandoffs] C)
    (input : LeasedRunProvisioningJobInput E) (job : ProvisioningJob) :
    All C (revokePointer rt input job) := by
  refine .bind (orThrow_calls _) fun handoffId =>
    .bind (getCredentialHandoffPointer_calls (hC.mono rfl) _ _) fun pointer => ?_
  cases pointer with
  | none => trivial
  | some pointer =>
    dsimp only
    split
    · trivial
    refine .bind (orThrow_calls _) fun matched => ?_
    split
    · trivial
    · exact .bind (fence_calls (hC.mono rfl) input) fun _ =>
        .map (ask_calls (.perform (hC.call _ rfl rfl)))

theorem applyCompensationDispositions_calls {resources : List ResourceRecord}
    {dispositions : List ResourceDisposition}
    (hput : ∀ resource ∈ resources, ∀ status,
      C (.putResource { resource with retention := .mutable status })) :
    All C (applyCompensationDispositions resources dispositions : M E _) := by
  unfold applyCompensationDispositions
  split
  · trivial
  split
  · trivial
  refine .forM fun resource hresource => ?_
  unfold applyDisposition
  split
  · trivial
  split
  · trivial
  split
  · trivial
  · exact putResource_calls (hput resource hresource _)

end EsigSuite.Provisioning
