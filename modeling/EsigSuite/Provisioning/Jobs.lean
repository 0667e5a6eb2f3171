import EsigSuite.Provisioning.MemoryStore

/-!
# The job state machine

The functions of `state-machine.ts` that take a provisioning job from one state
to the next.
-/

namespace EsigSuite.Provisioning

def INVALID_STATE : SafeProvisioningError := ⟨.INVALID_STATE, false⟩

/-- `assertRetryPolicy` does not throw. -/
def RetryPolicy.valid (policy : RetryPolicy) : Bool :=
  1 ≤ policy.maxAttempts && policy.maxAttempts < 2 ^ 53 && policy.baseDelayMs < 2 ^ 53 &&
    policy.maxDelayMs < 2 ^ 53 && policy.baseDelayMs ≤ policy.maxDelayMs

def createProvisioningJob (h : Hashing) (order : OrderRecord) (retryPolicy : RetryPolicy) :
    Except SafeProvisioningError ProvisioningJob := do
  if !retryPolicy.valid then throw INVALID_STATE
  if !isProvisionableOrder order then throw ⟨.INVALID_ORDER, false⟩
  let jobId ← deterministicJobId h order.subscriptionId
  let tenantId ← deterministicTenantId h order.subscriptionId (order.mode.getD .shared)
  pure
    { version := 0
      jobId
      subscriptionId := order.subscriptionId
      tenantId
      activationGeneration := 0
      state := .queued
      operation := .provisioning
      completedSteps := []
      compensatedSteps := []
      attempt := 0
      retryPolicy
      retryExhausted := false
      nextRetryAt := none
      lastErrorCode := none }

namespace ProvisioningJob

variable (job : ProvisioningJob)

/-- The attempt counters of a fresh attempt series. -/
def withoutAttempts : ProvisioningJob :=
  { job with attempt := 0, retryExhausted := false, nextRetryAt := none, lastErrorCode := none }

/-- A failed job may be tried again at `now`. -/
def retryDue (now : Int) : Bool := !job.retryExhausted && job.nextRetryAt.any (· ≤ now)

end ProvisioningJob

def startProvisioningAttempt (job : ProvisioningJob) (now : Int) :
    Except SafeProvisioningError ProvisioningJob :=
  if now < 0 then .error INVALID_STATE
  else if job.state = .running then .ok job
  else if job.state = .compensating ∧ job.attempt > 0 then .ok job
  else if job.state = .ready ∨ job.state = .disabled then .error INVALID_STATE
  else if job.state = .failed ∧ !job.retryDue now then .error INVALID_STATE
  else
    .ok { job with
      state := if job.operation = .provisioning then .running else .compensating
      attempt := job.attempt + 1
      retryExhausted := false
      nextRetryAt := none
      lastErrorCode := none }

def nextProvisioningStep (job : ProvisioningJob) : Option ProvisioningStep :=
  PROVISIONING_STEPS[job.completedSteps.length]?

def completeProvisioningStep (job : ProvisioningJob) (step : ProvisioningStep) :
    Except SafeProvisioningError ProvisioningJob :=
  if step ∈ job.completedSteps then .ok job
  else if job.state ≠ .running ∨ job.operation ≠ .provisioning ∨
      nextProvisioningStep job ≠ some step then
    .error ⟨.INVALID_STEP_ORDER, false⟩
  else
    let completedSteps := job.completedSteps ++ [step]
    .ok { job with
      completedSteps
      state := if completedSteps.length = PROVISIONING_STEPS.length then .ready else .running }

def retryDelayMs (job : ProvisioningJob) : Nat :=
  min job.retryPolicy.maxDelayMs (job.retryPolicy.baseDelayMs * 2 ^ min (job.attempt - 1) 30)

def failProvisioningAttempt (job : ProvisioningJob) (failure : SafeProvisioningError) (now : Int) :
    Except SafeProvisioningError ProvisioningJob :=
  if now < 0 ∨ (job.state ≠ .running ∧ job.state ≠ .compensating) ∨ job.attempt < 1 then
    .error INVALID_STATE
  else
    let canRetry := failure.retryable && decide (job.attempt < job.retryPolicy.maxAttempts)
    .ok { job with
      state := .failed
      lastErrorCode := some failure.code
      retryExhausted := !canRetry
      nextRetryAt := if canRetry then some (now + retryDelayMs job) else none }

/-- The steps up to the furthest of some observed ones. -/
def stepsThrough (observed : List ProvisioningStep) : List ProvisioningStep :=
  PROVISIONING_STEPS.take
    (observed.foldl (fun furthest step => max furthest (PROVISIONING_STEPS.idxOf step + 1)) 0)

def beginCompensation (job : ProvisioningJob) (observedResourceSteps : List ProvisioningStep)
    (operation : ProvisioningOperation) : ProvisioningJob :=
  let completedSteps := stepsThrough (job.completedSteps ++ observedResourceSteps)
  if job.operation = operation then
    if completedSteps.all (· ∈ job.completedSteps) then job
    else
      { job.withoutAttempts with
        completedSteps
        state := if completedSteps.all (· ∈ job.compensatedSteps) then .disabled else .compensating }
  else if completedSteps = [] then { job.withoutAttempts with state := .disabled, operation }
  else
    { job.withoutAttempts with
      state := .compensating
      operation
      completedSteps
      compensatedSteps := [] }

def nextCompensationStep (job : ProvisioningJob) : Option ProvisioningStep :=
  job.completedSteps.reverse.find? (· ∉ job.compensatedSteps)

def completeCompensationStep (job : ProvisioningJob) (step : ProvisioningStep) :
    Except SafeProvisioningError ProvisioningJob :=
  if step ∈ job.compensatedSteps then .ok job
  else if job.state ≠ .compensating ∨ job.operation = .provisioning ∨
      nextCompensationStep job ≠ some step then
    .error ⟨.INVALID_STEP_ORDER, false⟩
  else
    let compensatedSteps := job.compensatedSteps ++ [step]
    .ok { job with
      compensatedSteps
      state := if job.completedSteps.all (· ∈ compensatedSteps) then .disabled else .compensating }

/-- A distinct paid activation of the same tenant. -/
def resumeProvisioningJob (job : ProvisioningJob) : Except SafeProvisioningError ProvisioningJob :=
  if job.operation ≠ .suspension then .error INVALID_STATE
  else
    .ok { job.withoutAttempts with
      activationGeneration := job.activationGeneration + 1
      state := .queued
      operation := .provisioning
      completedSteps := []
      compensatedSteps := [] }

-- ---------------------------------------------------------------------------
-- What the transitions leave
-- ---------------------------------------------------------------------------

/-- The parts of a job that no step of an activation changes. -/
structure SameActivation (job next : ProvisioningJob) : Prop where
  version : next.version = job.version
  jobId : next.jobId = job.jobId
  subscriptionId : next.subscriptionId = job.subscriptionId
  tenantId : next.tenantId = job.tenantId
  activationGeneration : next.activationGeneration = job.activationGeneration

section
variable {job next : ProvisioningJob}

theorem SameActivation.refl (job : ProvisioningJob) : SameActivation job job :=
  ⟨rfl, rfl, rfl, rfl, rfl⟩

theorem beginCompensation_same (job : ProvisioningJob) (observed : List ProvisioningStep)
    (operation : ProvisioningOperation) :
    SameActivation job (beginCompensation job observed operation) := by
  unfold beginCompensation
  dsimp only
  split
  · split
    · exact .refl job
    · exact ⟨rfl, rfl, rfl, rfl, rfl⟩
  · split <;> exact ⟨rfl, rfl, rfl, rfl, rfl⟩

/-- An attempt goes on, or a new one begins. -/
theorem startProvisioningAttempt_cases (h : startProvisioningAttempt job now = .ok next) :
    (next = job ∧ (job.state = .running ∨ (job.state = .compensating ∧ job.attempt > 0))) ∨
      (job.state ≠ .running ∧ job.state ≠ .ready ∧ job.state ≠ .disabled ∧
        (job.state = .compensating → job.attempt = 0) ∧
        (job.state = .failed → job.retryDue now = true) ∧ next = { job with
          state := if job.operation = .provisioning then .running else .compensating
          attempt := job.attempt + 1
          retryExhausted := false
          nextRetryAt := none
          lastErrorCode := none }) := by
  unfold startProvisioningAttempt at h
  split at h
  · cases h
  split at h
  · rename_i hrunning
    cases h
    exact .inl ⟨rfl, .inl hrunning⟩
  rename_i hrunning
  split at h
  · rename_i hcompensating
    cases h
    exact .inl ⟨rfl, .inr hcompensating⟩
  rename_i hfresh
  split at h
  · cases h
  rename_i hdone
  split at h
  · cases h
  · rename_i hdue
    cases h
    obtain ⟨hready, hdisabled⟩ := not_or.mp hdone
    refine .inr ⟨hrunning, hready, hdisabled, fun hcompensating => ?_, fun hfailed => ?_, rfl⟩
    · exact Nat.eq_zero_of_not_pos fun htried => hfresh ⟨hcompensating, htried⟩
    · simpa [hfailed] using hdue

theorem startProvisioningAttempt_same (h : startProvisioningAttempt job now = .ok next) :
    SameActivation job next := by
  rcases startProvisioningAttempt_cases h with ⟨rfl, -⟩ | ⟨-, -, -, -, -, rfl⟩
  · exact .refl _
  · exact ⟨rfl, rfl, rfl, rfl, rfl⟩

theorem failProvisioningAttempt_ok (h : failProvisioningAttempt job error now = .ok next) :
    (job.state = .running ∨ job.state = .compensating) ∧ ∃ canRetry : Bool,
      (canRetry = true → job.attempt < job.retryPolicy.maxAttempts) ∧ next = { job with
        state := .failed
        lastErrorCode := some error.code
        retryExhausted := !canRetry
        nextRetryAt := if canRetry then some (now + retryDelayMs job) else none } := by
  unfold failProvisioningAttempt at h
  split at h
  · cases h
  · rename_i hvalid
    cases h
    simp only [not_or, not_and, not_not] at hvalid
    refine ⟨?_, _, by simp, rfl⟩
    by_cases hrunning : job.state = .running
    · exact .inl hrunning
    · exact .inr (hvalid.2.1 hrunning)

theorem failProvisioningAttempt_same (h : failProvisioningAttempt job error now = .ok next) :
    SameActivation job next := by
  obtain ⟨-, _, -, rfl⟩ := failProvisioningAttempt_ok h
  exact ⟨rfl, rfl, rfl, rfl, rfl⟩

/-- A step is done in its turn. -/
theorem completeProvisioningStep_cases (h : completeProvisioningStep job step = .ok next) :
    (next = job ∧ step ∈ job.completedSteps) ∨
      (job.state = .running ∧ job.operation = .provisioning ∧
        nextProvisioningStep job = some step ∧ next = { job with
          completedSteps := job.completedSteps ++ [step]
          state := if (job.completedSteps ++ [step]).length = PROVISIONING_STEPS.length then .ready
            else .running }) := by
  unfold completeProvisioningStep at h
  split at h
  · rename_i hdone
    cases h
    exact .inl ⟨rfl, hdone⟩
  split at h
  · cases h
  · rename_i hvalid
    cases h
    simp only [not_or, not_not] at hvalid
    exact .inr ⟨hvalid.1, hvalid.2.1, hvalid.2.2, rfl⟩

theorem completeProvisioningStep_same (h : completeProvisioningStep job step = .ok next) :
    SameActivation job next := by
  rcases completeProvisioningStep_cases h with ⟨rfl, -⟩ | ⟨-, -, -, rfl⟩
  · exact .refl _
  · exact ⟨rfl, rfl, rfl, rfl, rfl⟩

theorem completeCompensationStep_cases (h : completeCompensationStep job step = .ok next) :
    (next = job ∧ step ∈ job.compensatedSteps) ∨
      (job.state = .compensating ∧ job.operation ≠ .provisioning ∧
        nextCompensationStep job = some step ∧ next = { job with
          compensatedSteps := job.compensatedSteps ++ [step]
          state := if job.completedSteps.all (· ∈ job.compensatedSteps ++ [step]) then .disabled
            else .compensating }) := by
  unfold completeCompensationStep at h
  split at h
  · rename_i hdone
    cases h
    exact .inl ⟨rfl, hdone⟩
  split at h
  · cases h
  · rename_i hvalid
    cases h
    simp only [not_or, not_not] at hvalid
    exact .inr ⟨hvalid.1, hvalid.2.1, hvalid.2.2, rfl⟩

theorem completeCompensationStep_same (h : completeCompensationStep job step = .ok next) :
    SameActivation job next := by
  rcases completeCompensationStep_cases h with ⟨rfl, -⟩ | ⟨-, -, -, rfl⟩
  · exact .refl _
  · exact ⟨rfl, rfl, rfl, rfl, rfl⟩

/-- Only a suspension is resumed, as the next activation. -/
theorem resumeProvisioningJob_ok (h : resumeProvisioningJob job = .ok next) :
    job.operation = .suspension ∧ next = { job.withoutAttempts with
      activationGeneration := job.activationGeneration + 1
      state := .queued
      operation := .provisioning
      completedSteps := []
      compensatedSteps := [] } := by
  unfold resumeProvisioningJob at h
  split at h
  · cases h
  · rename_i hop
    cases h
    exact ⟨not_not.mp hop, rfl⟩

theorem createProvisioningJob_eq {hashing : Hashing} {order : OrderRecord} {policy : RetryPolicy}
    (h : createProvisioningJob hashing order policy = .ok job) :
    policy.valid = true ∧ isProvisionableOrder order = true ∧ ∃ jobId tenantId,
      deterministicJobId hashing order.subscriptionId = .ok jobId ∧
      deterministicTenantId hashing order.subscriptionId (order.mode.getD .shared) = .ok tenantId ∧
      job =
        { version := 0
          jobId
          subscriptionId := order.subscriptionId
          tenantId
          activationGeneration := 0
          state := .queued
          operation := .provisioning
          completedSteps := []
          compensatedSteps := []
          attempt := 0
          retryPolicy := policy
          retryExhausted := false
          nextRetryAt := none
          lastErrorCode := none } := by
  unfold createProvisioningJob at h
  cases hpolicy : policy.valid
  · simp only [hpolicy] at h
    cases h
  cases hprovisionable : isProvisionableOrder order
  · simp only [hpolicy, hprovisionable] at h
    cases h
  cases hjobId : deterministicJobId hashing order.subscriptionId with
  | error e => simp only [hpolicy, hprovisionable, hjobId] at h; cases h
  | ok jobId =>
    cases htenantId : deterministicTenantId hashing order.subscriptionId (order.mode.getD .shared) with
    | error e => simp only [hpolicy, hprovisionable, hjobId, htenantId] at h; cases h
    | ok tenantId =>
      simp only [hpolicy, hprovisionable, hjobId, htenantId] at h
      cases h
      exact ⟨rfl, rfl, jobId, tenantId, rfl, rfl, rfl⟩

theorem createProvisioningJob_ok {hashing : Hashing} {order : OrderRecord} {policy : RetryPolicy}
    (h : createProvisioningJob hashing order policy = .ok job) :
    isProvisionableOrder order = true ∧ job.version = 0 ∧
      deterministicJobId hashing order.subscriptionId = .ok job.jobId ∧
      deterministicTenantId hashing order.subscriptionId (order.mode.getD .shared) = .ok job.tenantId ∧
      job.subscriptionId = order.subscriptionId ∧ job.activationGeneration = 0 ∧
      job.state = .queued ∧ job.operation = .provisioning ∧ job.completedSteps = [] ∧
      job.compensatedSteps = [] := by
  obtain ⟨-, hprovisionable, _, _, hjobId, htenantId, rfl⟩ := createProvisioningJob_eq h
  exact ⟨hprovisionable, rfl, hjobId, htenantId, rfl, rfl, rfl, rfl, rfl, rfl⟩

/-- A job starts out untried, under a policy that allows an attempt. -/
theorem createProvisioningJob_policy {hashing : Hashing} {order : OrderRecord} {policy : RetryPolicy}
    (h : createProvisioningJob hashing order policy = .ok job) :
    1 ≤ job.retryPolicy.maxAttempts ∧ job.attempt = 0 := by
  obtain ⟨hpolicy, -, _, _, -, -, rfl⟩ := createProvisioningJob_eq h
  simp only [RetryPolicy.valid, Bool.and_eq_true, decide_eq_true_eq] at hpolicy
  exact ⟨hpolicy.1.1.1.1, rfl⟩

end

end EsigSuite.Provisioning
