import EsigSuite.Provisioning.Jobs
import EsigSuite.Provisioning.SampleRuntime
import Mathlib.Data.List.Basic

/-!
# The jobs the state machine reaches

`jobs_wellFormed`: whatever transitions are made in whatever order, a job's
completed steps are a leading part of the step order, its compensated steps
are among them, and its state says what they say.
-/

namespace EsigSuite.Provisioning

-- ---------------------------------------------------------------------------
-- Transitions
-- ---------------------------------------------------------------------------

/-- `"suspension" | "compensation"`. -/
abbrev CompensatingOperation := { operation : ProvisioningOperation // operation ≠ .provisioning }

inductive JobTransition
  | startProvisioningAttempt (now : Int)
  | completeProvisioningStep (step : ProvisioningStep)
  | failProvisioningAttempt (failure : SafeProvisioningError) (now : Int)
  | beginCompensation (observedResourceSteps : List ProvisioningStep)
      (operation : CompensatingOperation)
  | completeCompensationStep (step : ProvisioningStep)
  | resumeProvisioningJob
  /-- A store keeps the job under its next version. -/
  | saved (version : Nat)

def JobTransition.apply (job : ProvisioningJob) :
    JobTransition → Except SafeProvisioningError ProvisioningJob
  | .startProvisioningAttempt now => EsigSuite.Provisioning.startProvisioningAttempt job now
  | .completeProvisioningStep step => EsigSuite.Provisioning.completeProvisioningStep job step
  | .failProvisioningAttempt failure now =>
    EsigSuite.Provisioning.failProvisioningAttempt job failure now
  | .beginCompensation observed operation =>
    .ok (EsigSuite.Provisioning.beginCompensation job observed operation)
  | .completeCompensationStep step => EsigSuite.Provisioning.completeCompensationStep job step
  | .resumeProvisioningJob => EsigSuite.Provisioning.resumeProvisioningJob job
  | .saved version => .ok { job with version }

/-- The jobs some sequence of transitions leads to. -/
inductive ReachableJob (hashing : Hashing) : ProvisioningJob → Prop
  | created : createProvisioningJob hashing order policy = .ok job → ReachableJob hashing job
  | changed : ReachableJob hashing job → JobTransition.apply job transition = .ok next →
      ReachableJob hashing next

-- ---------------------------------------------------------------------------
-- The invariant
-- ---------------------------------------------------------------------------

structure WellFormedJob (job : ProvisioningJob) : Prop where
  completed : job.completedSteps <+: PROVISIONING_STEPS
  nodup : job.compensatedSteps.Nodup
  compensated : job.compensatedSteps ⊆ job.completedSteps
  ready : job.state = .ready → job.completedSteps = PROVISIONING_STEPS
  disabled : job.state = .disabled → job.completedSteps ⊆ job.compensatedSteps
  attempts : job.attempt ≤ job.retryPolicy.maxAttempts
  exhausted : job.state = .failed → (job.retryExhausted = true ↔ job.nextRetryAt = none)

/-- What lets every transition leave a well formed job. -/
structure JobInvariant (job : ProvisioningJob) : Prop extends WellFormedJob job where
  policy : 1 ≤ job.retryPolicy.maxAttempts
  untried : job.state = .queued → job.attempt = 0
  due : job.state = .failed → job.nextRetryAt.isSome → job.attempt < job.retryPolicy.maxAttempts
  forward : job.operation = .provisioning → job.compensatedSteps = []

-- ---------------------------------------------------------------------------
-- Steps in their order
-- ---------------------------------------------------------------------------

theorem le_furthest (observed : List ProvisioningStep) (furthest : Nat) :
    furthest ≤ observed.foldl
      (fun furthest step => max furthest (PROVISIONING_STEPS.idxOf step + 1)) furthest := by
  induction observed generalizing furthest with
  | nil => exact Nat.le_refl _
  | cons step observed ih => exact Nat.le_trans (Nat.le_max_left _ _) (ih _)

theorem idxOf_lt_furthest {step : ProvisioningStep} {observed : List ProvisioningStep}
    (h : step ∈ observed) (furthest : Nat) :
    PROVISIONING_STEPS.idxOf step < observed.foldl
      (fun furthest step => max furthest (PROVISIONING_STEPS.idxOf step + 1)) furthest := by
  induction observed generalizing furthest with
  | nil => simp at h
  | cons other observed ih =>
    obtain rfl | h := List.mem_cons.mp h
    · exact Nat.lt_of_lt_of_le (Nat.le_max_right _ _) (le_furthest observed _)
    · exact ih h _

theorem mem_PROVISIONING_STEPS (step : ProvisioningStep) : step ∈ PROVISIONING_STEPS := by
  cases step <;> simp [PROVISIONING_STEPS]

theorem stepsThrough_initial (observed : List ProvisioningStep) :
    stepsThrough observed <+: PROVISIONING_STEPS :=
  List.take_prefix _ _

/-- No observed step is left out. -/
theorem subset_stepsThrough (observed : List ProvisioningStep) :
    observed ⊆ stepsThrough observed := by
  intro step h
  exact (List.mem_take_iff_idxOf_lt (mem_PROVISIONING_STEPS step)).mpr (idxOf_lt_furthest h 0)

theorem subset_stepsThrough_append (completed observed : List ProvisioningStep) :
    completed ⊆ stepsThrough (completed ++ observed) :=
  fun _ h => subset_stepsThrough _ (List.mem_append_left _ h)

theorem append_next_initial {job : ProvisioningJob} (h : job.completedSteps <+: PROVISIONING_STEPS)
    (hnext : nextProvisioningStep job = some step) :
    job.completedSteps ++ [step] <+: PROVISIONING_STEPS := by
  obtain ⟨rest, hrest⟩ := h
  have hhead : rest[0]? = some step := by
    rw [nextProvisioningStep, ← hrest, List.getElem?_append_right (Nat.le_refl _)] at hnext
    simpa using hnext
  obtain ⟨_, rest, rfl⟩ : ∃ head tail, rest = head :: tail := by
    cases rest with
    | nil => simp at hhead
    | cons head tail => exact ⟨head, tail, rfl⟩
  obtain rfl : _ = step := by simpa using hhead
  exact ⟨rest, by simpa using hrest⟩

theorem ite_ne {p : Prop} [Decidable p] {x y z : ProvisioningState} (hx : x ≠ z) (hy : y ≠ z) :
    (if p then x else y) ≠ z := by
  split <;> assumption

theorem nextCompensationStep_some {job : ProvisioningJob}
    (h : nextCompensationStep job = some step) :
    step ∈ job.completedSteps ∧ step ∉ job.compensatedSteps :=
  ⟨by simpa using List.mem_of_find?_eq_some h, by simpa using List.find?_some h⟩

-- ---------------------------------------------------------------------------
-- Each transition
-- ---------------------------------------------------------------------------

theorem createProvisioningJob_invariant
    (h : createProvisioningJob hashing order policy = .ok job) : JobInvariant job := by
  obtain ⟨-, -, -, -, -, -, hstate, hoperation, hcompleted, hcompensated⟩ :=
    createProvisioningJob_ok h
  obtain ⟨hpolicy, hattempt⟩ := createProvisioningJob_policy h
  exact
    { completed := by simp [hcompleted]
      nodup := by simp [hcompensated]
      compensated := by simp [hcompensated]
      ready := by simp [hstate]
      disabled := by simp [hstate]
      attempts := by simp [hattempt]
      exhausted := by simp [hstate]
      policy := hpolicy
      untried := fun _ => hattempt
      due := by simp [hstate]
      forward := fun _ => hcompensated }

section
variable {job next : ProvisioningJob} (inv : JobInvariant job)
include inv

theorem startProvisioningAttempt_invariant (h : startProvisioningAttempt job now = .ok next) :
    JobInvariant next := by
  obtain ⟨rfl, -⟩ | ⟨hrunning, hready, hdisabled, hcompensating, hfailed, rfl⟩ :=
    startProvisioningAttempt_cases h
  · exact inv
  have hattempt : job.attempt < job.retryPolicy.maxAttempts := by
    cases hstate : job.state with
    | queued => exact inv.untried hstate ▸ inv.policy
    | running => exact absurd hstate hrunning
    | ready => exact absurd hstate hready
    | failed =>
      have hdue := hfailed hstate
      simp only [ProvisioningJob.retryDue, Bool.and_eq_true, Option.any_eq_true] at hdue
      obtain ⟨-, _, hsome, -⟩ := hdue
      exact inv.due hstate (by simp [hsome])
    | compensating => exact hcompensating hstate ▸ inv.policy
    | disabled => exact absurd hstate hdisabled
  exact
    { inv with
      ready := fun hready => absurd hready (ite_ne (by decide) (by decide))
      disabled := fun hdone => absurd hdone (ite_ne (by decide) (by decide))
      attempts := hattempt
      exhausted := fun hfailed => absurd hfailed (ite_ne (by decide) (by decide))
      untried := fun hqueued => absurd hqueued (ite_ne (by decide) (by decide))
      due := fun hfailed => absurd hfailed (ite_ne (by decide) (by decide)) }

theorem completeProvisioningStep_invariant (h : completeProvisioningStep job step = .ok next) :
    JobInvariant next := by
  obtain ⟨rfl, -⟩ | ⟨hrunning, hoperation, hnext, rfl⟩ := completeProvisioningStep_cases h
  · exact inv
  have hcompleted := append_next_initial inv.completed hnext
  exact
    { inv with
      completed := hcompleted
      compensated := List.subset_append_of_subset_left _ inv.compensated
      ready := fun hready => hcompleted.eq_of_length (by simpa using hready)
      disabled := fun hdisabled => absurd hdisabled (ite_ne (by decide) (by decide))
      exhausted := fun hfailed => absurd hfailed (ite_ne (by decide) (by decide))
      untried := fun hqueued => absurd hqueued (ite_ne (by decide) (by decide))
      due := fun hfailed => absurd hfailed (ite_ne (by decide) (by decide)) }

theorem failProvisioningAttempt_invariant {failure : SafeProvisioningError}
    (h : failProvisioningAttempt job failure now = .ok next) : JobInvariant next := by
  obtain ⟨-, canRetry, hattempt, rfl⟩ := failProvisioningAttempt_ok h
  exact
    { inv with
      ready := by simp
      disabled := by simp
      exhausted := fun _ => by cases canRetry <;> simp
      untried := by simp
      due := fun _ hdue => hattempt (by cases canRetry <;> simp at hdue ⊢) }

theorem beginCompensation_invariant (observed : List ProvisioningStep)
    (operation : CompensatingOperation) :
    JobInvariant (beginCompensation job observed operation) := by
  have hkept := subset_stepsThrough_append job.completedSteps observed
  unfold beginCompensation
  dsimp only
  split
  · split
    · exact inv
    rename_i hoperation _
    exact
      { inv with
        completed := stepsThrough_initial _
        compensated := fun _ h => hkept (inv.compensated h)
        ready := fun hready => absurd hready (ite_ne (by decide) (by decide))
        disabled := fun hdisabled => by
          dsimp only at hdisabled
          split at hdisabled
          · rename_i hall
            exact fun step h => decide_eq_true_iff.mp (List.all_eq_true.mp hall step h)
          · simp at hdisabled
        attempts := Nat.zero_le _
        exhausted := fun hfailed => absurd hfailed (ite_ne (by decide) (by decide))
        untried := fun _ => rfl
        due := fun hfailed => absurd hfailed (ite_ne (by decide) (by decide))
        forward := fun hforward => absurd (hoperation ▸ hforward) operation.2 }
  · split
    · rename_i hnone
      have hcompleted : job.completedSteps = [] := List.subset_nil.mp (hnone ▸ hkept)
      exact
        { inv with
          ready := by simp
          disabled := fun _ => by simp [ProvisioningJob.withoutAttempts, hcompleted]
          attempts := Nat.zero_le _
          exhausted := by simp
          untried := by simp
          due := by simp
          forward := fun hforward => absurd hforward operation.2 }
    · exact
        { inv with
          completed := stepsThrough_initial _
          nodup := List.nodup_nil
          compensated := List.nil_subset _
          ready := by simp
          disabled := by simp
          attempts := Nat.zero_le _
          exhausted := by simp
          untried := by simp
          due := by simp
          forward := fun hforward => absurd hforward operation.2 }

theorem completeCompensationStep_invariant (h : completeCompensationStep job step = .ok next) :
    JobInvariant next := by
  obtain ⟨rfl, -⟩ | ⟨hstate, hoperation, hnext, rfl⟩ := completeCompensationStep_cases h
  · exact inv
  obtain ⟨hcompleted, hfresh⟩ := nextCompensationStep_some hnext
  exact
    { inv with
      nodup := inv.nodup.append (List.nodup_singleton step) (by simpa using hfresh)
      compensated := List.append_subset.mpr ⟨inv.compensated, by simpa using hcompleted⟩
      ready := fun hready => absurd hready (ite_ne (by decide) (by decide))
      disabled := fun hdisabled => by
        dsimp only at hdisabled
        split at hdisabled
        · rename_i hall
          exact fun step h => by simpa using List.all_eq_true.mp hall step h
        · simp at hdisabled
      exhausted := fun hfailed => absurd hfailed (ite_ne (by decide) (by decide))
      untried := fun hqueued => absurd hqueued (ite_ne (by decide) (by decide))
      due := fun hfailed => absurd hfailed (ite_ne (by decide) (by decide))
      forward := fun hforward => absurd hforward hoperation }

theorem resumeProvisioningJob_invariant (h : resumeProvisioningJob job = .ok next) :
    JobInvariant next := by
  obtain ⟨-, rfl⟩ := resumeProvisioningJob_ok h
  exact
    { inv with
      completed := List.nil_prefix
      nodup := List.nodup_nil
      compensated := List.nil_subset _
      ready := by simp
      disabled := by simp
      attempts := Nat.zero_le _
      exhausted := by simp
      untried := fun _ => rfl
      due := by simp
      forward := fun _ => rfl }

theorem JobTransition.apply_invariant {transition : JobTransition}
    (h : transition.apply job = .ok next) : JobInvariant next := by
  cases transition with
  | startProvisioningAttempt now => exact startProvisioningAttempt_invariant inv h
  | completeProvisioningStep step => exact completeProvisioningStep_invariant inv h
  | failProvisioningAttempt failure now => exact failProvisioningAttempt_invariant inv h
  | beginCompensation observed operation =>
    cases h
    exact beginCompensation_invariant inv observed operation
  | completeCompensationStep step => exact completeCompensationStep_invariant inv h
  | resumeProvisioningJob => exact resumeProvisioningJob_invariant inv h
  | saved version =>
    cases h
    exact { inv with }

end

-- ---------------------------------------------------------------------------
-- Every sequence of transitions
-- ---------------------------------------------------------------------------

theorem ReachableJob.run {transitions : List JobTransition} (h : ReachableJob hashing job)
    (hrun : transitions.foldlM JobTransition.apply job = .ok next) :
    ReachableJob hashing next := by
  induction transitions generalizing job with
  | nil => cases hrun; exact h
  | cons transition transitions ih =>
    simp only [List.foldlM_cons] at hrun
    cases hstep : transition.apply job with
    | error e => simp [hstep, bind, Except.bind] at hrun
    | ok changed => exact ih (.changed h hstep) (by simpa [hstep, bind, Except.bind] using hrun)

theorem ReachableJob.invariant (h : ReachableJob hashing job) : JobInvariant job := by
  induction h with
  | created h => exact createProvisioningJob_invariant h
  | changed _ h ih => exact JobTransition.apply_invariant ih h

theorem jobs_wellFormed (hashing : Hashing) (job : ProvisioningJob)
    (h : ReachableJob hashing job) : WellFormedJob job :=
  h.invariant.toWellFormedJob

namespace Sample

def paidOrder : OrderRecord where
  version := 1
  customerId := some "cus_1"
  ownerSubject := some "owner_1"
  mode := some .shared
  plan := some .starter
  subscriptionId := "sub_1"
  billingState := .active
  latestEventCreatedAt := 100
  latestEventId := "evt_1"
  stateCursor := ⟨100, 2, "evt_1"⟩

end Sample

/-- A first step done, a failure, a retry, and a refund. -/
def Sample.refundedEarly : List JobTransition :=
  [.startProvisioningAttempt 0, .completeProvisioningStep .resolve_tenant,
    .failProvisioningAttempt ⟨.PROVIDER_TIMEOUT, true⟩ 10, .startProvisioningAttempt 20,
    .beginCompensation [] ⟨.compensation, by decide⟩]

theorem jobs_wellFormed_sample : ∃ job, ReachableJob Sample.hashing job ∧
    job.state = .compensating ∧ job.completedSteps = [.resolve_tenant] ∧ WellFormedJob job := by
  obtain ⟨created, hcreated⟩ : ∃ job,
      createProvisioningJob Sample.hashing Sample.paidOrder ⟨2, 1, 1⟩ = .ok job :=
    ⟨_, rfl⟩
  obtain ⟨-, -, _, _, -, -, rfl⟩ := createProvisioningJob_eq hcreated
  have hreachable := (ReachableJob.created hcreated).run
    (rfl : Sample.refundedEarly.foldlM JobTransition.apply _ = .ok _)
  exact ⟨_, hreachable, rfl, rfl, jobs_wellFormed Sample.hashing _ hreachable⟩

end EsigSuite.Provisioning
