import EsigSuite.Provisioning.OrchestratorCalls

/-!
# A rule for runs

What has to be shown of the steps of a worker to know what its whole run keeps.
`Base` holds throughout, `I` of an order once it was read, and `J` of a job once
it was read or stored. All three last, whatever the worker and the others do.
-/

namespace EsigSuite.Provisioning

open Lib
open Lib.Protocol (Triple)

variable {E : Outside} {σ : Type} {rt : Runtime}

-- ---------------------------------------------------------------------------
-- Jobs
-- ---------------------------------------------------------------------------

theorem saveUpdatedJob_triple {p : Protocol (Op E) Op.Res σ} {P R : σ → Prop}
    {Q : ProvisioningJob → σ → Prop} {current next : ProvisioningJob}
    (hput : p.Triple (Store.putJob next (some current.version) : M E _) P Q fun _ => R) :
    p.Triple (saveUpdatedJob current next : M E _) P Q fun _ => R := by
  refine Triple.bind (attempt_triple hput) fun r => ?_
  match r with
  | .ok _ => exact .pure fun _ _ hs => hs
  | .error _ =>
    dsimp only
    split <;> exact .throw fun _ _ hs => hs

/-- What the reads and writes of the job of a subscription keep. `J` holds of the
job once it was read or stored, and `R` of the resources that were listed. -/
structure JobRule (p : Protocol (Op E) Op.Res σ) (id : String) (Base : σ → Prop)
    (J : ProvisioningJob → σ → Prop) (R : List ResourceRecord → σ → Prop) : Prop where
  kept : ∀ job, p.Kept (J job)
  keyed : ∀ job s, J job s → job.subscriptionId = id
  read : p.Triple (Store.getJob id : M E _) Base
    (fun j s => Base s ∧ ∀ job, j = some job → J job s) fun _ => Base
  list : p.Triple (Store.listResources id : M E _) Base (fun rs s => Base s ∧ R rs s)
    fun _ => Base
  compensate : ∀ job resources operation, operation ≠ .provisioning →
    compensationOf job resources operation ≠ job →
    p.Triple (Store.putJob (compensationOf job resources operation) (some job.version) : M E _)
      (fun s => Base s ∧ J job s ∧ R resources s) (fun job s => Base s ∧ J job s) fun _ => Base

theorem JobRule.transition {p : Protocol (Op E) Op.Res σ} {id : String} {Base : σ → Prop}
    {J : ProvisioningJob → σ → Prop} {R : List ResourceRecord → σ → Prop} (h : JobRule p id Base J R)
    (job : ProvisioningJob) {operation : ProvisioningOperation} (hop : operation ≠ .provisioning) :
    p.Triple (transitionToCompensation job operation : M E _) (fun s => Base s ∧ J job s)
      (fun job s => Base s ∧ J job s) fun _ => Base := by
  suffices hrounds : ∀ rounds job, p.Triple (transitionRounds operation rounds job : M E _)
      (fun s => Base s ∧ J job s) (fun job s => Base s ∧ J job s) fun _ => Base from hrounds 3 job
  intro rounds
  induction rounds with
  | zero => exact fun job => fail_triple fun _ _ hs => hs.1
  | succ rounds ih =>
    intro job
    refine Triple.know (fun s _ hs => h.keyed job s hs.2) fun hid => ?_
    subst hid
    have hlist := h.list.frame (h.kept job)
    refine Triple.bind (M := fun resources s => Base s ∧ J job s ∧ R resources s)
      (hlist.mono (fun _ _ hs => hs) (fun _ _ _ hs => ⟨hs.1.1, hs.2, hs.1.2⟩) fun _ _ _ hs => hs.1)
      fun resources => ?_
    dsimp only
    split
    · exact .pure fun _ _ hs => ⟨hs.1, hs.2.1⟩
    rename_i hchanged
    have hsave := saveUpdatedJob_triple (h.compensate job resources operation hop hchanged)
    refine Triple.bind (attempt_triple hsave) fun r => ?_
    match r with
    | .ok _ => exact .pure fun _ _ hs => hs
    | .error .jobVersionConflict =>
      refine h.read.bind fun latest => ?_
      cases latest with
      | none => exact fail_triple fun _ _ hs => hs.1
      | some latest =>
        exact (ih latest).mono (fun _ _ hs => ⟨hs.1, hs.2 latest rfl⟩) (fun _ _ _ hs => hs)
          fun _ _ _ hs => hs
    | .error (.failure _) => exact .throw fun _ _ hs => hs
    | .error .executionLeaseLost => exact .throw fun _ _ hs => hs

/-- The job of an order that was stored. -/
theorem JobRule.reconcileJob {p : Protocol (Op E) Op.Res σ} {id : String} {Base : σ → Prop}
    {J : ProvisioningJob → σ → Prop} {R : List ResourceRecord → σ → Prop} (h : JobRule p id Base J R)
    {event : OrderEvent} {order : OrderRecord} {retryPolicy : RetryPolicy}
    (hevent : event.subscriptionId = id) (horder : order.subscriptionId = id)
    (hresume : ∀ job resumed, isProvisionableOrder order = true →
      resumeProvisioningJob job = .ok resumed →
      p.Triple (Store.putJob resumed (some job.version) : M E _) (fun s => Base s ∧ J job s)
        (fun _ => Base) fun _ => Base)
    (hcreate : ∀ job, createProvisioningJob rt.hashing order retryPolicy = .ok job →
      p.Triple (Store.putJob job none : M E _) Base (fun _ => Base) fun _ => Base) :
    p.Triple (reconcileJob rt event order retryPolicy : M E _) Base (fun _ => Base) fun _ => Base := by
  unfold EsigSuite.Provisioning.reconcileJob
  rw [hevent]
  refine h.read.bind fun existing => ?_
  split
  · cases existing with
    | none => exact .pure fun _ _ hs => hs.1
    | some job =>
      refine Triple.bind (M := fun _ => Base) ?_ fun _ => .pure fun _ _ hs => hs
      exact (h.transition job (by split <;> decide)).mono (fun _ _ hs => ⟨hs.1, hs.2 job rfl⟩)
        (fun _ _ _ hs => hs.1) fun _ _ _ hs => hs
  split
  · exact .pure fun _ _ hs => hs.1
  rename_i hprovisionable
  have hprovisionable : isProvisionableOrder order = true := by simpa using hprovisionable
  cases existing with
  | some job =>
    dsimp only [resumeJob]
    split
    · refine Triple.bind (M := fun resumed s =>
        resumeProvisioningJob job = .ok resumed ∧ Base s ∧ J job s)
        (orThrow_triple fun s _ hs => ?_) fun resumed => .given fun hresumed => ?_
      · split
        · exact ⟨‹_›, hs.1, hs.2 job rfl⟩
        · exact hs.1
      · refine Triple.bind (M := fun _ => Base) ?_ fun _ => .pure fun _ _ hs => hs
        exact saveUpdatedJob_triple (hresume job resumed hprovisionable hresumed)
    · exact .pure fun _ _ hs => hs.1
  | none =>
    refine Triple.bind (M := fun job s =>
      createProvisioningJob rt.hashing order retryPolicy = .ok job ∧ Base s)
      (orThrow_triple fun s _ hs => ?_) fun job => .given fun hjob => ?_
    · split
      · exact ⟨‹_›, hs.1⟩
      · exact hs.1
    refine Triple.bind (attempt_triple (hcreate job hjob)) fun r => ?_
    match r with
    | .ok _ => exact .pure fun _ _ hs => hs
    | .error e =>
      dsimp only
      split
      · exact .throw fun _ _ hs => hs
      rw [horder]
      refine h.read.bind fun concurrent => ?_
      cases concurrent with
      | none => exact .throw fun _ _ hs => hs.1
      | some job => exact .pure fun _ _ hs => hs.1

-- ---------------------------------------------------------------------------
-- Runs
-- ---------------------------------------------------------------------------

/-- The steps of a run under a lease. -/
structure RunSpec (p : Protocol (Op E) Op.Res σ) (rt : Runtime)
    (input : LeasedRunProvisioningJobInput E) (Base : σ → Prop) (I : OrderRecord → σ → Prop)
    (J : ProvisioningJob → σ → Prop) : Prop where
  order_kept : ∀ order, p.Kept (I order)
  job_kept : ∀ job, p.Kept (J job)
  owned : p.Triple (assertOwned input) Base (fun _ => Base) (fun _ => Base)
  readOrder : p.Triple (Store.getOrder input.subscriptionId) Base
    (fun o s => Base s ∧ ∀ order, o = some order → I order s) (fun _ => Base)
  readJob : p.Triple (Store.getJob input.subscriptionId) Base
    (fun j s => Base s ∧ ∀ job, j = some job → J job s) (fun _ => Base)
  transition : ∀ order job, order.billingState = .past_due ∨ isTerminalBilling order = true →
    p.Triple
      (transitionToCompensation job
        (if order.billingState = .past_due then .suspension else .compensation))
      (fun s => Base s ∧ I order s ∧ J job s) (fun job s => Base s ∧ J job s) (fun _ => Base)
  start : ∀ job started, startProvisioningAttempt job input.now = .ok started → started ≠ job →
    p.Triple (saveUpdatedJob job started) (fun s => Base s ∧ J job s)
      (fun job s => Base s ∧ J job s) (fun _ => Base)
  failure : ∀ job error failed, failProvisioningAttempt job error input.now = .ok failed →
    p.Triple (saveUpdatedJob job failed) (fun s => Base s ∧ J job s)
      (fun job s => Base s ∧ J job s) (fun _ => Base)
  provisioningRound : ∀ order job, job.state = .running → isProvisionableOrder order = true →
    p.Triple (provisioningRound rt input order job) (fun s => Base s ∧ I order s ∧ J job s)
      (fun next s => Base s ∧ ∀ job, next = some job → J job s) (fun _ => Base)
  compensationRound : ∀ order job, job.state = .compensating →
    p.Triple (compensationRound rt input order job) (fun s => Base s ∧ I order s ∧ J job s)
      (fun next s => Base s ∧ ∀ job, next = some job → J job s) (fun _ => Base)

namespace RunSpec

variable {p : Protocol (Op E) Op.Res σ} {input : LeasedRunProvisioningJobInput E}
  {Base : σ → Prop} {I : OrderRecord → σ → Prop} {J : ProvisioningJob → σ → Prop}
  (h : RunSpec p rt input Base I J) {recover : M E ProvisioningRunResult}
include h

/-- A run that starts over, or gives up. -/
abbrev Recovers (p : Protocol (Op E) Op.Res σ) (Base : σ → Prop)
    (recover : M E ProvisioningRunResult) : Prop :=
  p.Triple recover Base (fun _ => Base) (fun _ => Base)

theorem saveFailure (hrecover : Recovers p Base recover) (job : ProvisioningJob)
    (error : SafeProvisioningError) :
    p.Triple (saveFailure input recover job error) (fun s => Base s ∧ J job s) (fun _ => Base)
      (fun _ => Base) := by
  refine Triple.bind (M := fun failed s =>
    failProvisioningAttempt job error input.now = .ok failed ∧ Base s ∧ J job s)
    (orThrow_triple fun s _ hs => ?_) fun failed => .given fun hfailed => ?_
  · split
    · exact ⟨‹_›, hs⟩
    · exact hs.1
  refine Triple.bind (attempt_triple (h.failure job error failed hfailed)) fun r => ?_
  match r with
  | .ok job => exact .pure fun _ _ hs => hs.1
  | .error .jobVersionConflict => exact hrecover
  | .error (.failure e) => exact .throw fun _ _ hs => hs
  | .error .executionLeaseLost => exact .throw fun _ _ hs => hs

theorem roundFailed (hrecover : Recovers p Base recover) (job : ProvisioningJob) (e : Thrown) :
    p.Triple (roundFailed input recover job e) (fun s => Base s ∧ J job s) (fun _ => Base)
      (fun _ => Base) :=
  match e with
  | .executionLeaseLost => .throw fun _ _ h => h.1
  | .jobVersionConflict => hrecover.mono (fun _ _ h => h.1) (fun _ _ _ h => h) fun _ _ _ h => h
  | .failure e => h.saveFailure hrecover job e

/-- Either loop, by what its rounds keep. -/
theorem stepLoop (hrecover : Recovers p Base recover) {going done : ProvisioningState}
    {status : ProvisioningRunStatus} {round : ProvisioningJob → M E (Option ProvisioningJob)}
    {order : OrderRecord}
    (hround : ∀ job, job.state = going →
      p.Triple (round job) (fun s => Base s ∧ I order s ∧ J job s)
        (fun next s => Base s ∧ ∀ job, next = some job → J job s) (fun _ => Base))
    (rounds : Nat) (job : ProvisioningJob) :
    p.Triple (stepLoop going done status round (EsigSuite.Provisioning.roundFailed input recover)
      rounds job) (fun s => Base s ∧ I order s ∧ J job s) (fun _ => Base) (fun _ => Base) := by
  induction rounds generalizing job with
  | zero => exact .pure fun _ _ h => h.1
  | succ rounds ih =>
    unfold EsigSuite.Provisioning.stepLoop
    split
    · exact .pure fun _ _ h => h.1
    · rename_i hgoing
      have hframed := Triple.mono
        (((hround job (not_not.mp hgoing)).frame (h.order_kept order)).frame (h.job_kept job))
        (fun s _ (hs : Base s ∧ I order s ∧ J job s) => ⟨⟨hs, hs.2.1⟩, hs.2.2⟩)
        (fun _ _ _ hs => hs) fun _ _ _ hs => hs
      refine Triple.bind (attempt_triple hframed) fun r => ?_
      match r with
      | .ok (some next) =>
        exact Triple.mono (ih next) (fun s _ hs => ⟨hs.1.1.1, hs.1.2, hs.1.1.2 next rfl⟩)
          (fun _ _ _ hs => hs) fun _ _ _ hs => hs
      | .ok none => exact .pure fun _ _ hs => hs.1.1.1
      | .error e =>
        exact Triple.mono (h.roundFailed hrecover job e) (fun _ _ hs => ⟨hs.1.1, hs.2⟩)
          (fun _ _ _ hs => hs) fun _ _ _ hs => hs

theorem workOnJob (hrecover : Recovers p Base recover) (order : OrderRecord)
    (job : ProvisioningJob) :
    p.Triple (workOnJob rt input recover order job) (fun s => Base s ∧ I order s ∧ J job s)
      (fun _ => Base) (fun _ => Base) := by
  have hfail (error : SafeProvisioningError) :
      p.Triple (EsigSuite.Provisioning.saveFailure input recover job error)
        (fun s => Base s ∧ I order s ∧ J job s) (fun _ => Base) (fun _ => Base) :=
    (h.saveFailure hrecover job error).mono (fun _ _ hs => ⟨hs.1, hs.2.2⟩) (fun _ _ _ hs => hs)
      fun _ _ _ hs => hs
  unfold EsigSuite.Provisioning.workOnJob
  split
  · exact hfail _
  split
  · split
    · exact hfail _
    · exact h.stepLoop hrecover (h.compensationRound order) LOOP_ROUNDS job
  split
  · exact hfail _
  · rename_i hprovisionable
    have hprovisionable : isProvisionableOrder order = true := by simpa using hprovisionable
    exact h.stepLoop hrecover (fun job hjob => h.provisioningRound order job hjob hprovisionable)
      LOOP_ROUNDS job

theorem startJob (hrecover : Recovers p Base recover) (order : OrderRecord)
    (job : ProvisioningJob) :
    p.Triple (startJob rt input recover order job) (fun s => Base s ∧ I order s ∧ J job s)
      (fun _ => Base) (fun _ => Base) := by
  refine Triple.bind (M := fun started s =>
    startProvisioningAttempt job input.now = .ok started ∧ Base s ∧ I order s ∧ J job s)
    (orThrow_triple fun s _ hs => ?_) fun started => .given fun hstarted => ?_
  · split
    · exact ⟨‹_›, hs⟩
    · exact hs.1
  split
  · exact h.workOnJob hrecover order job
  · rename_i hne
    have hsave := Triple.mono ((h.start job started hstarted hne).frame (h.order_kept order))
      (fun s _ (hs : Base s ∧ I order s ∧ J job s) => ⟨⟨hs.1, hs.2.2⟩, hs.2.1⟩)
      (fun _ _ _ hs => hs) fun _ _ _ hs => hs
    refine Triple.bind (attempt_triple hsave) fun r => ?_
    match r with
    | .ok job =>
      exact Triple.mono (h.workOnJob hrecover order job) (fun _ _ hs => ⟨hs.1.1, hs.2, hs.1.2⟩)
        (fun _ _ _ hs => hs) fun _ _ _ hs => hs
    | .error .jobVersionConflict =>
      exact hrecover.mono (fun _ _ hs => hs.1) (fun _ _ _ hs => hs) fun _ _ _ hs => hs
    | .error (.failure e) => exact .throw fun _ _ hs => hs.1
    | .error .executionLeaseLost => exact .throw fun _ _ hs => hs.1

theorem runReconciled (hrecover : Recovers p Base recover) (order : OrderRecord)
    (job : ProvisioningJob) :
    p.Triple (runReconciled rt input recover order job) (fun s => Base s ∧ I order s ∧ J job s)
      (fun _ => Base) (fun _ => Base) := by
  unfold EsigSuite.Provisioning.runReconciled
  split
  · exact .pure fun _ _ hs => hs.1
  split
  · exact .pure fun _ _ hs => hs.1
  split
  · exact .pure fun _ _ hs => hs.1
  split
  · exact .pure fun _ _ hs => hs.1
  · exact h.startJob hrecover order job

theorem runOnce (hrecover : Recovers p Base recover) :
    Recovers p Base (runOnce rt input recover) := by
  refine h.owned.bind fun _ => h.readOrder.bind fun o => ?_
  cases o with
  | none =>
    refine Triple.bind (M := fun _ => Base) (h.readJob.mono (fun _ _ hs => hs.1)
      (fun _ _ _ hs => hs.1) fun _ _ _ hs => hs) fun job => ?_
    exact .pure fun _ _ hs => hs
  | some order =>
    refine Triple.bind (M := fun j s => Base s ∧ I order s ∧ ∀ job, j = some job → J job s)
      (Triple.mono (h.readJob.frame (h.order_kept order)) (fun s _ hs => ⟨hs.1, hs.2 order rfl⟩)
        (fun _ _ _ hs => ⟨hs.1.1, hs.2, hs.1.2⟩) fun _ _ _ hs => hs.1) fun j => ?_
    cases j with
    | none => exact .pure fun _ _ hs => hs.1
    | some job =>
      dsimp only
      split
      · rename_i hdue
        have htransition := Triple.mono ((h.transition order job hdue).frame (h.order_kept order))
          (fun s _ (hs : Base s ∧ I order s ∧ ∀ j, some job = some j → J j s) =>
            ⟨⟨hs.1, hs.2.1, hs.2.2 job rfl⟩, hs.2.1⟩)
          (fun _ _ _ hs => hs) fun _ _ _ hs => hs
        refine Triple.bind (attempt_triple htransition) fun r => ?_
        match r with
        | .ok job =>
          exact Triple.mono (h.runReconciled hrecover order job)
            (fun _ _ hs => ⟨hs.1.1, hs.2, hs.1.2⟩) (fun _ _ _ hs => hs) fun _ _ _ hs => hs
        | .error e =>
          dsimp only
          split
          · exact hrecover.mono (fun _ _ hs => hs.1) (fun _ _ _ hs => hs) fun _ _ _ hs => hs
          · exact .throw fun _ _ hs => hs.1
      · exact Triple.mono (h.runReconciled hrecover order job)
          (fun _ _ hs => ⟨hs.1, hs.2.1, hs.2.2 job rfl⟩) (fun _ _ _ hs => hs) fun _ _ _ hs => hs

theorem runProvisioningJobInternal (conflicts : Nat) :
    Recovers p Base (runProvisioningJobInternal rt input conflicts) := by
  have hcurrent : Recovers p Base (currentRunResult input.subscriptionId : M E _) :=
    h.readJob.bind fun _ => .pure fun _ _ hs => hs.1
  induction conflicts with
  | zero => exact h.runOnce hcurrent
  | succ conflicts ih => exact h.runOnce ih

/-- A run that may lose its lease. -/
theorem leased (conflicts : Nat) :
    p.Triple (do
      match ← attempt (EsigSuite.Provisioning.runProvisioningJobInternal rt input conflicts) with
      | .error .executionLeaseLost => currentRunResult input.subscriptionId
      | result => rethrow result : M E ProvisioningRunResult)
      Base (fun _ => Base) (fun _ => Base) := by
  refine Triple.bind (attempt_triple (h.runProvisioningJobInternal conflicts)) fun r => ?_
  match r with
  | .ok result => exact .pure fun _ _ hs => hs
  | .error .executionLeaseLost =>
    exact h.readJob.bind fun _ => .pure fun _ _ hs => hs.1
  | .error .jobVersionConflict => exact .throw fun _ _ hs => hs
  | .error (.failure e) => exact .throw fun _ _ hs => hs

end RunSpec

/-- A run, by what each of its leases keeps. -/
theorem runProvisioningJob_triple {p : Protocol (Op E) Op.Res σ} {Base : σ → Prop}
    {input : RunProvisioningJobInput E} {I : JobExecutionLease → OrderRecord → σ → Prop}
    {J : JobExecutionLease → ProvisioningJob → σ → Prop} {L : JobExecutionLease → σ → Prop}
    (hclock : p.Triple (clock : M E Int) Base (fun _ => Base) (fun _ => Base))
    (hacquire : ∀ now, p.Triple (Store.acquireJobExecutionLease input.subscriptionId
        input.executionOwnerId now input.executionLeaseDurationMs : M E _) Base
      (fun claim s => Base s ∧ ∀ lease, claim = .acquired lease → L lease s) (fun _ => Base))
    (hread : p.Triple (Store.getJob input.subscriptionId : M E _) Base (fun _ => Base)
      (fun _ => Base))
    (hrelease : ∀ lease, p.Triple (Store.releaseJobExecutionLease lease : M E _)
      (fun s => Base s ∧ L lease s) (fun _ => Base) (fun _ => Base))
    (hspec : ∀ lease, RunSpec p rt { input with lease } (fun s => Base s ∧ L lease s) (I lease)
      (J lease)) :
    p.Triple (runProvisioningJob rt input) Base (fun _ => Base) (fun _ => Base) := by
  refine hclock.bind fun now => (hacquire now).bind fun claim => ?_
  have hcurrent : p.Triple (currentRunResult input.subscriptionId : M E _) Base (fun _ => Base)
      (fun _ => Base) :=
    hread.bind fun _ => .pure fun _ _ hs => hs
  cases claim with
  | held => exact hcurrent.mono (fun _ _ hs => hs.1) (fun _ _ _ hs => hs) fun _ _ _ hs => hs
  | acquired lease =>
    refine Triple.mono (Triple.bind (attempt_triple ((hspec lease).leased 2)) fun r => ?_)
      (fun s _ (hs : Base s ∧ _) => ⟨hs.1, hs.2 lease rfl⟩) (fun _ _ _ hs => hs) fun _ _ _ hs => hs
    refine Triple.bind (M := fun _ => Base) ?_ fun _ => rethrow_triple fun s _ hs => ?_
    · exact (hrelease lease).mono (fun s _ hs => by cases r <;> exact hs) (fun _ _ _ hs => hs)
        fun _ _ _ hs => hs
    · cases r <;> exact hs

/-- A round that compensates, by what its driver and the calls of the store keep. -/
theorem compensationRound_triple {p : Protocol (Op E) Op.Res σ} {P : σ → Prop} {C : Op E → Prop}
    {input : LeasedRunProvisioningJobInput E} {order : OrderRecord}
    (hC : Admits [.jobs, .executionLeases, .credentialHandoffs, .resources] C)
    (hkeeps : ∀ {α : Type} {x : M E α}, Lib.Calls.All C x → p.Triple x P (fun _ => P) (fun _ => P))
    (hdriver : ∀ stepInput : StepInput, stepInput.order = order →
      p.Triple (input.driver.compensateStep stepInput) P (fun _ => P) (fun _ => P))
    (job : ProvisioningJob) :
    p.Triple (compensationRound rt input order job) P (fun _ => P) (fun _ => P) := by
  have howned := assertOwned_calls (hC.mono rfl) input
  refine (hkeeps howned).bind fun _ => ?_
  split
  · exact .pure fun _ _ hs => hs
  refine Triple.map ((hkeeps (listResources_calls (hC.mono rfl) _)).bind fun resources => ?_)
  refine (hkeeps (revokePointer_calls (hC.mono rfl) input job)).bind fun _ =>
    (hkeeps (orThrow_calls _)).bind fun completed => ?_
  refine (hdriver _ rfl).bind fun result => hkeeps ?_
  refine .bind howned fun _ => .bind (persistStepResources_calls fun _ _ _ _ => hC.call _ rfl rfl)
    fun _ => .bind (applyCompensationDispositions_calls fun _ _ _ => hC.call _ rfl rfl) fun _ => ?_
  exact .bind howned fun _ => .bind (orThrow_calls _) fun _ => saveUpdatedJob_calls (hC.mono rfl) _ _

end EsigSuite.Provisioning
