import EsigSuite.Lib.Answers
import EsigSuite.Lib.Digits
import EsigSuite.Lib.FirstOk
import EsigSuite.Provisioning.ProviderCalls
import EsigSuite.Provisioning.SampleRuntime
import EsigSuite.Provisioning.Snapshots

/-!
# What the stored snapshots say

The steps of a driver one after the other. Each reads the stored records, and the
snapshot it returns is stored under any steps and any number of times, or lost.
The provider answers as it likes.
-/

namespace EsigSuite.Provisioning

open Lib

abbrev Said := Transcript (Op deployment) Op.Res

-- ---------------------------------------------------------------------------
-- Runs
-- ---------------------------------------------------------------------------

/-- The resources that a provider answered with. -/
def ProviderCall.resources : (call : ProviderCall) → call.Answer → Option ProviderResources
  | .provision .., .ok result | .resume .., .ok result => some result.resources
  | .reissueCredential .., .ok (resources, _) => some resources
  | .markReady .., .ok resources | .suspend .., .ok resources | .compensate .., .ok resources =>
    some resources
  | _, _ => none

def toldResources : (Σ op : Op deployment, op.Res) → Option ProviderResources
  | ⟨.outside (.provider call), answer⟩ => call.resources answer
  | _ => none

/-- The resources that a step makes a snapshot of: the last that the provider
told, or else those it knew. -/
def snapshotted (said : Said) (last : Option ProviderResources) : Option ProviderResources :=
  (said.filterMap toldResources).getLast?.or last

structure Deployment where
  rt : Runtime
  mode : DeploymentMode
  region : String

namespace Deployment

variable (d : Deployment)

def driver : ProviderProvisioningDriver deployment :=
  ⟨callingProvider d.mode, d.region, snapshotCodec⟩

/-- A step that returns the resources after the calls it made. -/
inductive Returns (input : StepInput) (said : Said) : List StepResourceInput → Prop
  | execute {result : StepExecutionResult} (h : Tells said (d.driver.executeStep d.rt input) result) :
    Returns input said result.resources
  | compensate {result : StepCompensationResult}
    (h : Tells said (d.driver.compensateStep d.rt input) result) :
    Returns input said result.resources

end Deployment

def HasState (records : List ResourceRecord) (opaqueId : String) : Prop :=
  ∃ record ∈ records, record.kind = PROVIDER_STATE_RESOURCE_KIND ∧ record.opaqueId = opaqueId

/-- The snapshots of `written` were stored, under any keys and any number of
times. Nothing is said of other records and of the status of a snapshot. -/
def Stored (records : List ResourceRecord) (written : List StepResourceInput)
    (records' : List ResourceRecord) : Prop :=
  ∀ opaqueId, HasState records' opaqueId ↔
    HasState records opaqueId ∨
      ∃ resource ∈ written, resource.kind = PROVIDER_STATE_RESOURCE_KIND ∧
        resource.opaqueId = opaqueId

/-- The records of a subscription, with the resources of the last snapshot that
was stored. -/
inductive SnapshotRun (d : Deployment) (subscriptionId : String) :
    List ResourceRecord → Option ProviderResources → Prop
  | start (h : ∀ opaqueId, ¬ HasState records opaqueId) : SnapshotRun d subscriptionId records none
  | persisted {written : List StepResourceInput} (run : SnapshotRun d subscriptionId records last)
    (hresources : input.resources = records) (hid : input.order.subscriptionId = subscriptionId)
    (h : d.Returns input said written) (hstored : Stored records written records') :
    SnapshotRun d subscriptionId records' (if written = [] then last else snapshotted said last)
  | lost (run : SnapshotRun d subscriptionId records last) (h : Stored records [] records') :
    SnapshotRun d subscriptionId records' last

-- ---------------------------------------------------------------------------
-- The resources of a snapshot
-- ---------------------------------------------------------------------------

namespace ProviderProvisioningDriver

variable {E : Outside} {driver : ProviderProvisioningDriver E} {rt : Runtime}

/-- Resources that the driver takes for those of the subscription. -/
structure Valid (driver : ProviderProvisioningDriver E) (rt : Runtime) (subscriptionId : String)
    (identifiers : ProviderIdentifiers) (resources : ProviderResources) : Prop where
  derived : deriveProviderIdentifiers rt subscriptionId driver.mode = .ok identifiers
  mode : resources.mode = driver.mode
  subscriptionId : resources.subscriptionId = subscriptionId
  tenantId : resources.tenantId = identifiers.tenantId
  identity : identityValid identifiers resources.identity = true

theorem validateProviderResources_ok {resources : ProviderResources} {request : ProvisioningRequest}
    {jobTenantId : String} :
    driver.validateProviderResources rt resources request jobTenantId = .ok () ↔
      ∃ identifiers, driver.Valid rt request.subscriptionId identifiers resources ∧
        resources.tenantId = jobTenantId := by
  unfold validateProviderResources
  rw [bind_eq_ok]
  refine exists_congr fun identifiers => ?_
  constructor
  · rintro ⟨hderived, h⟩
    split at h
    · cases h
    · rename_i hvalid
      simp only [not_or, not_not, Bool.not_eq_true, Bool.not_eq_false'] at hvalid
      obtain ⟨hmode, hsubscription, hjob, htenant, hidentity⟩ := hvalid
      exact ⟨⟨hderived, hmode, hsubscription, htenant, hidentity⟩, hjob⟩
  · rintro ⟨h, hjob⟩
    refine ⟨h.derived, if_neg ?_⟩
    simp [h.mode, h.subscriptionId, hjob, h.identity, h.tenantId.symm.trans hjob]

theorem Valid.restore {subscriptionId : String} {identifiers : ProviderIdentifiers}
    {resources : ProviderResources}
    (h : driver.Valid rt subscriptionId identifiers resources) :
    restoreIdentity identifiers (snapshotIdentity resources.identity) = resources.identity ∧
      (snapshotIdentity resources.identity).nonEmpty = true ∧
      (snapshotIdentity resources.identity).mode = driver.mode := by
  have hidentity := h.identity
  rw [← h.mode]
  cases hcase : resources.identity with
  | shared storageNamespace credentialId =>
    rw [hcase] at hidentity
    simp only [identityValid, Bool.and_eq_true, beq_iff_eq] at hidentity
    obtain ⟨rfl, hcredential⟩ := hidentity
    exact ⟨rfl, hcredential, by simp [ProviderResources.mode, hcase]; rfl⟩
  | dedicated projectRef projectName stackId stackName =>
    rw [hcase] at hidentity
    simp only [identityValid, Bool.and_eq_true, beq_iff_eq] at hidentity
    obtain ⟨⟨⟨rfl, rfl⟩, hproject⟩, hstack⟩ := hidentity
    exact ⟨rfl, by simp [snapshotIdentity, SnapshotIdentity.nonEmpty, hproject, hstack],
      by simp [ProviderResources.mode, hcase]; rfl⟩

end ProviderProvisioningDriver

theorem sameProviderResources_iff {left right : ProviderResources} :
    sameProviderResources left right = true ↔ left = right := by
  obtain ⟨subscriptionId, tenantId, identity, status⟩ := left
  obtain ⟨subscriptionId', tenantId', identity', status'⟩ := right
  cases identity <;> cases identity' <;>
    simp [sameProviderResources, sameProviderIdentity, and_assoc]

def Reconstructed.snapshot (prior : Reconstructed) : ProviderSnapshot :=
  ⟨prior.generation, snapshotIdentity prior.resources.identity, prior.resources.status⟩

/-- The records tell `prior`: it is stored, and what else is stored is older. -/
structure Knows (records : List ResourceRecord) (prior : Reconstructed) : Prop where
  stored : ∃ opaqueId, HasState records opaqueId ∧ decodeOpaqueId opaqueId = some prior.snapshot
  older : ∀ opaqueId, HasState records opaqueId → ∃ snapshot, decodeOpaqueId opaqueId = some snapshot ∧
    (snapshot = prior.snapshot ∨ snapshot.generation < prior.generation)

theorem foldl_generation (snapshots : List ProviderSnapshot) (g : Nat) :
    g ≤ snapshots.foldl (fun g snapshot => max g snapshot.generation) g ∧
      (∀ s ∈ snapshots,
        s.generation ≤ snapshots.foldl (fun g snapshot => max g snapshot.generation) g) ∧
      ∀ bound, g ≤ bound → (∀ s ∈ snapshots, s.generation ≤ bound) →
        snapshots.foldl (fun g snapshot => max g snapshot.generation) g ≤ bound := by
  induction snapshots generalizing g with
  | nil => exact ⟨Nat.le_refl g, nofun, fun _ h _ => h⟩
  | cons s snapshots ih =>
    obtain ⟨hstart, hall, hbound⟩ := ih (max g s.generation)
    refine ⟨(Nat.le_max_left _ _).trans hstart, ?_, fun bound hg hs => ?_⟩
    · intro s' hs'
      rcases List.mem_cons.mp hs' with rfl | hs'
      · exact (Nat.le_max_right _ _).trans hstart
      · exact hall s' hs'
    · obtain ⟨hfirst, hrest⟩ := List.forall_mem_cons.mp hs
      exact hbound bound (Nat.max_le.mpr ⟨hg, hfirst⟩) hrest

theorem latestSnapshot_eq {snapshots : List ProviderSnapshot} {latest : ProviderSnapshot}
    (hmem : latest ∈ snapshots)
    (h : ∀ s ∈ snapshots, s = latest ∨ s.generation < latest.generation) :
    ProviderProvisioningDriver.latestSnapshot snapshots = .ok (some latest) := by
  have hgeneration : snapshots.foldl (fun g snapshot => max g snapshot.generation) 0 =
      latest.generation := by
    obtain ⟨-, hall, hbound⟩ := foldl_generation snapshots 0
    refine Nat.le_antisymm (hbound _ (Nat.zero_le _) fun s hs => ?_) (hall latest hmem)
    rcases h s hs with rfl | hlt
    · exact Nat.le_refl _
    · exact Nat.le_of_lt hlt
  have hlatest : ∀ s ∈ snapshots.filter (·.generation == latest.generation), s = latest := by
    intro s hs
    obtain ⟨hs, heq⟩ := List.mem_filter.mp hs
    rcases h s hs with rfl | hlt
    · rfl
    · exact absurd (beq_iff_eq.mp heq) (Nat.ne_of_lt hlt)
  unfold ProviderProvisioningDriver.latestSnapshot
  rw [hgeneration]
  cases hfilter : snapshots.filter (·.generation == latest.generation) with
  | nil =>
    have hempty := List.filter_eq_nil_iff.mp hfilter latest hmem
    simp at hempty
  | cons s rest =>
    rw [hfilter] at hlatest
    obtain ⟨rfl, hrest⟩ := List.forall_mem_cons.mp hlatest
    have hall : rest.all (· == s) = true := by simpa using hrest
    simp [hall]

variable {d : Deployment}

theorem decodeSnapshot_ok {opaqueId : String} {snapshot : ProviderSnapshot} :
    decodeSnapshot snapshotCodec opaqueId = .ok snapshot ↔
      decodeOpaqueId opaqueId = some snapshot := by
  have hdecode : snapshotCodec.decode opaqueId = decodeOpaqueId opaqueId := rfl
  unfold decodeSnapshot
  rw [hdecode]
  cases decodeOpaqueId opaqueId <;> simp

theorem reconstruct_none {records : List ResourceRecord} (request : ProvisioningRequest)
    (h : ∀ opaqueId, ¬ HasState records opaqueId) :
    d.driver.reconstruct d.rt records request = .ok none := by
  have hempty : records.filter (·.kind == PROVIDER_STATE_RESOURCE_KIND) = [] := by
    refine List.filter_eq_nil_iff.mpr fun record hrecord hkind => ?_
    exact h record.opaqueId ⟨record, hrecord, by simpa using hkind, rfl⟩
  unfold ProviderProvisioningDriver.reconstruct
  rw [hempty]
  rfl

theorem reconstruct_known {records : List ResourceRecord} {request : ProvisioningRequest}
    {identifiers : ProviderIdentifiers} {prior : Reconstructed} (h : Knows records prior)
    (hvalid : d.driver.Valid d.rt request.subscriptionId identifiers prior.resources) :
    d.driver.reconstruct d.rt records request = .ok (some prior) := by
  have hdecode : ∀ record ∈ records.filter (·.kind == PROVIDER_STATE_RESOURCE_KIND),
      ∃ snapshot, decodeSnapshot d.driver.codec record.opaqueId = .ok snapshot := by
    intro record hrecord
    obtain ⟨hmem, hkind⟩ := List.mem_filter.mp hrecord
    obtain ⟨snapshot, hsnapshot, -⟩ :=
      h.older record.opaqueId ⟨record, hmem, beq_iff_eq.mp hkind, rfl⟩
    exact ⟨snapshot, decodeSnapshot_ok.mpr hsnapshot⟩
  obtain ⟨snapshots, hsnapshots⟩ := mapM_ok hdecode
  have hmem (snapshot : ProviderSnapshot) : snapshot ∈ snapshots ↔
      ∃ opaqueId, HasState records opaqueId ∧ decodeOpaqueId opaqueId = some snapshot := by
    rw [mapM_mem hsnapshots]
    constructor
    · rintro ⟨record, hrecord, hdecode⟩
      obtain ⟨hrecord, hkind⟩ := List.mem_filter.mp hrecord
      exact ⟨record.opaqueId, ⟨record, hrecord, beq_iff_eq.mp hkind, rfl⟩,
        decodeSnapshot_ok.mp hdecode⟩
    · rintro ⟨_, ⟨record, hrecord, hkind, rfl⟩, hdecode⟩
      exact ⟨record, List.mem_filter.mpr ⟨hrecord, beq_iff_eq.mpr hkind⟩,
        decodeSnapshot_ok.mpr hdecode⟩
  have hlatest := latestSnapshot_eq ((hmem _).mpr h.stored) fun snapshot hsnapshot => by
    obtain ⟨opaqueId, hstate, hdecode⟩ := (hmem _).mp hsnapshot
    obtain ⟨found, hfound, hold⟩ := h.older opaqueId hstate
    obtain rfl := Option.some.inj (hdecode.symm.trans hfound)
    exact hold
  obtain ⟨hidentity, -, hmode⟩ := hvalid.restore
  have hresources : (⟨request.subscriptionId, identifiers.tenantId,
      restoreIdentity identifiers prior.snapshot.identity, prior.snapshot.status⟩ :
        ProviderResources) = prior.resources := by
    rw [Reconstructed.snapshot, hidentity, ← hvalid.subscriptionId, ← hvalid.tenantId]
  unfold ProviderProvisioningDriver.reconstruct
  refine bind_eq_ok.mpr ⟨snapshots, hsnapshots, bind_eq_ok.mpr ⟨_, hlatest, ?_⟩⟩
  dsimp only
  rw [if_neg (not_not.mpr (show prior.snapshot.identity.mode = d.driver.mode from hmode))]
  refine bind_eq_ok.mpr ⟨identifiers, hvalid.derived, bind_eq_ok.mpr ⟨(), ?_, ?_⟩⟩
  · rw [hresources]
    exact ProviderProvisioningDriver.validateProviderResources_ok.mpr
      ⟨identifiers, hvalid, hvalid.tenantId⟩
  · rw [hresources]
    rfl

-- ---------------------------------------------------------------------------
-- What a step returns
-- ---------------------------------------------------------------------------

section
variable {E : Outside} {said : Transcript (Op E) Op.Res} {α : Type} {a : α}

theorem ask_tells {x : Prog (Op E) Op.Res (Answer α)} :
    Tells said (ask x) a ↔ x.Answered said (.ok a) := by
  refine Iff.trans Prog.answered_bind ⟨?_, fun h => ?_⟩
  · rintro ⟨first, rest, r, rfl, hr, h⟩
    cases r with
    | ok b =>
      obtain ⟨heq, rfl⟩ := h
      obtain rfl : b = a := Except.ok.inj heq
      rw [List.append_nil]
      exact hr
    | error e => cases h.1
  · exact ⟨said, [], .ok a, (List.append_nil _).symm, h, rfl, rfl⟩

theorem orThrow_tells {x : Except SafeProvisioningError α} :
    Tells said (orThrow x : M E α) a ↔ said = [] ∧ x = .ok a := by
  cases x with
  | ok b => exact pure_tells.trans (by simp)
  | error e => exact throw_tells.trans (by simp)

theorem orThrow_bind_tells {β : Type} {x : Except SafeProvisioningError α} {f : α → M E β} {b : β}
    (hx : x = .ok a) : Tells said (orThrow x >>= f) b ↔ Tells said (f a) b := by
  refine bind_tells.trans ⟨?_, fun h => ⟨[], said, a, rfl, orThrow_tells.mpr ⟨rfl, hx⟩, h⟩⟩
  rintro ⟨_, rest, c, rfl, hc, hrest⟩
  obtain ⟨rfl, hxc⟩ := orThrow_tells.mp hc
  obtain rfl := Except.ok.inj (hx.symm.trans hxc)
  exact hrest

theorem fail_tells {code : SafeErrorCode} {retryable : Bool} :
    Tells said (fail code retryable : M E α) a ↔ False :=
  throw_tells

end

/-- The step returns no resources, or the next snapshot of those it came to know. -/
def Follows (d : Deployment) (subscriptionId : String) (prior : Option Reconstructed) (said : Said)
    (written : List StepResourceInput) : Prop :=
  written = [] ∨ ∃ identifiers resources snapshot, written = [snapshot] ∧
    snapshotted said (prior.map (·.resources)) = some resources ∧
    d.driver.Valid d.rt subscriptionId identifiers resources ∧
    snapshotResource snapshotCodec resources (nextGeneration prior resources) = .ok snapshot

theorem validated {resources : ProviderResources} {request : ProvisioningRequest}
    {jobTenantId : String} {said : Said} {u : Unit}
    (h : Tells said (orThrow (d.driver.validateProviderResources d.rt resources request jobTenantId) :
      M deployment Unit) u) :
    said = [] ∧ ∃ identifiers, d.driver.Valid d.rt request.subscriptionId identifiers resources := by
  obtain ⟨hsaid, h⟩ := orThrow_tells.mp h
  obtain ⟨identifiers, hvalid, -⟩ := ProviderProvisioningDriver.validateProviderResources_ok.mp h
  exact ⟨hsaid, identifiers, hvalid⟩

theorem stepResult_tells {resources : ProviderResources} {credential : Option OneTimeCredential}
    {prior : Option Reconstructed} {said : Said} {result : StepExecutionResult}
    (h : Tells said (orThrow (d.driver.stepResult prior resources credential) :
      M deployment StepExecutionResult) result) :
    said = [] ∧ ∃ snapshot, result.resources = [snapshot] ∧
      snapshotResource snapshotCodec resources (nextGeneration prior resources) = .ok snapshot := by
  obtain ⟨hsaid, h⟩ := orThrow_tells.mp h
  obtain ⟨snapshot, hsnapshot, h⟩ := bind_eq_ok.mp h
  obtain rfl := Except.ok.inj h
  exact ⟨hsaid, snapshot, rfl, hsnapshot⟩

theorem resumeTenant_follows {input : StepInput} {request : ProvisioningRequest}
    {prior : Reconstructed} {said : Said} {result : StepExecutionResult}
    (hprior : d.driver.Valid d.rt request.subscriptionId identifiers prior.resources)
    (h : Tells said (d.driver.resumeTenant d.rt input request prior) result) :
    Follows d request.subscriptionId (some prior) said result.resources := by
  unfold ProviderProvisioningDriver.resumeTenant at h
  split at h
  · split at h
    · exact (fail_tells.mp h).elim
    · obtain ⟨_, _, snapshot, hsaid, hmade, hpure⟩ := bind_tells.mp h
      obtain ⟨rfl, hsnapshot⟩ := orThrow_tells.mp hmade
      obtain ⟨rfl, rfl⟩ := pure_tells.mp hpure
      have hsame : nextGeneration (some prior) prior.resources = prior.generation :=
        if_pos (sameProviderResources_iff.mpr rfl)
      refine .inr ⟨identifiers, prior.resources, snapshot, rfl, ?_, hprior, ?_⟩
      · rw [hsaid]
        rfl
      · rw [hsame]
        exact hsnapshot
  · obtain ⟨_, rest, resumed, rfl, hask, hrest⟩ := bind_tells.mp h
    obtain ⟨r, _, rfl, rfl, rfl⟩ := Prog.answered_call.mp (ask_tells.mp hask)
    clear h
    rw [bind_tells] at hrest
    obtain ⟨_, _, _, rfl, hvalid, hrest⟩ := hrest
    obtain ⟨rfl, identifiers', hvalid⟩ := validated hvalid
    split at hrest
    · exact (fail_tells.mp hrest).elim
    split at hrest
    · exact (fail_tells.mp hrest).elim
    rw [bind_tells] at hrest
    obtain ⟨_, _, _, rfl, hcredential, hrest⟩ := hrest
    obtain ⟨rfl, -⟩ := orThrow_tells.mp hcredential
    obtain ⟨rfl, snapshot, hresources, hsnapshot⟩ := stepResult_tells hrest
    exact .inr ⟨identifiers', _, snapshot, hresources, rfl, hvalid, hsnapshot⟩

theorem reissueTenant_follows {input : StepInput} {request : ProvisioningRequest}
    {prior : Reconstructed} {said : Said} {result : StepExecutionResult}
    (h : Tells said (d.driver.reissueTenant d.rt input request prior) result) :
    Follows d request.subscriptionId (some prior) said result.resources := by
  unfold ProviderProvisioningDriver.reissueTenant at h
  obtain ⟨_, rest, ⟨resources, credential⟩, rfl, hask, hrest⟩ := bind_tells.mp h
  obtain ⟨r, _, rfl, rfl, rfl⟩ := Prog.answered_call.mp (ask_tells.mp hask)
  clear h
  rw [bind_tells] at hrest
  obtain ⟨_, _, _, rfl, hvalid, hrest⟩ := hrest
  obtain ⟨rfl, identifiers, hvalid⟩ := validated hvalid
  split at hrest
  · exact (fail_tells.mp hrest).elim
  rw [bind_tells] at hrest
  obtain ⟨_, _, _, rfl, hcredential, hrest⟩ := hrest
  obtain ⟨rfl, -⟩ := orThrow_tells.mp hcredential
  obtain ⟨rfl, snapshot, hresources, hsnapshot⟩ := stepResult_tells hrest
  exact .inr ⟨identifiers, _, snapshot, hresources, rfl, hvalid, hsnapshot⟩

theorem provisionTenant_follows {input : StepInput} {request : ProvisioningRequest}
    {prior : Option Reconstructed} {said : Said} {result : StepExecutionResult}
    (h : Tells said (d.driver.provisionTenant d.rt input request prior) result) :
    Follows d request.subscriptionId prior said result.resources := by
  unfold ProviderProvisioningDriver.provisionTenant at h
  obtain ⟨_, rest, provisioned, rfl, hask, hrest⟩ := bind_tells.mp h
  obtain ⟨r, _, rfl, rfl, rfl⟩ := Prog.answered_call.mp (ask_tells.mp hask)
  clear h
  rw [bind_tells] at hrest
  obtain ⟨_, _, _, rfl, hvalid, hrest⟩ := hrest
  obtain ⟨rfl, identifiers, hvalid⟩ := validated hvalid
  split at hrest
  · exact (fail_tells.mp hrest).elim
  rw [bind_tells] at hrest
  obtain ⟨_, _, _, rfl, hcredential, hrest⟩ := hrest
  obtain ⟨rfl, -⟩ := orThrow_tells.mp hcredential
  obtain ⟨rfl, snapshot, hresources, hsnapshot⟩ := stepResult_tells hrest
  exact .inr ⟨identifiers, _, snapshot, hresources, rfl, hvalid, hsnapshot⟩

theorem compensateTenant_follows {input : StepInput} {request : ProvisioningRequest}
    {target : ProviderStatus} {prior : Reconstructed} {said : Said} {snapshot : StepResourceInput}
    (h : Tells said (d.driver.compensateTenant d.rt input request target prior) snapshot) :
    Follows d request.subscriptionId (some prior) said [snapshot] := by
  have htold (call : ProviderCall) (answer : call.Answer) (transitioned : ProviderResources)
      (hanswer : call.resources answer = some transitioned) (rest : Said)
      (hrest : Tells rest (do
        orThrow (d.driver.validateProviderResources d.rt transitioned request input.job.tenantId)
        if transitioned.status ≠ target ∨
            !sameProviderIdentity prior.resources transitioned false then
          fail .PROVIDER_RESPONSE_INVALID false
        else
          orThrow (snapshotResource d.driver.codec transitioned
            (nextGeneration (some prior) transitioned)) : M deployment StepResourceInput) snapshot) :
      Follows d request.subscriptionId (some prior)
        ([⟨.outside (.provider call), answer⟩] ++ rest) [snapshot] := by
    obtain ⟨_, _, _, rfl, hvalid, hmade⟩ := bind_tells.mp hrest
    obtain ⟨rfl, identifiers, hvalid⟩ := validated hvalid
    clear hrest
    split at hmade
    · exact (fail_tells.mp hmade).elim
    · obtain ⟨rfl, hsnapshot⟩ := orThrow_tells.mp hmade
      refine .inr ⟨identifiers, transitioned, snapshot, rfl, ?_, hvalid, hsnapshot⟩
      simp [snapshotted, toldResources, hanswer]
  unfold ProviderProvisioningDriver.compensateTenant at h
  split at h
  · obtain ⟨_, rest, transitioned, rfl, hask, hrest⟩ := bind_tells.mp h
    obtain ⟨r, _, rfl, rfl, rfl⟩ := Prog.answered_call.mp (ask_tells.mp hask)
    exact htold _ _ transitioned rfl rest hrest
  · obtain ⟨_, rest, transitioned, rfl, hask, hrest⟩ := bind_tells.mp h
    obtain ⟨r, _, rfl, rfl, rfl⟩ := Prog.answered_call.mp (ask_tells.mp hask)
    exact htold _ _ transitioned rfl rest hrest

theorem markReady_follows {input : StepInput} {prior : Option Reconstructed} {said : Said}
    {result : StepExecutionResult}
    (hprior : d.driver.reconstruct d.rt input.resources (d.driver.request input.order) = .ok prior)
    (h : Tells said (d.driver.markReady d.rt input) result) :
    Follows d input.order.subscriptionId prior said result.resources := by
  replace h := (orThrow_bind_tells hprior).mp h
  cases prior with
  | none => exact (fail_tells.mp h).elim
  | some prior =>
    obtain ⟨_, rest, ready, rfl, hask, hrest⟩ := bind_tells.mp h
    obtain ⟨r, _, rfl, rfl, rfl⟩ := Prog.answered_call.mp (ask_tells.mp hask)
    clear h
    rw [bind_tells] at hrest
    obtain ⟨_, _, _, rfl, hvalid, hrest⟩ := hrest
    obtain ⟨rfl, identifiers, hvalid⟩ := validated hvalid
    split at hrest
    · exact (fail_tells.mp hrest).elim
    obtain ⟨rfl, snapshot, hresources, hsnapshot⟩ := stepResult_tells hrest
    exact .inr ⟨identifiers, _, snapshot, hresources, rfl, hvalid, hsnapshot⟩

theorem executeStep_follows {input : StepInput} {prior : Option Reconstructed} {said : Said}
    {result : StepExecutionResult}
    (hprior : d.driver.reconstruct d.rt input.resources (d.driver.request input.order) = .ok prior)
    (hvalid : ∀ p, prior = some p → ∃ identifiers,
      d.driver.Valid d.rt input.order.subscriptionId identifiers p.resources)
    (h : Tells said (d.driver.executeStep d.rt input) result) :
    Follows d input.order.subscriptionId prior said result.resources := by
  obtain ⟨_, rest, _, rfl, hidentity, hrest⟩ := bind_tells.mp h
  obtain ⟨rfl, -⟩ := orThrow_tells.mp hidentity
  clear h
  rw [List.nil_append]
  split at hrest
  · replace hrest := (orThrow_bind_tells hprior).mp hrest
    cases prior with
    | none => exact provisionTenant_follows hrest
    | some prior =>
      obtain ⟨identifiers, hvalid⟩ := hvalid prior rfl
      dsimp only at hrest
      split at hrest
      · exact resumeTenant_follows hvalid hrest
      split at hrest
      · exact reissueTenant_follows hrest
      · exact provisionTenant_follows hrest
  · exact markReady_follows hprior hrest
  · obtain ⟨rfl, rfl⟩ := pure_tells.mp hrest
    exact .inl rfl

theorem applyLifecycle_follows {input : StepInput} {request : ProvisioningRequest}
    {target : ProviderStatus} {prior : Option Reconstructed} {said : Said}
    {written : List StepResourceInput}
    (h : Tells said (d.driver.applyLifecycle d.rt input request target prior) written) :
    Follows d request.subscriptionId prior said written := by
  cases prior with
  | none =>
    obtain ⟨_, _, _, _, -, hpure⟩ := bind_tells.mp h
    obtain ⟨-, rfl⟩ := pure_tells.mp hpure
    exact .inl rfl
  | some prior =>
    obtain ⟨first, _, snapshot, hsaid, htenant, hpure⟩ := bind_tells.mp h
    obtain ⟨rfl, rfl⟩ := pure_tells.mp hpure
    rw [hsaid, List.append_nil]
    exact compensateTenant_follows htenant

theorem compensateStep_follows {input : StepInput} {prior : Option Reconstructed} {said : Said}
    {result : StepCompensationResult}
    (hprior : d.driver.reconstruct d.rt input.resources (d.driver.request input.order) = .ok prior)
    (h : Tells said (d.driver.compensateStep d.rt input) result) :
    Follows d input.order.subscriptionId prior said result.resources := by
  obtain ⟨_, rest, _, rfl, hidentity, hrest⟩ := bind_tells.mp h
  obtain ⟨rfl, -⟩ := orThrow_tells.mp hidentity
  clear h
  rw [List.nil_append]
  replace hrest := (orThrow_bind_tells hprior).mp hrest
  dsimp only at hrest
  split at hrest
  · obtain ⟨first, _, written, hsaid, hlifecycle, hpure⟩ := bind_tells.mp hrest
    obtain ⟨rfl, rfl⟩ := pure_tells.mp hpure
    rw [hsaid, List.append_nil]
    exact applyLifecycle_follows hlifecycle
  · obtain ⟨-, rfl⟩ := pure_tells.mp hrest
    exact .inl rfl

-- ---------------------------------------------------------------------------
-- The last snapshot
-- ---------------------------------------------------------------------------

/-- What the records tell of the tenant whose last stored snapshot is of `last`. -/
def Latest (d : Deployment) (subscriptionId : String) (records : List ResourceRecord) :
    Option ProviderResources → Prop
  | none => ∀ opaqueId, ¬ HasState records opaqueId
  | some resources => ∃ identifiers generation,
    d.driver.Valid d.rt subscriptionId identifiers resources ∧ Knows records ⟨resources, generation⟩

theorem Latest.reconstruct {records : List ResourceRecord} {last : Option ProviderResources}
    (h : Latest d subscriptionId records last) {request : ProvisioningRequest}
    (hrequest : request.subscriptionId = subscriptionId) :
    ∃ prior, d.driver.reconstruct d.rt records request = .ok prior ∧
      prior.map (·.resources) = last ∧
      ∀ p, prior = some p → Knows records p ∧
        ∃ identifiers, d.driver.Valid d.rt subscriptionId identifiers p.resources := by
  subst hrequest
  cases last with
  | none => exact ⟨none, reconstruct_none request h, rfl, nofun⟩
  | some resources =>
    obtain ⟨identifiers, generation, hvalid, hknows⟩ := h
    refine ⟨some ⟨resources, generation⟩, reconstruct_known hknows hvalid, rfl, ?_⟩
    rintro p hp
    cases hp
    exact ⟨hknows, identifiers, hvalid⟩

theorem snapshotResource_ok {resources : ProviderResources} {generation : Nat}
    {snapshot : StepResourceInput}
    (h : snapshotResource snapshotCodec resources generation = .ok snapshot)
    (hid : (snapshotIdentity resources.identity).nonEmpty = true) :
    snapshot.kind = PROVIDER_STATE_RESOURCE_KIND ∧
      decodeOpaqueId snapshot.opaqueId = some (Reconstructed.snapshot ⟨resources, generation⟩) := by
  unfold snapshotResource at h
  split at h
  · cases h
  rename_i hinvalid
  have hgeneration : validGeneration generation = true := by simpa using hinvalid
  split at h
  · cases h
  rename_i opaqueId hopaque
  obtain rfl := Except.ok.inj h
  exact ⟨rfl, snapshotCodec.decode_encode hgeneration hid hopaque⟩

/-- A snapshot of the next generation is the one the records tell. -/
theorem knows_next {records records' : List ResourceRecord} {prior : Option Reconstructed}
    {resources : ProviderResources} {snapshot : StepResourceInput}
    (hknows : ∀ p, prior = some p → Knows records p)
    (hnone : prior = none → ∀ opaqueId, ¬ HasState records opaqueId)
    (hmade : snapshotResource snapshotCodec resources (nextGeneration prior resources) = .ok snapshot)
    (hid : (snapshotIdentity resources.identity).nonEmpty = true)
    (hstored : Stored records [snapshot] records') :
    Knows records' ⟨resources, nextGeneration prior resources⟩ := by
  obtain ⟨hkind, hdecode⟩ := snapshotResource_ok hmade hid
  refine ⟨⟨snapshot.opaqueId, (hstored _).mpr (.inr ⟨snapshot, by simp, hkind, rfl⟩), hdecode⟩,
    fun opaqueId hstate => ?_⟩
  rcases (hstored opaqueId).mp hstate with hstate | ⟨resource, hmem, -, rfl⟩
  · cases prior with
    | none => exact absurd hstate (hnone rfl opaqueId)
    | some prior =>
      obtain ⟨found, hfound, hold⟩ := (hknows prior rfl).older opaqueId hstate
      refine ⟨found, hfound, ?_⟩
      by_cases hsame : sameProviderResources prior.resources resources = true
      · -- the step found the resources as they were
        obtain rfl := sameProviderResources_iff.mp hsame
        rw [nextGeneration, if_pos hsame]
        exact hold
      · rw [nextGeneration, if_neg hsame]
        rcases hold with rfl | hlt
        · exact .inr (Nat.lt_succ_self _)
        · exact .inr (Nat.lt_succ_of_lt hlt)
  · obtain rfl := List.mem_singleton.mp hmem
    exact ⟨_, hdecode, .inl rfl⟩

theorem Stored.of_nil {records records' : List ResourceRecord} (h : Stored records [] records') :
    ∀ opaqueId, HasState records' opaqueId ↔ HasState records opaqueId := by
  intro opaqueId
  simpa using h opaqueId

theorem Latest.kept {records records' : List ResourceRecord} {last : Option ProviderResources}
    (h : Latest d subscriptionId records last) (hstored : Stored records [] records') :
    Latest d subscriptionId records' last := by
  have hsame := Stored.of_nil hstored
  cases last with
  | none => exact fun opaqueId hstate => h opaqueId ((hsame opaqueId).mp hstate)
  | some resources =>
    obtain ⟨identifiers, generation, hvalid, ⟨opaqueId, hstate, hdecode⟩, holder⟩ := h
    exact ⟨identifiers, generation, hvalid, ⟨opaqueId, (hsame opaqueId).mpr hstate, hdecode⟩,
      fun opaqueId hstate => holder opaqueId ((hsame opaqueId).mp hstate)⟩

theorem SnapshotRun.latest {records : List ResourceRecord} {last : Option ProviderResources}
    (run : SnapshotRun d subscriptionId records last) : Latest d subscriptionId records last := by
  induction run with
  | start h => exact h
  | lost _ h ih => exact ih.kept h
  | @persisted records last input said records' written _ hresources hid h hstored ih =>
    have hrequest : (d.driver.request input.order).subscriptionId = subscriptionId := hid
    obtain ⟨prior, hprior, rfl, hknows⟩ := ih.reconstruct hrequest
    rw [← hresources] at hprior
    have hfollows : Follows d subscriptionId prior said written := by
      rw [← hid]
      cases h with
      | execute h =>
        exact executeStep_follows hprior (fun p hp => hid ▸ (hknows p hp).2) h
      | compensate h => exact compensateStep_follows hprior h
    rcases hfollows with rfl | ⟨identifiers, resources, snapshot, rfl, htold, hvalid, hmade⟩
    · rw [if_pos rfl]
      exact ih.kept hstored
    · rw [if_neg (List.cons_ne_nil _ _), htold]
      refine ⟨identifiers, _, hvalid, knows_next (fun p hp => (hknows p hp).1) ?_ hmade
        hvalid.restore.2.1 hstored⟩
      rintro rfl
      exact ih

/-- The stored records give the resources of the last stored snapshot. -/
theorem reconstruct_last {records : List ResourceRecord} {last : Option ProviderResources}
    (run : SnapshotRun d subscriptionId records last) (order : OrderRecord)
    (hid : order.subscriptionId = subscriptionId) :
    ∃ prior, d.driver.reconstruct d.rt records (d.driver.request order) = .ok prior ∧
      prior.map (·.resources) = last := by
  obtain ⟨prior, hprior, hlast, -⟩ :=
    run.latest.reconstruct (show (d.driver.request order).subscriptionId = _ from hid)
  exact ⟨prior, hprior, hlast⟩

-- ---------------------------------------------------------------------------
-- A tenant is created
-- ---------------------------------------------------------------------------

namespace Sample

def subscriptionHashing : Hashing :=
  { hashing with
    sha256Hex := fun text =>
      if text = "e-sig:subscription:sub_1" then
        "2bf852f8cad30beff3d1467deae024b8c18b6696c47a8638ca1d80c14887dd80"
      else hashing.sha256Hex text }

def shared : Deployment := ⟨⟨subscriptionHashing, .codePoints⟩, .shared, "eu-west-1"⟩

def tenantId : String := "f7f2bc60-c348-5809-a390-046827a6f3dd"

def createdResources : ProviderResources where
  subscriptionId := "sub_1"
  tenantId
  identity := .shared (tenantId ++ "/") "cred_1"
  status := .provisioning

def createdOrder : OrderRecord := createOrder starterPaid

def credentialJob : ProvisioningJob where
  version := 0
  jobId := "job_9ad60ff351ef66ab5dcb9d45"
  subscriptionId := "sub_1"
  tenantId
  activationGeneration := 0
  state := .running
  operation := .provisioning
  completedSteps := [.resolve_tenant, .owner_membership, .plan_entitlement]
  compensatedSteps := []
  attempt := 1
  retryPolicy := DEFAULT_RETRY_POLICY
  retryExhausted := false
  nextRetryAt := none
  lastErrorCode := none

def credentialStep : StepInput where
  step := .api_credential
  order := createdOrder
  job := credentialJob
  resources := []
  stepResources := []
  credentialHandoffCompleted := false

/-- The provider creates the tenant, and its credential was handed off before. -/
def provisioned : Said :=
  [⟨.outside (.provider (.provision (shared.driver.request createdOrder) none)),
    .ok ⟨createdResources, true, none⟩⟩]

def createdSnapshot : StepResourceInput :=
  ⟨PROVIDER_STATE_RESOURCE_KIND,
    "eyJ2IjoxLCJnIjowLCJtIjoicyIsImMiOiJjcmVkXzEiLCJzIjoicHJvdmlzaW9uaW5nIn0", .mutable⟩

theorem snapshotResource_created :
    snapshotResource snapshotCodec createdResources 0 = .ok createdSnapshot := by
  have hone : Double.text (.finite 1) = ['1'] := by
    have h := Double.text_int (z := 1) (by decide)
    rw [Int.cast_one] at h
    exact h
  have htext : (Json.object (ProviderSnapshot.members
      ⟨0, .shared "cred_1", .provisioning⟩)).stringify =
        "\x7b\"v\":1,\"g\":0,\"m\":\"s\",\"c\":\"cred_1\",\"s\":\"provisioning\"\x7d".toList := by
    simp only [ProviderSnapshot.members, List.cons_append, List.nil_append, Json.stringify,
      Json.membersText, Json.moreMembers, textMember, hone, Nat.cast_zero, Double.text_zero]
    rfl
  have hopaque : ProviderSnapshot.opaqueId ⟨0, .shared "cred_1", .provisioning⟩ =
      createdSnapshot.opaqueId := by
    rw [ProviderSnapshot.opaqueId, htext]
    rfl
  have hencode : encodeOpaqueId ⟨0, .shared "cred_1", .provisioning⟩ =
      some createdSnapshot.opaqueId := by
    rw [encodeOpaqueId, hopaque, if_neg (by decide)]
  unfold snapshotResource
  rw [show snapshotCodec.encode ⟨0, snapshotIdentity createdResources.identity,
    createdResources.status⟩ = some createdSnapshot.opaqueId from hencode]
  rfl

theorem createdResources_valid : ∃ identifiers,
    shared.driver.Valid shared.rt "sub_1" identifiers createdResources :=
  ⟨_, rfl, rfl, rfl, by decide, by decide⟩

theorem credentialStep_returns : shared.Returns credentialStep provisioned [createdSnapshot] := by
  have htells : Tells provisioned (shared.driver.executeStep shared.rt credentialStep)
      ⟨[createdSnapshot], none⟩ := by
    have hvalid : shared.driver.validateProviderResources shared.rt createdResources
        (shared.driver.request createdOrder) tenantId = .ok () := by
      obtain ⟨identifiers, hvalid⟩ := createdResources_valid
      exact ProviderProvisioningDriver.validateProviderResources_ok.mpr ⟨identifiers, hvalid, rfl⟩
    refine (orThrow_bind_tells (a := ()) (by decide)).mpr ?_
    refine (orThrow_bind_tells (reconstruct_none _ (by simp [HasState, credentialStep]))).mpr ?_
    refine bind_tells.mpr ⟨provisioned, [], ⟨createdResources, true, none⟩, rfl, ?_, ?_⟩
    · exact ask_tells.mpr (Prog.answered_call.mpr ⟨_, [], rfl, rfl, rfl⟩)
    refine (orThrow_bind_tells hvalid).mpr ?_
    rw [if_neg (by decide)]
    refine (orThrow_bind_tells (a := ()) rfl).mpr (orThrow_tells.mpr ⟨rfl, ?_⟩)
    exact bind_eq_ok.mpr ⟨createdSnapshot, snapshotResource_created, rfl⟩
  exact .execute htells

def createdRecord (step : ProvisioningStep) (resourceKey : String) : ResourceRecord where
  resourceKey
  subscriptionId := "sub_1"
  step
  kind := PROVIDER_STATE_RESOURCE_KIND
  opaqueId := createdSnapshot.opaqueId
  retention := .mutable .active

/-- Stored twice, under two steps. -/
def createdRecords : List ResourceRecord :=
  [createdRecord .api_credential "resource_1", createdRecord .mark_ready "resource_2"]

theorem created_run : SnapshotRun shared "sub_1" createdRecords (some createdResources) := by
  have hstored : Stored [] [createdSnapshot] createdRecords := by
    intro opaqueId
    simp [HasState, createdRecords, createdRecord, createdSnapshot]
  exact (SnapshotRun.start (by simp [HasState, credentialStep])).persisted rfl rfl credentialStep_returns hstored

theorem reconstruct_last_created :
    ∃ prior, shared.driver.reconstruct shared.rt createdRecords (shared.driver.request createdOrder) =
        .ok prior ∧
      prior.map (·.resources) = some createdResources :=
  reconstruct_last created_run createdOrder rfl

end Sample

end EsigSuite.Provisioning
