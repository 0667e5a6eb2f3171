import EsigSuite.Provisioning.Dedicated
import EsigSuite.Lib.Triple

/-!
# Dedicated provisioning that stops

What a call of `provision` leaves of a project, a stack and a tenant when it
stops at any of its awaits, and what `suspendUnknown` and `compensateUnknown`
find there.
-/

namespace EsigSuite.Provisioning.Dedicated

open Bootstrapper (ProviderErrorCode DEDICATED_REQUIRED_MIGRATIONS)
open Lib

-- ---------------------------------------------------------------------------
-- Actions
-- ---------------------------------------------------------------------------

/-- From the systems of `pre`, the action leaves those of `kept` however it ends,
and those of `post` where it returns. -/
def Leaves (kept pre : Cloud → Prop) (x : P α) (post : α → Cloud → Prop) : Prop :=
  ∀ process : Process, pre process.cloud →
    Triple x process (fun a after => post a after.cloud) fun _ after => kept after.cloud

namespace Leaves

variable {kept pre : Cloud → Prop} {post : α → Cloud → Prop}

theorem pure' (h : ∀ cloud, pre cloud → post a cloud) : Leaves kept pre (pure a) post :=
  fun process hp => Triple.pure' (h process.cloud hp)

theorem fail' (h : ∀ cloud, pre cloud → kept cloud) : Leaves kept pre (fail code operation) post :=
  fun process hp => Triple.throw' (h process.cloud hp)

theorem failRetryable' (h : ∀ cloud, pre cloud → kept cloud) :
    Leaves kept pre (failRetryable code operation) post :=
  fun process hp => Triple.throw' (h process.cloud hp)

/-- A check of what was read. -/
theorem check' {c : Prop} [Decidable c] (h : ∀ cloud, pre cloud → kept cloud) :
    Leaves kept pre (if c then fail code operation else pure ()) fun _ => pre := by
  split
  · exact fail' h
  · exact pure' fun _ h => h

theorem bind {x : P α} {f : α → P β} {next : β → Cloud → Prop} (hx : Leaves kept pre x post)
    (hf : ∀ a, Leaves kept (post a) (f a) next) : Leaves kept pre (x >>= f) next :=
  fun process hp => (hx process hp).bind fun a after ha => hf a after ha

theorem weaken {x : P α} {pre' : Cloud → Prop} {post' : α → Cloud → Prop}
    (h : Leaves kept pre x post) (hpre : ∀ cloud, pre' cloud → pre cloud)
    (hpost : ∀ a cloud, post a cloud → post' a cloud) : Leaves kept pre' x post' :=
  fun process hp =>
    (h process (hpre _ hp)).weaken (fun a after ha => hpost a _ ha) fun _ _ hk => hk

theorem relax {x : P α} {kept' : Cloud → Prop} (h : Leaves kept pre x post)
    (hk : ∀ cloud, kept cloud → kept' cloud) : Leaves kept' pre x post :=
  fun process hp => (h process hp).weaken (fun _ _ ha => ha) fun _ _ hkept => hk _ hkept

/-- An `await` is answered, or the process stops there with or without its
effect. -/
theorem call' {answer : Cloud → Except ProviderError α × Cloud}
    (before : ∀ cloud, pre cloud → kept cloud)
    (effect : ∀ cloud, pre cloud → kept (answer cloud).2)
    (answered : ∀ cloud a, pre cloud → (answer cloud).1 = .ok a → post a (answer cloud).2) :
    Leaves kept pre (call answer) post := by
  intro process hp
  rcases hs : process.stop with _ | _ | n
  case some.zero =>
    by_cases hl : process.lost
    · simpa [Triple, call, ExceptT.mk, hs, hl] using effect _ hp
    · simpa [Triple, call, ExceptT.mk, hs, hl] using before _ hp
  all_goals
    rcases ha : (answer process.cloud).1 with error | a
    · simpa [Triple, call, ExceptT.mk, hs, ha, Except.mapError] using effect _ hp
    · simpa [Triple, call, ExceptT.mk, hs, ha, Except.mapError] using answered _ a hp ha

/-- An `await` of which only the effect counts. -/
theorem effect' {answer : Cloud → Except ProviderError α × Cloud}
    (before : ∀ cloud, pre cloud → kept cloud)
    (effect : ∀ cloud, pre cloud → kept (answer cloud).2) :
    Leaves kept pre (call answer) fun _ => kept :=
  call' before effect fun cloud _ h _ => effect cloud h

theorem deadline' (s : Setting) : Leaves kept pre (deadline s) fun _ => pre :=
  fun _ hp => Triple.modify' hp

theorem waitOrTimeout' (before : ∀ cloud, pre cloud → kept cloud) :
    Leaves kept pre (waitOrTimeout operation) fun _ => pre := by
  intro process hp
  refine Triple.bind (Q := fun _ after => pre after.cloud) (Triple.get' hp) ?_
  intro current after hafter
  split
  · exact failRetryable' before after hafter
  · refine (call' before before fun cloud a hc _ => hc : Leaves kept pre _ fun _ => pre)
      after hafter |>.bind ?_
    intro _ waited hw
    exact Triple.modify' hw

theorem attempt' {x : P (Option α)} {post : Option α → Cloud → Prop} (hx : Leaves kept pre x post)
    (before : ∀ cloud, kept cloud → post none cloud) :
    Leaves kept pre (attempt x) post := by
  intro process hp
  refine Triple.tryCatch' (hx process hp) ?_
  intro error after hk
  cases error with
  | stopped => exact Triple.throw' hk
  | thrown error =>
    show Triple (if error.retryable then _ else _) _ _ _
    split
    · exact Triple.pure' (before _ hk)
    · exact Triple.throw' hk

/-- Looks that keep the systems as they are, but for the kind of thing that is
waited for. -/
theorem poll' {x : P (Option α)} {post : α → Cloud → Prop}
    (hx : Leaves pre pre x fun found cloud => pre cloud ∧ ∀ a, found = some a → post a cloud) :
    Leaves pre pre (poll x operation) post := by
  have looks (fuel : Nat) : Leaves pre pre (pollFor x operation fuel) post := by
    induction fuel with
    | zero => exact failRetryable' fun _ h => h
    | succ fuel ih =>
      refine bind (attempt' hx fun cloud h => ⟨h, nofun⟩) ?_
      intro found
      cases found with
      | some a => exact pure' fun cloud h => h.2 a rfl
      | none =>
        exact bind ((waitOrTimeout' fun _ h => h).weaken (fun _ h => h.1) fun _ _ h => h)
          fun _ => ih
  intro process hp
  refine Triple.bind (Q := fun _ after => pre after.cloud) (Triple.get' hp) ?_
  intro current after hafter
  exact looks _ after hafter

end Leaves

-- ---------------------------------------------------------------------------
-- The systems that a call leaves
-- ---------------------------------------------------------------------------

section
variable (s : Setting) (request : ProvisioningRequest) (ids : ProviderIdentifiers)

/-- The stack that `provision` makes, with a status and `SigningEnabled`. -/
def stackOf (status : StackStatus) (signingEnabled : String) : Stack where
  name := ids.stackName
  stackId := s.stackId
  status := status
  parameters :=
    [("TenantId", ids.tenantId), ("SubscriptionId", request.subscriptionId),
      ("SupabaseProjectRef", s.projectRef), ("SigningEnabled", signingEnabled)]
  tags :=
    [("e-sig:managed-by", "cloud-provisioning"), ("e-sig:subscription-id", request.subscriptionId),
      ("e-sig:tenant-id", ids.tenantId)]

/-- The tenant of the request. -/
def identityOf : DedicatedTenantIdentity :=
  ⟨request.subscriptionId, ids.tenantId, s.projectRef, s.stackId⟩

/-- A stack is being created, or was. -/
def Creating (cloud : Cloud) (stack : Stack) : Prop :=
  (stack = stackOf s request ids .CREATE_IN_PROGRESS "true" ∧ cloud.stackPolls ≤ s.createPolls) ∨
    (stack = stackOf s request ids .CREATE_COMPLETE "true" ∧ cloud.stackPolls = 0)

/-- What there is was made for the request, and a stage of it not before the ones
that it is made from. -/
structure Staged (cloud : Cloud) : Prop where
  project : ∀ project, cloud.project = some project →
    project.ref = s.projectRef ∧ project.name = ids.projectName
  stack : ∀ stack, cloud.stack = some stack →
    cloud.project.isSome ∧ cloud.migrated ∧ Creating s request ids cloud stack
  tenant : ∀ tenant, cloud.tenant = some tenant →
    cloud.stack.isSome ∧ tenant = ⟨identityOf s request ids, .provisioning⟩

/-- There is a project. -/
def WithProject (cloud : Cloud) : Prop := Staged s request ids cloud ∧ cloud.project.isSome

/-- Its database has its tables. -/
def Migrated (cloud : Cloud) : Prop := WithProject s request ids cloud ∧ cloud.migrated

/-- There is a stack. -/
def WithStack (cloud : Cloud) : Prop := Migrated s request ids cloud ∧ cloud.stack.isSome

end

section
variable {s : Setting} {request : ProvisioningRequest} {ids : ProviderIdentifiers} {cloud : Cloud}

theorem staged_empty : Staged s request ids .empty := ⟨nofun, nofun, nofun⟩

theorem Creating.name {stack : Stack} (h : Creating s request ids cloud stack) :
    stack.name = ids.stackName := by
  obtain ⟨rfl, _⟩ | ⟨rfl, _⟩ := h <;> rfl

theorem Creating.stackId {stack : Stack} (h : Creating s request ids cloud stack) :
    stack.stackId = s.stackId := by
  obtain ⟨rfl, _⟩ | ⟨rfl, _⟩ := h <;> rfl

-- What an answer does to the systems.

theorem settleProject_isSome : cloud.settleProject.project.isSome = cloud.project.isSome := by
  unfold Cloud.settleProject
  split
  · split_ifs <;> simp [*]
  · simp [*]

theorem settleProject_rest (cloud : Cloud) :
    cloud.settleProject.migrated = cloud.migrated ∧ cloud.settleProject.stack = cloud.stack ∧
      cloud.settleProject.stackPolls = cloud.stackPolls ∧
      cloud.settleProject.tenant = cloud.tenant := by
  unfold Cloud.settleProject
  split <;> [split_ifs; skip] <;> exact ⟨rfl, rfl, rfl, rfl⟩

theorem settleProject_of (h : cloud.settleProject.project = some project) :
    ∃ before, cloud.project = some before ∧ before.ref = project.ref ∧ before.name = project.name := by
  unfold Cloud.settleProject at h
  split at h
  case h_1 before hb =>
    split_ifs at h
    · obtain rfl := Option.some.inj h
      exact ⟨before, hb, rfl, rfl⟩
    · exact ⟨project, h, rfl, rfl⟩
    · exact ⟨project, h, rfl, rfl⟩
  case h_2 hb => exact ⟨project, h, rfl, rfl⟩

theorem settleStack_isSome : cloud.settleStack.stack.isSome = cloud.stack.isSome := by
  unfold Cloud.settleStack
  split
  · split_ifs
    · rfl
    · split <;> simp [*]
  · rfl

theorem settleStack_rest (cloud : Cloud) :
    cloud.settleStack.project = cloud.project ∧ cloud.settleStack.migrated = cloud.migrated ∧
      cloud.settleStack.tenant = cloud.tenant := by
  unfold Cloud.settleStack
  split
  · split_ifs
    · exact ⟨rfl, rfl, rfl⟩
    · split <;> exact ⟨rfl, rfl, rfl⟩
  · exact ⟨rfl, rfl, rfl⟩

theorem Creating.settleStack {stack : Stack} (h : Creating s request ids cloud stack)
    (hs : cloud.stack = some stack) :
    ∃ after, cloud.settleStack.stack = some after ∧
      Creating s request ids cloud.settleStack after := by
  unfold Cloud.settleStack
  obtain ⟨rfl, hp⟩ | ⟨rfl, hp⟩ := h
  · by_cases h0 : cloud.stackPolls = 0
    · exact ⟨stackOf s request ids .CREATE_COMPLETE "true", by simp [hs, h0, stackOf],
        .inr ⟨rfl, by simp [hs, h0, stackOf]⟩⟩
    · exact ⟨stackOf s request ids .CREATE_IN_PROGRESS "true", by simp [hs, h0],
        .inl ⟨rfl, by simp [hs, h0]; omega⟩⟩
  · exact ⟨stackOf s request ids .CREATE_COMPLETE "true", by simp [hs, hp, stackOf],
      .inr ⟨rfl, by simp [hs, hp, stackOf]⟩⟩

theorem Staged.settleProject (h : Staged s request ids cloud) :
    Staged s request ids cloud.settleProject := by
  obtain ⟨hm, hs, hp, ht⟩ := settleProject_rest cloud
  constructor
  · intro project hproject
    obtain ⟨before, hb, href, hname⟩ := settleProject_of hproject
    have := h.project before hb
    exact ⟨href ▸ this.1, hname ▸ this.2⟩
  · intro stack hstack
    have := h.stack stack (hs ▸ hstack)
    rw [settleProject_isSome, hm, Creating, hp]
    exact this
  · intro tenant htenant
    rw [hs]
    exact h.tenant tenant (ht ▸ htenant)

theorem Staged.settleStack (h : Staged s request ids cloud) :
    Staged s request ids cloud.settleStack := by
  obtain ⟨hp, hm, ht⟩ := settleStack_rest cloud
  constructor
  · intro project hproject
    exact h.project project (hp ▸ hproject)
  · intro stack hstack
    rw [hp, hm]
    have hsome : cloud.stack.isSome := by rw [← settleStack_isSome, hstack]; rfl
    obtain ⟨before, hb⟩ := Option.isSome_iff_exists.mp hsome
    obtain ⟨hproject, hmigrated, hcreating⟩ := h.stack before hb
    obtain ⟨after, ha, hcreating⟩ := hcreating.settleStack hb
    obtain rfl := Option.some.inj (ha.symm.trans hstack)
    exact ⟨hproject, hmigrated, hcreating⟩
  · intro tenant htenant
    rw [settleStack_isSome]
    exact h.tenant tenant (ht ▸ htenant)

-- ---------------------------------------------------------------------------
-- The steps of a call
-- ---------------------------------------------------------------------------

theorem WithProject.staged (h : WithProject s request ids cloud) : Staged s request ids cloud := h.1

theorem Migrated.staged (h : Migrated s request ids cloud) : Staged s request ids cloud := h.1.1

theorem WithStack.staged (h : WithStack s request ids cloud) : Staged s request ids cloud := h.1.1.1

theorem findProjectByName_leaves :
    Leaves (Staged s request ids) (Staged s request ids) (findProjectByName name) fun found cloud =>
      Staged s request ids cloud ∧
        ∀ project, found = some project → cloud.project.isSome ∧ project.ref = s.projectRef := by
  refine Leaves.call' (fun _ h => h) (fun _ h => h) ?_
  intro cloud found h hfound
  refine ⟨h, ?_⟩
  rintro project rfl
  have hp : cloud.project = some project := (Option.filter_eq_some_iff.mp (Except.ok.inj hfound)).1
  exact ⟨by rw [hp]; rfl, (h.project project hp).1⟩

theorem Staged.withProject (h : Staged s request ids cloud) (hn : cloud.project = none) :
    Staged s request ids
      { cloud with
        project := some ⟨s.projectRef, ids.projectName, "COMING_UP"⟩
        healthPolls := s.healthPolls } where
  project := by
    rintro _ ⟨⟩
    exact ⟨rfl, rfl⟩
  stack stack hs := by
    have := (h.stack stack hs).1
    rw [hn] at this
    exact nomatch this
  tenant := h.tenant

theorem createProject_leaves :
    Leaves (Staged s request ids) (Staged s request ids) (createProject s ids.projectName)
      fun made cloud => Staged s request ids cloud ∧
        ∀ project, made = some project → cloud.project.isSome ∧ project.ref = s.projectRef := by
  refine Leaves.call' (fun _ h => h) ?_ ?_
  · intro cloud h
    rcases hp : cloud.project with _ | project
    · simpa [hp] using h.withProject hp
    · simpa [hp] using h
  · intro cloud found h hfound
    rcases hp : cloud.project with _ | project
    · simp only [hp, Except.ok.injEq] at hfound ⊢
      subst hfound
      exact ⟨h.withProject hp, by rintro _ ⟨⟩; exact ⟨rfl, rfl⟩⟩
    · simp only [hp, Except.ok.injEq] at hfound ⊢
      subst hfound
      exact ⟨h, nofun⟩

/-- The project of the request was found or made. -/
def Resolved (s : Setting) (request : ProvisioningRequest) (ids : ProviderIdentifiers)
    (resolution : ProjectResolution) (cloud : Cloud) : Prop :=
  WithProject s request ids cloud ∧ resolution.project.ref = s.projectRef

theorem ensureNamedProject_leaves :
    Leaves (Staged s request ids) (Staged s request ids)
      (ensureNamedProject s request ids.projectName) (Resolved s request ids) := by
  refine findProjectByName_leaves.bind ?_
  intro found
  cases found with
  | some project =>
    exact Leaves.pure' fun cloud h => ⟨⟨h.1, (h.2 project rfl).1⟩, (h.2 project rfl).2⟩
  | none =>
    have password : Leaves (Staged s request ids) (Staged s request ids) (resolveDatabasePassword s)
        fun _ => Staged s request ids := by
      refine (Leaves.call' (fun _ h => h) (fun _ h => h) fun _ _ h _ => h).bind ?_
      intro password
      cases password with
      | none => exact Leaves.failRetryable' fun _ h => h
      | some password =>
        dsimp only
        split
        · exact Leaves.fail' fun _ h => h
        · exact Leaves.pure' fun _ h => h
    refine (password.weaken (fun _ h => h.1) fun _ _ h => h).bind ?_
    intro _
    split
    · exact Leaves.fail' fun _ h => h
    · refine createProject_leaves.bind ?_
      intro made
      cases made with
      | none =>
        refine (findProjectByName_leaves.weaken (fun _ h => h.1) fun _ _ h => h).bind ?_
        intro found
        cases found with
        | none => exact Leaves.fail' fun _ h => h.1
        | some project =>
          exact Leaves.pure' fun cloud h => ⟨⟨h.1, (h.2 project rfl).1⟩, (h.2 project rfl).2⟩
      | some project =>
        dsimp only
        split
        · exact Leaves.fail' fun _ h => h.1
        · exact Leaves.pure' fun cloud h => ⟨⟨h.1, (h.2 project rfl).1⟩, (h.2 project rfl).2⟩

theorem ensureProject_leaves (priorProjectRef : Option String) :
    Leaves (Staged s request ids) (Staged s request ids)
      (ensureProject s request ids.projectName priorProjectRef) (Resolved s request ids) := by
  unfold ensureProject
  split
  · exact ensureNamedProject_leaves
  · have described (ref : String) :
        Leaves (Staged s request ids) (Staged s request ids) (describeProject ref)
          fun found cloud => Staged s request ids cloud ∧
            ∀ project, found = some project → cloud.project.isSome ∧ project.ref = s.projectRef := by
      refine Leaves.call' (fun _ h => h) (fun _ h => h.settleProject) ?_
      intro cloud found h hfound
      refine ⟨h.settleProject, ?_⟩
      rintro project rfl
      have hp : cloud.settleProject.project = some project :=
        (Option.filter_eq_some_iff.mp (Except.ok.inj hfound)).1
      exact ⟨by rw [hp]; rfl, (h.settleProject.project project hp).1⟩
    refine (described _).bind ?_
    intro found
    cases found with
    | none => exact ensureNamedProject_leaves.weaken (fun _ h => h.1) fun _ _ h => h
    | some project =>
      dsimp only
      split
      · exact Leaves.pure' fun cloud h => ⟨⟨h.1, (h.2 project rfl).1⟩, (h.2 project rfl).2⟩
      · exact Leaves.fail' fun _ h => h.1

theorem waitForProjectHealth_leaves (ref : String) :
    Leaves (WithProject s request ids) (WithProject s request ids) (waitForProjectHealth ref)
      fun _ => WithProject s request ids := by
  refine Leaves.poll' ?_
  have kept {cloud : Cloud} (h : WithProject s request ids cloud) (n : Nat) :
      WithProject s request ids { cloud with healthPolls := n } :=
    ⟨⟨h.1.project, h.1.stack, h.1.tenant⟩, h.2⟩
  refine Leaves.call' (fun _ h => h) ?_ ?_
  · intro cloud h
    split
    · exact h
    · split_ifs
      · exact h
      · exact kept h _
  · intro cloud found h hfound
    rcases hp : cloud.project.filter (·.ref == ref) with _ | project
    · simp [hp] at hfound
    · by_cases h0 : cloud.healthPolls = 0
      · simp only [hp, h0, ↓reduceIte]
        exact ⟨h, fun _ _ => h⟩
      · simp only [hp, h0, ↓reduceIte]
        exact ⟨kept h _, fun _ _ => kept h _⟩

theorem applyMigrations_leaves (ref : String) :
    Leaves (Staged s request ids) (WithProject s request ids) (applyMigrations ref)
      fun _ => Migrated s request ids := by
  have kept {cloud : Cloud} (h : WithProject s request ids cloud) :
      Migrated s request ids { cloud with migrated := true } := by
    refine ⟨⟨⟨h.1.project, ?_, h.1.tenant⟩, h.2⟩, rfl⟩
    intro stack hs
    exact ⟨h.2, rfl, (h.1.stack stack hs).2.2⟩
  refine Leaves.call' (fun _ h => h.1) ?_ ?_
  · intro cloud h
    split
    · exact h.1
    · exact (kept h).1.1
  · intro cloud applied h happlied
    rcases hp : cloud.project.filter (·.ref == ref) with _ | project
    · simp [hp] at happlied
    · simpa [hp] using kept h

theorem describeStack_leaves (name : String) :
    Leaves (Staged s request ids) (Migrated s request ids) (describeStack name) fun found cloud =>
      Migrated s request ids cloud ∧
        ∀ stack, found = some stack → cloud.stack.isSome ∧ stack.stackId = s.stackId := by
  have kept {cloud : Cloud} (h : Migrated s request ids cloud) :
      Migrated s request ids cloud.settleStack := by
    obtain ⟨hp, hm, _⟩ := settleStack_rest cloud
    exact ⟨⟨h.staged.settleStack, by rw [hp]; exact h.1.2⟩, by rw [hm]; exact h.2⟩
  refine Leaves.call' (fun _ h => h.staged) (fun _ h => (kept h).staged) ?_
  intro cloud found h hfound
  refine ⟨kept h, ?_⟩
  rintro stack rfl
  have hs : cloud.settleStack.stack = some stack :=
    (Option.filter_eq_some_iff.mp (Except.ok.inj hfound)).1
  exact ⟨by rw [hs]; rfl, ((kept h).staged.stack stack hs).2.2.stackId⟩

theorem validateStackIdentity_leaves {pre : Cloud → Prop} (stack : Stack) (tenantId : String) :
    Leaves pre pre (validateStackIdentity stack request tenantId) fun _ => pre :=
  Leaves.check' fun _ h => h

theorem waitForReadyStack_leaves (name tenantId : String) :
    Leaves (WithStack s request ids) (WithStack s request ids)
      (waitForReadyStack name request tenantId) fun stack cloud =>
        WithStack s request ids cloud ∧ stack.stackId = s.stackId := by
  refine Leaves.poll' ?_
  have described : Leaves (WithStack s request ids) (WithStack s request ids) (describeStack name)
      fun found cloud => WithStack s request ids cloud ∧
        ∀ stack, found = some stack → stack.stackId = s.stackId := by
    have kept {cloud : Cloud} (h : WithStack s request ids cloud) :
        WithStack s request ids cloud.settleStack := by
      obtain ⟨hp, hm, _⟩ := settleStack_rest cloud
      exact ⟨⟨⟨h.staged.settleStack, by rw [hp]; exact h.1.1.2⟩, by rw [hm]; exact h.1.2⟩,
        by rw [settleStack_isSome]; exact h.2⟩
    refine Leaves.call' (fun _ h => h) (fun _ h => kept h) ?_
    intro cloud found h hfound
    refine ⟨kept h, ?_⟩
    rintro stack rfl
    have hs : cloud.settleStack.stack = some stack :=
      (Option.filter_eq_some_iff.mp (Except.ok.inj hfound)).1
    exact ((kept h).staged.stack stack hs).2.2.stackId
  refine described.bind ?_
  intro found
  cases found with
  | none => exact Leaves.pure' fun cloud h => ⟨h.1, nofun⟩
  | some stack =>
    refine (validateStackIdentity_leaves stack tenantId |>.relax fun _ h => h.1).bind ?_
    intro _
    split
    · refine Leaves.pure' fun cloud h => ⟨h.1, ?_⟩
      rintro _ ⟨⟩
      exact ⟨h.1, h.2 stack rfl⟩
    · split
      · exact Leaves.fail' fun _ h => h.1
      · exact Leaves.pure' fun cloud h => ⟨h.1, nofun⟩

theorem Migrated.withStack (h : Migrated s request ids cloud) (hn : cloud.stack = none) :
    WithStack s request ids
      { cloud with
        stack := some (stackOf s request ids .CREATE_IN_PROGRESS "true")
        stackPolls := s.createPolls } := by
  refine ⟨⟨⟨⟨h.staged.project, ?_, ?_⟩, h.1.2⟩, h.2⟩, rfl⟩
  · rintro _ ⟨⟩
    exact ⟨h.1.2, h.2, .inl ⟨rfl, le_refl _⟩⟩
  · intro tenant ht
    exact ⟨rfl, (h.staged.tenant tenant ht).2⟩

theorem ensureStack_leaves :
    Leaves (Staged s request ids) (Migrated s request ids)
      (ensureStack s request s.projectRef ids) fun resolution cloud =>
        WithStack s request ids cloud ∧ resolution.stack.stackId = s.stackId := by
  have waited (created : Bool) :
      Leaves (Staged s request ids) (WithStack s request ids)
        (do
          let stack ← waitForReadyStack ids.stackName request ids.tenantId
          pure (⟨stack, created⟩ : StackResolution)) fun resolution cloud =>
            WithStack s request ids cloud ∧ resolution.stack.stackId = s.stackId :=
    ((waitForReadyStack_leaves _ _).relax fun _ h => h.staged).bind fun stack =>
      Leaves.pure' fun _ h => h
  refine (describeStack_leaves _).bind ?_
  intro found
  cases found with
  | some stack =>
    refine (validateStackIdentity_leaves stack ids.tenantId |>.relax fun _ h => h.1.staged).bind ?_
    intro _
    exact (waited false).weaken (fun _ h => ⟨h.1, (h.2 stack rfl).1⟩) fun _ _ h => h
  | none =>
    have made : Leaves (Staged s request ids) (Migrated s request ids)
        (createStack s ids.stackName
          [("TenantId", ids.tenantId), ("SubscriptionId", request.subscriptionId),
            ("SupabaseProjectRef", s.projectRef), ("SigningEnabled", "true")]
          [("e-sig:managed-by", "cloud-provisioning"),
            ("e-sig:subscription-id", request.subscriptionId), ("e-sig:tenant-id", ids.tenantId)])
        fun _ => WithStack s request ids := by
      refine Leaves.call' (fun _ h => h.staged) ?_ ?_
      · intro cloud h
        rcases hs : cloud.stack with _ | stack
        · simp only [hs]
          exact (h.withStack hs).staged
        · simpa [hs] using h.staged
      · intro cloud created h _
        rcases hs : cloud.stack with _ | stack
        · simp only [hs]
          exact h.withStack hs
        · simp only [hs]
          exact ⟨h, by rw [hs]; rfl⟩
    exact (made.weaken (fun _ h => h.1) fun _ _ h => h).bind fun created => waited created

theorem provisionTenant_leaves (credential : OneTimeCredential) :
    Leaves (Staged s request ids) (WithStack s request ids)
      (provisionTenant credential (identityOf s request ids)) fun _ => Staged s request ids := by
  have kept {cloud : Cloud} (h : WithStack s request ids cloud) :
      Staged s request ids
        { cloud with tenant := some ⟨identityOf s request ids, .provisioning⟩ } := by
    refine ⟨h.staged.project, h.staged.stack, ?_⟩
    rintro _ ⟨⟩
    exact ⟨h.2, rfl⟩
  refine Leaves.effect' (fun _ h => h.staged) ?_
  intro cloud h
  split_ifs
  · exact h.staged
  · split
    · exact kept h
    · split_ifs
      · exact h.staged
      · exact h.staged

theorem validateTenantProvisioningResult_leaves {pre : Cloud → Prop}
    (result : DedicatedTenantProvisioningResult) (tenantId : String)
    (prior : Option DedicatedProviderResources) :
    Leaves pre pre (validateTenantProvisioningResult result tenantId prior) fun _ => pre :=
  Leaves.check' fun _ h => h

theorem provisionInto_leaves (prior : Option DedicatedProviderResources)
    (credential : OneTimeCredential) {projectResolution : ProjectResolution}
    {stackResolution : StackResolution} (hp : projectResolution.project.ref = s.projectRef)
    (hs : stackResolution.stack.stackId = s.stackId) :
    Leaves (Staged s request ids) (WithStack s request ids)
      (provisionInto request ids prior credential projectResolution stackResolution)
      fun _ => Staged s request ids := by
  unfold provisionInto
  rw [hp, hs]
  dsimp only
  split
  · exact Leaves.fail' fun _ h => h.staged
  · split
    · exact Leaves.fail' fun _ h => h.staged
    · refine (provisionTenant_leaves credential).bind ?_
      intro result
      exact (validateTenantProvisioningResult_leaves _ _ _).bind fun _ => Leaves.pure' fun _ h => h

/-- A call of `provision` leaves the stages of the request, wherever it stops. -/
theorem provision_leaves (derived : deriveProviderIdentifiers s.rt request.subscriptionId .dedicated = .ok ids)
    (prior : Option DedicatedProviderResources) (credential : OneTimeCredential) :
    Leaves (Staged s request ids) (Staged s request ids) (provision s request prior credential)
      fun _ => Staged s request ids := by
  have validated : Leaves (Staged s request ids) (Staged s request ids)
      (validateProvisioningRequest s request) fun _ => Staged s request ids := by
    unfold validateProvisioningRequest
    split
    · exact Leaves.pure' fun _ h => h
    · exact Leaves.fail' fun _ h => h
  have priorChecked : Leaves (Staged s request ids) (Staged s request ids)
      (validatePrior prior request ids) fun _ => Staged s request ids :=
    Leaves.check' fun _ h => h
  have applied (migrations : List JsString) :
      Leaves (Staged s request ids) (Migrated s request ids) (validateMigrationResult migrations)
        fun _ => Migrated s request ids :=
    Leaves.check' fun _ h => h.staged
  refine validated.bind fun _ => ?_
  simp only [identifiersFor, derived, pure_bind]
  refine priorChecked.bind fun _ => ?_
  refine (Leaves.deadline' s).bind fun _ => ?_
  refine (ensureProject_leaves _).bind fun projectResolution => ?_
  by_cases hp : projectResolution.project.ref = s.projectRef
  · rw [hp]
    refine ((waitForProjectHealth_leaves _).relax fun _ h => h.staged).weaken (fun _ h => h.1)
      (fun _ _ h => h) |>.bind fun _ => ?_
    refine (applyMigrations_leaves _).bind fun migrations => ?_
    refine (applied migrations).bind fun _ => ?_
    refine ensureStack_leaves.bind fun stackResolution => ?_
    intro process h
    exact provisionInto_leaves prior credential hp h.2 process h.1
  · exact fun process h => absurd h.2 hp

end

end EsigSuite.Provisioning.Dedicated
