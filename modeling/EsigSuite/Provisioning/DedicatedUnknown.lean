import EsigSuite.Provisioning.Convergence
import EsigSuite.Provisioning.DedicatedStops

/-!
# Unknown dedicated tenants

`suspendUnknown` and `compensateUnknown`, of a process that does not stop, on
what calls of `provision` left. `compensateUnknown` passes over what is missing;
`suspendUnknown` does not.
-/

namespace EsigSuite.Provisioning.Dedicated

open Bootstrapper (ProviderErrorCode)
open Lib

-- ---------------------------------------------------------------------------
-- A process that does not stop
-- ---------------------------------------------------------------------------

def running (cloud : Cloud) (waits : Nat) : Process := ⟨cloud, waits, none, false⟩

/-- The action returns, with `Q` of what it returns, of the systems and of how
often the process can still wait. -/
def Yields (x : P α) (cloud : Cloud) (waits : Nat) (Q : α → Cloud → Nat → Prop) : Prop :=
  Triple x (running cloud waits)
    (fun a after => ∃ cloud waits, after = running cloud waits ∧ Q a cloud waits) fun _ _ => False

/-- The action throws an error of `E`. -/
def Throws (x : P α) (cloud : Cloud) (waits : Nat) (E : ProviderError → Cloud → Prop) : Prop :=
  Triple x (running cloud waits) (fun _ _ => False)
    fun e after => ∃ error cloud, e = .thrown error ∧ after = running cloud waits ∧ E error cloud

namespace Throws

variable {cloud : Cloud} {waits : Nat} {E : ProviderError → Cloud → Prop}

theorem call' {answer : Cloud → Except ProviderError α × Cloud}
    (ha : (answer cloud).1 = .error e) (hq : E e (answer cloud).2) :
    Throws (call answer) cloud waits E := by
  simpa [Throws, Triple, call, running, ExceptT.mk, ha, Except.mapError] using hq

theorem bind {x : P α} {f : α → P β} (hx : Throws x cloud waits E) :
    Throws (x >>= f) cloud waits E :=
  Triple.bind (Triple.weaken hx (fun _ _ h => h) fun _ _ h => h) fun _ _ h => h.elim

theorem weaken {x : P α} {E' : ProviderError → Cloud → Prop} (h : Throws x cloud waits E)
    (he : ∀ error cloud, E error cloud → E' error cloud) : Throws x cloud waits E' := by
  refine Triple.weaken h (fun _ _ h => h) ?_
  rintro _ _ ⟨error, cloud', rfl, rfl, herror⟩
  exact ⟨error, cloud', rfl, rfl, he error cloud' herror⟩

end Throws

namespace Yields

variable {cloud : Cloud} {waits : Nat} {Q : α → Cloud → Nat → Prop}

theorem pure' (h : Q a cloud waits) : Yields (pure a) cloud waits Q :=
  Triple.pure' ⟨cloud, waits, rfl, h⟩

theorem bind {x : P α} {f : α → P β} {R : β → Cloud → Nat → Prop} (hx : Yields x cloud waits Q)
    (hf : ∀ a cloud waits, Q a cloud waits → Yields (f a) cloud waits R) :
    Yields (x >>= f) cloud waits R := by
  refine Triple.bind hx ?_
  rintro a _ ⟨cloud, waits, rfl, ha⟩
  exact hf a cloud waits ha

theorem bind_throws {x : P α} {f : α → P β} {E : ProviderError → Cloud → Prop}
    (hx : Yields x cloud waits fun a cloud waits' => waits' = waits ∧ Throws (f a) cloud waits E) :
    Throws (x >>= f) cloud waits E := by
  refine Triple.bind (hx.weaken (fun _ _ h => h) fun _ _ h => h.elim) ?_
  rintro a _ ⟨cloud, _, rfl, rfl, ha⟩
  exact ha

theorem weaken {x : P α} {R : α → Cloud → Nat → Prop} (h : Yields x cloud waits Q)
    (hq : ∀ a cloud waits, Q a cloud waits → R a cloud waits) : Yields x cloud waits R := by
  refine Triple.weaken h ?_ fun _ _ h => h
  rintro a _ ⟨cloud, waits, rfl, ha⟩
  exact ⟨cloud, waits, rfl, hq a cloud waits ha⟩

theorem call' {answer : Cloud → Except ProviderError α × Cloud}
    (ha : (answer cloud).1 = .ok a) (hq : Q a (answer cloud).2 waits) :
    Yields (call answer) cloud waits Q := by
  simpa [Yields, Triple, call, running, ExceptT.mk, ha, Except.mapError] using hq

theorem deadline' (s : Setting) {Q : PUnit → Cloud → Nat → Prop} (h : Q ⟨⟩ cloud s.waits) :
    Yields (deadline s) cloud waits Q :=
  Triple.modify' ⟨cloud, s.waits, rfl, h⟩

theorem waitOrTimeout' (operation : String) (h : waits ≠ 0) :
    Yields (waitOrTimeout operation) cloud waits fun _ cloud' waits' =>
      cloud' = cloud ∧ waits' + 1 = waits := by
  refine Triple.bind (Q := fun current after => current = running cloud waits ∧ after = current)
    (Triple.get' ⟨rfl, rfl⟩) ?_
  rintro _ _ ⟨rfl, rfl⟩
  rw [if_neg (by exact h)]
  refine bind (call' rfl ⟨rfl, rfl⟩ :
    Yields _ cloud waits fun _ cloud' waits' => cloud' = cloud ∧ waits' = waits) ?_
  rintro _ cloud' waits' ⟨rfl, rfl⟩
  exact Triple.modify' ⟨cloud', waits' - 1, rfl, rfl, by omega⟩

/-- Looks of which the last one finds what is waited for. -/
theorem poll' {x : P (Option α)} {R : Nat → Cloud → Prop} {F : α → Cloud → Prop}
    (last : ∀ cloud waits, R 0 cloud → Yields x cloud waits fun look cloud' waits' =>
      waits' = waits ∧ ∃ a, look = some a ∧ F a cloud')
    (later : ∀ k cloud waits, R (k + 1) cloud → Yields x cloud waits fun look cloud' waits' =>
      waits' = waits ∧ look = none ∧ R k cloud')
    {k rest : Nat} (h : R k cloud) (enough : k + rest ≤ waits) :
    Yields (poll x operation) cloud waits fun a cloud' waits' => F a cloud' ∧ rest ≤ waits' := by
  have attempted {cloud : Cloud} {waits : Nat} {Q : Option α → Cloud → Nat → Prop}
      (hx : Yields x cloud waits Q) : Yields (attempt x) cloud waits Q :=
    Triple.tryCatch' hx fun _ _ h => h.elim
  have looks (fuel : Nat) : ∀ k cloud waits, R k cloud → k + rest ≤ waits → waits < fuel →
      Yields (pollFor x operation fuel) cloud waits fun a cloud' waits' =>
        F a cloud' ∧ rest ≤ waits' := by
    induction fuel with
    | zero => exact fun _ _ _ _ _ h => absurd h (Nat.not_lt_zero _)
    | succ fuel ih =>
      intro k cloud waits hk enough hfuel
      cases k with
      | zero =>
        refine (attempted (last cloud waits hk)).bind ?_
        rintro _ cloud' _ ⟨rfl, a, rfl, ha⟩
        exact pure' ⟨ha, by omega⟩
      | succ k =>
        refine (attempted (later k cloud waits hk)).bind ?_
        rintro _ cloud' _ ⟨rfl, rfl, hk⟩
        refine (waitOrTimeout' operation (by omega)).bind ?_
        rintro _ _ waits' ⟨rfl, hw⟩
        exact ih k _ waits' hk (by omega) (by omega)
  refine Triple.bind (Q := fun current after => current = running cloud waits ∧ after = current)
    (Triple.get' ⟨rfl, rfl⟩) ?_
  rintro _ _ ⟨rfl, rfl⟩
  exact looks _ k cloud waits h enough (Nat.lt_succ_self _)

end Yields

-- ---------------------------------------------------------------------------
-- What is found
-- ---------------------------------------------------------------------------

section
variable {s : Setting} {request : ProvisioningRequest} {ids : ProviderIdentifiers}
variable {cloud : Cloud} {waits : Nat}

theorem Staged.findProject (h : Staged s request ids cloud) :
    cloud.project.filter (·.name == ids.projectName) = cloud.project := by
  rcases hp : cloud.project with _ | project
  · rfl
  · simp [(h.project project hp).2]

theorem Staged.findRef (h : Staged s request ids cloud) :
    cloud.project.filter (·.ref == s.projectRef) = cloud.project := by
  rcases hp : cloud.project with _ | project
  · rfl
  · simp [(h.project project hp).1]

theorem Staged.findStack (h : Staged s request ids cloud) :
    cloud.stack.filter (·.name == ids.stackName) = cloud.stack := by
  rcases hs : cloud.stack with _ | stack
  · rfl
  · simp [(h.stack stack hs).2.2.name]

theorem findProjectByName_yields (h : Staged s request ids cloud) :
    Yields (findProjectByName ids.projectName) cloud waits fun found cloud' waits' =>
      found = cloud.project ∧ cloud' = cloud ∧ waits' = waits :=
  Yields.call' rfl ⟨h.findProject, rfl, rfl⟩

theorem describeStack_yields (h : Staged s request ids cloud) :
    Yields (describeStack ids.stackName) cloud waits fun found cloud' waits' =>
      found = cloud.settleStack.stack ∧ cloud' = cloud.settleStack ∧ waits' = waits :=
  Yields.call' rfl ⟨h.settleStack.findStack, rfl, rfl⟩

theorem stackOf_identity (status : StackStatus) (signingEnabled : String) :
    validateStackIdentity (stackOf s request ids status signingEnabled) request ids.tenantId =
      pure () := by
  simp [validateStackIdentity, stackTag, stackOf]

theorem stackOf_projectRef (status : StackStatus) (signingEnabled : String) :
    stackParameter (stackOf s request ids status signingEnabled) "SupabaseProjectRef" =
      some s.projectRef := by
  simp [stackParameter, stackOf]

theorem Creating.identity {stack : Stack} (h : Creating s request ids cloud stack) :
    validateStackIdentity stack request ids.tenantId = pure () := by
  obtain ⟨rfl, _⟩ | ⟨rfl, _⟩ := h <;> exact stackOf_identity _ _

theorem Creating.projectRef {stack : Stack} (h : Creating s request ids cloud stack) :
    stackParameter stack "SupabaseProjectRef" = some s.projectRef := by
  obtain ⟨rfl, _⟩ | ⟨rfl, _⟩ := h <;> exact stackOf_projectRef _ _

-- ---------------------------------------------------------------------------
-- Disabling the stack
-- ---------------------------------------------------------------------------

/-- The stack takes some more looks to be described as settled. -/
def StackIn (s : Setting) (request : ProvisioningRequest) (ids : ProviderIdentifiers)
    (project : Option SupabaseProject) (status : StackStatus) (signingEnabled : String)
    (polls : Nat) (cloud : Cloud) : Prop :=
  cloud.stack = some (stackOf s request ids status signingEnabled) ∧ cloud.stackPolls = polls ∧
    cloud.project = project

variable {project : Option SupabaseProject} {status : StackStatus} {signingEnabled : String}

theorem StackIn.describe (h : StackIn s request ids project status signingEnabled polls cloud) :
    (cloud.settleStack.stack.filter (·.name == ids.stackName)) = cloud.settleStack.stack := by
  unfold Cloud.settleStack
  simp only [h.1]
  split_ifs
  · simp [stackOf]
  · cases status <;> simp [h.1, stackOf]

/-- An operation in progress that takes some more looks does after this one. -/
theorem StackIn.later
    (h : StackIn s request ids project status signingEnabled (polls + 1) cloud) :
    StackIn s request ids project status signingEnabled polls cloud.settleStack := by
  unfold Cloud.settleStack
  simp [StackIn, h.1, h.2.1, h.2.2]

theorem StackIn.created
    (h : StackIn s request ids project .CREATE_IN_PROGRESS signingEnabled 0 cloud) :
    StackIn s request ids project .CREATE_COMPLETE signingEnabled 0 cloud.settleStack := by
  unfold Cloud.settleStack
  simp [StackIn, h.1, h.2.1, h.2.2, stackOf]

theorem StackIn.updated
    (h : StackIn s request ids project .UPDATE_IN_PROGRESS signingEnabled 0 cloud) :
    StackIn s request ids project .UPDATE_COMPLETE signingEnabled 0 cloud.settleStack := by
  unfold Cloud.settleStack
  simp [StackIn, h.1, h.2.1, h.2.2, stackOf]

theorem Staged.withStack {stack : Stack} (h : Staged s request ids cloud)
    (hs : cloud.stack = some stack) : WithStack s request ids cloud :=
  ⟨⟨⟨h, (h.stack stack hs).1⟩, (h.stack stack hs).2.1⟩, by rw [hs]; rfl⟩

theorem WithStack.reached (h : WithStack s request ids cloud) :
    ¬ (cloud.project.filter (·.ref == (identityOf s request ids).projectRef) = none ∨
      (!cloud.migrated) = true) := by
  show ¬ (cloud.project.filter (·.ref == s.projectRef) = none ∨ _)
  rw [h.staged.findRef]
  obtain ⟨project, hp⟩ := Option.isSome_iff_exists.mp h.1.1.2
  simp [hp, h.1.2]

/-- Both operations look for the project and at the stack first. -/
theorem finding (h : Staged s request ids cloud) (valid : requestValid s request)
    (derived : deriveProviderIdentifiers s.rt request.subscriptionId .dedicated = .ok ids)
    (next : ProviderIdentifiers → Option SupabaseProject → Option Stack → P α) :
    (do
      validateProvisioningRequest s request
      let identifiers ← identifiersFor s request
      deadline s
      let project ← findProjectByName identifiers.projectName
      let stack ← describeStack identifiers.stackName
      next identifiers project stack : P α) (running cloud waits) =
      next ids cloud.settleStack.project cloud.settleStack.stack
        (running cloud.settleStack s.waits) := by
  simp only [validateProvisioningRequest, if_pos valid, identifiersFor, derived, pure_bind]
  show next ids (cloud.project.filter (·.name == ids.projectName))
    (cloud.settleStack.stack.filter (·.name == ids.stackName)) (running cloud.settleStack s.waits) = _
  rw [h.findProject, h.settleStack.findStack, (settleStack_rest cloud).1]

end

-- ---------------------------------------------------------------------------
-- What provisioning leaves
-- ---------------------------------------------------------------------------

/-- What any number of calls of `provision` leaves, each of which ends or stops at
one of its awaits. -/
inductive Left (s : Setting) (request : ProvisioningRequest) : Cloud → Prop
  | empty : Left s request .empty
  | provisioned (prior : Option DedicatedProviderResources) (credential : OneTimeCredential)
      (stop : Option Nat) (lost : Bool) (before : Left s request cloud) :
      Left s request (provision s request prior credential ⟨cloud, 0, stop, lost⟩).2.cloud

/-- The operation returns that nothing is there, or its target outcome. -/
def Settles (operation : P UnknownResult) (target : UnknownOutcome) (cloud : Cloud) : Prop :=
  ∃ result, (operation (running cloud 0)).1 = .ok result ∧
    (result.outcome = .absent ∨ result.outcome = target)

section
variable {s : Setting} {request : ProvisioningRequest} {ids : ProviderIdentifiers} {cloud : Cloud}

theorem Left.staged
    (derived : deriveProviderIdentifiers s.rt request.subscriptionId .dedicated = .ok ids)
    (left : Left s request cloud) : Staged s request ids cloud := by
  induction left with
  | empty => exact staged_empty
  | provisioned prior credential stop lost before ih =>
    have h := provision_leaves derived prior credential ⟨_, 0, stop, lost⟩ ih
    rcases hx : provision s request prior credential ⟨_, 0, stop, lost⟩ with ⟨e | a, after⟩
    · exact h.threw hx
    · exact h.returned hx

end

-- ---------------------------------------------------------------------------
-- A subscription
-- ---------------------------------------------------------------------------

namespace Sample

def hashing : Hashing where
  sha256Hex text :=
    if text = "e-sig:subscription:sub_1" then
      "2bf852f8cad30beff3d1467deae024b8c18b6696c47a8638ca1d80c14887dd80"
    else ""
  sha1 _ :=
    [0x73, 0x6b, 0x1d, 0x0f, 0x42, 0x78, 0x22, 0xa0, 0xef, 0x2a, 0xfb, 0x0a, 0x1d, 0x1a, 0x9a,
      0x00, 0xd8, 0x2e, 0xa0, 0x34]

def setting : Setting where
  rt := ⟨hashing, .codePoints⟩
  toLowerCase text := text
  databasePassword := some "a-long-database-password"
  projectRef := "abcdefghijklmnopqrst"
  stackId := "arn:aws:cloudformation:us-east-1:1:stack/esig"
  stackId_ne := by decide
  healthPolls := 1
  pausePolls := 1
  createPolls := 1
  updatePolls := 1
  waits := 10

def request : ProvisioningRequest where
  subscriptionId := "sub_1"
  customerId := "cus_1"
  ownerSubject := "owner@example.com"
  planCode := .team
  region := "us-east-1"

def credential : OneTimeCredential := ⟨"cred_1", "secret"⟩

/-- What a call of `provision` leaves that stops before its fourth answer. -/
def stopped : Cloud := (provision setting request none credential ⟨.empty, 0, some 3, false⟩).2.cloud

end Sample

end EsigSuite.Provisioning.Dedicated
