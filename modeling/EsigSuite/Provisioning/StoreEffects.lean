import EsigSuite.Provisioning.Calls

/-!
# What the calls change

Each call of the store changes one table at most, and each write has one lemma
that says when it goes through and what it leaves.
-/

namespace EsigSuite.Provisioning

open Lib

-- ---------------------------------------------------------------------------
-- The writes of the store
-- ---------------------------------------------------------------------------

namespace InMemoryProvisioningStore

variable {store : InMemoryProvisioningStore} {h : Hashing}

/-- An order may take the place of a stored one. -/
structure OrderReplaces (existing order : OrderRecord) : Prop where
  version : order.version = existing.version
  terminal : existing.billingState.terminal = true →
    order.billingState = existing.billingState ∨
      (existing.billingState = .canceled ∧ order.billingState = .refunded)

theorem putOrder_cases (store : InMemoryProvisioningStore) (order : OrderRecord)
    (expectedVersion : Option Nat) :
    (∃ e, store.putOrder order expectedVersion = (.error e, store)) ∨
      (store.orders order.subscriptionId = none ∧ expectedVersion = none ∧ order.version = 0 ∧
        store.putOrder order expectedVersion = (.ok order, store.setOrder order)) ∨
      ∃ existing, store.orders order.subscriptionId = some existing ∧
        expectedVersion = some existing.version ∧ OrderReplaces existing order ∧
        store.putOrder order expectedVersion =
          (.ok { order with version := existing.version + 1 },
            store.setOrder { order with version := existing.version + 1 }) := by
  unfold putOrder
  cases hstored : store.orders order.subscriptionId with
  | none =>
    dsimp only
    split
    · exact .inl ⟨_, rfl⟩
    · rename_i hnew
      simp only [Bool.or_eq_true, decide_eq_true_eq, not_or, not_not, Option.not_isSome_iff_eq_none,
        ] at hnew
      exact .inr (.inl ⟨rfl, hnew.1, hnew.2, rfl⟩)
  | some existing =>
    dsimp only
    split
    · exact .inl ⟨_, rfl⟩
    · rename_i hversion
      simp only [Bool.or_eq_true, decide_eq_true_eq, not_or, not_not] at hversion
      split
      · exact .inl ⟨_, rfl⟩
      · rename_i hterminal
        refine .inr (.inr ⟨existing, rfl, hversion.1, ⟨?_, fun ht => ?_⟩, rfl⟩)
        · exact Option.some.inj (hversion.2.symm.trans hversion.1)
        · by_cases hsame : order.billingState = existing.billingState
          · exact .inl hsame
          · right
            simpa [ht, hsame] using hterminal

theorem putJob_cases (store : InMemoryProvisioningStore) (h : Hashing) (job : ProvisioningJob)
    (expectedVersion : Option Nat) :
    (∃ e, store.putJob h job expectedVersion = (.error e, store)) ∨
      (store.jobs job.subscriptionId = none ∧ expectedVersion = none ∧ job.version = 0 ∧
        deterministicJobId h job.subscriptionId = .ok job.jobId ∧
        store.putJob h job expectedVersion = (.ok job, store.setJob job)) ∨
      ∃ existing, store.jobs job.subscriptionId = some existing ∧
        expectedVersion = some existing.version ∧ job.version = existing.version ∧
        deterministicJobId h job.subscriptionId = .ok job.jobId ∧
        store.putJob h job expectedVersion =
          (.ok { job with version := existing.version + 1 },
            store.setJob { job with version := existing.version + 1 }) := by
  unfold putJob
  split
  · exact .inl ⟨_, rfl⟩
  · rename_i jobId hjobId
    split
    · exact .inl ⟨_, rfl⟩
    · rename_i hid
      have hid : deterministicJobId h job.subscriptionId = .ok job.jobId := by
        rw [hjobId, not_not.mp hid]
      cases hstored : store.jobs job.subscriptionId with
      | none =>
        dsimp only
        split
        · exact .inl ⟨_, rfl⟩
        · rename_i hnew
          simp only [Bool.or_eq_true, decide_eq_true_eq, not_or, not_not,
            Option.not_isSome_iff_eq_none] at hnew
          exact .inr (.inl ⟨rfl, hnew.1, hnew.2, hid, rfl⟩)
      | some existing =>
        dsimp only
        split
        · exact .inl ⟨_, rfl⟩
        · rename_i hversion
          simp only [Bool.or_eq_true, decide_eq_true_eq, not_or, not_not] at hversion
          refine .inr (.inr ⟨existing, rfl, hversion.1.2, ?_, hid, rfl⟩)
          exact Option.some.inj (hversion.2.symm.trans hversion.1.2)

/-- A resource may take the place of one of the same identity. -/
theorem putResource_cases (store : InMemoryProvisioningStore) (h : Hashing)
    (resource : ResourceRecord) :
    (store.putResource h resource).2 = store ∨
      (store.putResource h resource = (.ok (), store.setResource resource) ∧
        ∀ existing, store.resources.find? (·.resourceKey == resource.resourceKey) = some existing →
          sameResourceIdentity existing resource = true) := by
  unfold putResource
  split
  · exact .inl rfl
  split
  · exact .inl rfl
  split
  · rename_i hnone
    exact .inr ⟨rfl, fun existing hexisting => absurd (hnone.symm.trans hexisting) (by simp)⟩
  · rename_i existing hexisting
    split
    · exact .inl rfl
    rename_i hsame
    split
    · exact .inl rfl
    refine .inr ⟨rfl, fun other hother => ?_⟩
    obtain rfl : existing = other := Option.some.inj (hexisting.symm.trans hother)
    simpa using hsame

theorem mem_setResource {resource other : ResourceRecord}
    (h : other ∈ (store.setResource resource).resources) : other = resource ∨ other ∈ store.resources := by
  unfold setResource at h
  dsimp only at h
  split at h
  · obtain ⟨existing, hexisting, rfl⟩ := List.mem_map.mp h
    split
    · exact .inl rfl
    · exact .inr hexisting
  · rcases List.mem_append.mp h with h | h
    · exact .inr h
    · exact .inl (List.mem_singleton.mp h)

end InMemoryProvisioningStore

-- ---------------------------------------------------------------------------
-- One table at most
-- ---------------------------------------------------------------------------

inductive StoreTable
  | orders
  | jobs
  | executionLeases
  | credentialHandoffs
  | resources
  deriving DecidableEq

/-- Two stores agree on every table but one. -/
structure AgreeExcept (table : Option StoreTable) (store store' : InMemoryProvisioningStore) :
    Prop where
  orders : table ≠ some .orders → store'.orders = store.orders
  jobs : table ≠ some .jobs → store'.jobs = store.jobs
  executionLeases : table ≠ some .executionLeases → store'.executionLeases = store.executionLeases
  credentialHandoffs :
    table ≠ some .credentialHandoffs → store'.credentialHandoffs = store.credentialHandoffs
  resources : table ≠ some .resources → store'.resources = store.resources

theorem AgreeExcept.refl (table : Option StoreTable) (store : InMemoryProvisioningStore) :
    AgreeExcept table store store :=
  ⟨fun _ => rfl, fun _ => rfl, fun _ => rfl, fun _ => rfl, fun _ => rfl⟩

/-- The table that a call writes. -/
def Op.writes {E : Outside} : Op E → Option StoreTable
  | .putOrder .. => some .orders
  | .putJob .. => some .jobs
  | .acquireJobExecutionLease .. | .renewJobExecutionLease .. | .releaseJobExecutionLease _ =>
    some .executionLeases
  | .beginCredentialHandoff .. | .bindCredentialHandoff .. | .publishCredentialHandoff _
  | .revokeCredentialHandoff _ => some .credentialHandoffs
  | .putResource _ => some .resources
  | _ => none

/-- A call of the store or the clock. -/
def Op.inside {E : Outside} : Op E → Bool
  | .outside _ => false
  | _ => true

section
variable {store : InMemoryProvisioningStore} {h : Hashing}

theorem agree_order (order : OrderRecord) : AgreeExcept (some .orders) store (store.setOrder order) :=
  ⟨fun hne => absurd rfl hne, fun _ => rfl, fun _ => rfl, fun _ => rfl, fun _ => rfl⟩

theorem agree_job (job : ProvisioningJob) : AgreeExcept (some .jobs) store (store.setJob job) :=
  ⟨fun _ => rfl, fun hne => absurd rfl hne, fun _ => rfl, fun _ => rfl, fun _ => rfl⟩

theorem agree_leases (leases : String → Option JobExecutionLease) :
    AgreeExcept (some .executionLeases) store { store with executionLeases := leases } :=
  ⟨fun _ => rfl, fun _ => rfl, fun hne => absurd rfl hne, fun _ => rfl, fun _ => rfl⟩

theorem agree_pointer (pointer : CredentialHandoffPointer) :
    AgreeExcept (some .credentialHandoffs) store (store.setPointer pointer) :=
  ⟨fun _ => rfl, fun _ => rfl, fun _ => rfl, fun hne => absurd rfl hne, fun _ => rfl⟩

theorem agree_resource (resource : ResourceRecord) :
    AgreeExcept (some .resources) store (store.setResource resource) :=
  ⟨fun _ => rfl, fun _ => rfl, fun _ => rfl, fun _ => rfl, fun hne => absurd rfl hne⟩

theorem putOrder_agree (order : OrderRecord) (v : Option Nat) :
    AgreeExcept (some .orders) store (store.putOrder order v).2 := by
  rcases store.putOrder_cases order v with ⟨e, he⟩ | ⟨-, -, -, he⟩ | ⟨existing, -, -, -, he⟩ <;>
    rw [he]
  · exact .refl _ _
  · exact agree_order _
  · exact agree_order _

theorem putJob_agree (job : ProvisioningJob) (v : Option Nat) :
    AgreeExcept (some .jobs) store (store.putJob h job v).2 := by
  rcases store.putJob_cases h job v with ⟨e, he⟩ | ⟨-, -, -, -, he⟩ | ⟨existing, -, -, -, -, he⟩ <;>
    rw [he]
  · exact .refl _ _
  · exact agree_job _
  · exact agree_job _

theorem acquire_agree (subscriptionId ownerId : String) (now duration : Int) :
    AgreeExcept (some .executionLeases) store
      (store.acquireJobExecutionLease subscriptionId ownerId now duration).2 := by
  unfold InMemoryProvisioningStore.acquireJobExecutionLease
  split
  · exact .refl _ _
  · dsimp only
    split
    · exact .refl _ _
    · exact agree_leases _

theorem renew_agree (lease : JobExecutionLease) (now duration : Int) :
    AgreeExcept (some .executionLeases) store
      (store.renewJobExecutionLease lease now duration).2 := by
  unfold InMemoryProvisioningStore.renewJobExecutionLease
  split
  · exact .refl _ _
  · split
    · exact .refl _ _
    · split
      · exact .refl _ _
      · exact agree_leases _

theorem release_agree (lease : JobExecutionLease) :
    AgreeExcept (some .executionLeases) store (store.releaseJobExecutionLease lease).2 := by
  unfold InMemoryProvisioningStore.releaseJobExecutionLease
  split
  · exact .refl _ _
  · split
    · exact agree_leases _
    · exact .refl _ _

theorem changePointer_agree (lease : JobExecutionLease) (now : Int) (handoffId : String)
    (change : Option CredentialHandoffPointer → Option CredentialHandoffPointer) :
    AgreeExcept (some .credentialHandoffs) store
      (store.changePointer lease now handoffId change).2 := by
  unfold InMemoryProvisioningStore.changePointer
  split
  · exact .refl _ _
  · split
    · exact .refl _ _
    · exact agree_pointer _

theorem putResource_agree (resource : ResourceRecord) :
    AgreeExcept (some .resources) store (store.putResource h resource).2 := by
  unfold InMemoryProvisioningStore.putResource
  split
  · exact .refl _ _
  · split
    · exact .refl _ _
    · split
      · exact agree_resource _
      · split
        · exact .refl _ _
        · split
          · exact .refl _ _
          · exact agree_resource _

end

-- ---------------------------------------------------------------------------
-- The calls
-- ---------------------------------------------------------------------------

section
variable {E : Outside} {X : Type} {rt : Runtime} {outside : E.Exec X} {s s' : System X}

theorem System.Answered.cases {outcome : Answer α × System X} {r : Answer α}
    (h : s.Answered outcome r s') : s' = s ∨ s' = outcome.2 := by
  rcases h with ⟨-, h⟩ | ⟨-, h⟩
  · exact .inr h
  · exact h

theorem through_agree {outcome : Outcome InMemoryProvisioningStore α} {r : Answer α}
    (h : s.Answered (s.through outcome) r s') (hagree : AgreeExcept table s.store outcome.2) :
    AgreeExcept table s.store s'.store := by
  rcases h.cases with rfl | rfl
  · exact .refl _ _
  · exact hagree

theorem read_eq {value : α} {r : Answer α} (h : s.Answered (s.read value) r s') : s' = s :=
  h.cases.elim (fun h => h) fun h => h

theorem exec_agree {op : Op E} {r : op.Res} (h : op.exec rt outside s r s') :
    AgreeExcept op.writes s.store s'.store := by
  cases op with
  | clock => rw [show s' = s from h]; exact .refl _ _
  | getOrder => rw [read_eq h]; exact .refl _ _
  | putOrder event order v =>
    rcases System.Answered.cases h with rfl | rfl
    · exact .refl _ _
    · have hagree : AgreeExcept (some .orders) s.store (s.store.putOrder order v).2 :=
        putOrder_agree order v
      unfold System.putOrder
      split <;> rename_i hput <;> rw [hput] at hagree <;> exact hagree
  | getJob => rw [read_eq h]; exact .refl _ _
  | putJob job v => exact through_agree h (putJob_agree job v)
  | acquireJobExecutionLease => exact through_agree h (acquire_agree _ _ _ _)
  | renewJobExecutionLease => exact through_agree h (renew_agree _ _ _)
  | releaseJobExecutionLease => exact through_agree h (release_agree _)
  | getCredentialHandoffPointer => rw [read_eq h]; exact .refl _ _
  | beginCredentialHandoff => exact through_agree h (changePointer_agree _ _ _ _)
  | bindCredentialHandoff => exact through_agree h (changePointer_agree _ _ _ _)
  | publishCredentialHandoff => exact through_agree h (changePointer_agree _ _ _ _)
  | revokeCredentialHandoff => exact through_agree h (changePointer_agree _ _ _ _)
  | listResources => rw [read_eq h]; exact .refl _ _
  | putResource => exact through_agree h (putResource_agree _)
  | outside call =>
    obtain ⟨x, -, rfl⟩ := h
    exact .refl _ _

theorem exec_outside {op : Op E} {r : op.Res} (h : op.exec rt outside s r s')
    (hop : op.inside = true) : s'.outside = s.outside := by
  cases op with
  | outside => cases hop
  | clock => rw [show s' = s from h]
  | putOrder event order v =>
    rcases System.Answered.cases h with rfl | rfl
    · rfl
    · unfold System.putOrder
      split <;> rfl
  | _ => rcases System.Answered.cases h with rfl | rfl <;> rfl

theorem exec_reduced {op : Op E} {r : op.Res} (h : op.exec rt outside s r s')
    (hop : op.writes ≠ some .orders) : s'.reduced = s.reduced := by
  cases op with
  | putOrder => exact absurd rfl hop
  | clock => rw [show s' = s from h]
  | outside call =>
    obtain ⟨x, -, rfl⟩ := h
    rfl
  | _ => rcases System.Answered.cases h with rfl | rfl <;> rfl

/-- A canceled or refunded order is not replaced by another kind. -/
def OrderStored (store : InMemoryProvisioningStore) (order : OrderRecord)
    (store' : InMemoryProvisioningStore) : Prop :=
  store' = store.setOrder order ∧ ∀ existing, store.getOrder order.subscriptionId = some existing →
    existing.billingState.terminal = true → order.billingState.terminal = true

theorem exec_orders {op : Op E} {r : op.Res} (h : op.exec rt outside s r s') :
    s'.store.orders = s.store.orders ∨ ∃ order, OrderStored s.store order s'.store := by
  by_cases hop : op.writes = some .orders
  · cases op with
    | putOrder event order v =>
      rcases System.Answered.cases h with rfl | rfl
      · exact .inl rfl
      · rcases s.store.putOrder_cases order v with
          ⟨e, he⟩ | ⟨hnone, -, -, he⟩ | ⟨existing, hexisting, -, hreplaces, he⟩ <;>
          simp only [System.putOrder, he]
        · exact .inl trivial
        · refine .inr ⟨order, rfl, fun o ho _ => ?_⟩
          exact absurd (hnone.symm.trans ho) (Option.some_ne_none o).symm
        · refine .inr ⟨_, rfl, fun o ho hterminal => ?_⟩
          obtain rfl : o = existing := Option.some.inj (ho.symm.trans hexisting)
          rcases hreplaces.terminal hterminal with hstate | ⟨-, hstate⟩
          · exact hstate ▸ hterminal
          · change order.billingState.terminal = true
            rw [hstate]
            rfl
    | _ => cases hop
  · exact .inl ((exec_agree h).orders hop)

@[simp] theorem setJob_getJob (store : InMemoryProvisioningStore) (job : ProvisioningJob)
    (subscriptionId : String) : (store.setJob job).getJob subscriptionId =
      if subscriptionId = job.subscriptionId then some job else store.getJob subscriptionId :=
  Function.update_apply _ _ _ _

@[simp] theorem setOrder_getOrder (store : InMemoryProvisioningStore) (order : OrderRecord)
    (subscriptionId : String) : (store.setOrder order).getOrder subscriptionId =
      if subscriptionId = order.subscriptionId then some order else store.getOrder subscriptionId :=
  Function.update_apply _ _ _ _

end

end EsigSuite.Provisioning
