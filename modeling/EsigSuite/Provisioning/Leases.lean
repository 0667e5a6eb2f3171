import EsigSuite.Lib.Fence
import EsigSuite.Provisioning.DynamoStore

/-!
# Execution leases

The lease and handoff operations of both stores, called by any workers in any
order. A call may fail without effect, and its answer may be lost. In every
state at most one owner and token are accepted, and a lease that was taken over
is worth nothing from then on.
-/

namespace EsigSuite.Provisioning

open Lib

inductive LeaseCall
  | acquire (subscriptionId ownerId : String) (now leaseDurationMs : Int)
  | renew (lease : JobExecutionLease) (now leaseDurationMs : Int)
  | release (lease : JobExecutionLease)
  | beginHandoff (pointer : CredentialHandoffPointer) (lease : JobExecutionLease) (now : Int)
      (expectedPublicationGeneration : Option Nat)
  | bindHandoff (input : CredentialHandoffMutationInput) (publication : CredentialSecretPublication)
  | publishHandoff (input : CredentialHandoffMutationInput)
  | revokeHandoff (input : CredentialHandoffMutationInput)

inductive LeaseAnswer
  | claim (result : JobExecutionLeaseClaimResult)
  | renewed (lease : JobExecutionLease)
  | released
  | pointer (pointer : CredentialHandoffPointer)
  deriving DecidableEq

/-- The lease a call presents. -/
def LeaseCall.lease : LeaseCall → Option JobExecutionLease
  | .acquire .. => none
  | .renew lease _ _ | .release lease | .beginHandoff _ lease _ _ => some lease
  | .bindHandoff input _ | .publishHandoff input | .revokeHandoff input => some input.lease

/-- The lease a call is refused without, and the clock it is checked with. -/
def LeaseCall.fence : LeaseCall → Option (JobExecutionLease × Int)
  | .acquire .. | .release _ => none
  | .renew lease now _ | .beginHandoff _ lease now _ => some (lease, now)
  | .bindHandoff input _ | .publishHandoff input | .revokeHandoff input =>
    some (input.lease, input.now)

def answer (f : α → LeaseAnswer) (outcome : Outcome σ α) : Outcome σ LeaseAnswer :=
  (f <$> outcome.1, outcome.2)

def InMemoryProvisioningStore.perform (store : InMemoryProvisioningStore) :
    LeaseCall → Outcome InMemoryProvisioningStore LeaseAnswer
  | .acquire subscriptionId ownerId now leaseDurationMs =>
    answer .claim (store.acquireJobExecutionLease subscriptionId ownerId now leaseDurationMs)
  | .renew lease now leaseDurationMs =>
    answer .renewed (store.renewJobExecutionLease lease now leaseDurationMs)
  | .release lease => answer (fun _ => .released) (store.releaseJobExecutionLease lease)
  | .beginHandoff pointer lease now expected =>
    answer .pointer (store.beginCredentialHandoff pointer lease now expected)
  | .bindHandoff input publication =>
    answer .pointer (store.bindCredentialHandoff input publication)
  | .publishHandoff input => answer .pointer (store.publishCredentialHandoff input)
  | .revokeHandoff input => answer .pointer (store.revokeCredentialHandoff input)

def DynamoProvisioningStore.perform (store : DynamoProvisioningStore) :
    LeaseCall → Outcome DynamoProvisioningStore LeaseAnswer
  | .acquire subscriptionId ownerId now leaseDurationMs =>
    answer .claim (store.acquireJobExecutionLease subscriptionId ownerId now leaseDurationMs)
  | .renew lease now leaseDurationMs =>
    answer .renewed (store.renewJobExecutionLease lease now leaseDurationMs)
  | .release lease => answer (fun _ => .released) (store.releaseJobExecutionLease lease)
  | .beginHandoff pointer lease now expected =>
    answer .pointer (store.beginCredentialHandoff pointer lease now expected)
  | .bindHandoff input publication =>
    answer .pointer (store.bindCredentialHandoff input publication)
  | .publishHandoff input => answer .pointer (store.publishCredentialHandoff input)
  | .revokeHandoff input => answer .pointer (store.revokeCredentialHandoff input)

-- ---------------------------------------------------------------------------
-- Runs
-- ---------------------------------------------------------------------------

section
variable {σ : Type} (perform : σ → LeaseCall → Outcome σ LeaseAnswer)

/-- Some worker makes a call. It takes effect, whatever becomes of its answer,
or it never arrives. -/
def LeaseStep (s s' : σ) : Prop := ∃ call, s' = (perform s call).2

abbrev LeaseRun : σ → σ → Prop := Relation.ReflTransGen (LeaseStep perform)

def Accepted (s : σ) (call : LeaseCall) : Prop := ∃ a, (perform s call).1 = .ok a

def Refused (s : σ) (call : LeaseCall) : Prop :=
  (perform s call).2 = s ∧ ∀ a, (perform s call).1 = .ok a → a = .released

def Acquires (subscriptionId : String) (lease : JobExecutionLease) (s s' : σ) : Prop :=
  ∃ ownerId now leaseDurationMs,
    perform s (.acquire subscriptionId ownerId now leaseDurationMs) =
      (.ok (.claim (.acquired lease)), s')

/-- What the leases of a store promise, in every state reached from `initial`. -/
structure Exclusive (initial : σ) : Prop where
  /-- At most one owner and token are accepted, at any readings of the clock. -/
  unique : ∀ s, LeaseRun perform initial s → ∀ call call' lease lease' now now',
    call.fence = some (lease, now) → call'.fence = some (lease', now') →
    lease.subscriptionId = lease'.subscriptionId → Accepted perform s call →
    Accepted perform s call' →
    lease.ownerId = lease'.ownerId ∧ lease.fencingToken = lease'.fencingToken
  /-- While a lease is accepted, nobody acquires. -/
  held : ∀ s, LeaseRun perform initial s → ∀ call lease now, call.fence = some (lease, now) →
    Accepted perform s call → ∀ ownerId now' leaseDurationMs, now' ≤ now →
    ∀ lease', (perform s (.acquire lease.subscriptionId ownerId now' leaseDurationMs)).1 ≠
      .ok (.claim (.acquired lease'))
  /-- A later token is larger. -/
  increasing : ∀ s₀ s₁ s₂ s₃ subscriptionId lease lease', LeaseRun perform initial s₀ →
    Acquires perform subscriptionId lease s₀ s₁ → LeaseRun perform s₁ s₂ →
    Acquires perform subscriptionId lease' s₂ s₃ → lease.fencingToken < lease'.fencingToken
  /-- The lease that was taken over has no effect from then on. -/
  taken_over : ∀ s₀ s₁ s₂ s₃ s subscriptionId lease lease', LeaseRun perform initial s₀ →
    Acquires perform subscriptionId lease s₀ s₁ → LeaseRun perform s₁ s₂ →
    Acquires perform subscriptionId lease' s₂ s₃ → LeaseRun perform s₃ s →
    ∀ call presented, call.lease = some presented →
    presented.subscriptionId = subscriptionId → presented.ownerId = lease.ownerId →
    presented.fencingToken = lease.fencingToken → Refused perform s call

end

-- ---------------------------------------------------------------------------
-- The cell of a subscription
-- ---------------------------------------------------------------------------

def JobExecutionLease.toFence (lease : JobExecutionLease) : Fence String Int :=
  ⟨lease.ownerId, lease.fencingToken, lease.expiresAt⟩

/-- A store whose leases are one cell for each subscription. -/
structure Fenced {σ : Type} (perform : σ → LeaseCall → Outcome σ LeaseAnswer)
    (cell : σ → String → Option (Fence String Int)) : Prop where
  moved : ∀ s call subscriptionId,
    Fence.Moved (cell s subscriptionId) (cell (perform s call).2 subscriptionId)
  acquired : ∀ s s' subscriptionId lease, Acquires perform subscriptionId lease s s' →
    cell s' subscriptionId = some lease.toFence ∧
      lease.fencingToken = Fence.lastToken (cell s subscriptionId) + 1
  free : ∀ s subscriptionId ownerId now leaseDurationMs lease,
    (perform s (.acquire subscriptionId ownerId now leaseDurationMs)).1 =
      .ok (.claim (.acquired lease)) → Fence.Free (cell s subscriptionId) now
  /-- The lease is current, or the call fails without effect. -/
  fenced : ∀ s call lease now, call.fence = some (lease, now) →
    Fence.Current (cell s lease.subscriptionId) lease.ownerId lease.fencingToken now ∨
      ∃ e, perform s call = (.error e, s)
  released : ∀ s lease, lease.fencingToken ≠ Fence.lastToken (cell s lease.subscriptionId) →
    perform s (.release lease) = (.ok .released, s)

namespace Fenced

variable {σ : Type} {perform : σ → LeaseCall → Outcome σ LeaseAnswer}
  {cell : σ → String → Option (Fence String Int)} {s s' : σ} {subscriptionId : String}
  {lease lease' : JobExecutionLease} {call : LeaseCall}

theorem run_moved (h : Fenced perform cell) (hrun : LeaseRun perform s s')
    (subscriptionId : String) :
    Relation.ReflTransGen Fence.Moved (cell s subscriptionId) (cell s' subscriptionId) := by
  induction hrun with
  | refl => exact .refl
  | tail _ hlast ih =>
    obtain ⟨call, rfl⟩ := hlast
    exact ih.tail (h.moved _ call subscriptionId)

theorem current (h : Fenced perform cell) (hcall : call.fence = some (lease, now))
    (haccepted : Accepted perform s call) :
    Fence.Current (cell s lease.subscriptionId) lease.ownerId lease.fencingToken now := by
  obtain hcurrent | ⟨e, he⟩ := h.fenced s call lease now hcall
  · exact hcurrent
  · obtain ⟨a, ha⟩ := haccepted
    simp [he] at ha

theorem acquired_token (h : Fenced perform cell)
    (hacquires : Acquires perform subscriptionId lease s s') :
    Fence.lastToken (cell s' subscriptionId) = lease.fencingToken := by
  simp [(h.acquired _ _ _ _ hacquires).1, Fence.lastToken, JobExecutionLease.toFence]

/-- The next lease of a subscription passes the token of the one before it. -/
theorem increasing (h : Fenced perform cell) {s₁ s₂ : σ}
    (hfirst : Acquires perform subscriptionId lease s s₁) (hrun : LeaseRun perform s₁ s₂)
    (hnext : Acquires perform subscriptionId lease' s₂ s') :
    lease.fencingToken < lease'.fencingToken := by
  have hle := Fence.lastToken_le_of_moved (h.run_moved hrun subscriptionId)
  rw [h.acquired_token hfirst] at hle
  rw [(h.acquired _ _ _ _ hnext).2]
  exact Nat.lt_succ_of_le hle

/-- A call with a token that was passed by changes nothing. -/
theorem stale_refused (h : Fenced perform cell) (hcall : call.lease = some lease)
    (hstale : lease.fencingToken < Fence.lastToken (cell s lease.subscriptionId)) :
    Refused perform s call := by
  have hfenced : ∀ now, call.fence = some (lease, now) → Refused perform s call := by
    intro now hnow
    obtain hcurrent | ⟨e, he⟩ := h.fenced s call lease now hnow
    · exact (Fence.not_current_of_lt hstale .refl hcurrent).elim
    · exact ⟨by rw [he], fun a ha => by simp [he] at ha⟩
  cases call with
  | acquire subscriptionId ownerId now leaseDurationMs => cases hcall
  | release presented =>
    cases hcall
    have hreleased := h.released s lease (Nat.ne_of_lt hstale)
    refine ⟨by rw [hreleased], fun a ha => ?_⟩
    simp only [hreleased, Except.ok.injEq] at ha
    exact ha.symm
  | renew presented now leaseDurationMs => cases hcall; exact hfenced _ rfl
  | beginHandoff pointer presented now expected => cases hcall; exact hfenced _ rfl
  | bindHandoff input publication => cases hcall; exact hfenced _ rfl
  | publishHandoff input => cases hcall; exact hfenced _ rfl
  | revokeHandoff input => cases hcall; exact hfenced _ rfl

theorem exclusive (h : Fenced perform cell) (initial : σ) : Exclusive perform initial where
  unique s _ call call' lease lease' now now' hcall hcall' hsame haccepted haccepted' := by
    have hcurrent := h.current hcall haccepted
    have hcurrent' := h.current hcall' haccepted'
    rw [← hsame] at hcurrent'
    exact hcurrent.unique hcurrent'
  held s _ call lease now hcall haccepted ownerId now' leaseDurationMs hle lease' hacquired := by
    refine (h.current hcall haccepted).not_free fun fence hfence => ?_
    exact le_trans (h.free _ _ _ _ _ _ hacquired fence hfence) hle
  increasing s₀ s₁ s₂ s₃ subscriptionId lease lease' _ hfirst hrun hnext :=
    h.increasing hfirst hrun hnext
  taken_over s₀ s₁ s₂ s₃ s subscriptionId lease lease' _ hfirst hrun hnext hlater call presented
      hpresented hsame _ htoken := by
    refine h.stale_refused hpresented ?_
    have hle := Fence.lastToken_le_of_moved (h.run_moved hlater subscriptionId)
    rw [h.acquired_token hnext] at hle
    rw [hsame, htoken]
    exact Nat.lt_of_lt_of_le (h.increasing hfirst hrun hnext) hle

end Fenced

-- ---------------------------------------------------------------------------
-- The two stores
-- ---------------------------------------------------------------------------

def cellOf (leases : String → Option JobExecutionLease) (subscriptionId : String) :
    Option (Fence String Int) :=
  (leases subscriptionId).map JobExecutionLease.toFence

section
variable {leases : String → Option JobExecutionLease} {lease existing : JobExecutionLease}

/-- The lease of one subscription gets a new expiry. -/
theorem moved_expires (hlease : leases key = some existing) (expiresAt : Int)
    (subscriptionId : String) :
    Fence.Moved (cellOf leases subscriptionId)
      (cellOf (Function.update leases key (some { existing with expiresAt })) subscriptionId) := by
  by_cases hkey : subscriptionId = key
  · subst hkey
    simp only [cellOf, hlease, Function.update_self, Option.map_some]
    exact .expires existing.toFence expiresAt
  · simp only [cellOf, Function.update_of_ne hkey]
    exact .kept _

/-- The next lease of one subscription. -/
theorem moved_taken
    (htoken : lease.fencingToken = Fence.lastToken (cellOf leases key) + 1)
    (subscriptionId : String) :
    Fence.Moved (cellOf leases subscriptionId)
      (cellOf (Function.update leases key (some lease)) subscriptionId) := by
  by_cases hkey : subscriptionId = key
  · subst hkey
    simp only [cellOf, Function.update_self, Option.map_some, JobExecutionLease.toFence, htoken]
    exact .taken _ _ _
  · simp only [cellOf, Function.update_of_ne hkey]
    exact .kept _

theorem lastToken_cellOf (leases : String → Option JobExecutionLease) (key : String) :
    Fence.lastToken (cellOf leases key) = (leases key).elim 0 (·.fencingToken) := by
  cases h : leases key <;> simp [cellOf, h, Fence.lastToken, JobExecutionLease.toFence]

theorem current_of_owned (hlease : leases lease.subscriptionId = some existing)
    (howner : existing.ownerId = lease.ownerId) (htoken : existing.fencingToken = lease.fencingToken)
    (hnow : now < existing.expiresAt) :
    Fence.Current (cellOf leases lease.subscriptionId) lease.ownerId lease.fencingToken now :=
  ⟨existing.toFence, by simp [cellOf, hlease], howner, htoken, hnow⟩

end

/-- What each operation does to the leases of a store. -/
structure LeaseSpec {σ : Type} (perform : σ → LeaseCall → Outcome σ LeaseAnswer)
    (leases : σ → String → Option JobExecutionLease) : Prop where
  acquire : ∀ s subscriptionId ownerId now leaseDurationMs,
    (∃ r, perform s (.acquire subscriptionId ownerId now leaseDurationMs) = (r, s) ∧
        ∀ lease, r ≠ .ok (.claim (.acquired lease))) ∨
      ∃ lease, lease.fencingToken = Fence.lastToken (cellOf (leases s) subscriptionId) + 1 ∧
        Fence.Free (cellOf (leases s) subscriptionId) now ∧
        leases (perform s (.acquire subscriptionId ownerId now leaseDurationMs)).2 =
          Function.update (leases s) subscriptionId (some lease) ∧
        ∀ lease', (perform s (.acquire subscriptionId ownerId now leaseDurationMs)).1 =
          .ok (.claim (.acquired lease')) → lease' = lease
  renew : ∀ s lease now leaseDurationMs,
    (∃ e, perform s (.renew lease now leaseDurationMs) = (.error e, s)) ∨
      ∃ existing, leases s lease.subscriptionId = some existing ∧
        existing.ownerId = lease.ownerId ∧ existing.fencingToken = lease.fencingToken ∧
        now < existing.expiresAt ∧
        leases (perform s (.renew lease now leaseDurationMs)).2 =
          Function.update (leases s) lease.subscriptionId
            (some { existing with expiresAt := now + leaseDurationMs })
  release : ∀ s lease, perform s (.release lease) = (.ok .released, s) ∨
    ∃ existing, leases s lease.subscriptionId = some existing ∧
      existing.fencingToken = lease.fencingToken ∧
      leases (perform s (.release lease)).2 =
        Function.update (leases s) lease.subscriptionId (some { existing with expiresAt := 0 })
  handoff : ∀ s call lease now, call.fence = some (lease, now) →
    (∀ lease now leaseDurationMs, call ≠ .renew lease now leaseDurationMs) →
    leases (perform s call).2 = leases s ∧
      (Fence.Current (cellOf (leases s) lease.subscriptionId) lease.ownerId lease.fencingToken now ∨
        ∃ e, perform s call = (.error e, s))

theorem LeaseSpec.fenced {σ : Type} {perform : σ → LeaseCall → Outcome σ LeaseAnswer}
    {leases : σ → String → Option JobExecutionLease} (h : LeaseSpec perform leases) :
    Fenced perform fun s => cellOf (leases s) where
  moved s call subscriptionId := by
    have hhandoff : ∀ lease now, call.fence = some (lease, now) →
        (∀ lease now leaseDurationMs, call ≠ .renew lease now leaseDurationMs) →
        Fence.Moved (cellOf (leases s) subscriptionId)
          (cellOf (leases (perform s call).2) subscriptionId) := by
      intro lease now hcall hno
      rw [(h.handoff s call lease now hcall hno).1]
      exact .kept _
    cases call with
    | acquire key ownerId now leaseDurationMs =>
      obtain ⟨r, hr, -⟩ | ⟨lease, htoken, -, hleases, -⟩ :=
        h.acquire s key ownerId now leaseDurationMs
      · rw [hr]
        exact .kept _
      · rw [hleases]
        exact moved_taken htoken subscriptionId
    | renew lease now leaseDurationMs =>
      obtain ⟨e, he⟩ | ⟨existing, hexisting, -, -, -, hleases⟩ := h.renew s lease now leaseDurationMs
      · rw [he]
        exact .kept _
      · rw [hleases]
        exact moved_expires hexisting _ subscriptionId
    | release lease =>
      obtain hr | ⟨existing, hexisting, -, hleases⟩ := h.release s lease
      · rw [hr]
        exact .kept _
      · rw [hleases]
        exact moved_expires hexisting _ subscriptionId
    | beginHandoff pointer lease now expected => exact hhandoff _ _ rfl nofun
    | bindHandoff input publication => exact hhandoff _ _ rfl nofun
    | publishHandoff input => exact hhandoff _ _ rfl nofun
    | revokeHandoff input => exact hhandoff _ _ rfl nofun
  acquired s s' subscriptionId lease := by
    rintro ⟨ownerId, now, leaseDurationMs, hacquires⟩
    obtain ⟨r, hr, hno⟩ | ⟨lease', htoken, -, hleases, honly⟩ :=
      h.acquire s subscriptionId ownerId now leaseDurationMs
    · rw [hr] at hacquires
      cases hacquires
      exact (hno lease rfl).elim
    · obtain rfl := honly lease (by rw [hacquires])
      rw [hacquires] at hleases
      exact ⟨by simp [cellOf, hleases], htoken⟩
  free s subscriptionId ownerId now leaseDurationMs lease hacquired := by
    obtain ⟨r, hr, hno⟩ | ⟨lease', -, hfree, -⟩ :=
      h.acquire s subscriptionId ownerId now leaseDurationMs
    · rw [hr] at hacquired
      exact (hno lease hacquired).elim
    · exact hfree
  fenced s call lease now hcall := by
    cases call with
    | acquire subscriptionId ownerId now leaseDurationMs => cases hcall
    | release lease => cases hcall
    | renew lease now leaseDurationMs =>
      cases hcall
      obtain he | ⟨existing, hexisting, howner, htoken, hnow, -⟩ :=
        h.renew s lease now leaseDurationMs
      · exact .inr he
      · exact .inl (current_of_owned hexisting howner htoken hnow)
    | beginHandoff pointer presented now expected => exact (h.handoff s _ _ _ hcall nofun).2
    | bindHandoff input publication => exact (h.handoff s _ _ _ hcall nofun).2
    | publishHandoff input => exact (h.handoff s _ _ _ hcall nofun).2
    | revokeHandoff input => exact (h.handoff s _ _ _ hcall nofun).2
  released s lease hne := by
    obtain hr | ⟨existing, hexisting, htoken, -⟩ := h.release s lease
    · exact hr
    · rw [lastToken_cellOf, hexisting] at hne
      exact (hne htoken.symm).elim

namespace InMemoryProvisioningStore

theorem perform_acquire (store : InMemoryProvisioningStore) (subscriptionId ownerId : String)
    (now leaseDurationMs : Int) :
    (∃ r, store.perform (.acquire subscriptionId ownerId now leaseDurationMs) = (r, store) ∧
        ∀ lease, r ≠ .ok (.claim (.acquired lease))) ∨
      ∃ lease, lease.fencingToken =
          Fence.lastToken (cellOf store.executionLeases subscriptionId) + 1 ∧
        Fence.Free (cellOf store.executionLeases subscriptionId) now ∧
        (store.perform (.acquire subscriptionId ownerId now leaseDurationMs)).2.executionLeases =
          Function.update store.executionLeases subscriptionId (some lease) ∧
        ∀ lease', (store.perform (.acquire subscriptionId ownerId now leaseDurationMs)).1 =
          .ok (.claim (.acquired lease')) → lease' = lease := by
  simp only [perform, acquireJobExecutionLease]
  split
  · exact .inl ⟨_, rfl, nofun⟩
  · split
    · exact .inl ⟨_, rfl, nofun⟩
    next hfree =>
      refine .inr ⟨_, by rw [lastToken_cellOf], ?_, rfl, ?_⟩
      · intro fence hfence
        obtain ⟨lease, hlease, rfl⟩ := Option.map_eq_some_iff.mp hfence
        simp only [hlease, Option.any_some, gt_iff_lt, decide_eq_true_eq, not_lt] at hfree
        exact hfree
      · rintro lease' ⟨⟩
        rfl

theorem perform_renew (store : InMemoryProvisioningStore) (lease : JobExecutionLease)
    (now leaseDurationMs : Int) :
    (∃ e, store.perform (.renew lease now leaseDurationMs) = (.error e, store)) ∨
      ∃ existing, store.executionLeases lease.subscriptionId = some existing ∧
        existing.ownerId = lease.ownerId ∧ existing.fencingToken = lease.fencingToken ∧
        now < existing.expiresAt ∧
        (store.perform (.renew lease now leaseDurationMs)).2.executionLeases =
          Function.update store.executionLeases lease.subscriptionId
            (some { existing with expiresAt := now + leaseDurationMs }) := by
  simp only [perform, renewJobExecutionLease]
  split
  · exact .inl ⟨_, rfl⟩
  · split
    · exact .inl ⟨_, rfl⟩
    next existing hexisting =>
      split
      · exact .inl ⟨_, rfl⟩
      next hsame =>
        simp only [ne_eq, Bool.or_eq_true, decide_eq_true_eq, not_or, not_not, not_le] at hsame
        exact .inr ⟨existing, hexisting, hsame.1.1, hsame.1.2, hsame.2, rfl⟩

theorem perform_release (store : InMemoryProvisioningStore) (lease : JobExecutionLease) :
    store.perform (.release lease) = (.ok .released, store) ∨
      ∃ existing, store.executionLeases lease.subscriptionId = some existing ∧
        existing.fencingToken = lease.fencingToken ∧
        (store.perform (.release lease)).2.executionLeases =
          Function.update store.executionLeases lease.subscriptionId
            (some { existing with expiresAt := 0 }) := by
  simp only [perform, releaseJobExecutionLease]
  split
  · exact .inl rfl
  next existing hexisting =>
    split
    next hsame => exact .inr ⟨existing, hexisting, hsame.2, rfl⟩
    · exact .inl rfl

theorem changePointer_cases (store : InMemoryProvisioningStore) (lease : JobExecutionLease)
    (now : Int) (handoffId : String)
    (change : Option CredentialHandoffPointer → Option CredentialHandoffPointer) :
    (store.changePointer lease now handoffId change).2.executionLeases = store.executionLeases ∧
      (Fence.Current (cellOf store.executionLeases lease.subscriptionId) lease.ownerId
          lease.fencingToken now ∨
        ∃ e, store.changePointer lease now handoffId change = (.error e, store)) := by
  unfold changePointer
  split
  · exact ⟨rfl, .inr ⟨_, rfl⟩⟩
  next hactive =>
    have hcurrent : Fence.Current (cellOf store.executionLeases lease.subscriptionId)
        lease.ownerId lease.fencingToken now := by
      rw [Bool.not_eq_true, Bool.not_eq_false'] at hactive
      simp only [activeLease, Option.any_eq_true, Bool.and_eq_true, beq_iff_eq, Bool.not_eq_true',
        decide_eq_false_iff_not, not_le] at hactive
      obtain ⟨existing, hexisting, ⟨howner, htoken⟩, hnow⟩ := hactive
      exact current_of_owned hexisting howner htoken hnow
    refine ⟨?_, .inl hcurrent⟩
    split <;> rfl

theorem leaseSpec :
    LeaseSpec InMemoryProvisioningStore.perform fun store => store.executionLeases where
  acquire := perform_acquire
  renew := perform_renew
  release := perform_release
  handoff store call lease now hcall hno := by
    have hchange : ∀ handoffId change,
        (answer .pointer (store.changePointer lease now handoffId change)).2.executionLeases =
            store.executionLeases ∧
          (Fence.Current (cellOf store.executionLeases lease.subscriptionId) lease.ownerId
              lease.fencingToken now ∨
            ∃ e, answer .pointer (store.changePointer lease now handoffId change) =
              (.error e, store)) := by
      intro handoffId change
      obtain ⟨hleases, hcurrent | ⟨e, he⟩⟩ := store.changePointer_cases lease now handoffId change
      · exact ⟨hleases, .inl hcurrent⟩
      · exact ⟨hleases, .inr ⟨e, by rw [he]; rfl⟩⟩
    cases call with
    | acquire subscriptionId ownerId now leaseDurationMs => cases hcall
    | release lease => cases hcall
    | renew lease now leaseDurationMs => exact (hno lease now leaseDurationMs rfl).elim
    | beginHandoff pointer lease now expected => cases hcall; exact hchange _ _
    | bindHandoff input publication => cases hcall; exact hchange _ _
    | publishHandoff input => cases hcall; exact hchange _ _
    | revokeHandoff input => cases hcall; exact hchange _ _

end InMemoryProvisioningStore

namespace DynamoProvisioningStore

theorem perform_acquire (store : DynamoProvisioningStore) (subscriptionId ownerId : String)
    (now leaseDurationMs : Int) :
    (∃ r, store.perform (.acquire subscriptionId ownerId now leaseDurationMs) = (r, store) ∧
        ∀ lease, r ≠ .ok (.claim (.acquired lease))) ∨
      ∃ lease, lease.fencingToken = Fence.lastToken (cellOf store.leaseItems subscriptionId) + 1 ∧
        Fence.Free (cellOf store.leaseItems subscriptionId) now ∧
        (store.perform (.acquire subscriptionId ownerId now leaseDurationMs)).2.leaseItems =
          Function.update store.leaseItems subscriptionId (some lease) ∧
        ∀ lease', (store.perform (.acquire subscriptionId ownerId now leaseDurationMs)).1 =
          .ok (.claim (.acquired lease')) → lease' = lease := by
  simp only [perform, acquireJobExecutionLease]
  split
  · exact .inl ⟨_, rfl, nofun⟩
  · split
    · exact .inl ⟨_, rfl, nofun⟩
    next hfree =>
      have hfree' : Fence.Free (cellOf store.leaseItems subscriptionId) now := by
        intro fence hfence
        obtain ⟨lease, hlease, rfl⟩ := Option.map_eq_some_iff.mp hfence
        rw [hlease, Bool.not_eq_true, Bool.not_eq_false'] at hfree
        exact of_decide_eq_true hfree
      refine .inr ⟨{ subscriptionId, ownerId, fencingToken := _, expiresAt := now + leaseDurationMs },
        by rw [lastToken_cellOf], hfree', ?_, ?_⟩
      · split <;> rfl
      · -- the attributes of an unsafe token are refused after the write
        split
        · rintro lease' ⟨⟩
        · rintro lease' ⟨⟩
          rfl

theorem perform_renew (store : DynamoProvisioningStore) (lease : JobExecutionLease)
    (now leaseDurationMs : Int) :
    (∃ e, store.perform (.renew lease now leaseDurationMs) = (.error e, store)) ∨
      ∃ existing, store.leaseItems lease.subscriptionId = some existing ∧
        existing.ownerId = lease.ownerId ∧ existing.fencingToken = lease.fencingToken ∧
        now < existing.expiresAt ∧
        (store.perform (.renew lease now leaseDurationMs)).2.leaseItems =
          Function.update store.leaseItems lease.subscriptionId
            (some { existing with expiresAt := now + leaseDurationMs }) := by
  simp only [perform, renewJobExecutionLease]
  split
  · exact .inl ⟨_, rfl⟩
  · split
    · exact .inl ⟨_, rfl⟩
    next item hitem =>
      split
      · exact .inl ⟨_, rfl⟩
      next hsame =>
        simp only [ownedBy, Bool.or_eq_true, Bool.not_eq_true', Bool.and_eq_false_imp, beq_iff_eq,
          decide_eq_true_eq, not_or, not_le, not_forall, beq_eq_false_iff_ne, ne_eq,
          not_not] at hsame
        obtain ⟨⟨howner, htoken⟩, hnow⟩ := hsame
        refine .inr ⟨item, hitem, howner, htoken, hnow, ?_⟩
        split <;> rfl

theorem perform_release (store : DynamoProvisioningStore) (lease : JobExecutionLease) :
    store.perform (.release lease) = (.ok .released, store) ∨
      ∃ existing, store.leaseItems lease.subscriptionId = some existing ∧
        existing.fencingToken = lease.fencingToken ∧
        (store.perform (.release lease)).2.leaseItems =
          Function.update store.leaseItems lease.subscriptionId
            (some { existing with expiresAt := 0 }) := by
  simp only [perform, releaseJobExecutionLease]
  split
  · exact .inl rfl
  next item hitem =>
    split
    · exact .inl rfl
    next hsame =>
      rw [Bool.not_eq_true, Bool.not_eq_false'] at hsame
      simp only [ownedBy, Bool.and_eq_true, beq_iff_eq] at hsame
      exact .inr ⟨item, hitem, hsame.2, rfl⟩

theorem transactPointerPut_cases (store : DynamoProvisioningStore)
    (pointer : CredentialHandoffPointer) (lease : JobExecutionLease) (now : Int)
    (condition : Option CredentialHandoffPointer → Bool) :
    (store.transactPointerPut pointer lease now condition).2.leaseItems = store.leaseItems ∧
      (Fence.Current (cellOf store.leaseItems lease.subscriptionId) lease.ownerId
          lease.fencingToken now ∨
        ∃ e, store.transactPointerPut pointer lease now condition = (.error e, store)) := by
  unfold transactPointerPut
  dsimp only
  split
  next hcondition =>
    refine ⟨rfl, .inl ?_⟩
    simp only [Bool.and_eq_true] at hcondition
    obtain ⟨⟨howned, hnow⟩, -⟩ := hcondition
    cases hitem : store.leaseItems lease.subscriptionId with
    | none => simp [hitem, ownedBy] at howned
    | some item =>
      simp only [hitem, ownedBy, Bool.and_eq_true, beq_iff_eq] at howned
      simp only [hitem, Option.all_some, gt_iff_lt, decide_eq_true_eq] at hnow
      exact current_of_owned hitem howned.1 howned.2 hnow
  · exact ⟨rfl, .inr ⟨_, rfl⟩⟩

theorem leaseSpec : LeaseSpec DynamoProvisioningStore.perform fun store => store.leaseItems where
  acquire := perform_acquire
  renew := perform_renew
  release := perform_release
  handoff store call lease now hcall hno := by
    have hput : ∀ pointer condition,
        (answer .pointer (store.transactPointerPut pointer lease now condition)).2.leaseItems =
            store.leaseItems ∧
          (Fence.Current (cellOf store.leaseItems lease.subscriptionId) lease.ownerId
              lease.fencingToken now ∨
            ∃ e, answer .pointer (store.transactPointerPut pointer lease now condition) =
              (.error e, store)) := by
      intro pointer condition
      obtain ⟨hleases, hcurrent | ⟨e, he⟩⟩ :=
        store.transactPointerPut_cases pointer lease now condition
      · exact ⟨hleases, .inl hcurrent⟩
      · exact ⟨hleases, .inr ⟨e, by rw [he]; rfl⟩⟩
    cases call with
    | acquire subscriptionId ownerId now leaseDurationMs => cases hcall
    | release lease => cases hcall
    | renew lease now leaseDurationMs => exact (hno lease now leaseDurationMs rfl).elim
    | beginHandoff pointer lease now expected =>
      cases hcall
      simp only [perform, beginCredentialHandoff]
      split
      · exact ⟨rfl, .inr ⟨_, rfl⟩⟩
      · exact hput _ _
    | bindHandoff input publication => cases hcall; exact hput _ _
    | publishHandoff input =>
      cases hcall
      simp only [perform, publishCredentialHandoff]
      split
      · exact ⟨rfl, .inr ⟨_, rfl⟩⟩
      · exact hput _ _
    | revokeHandoff input => cases hcall; exact hput _ _

end DynamoProvisioningStore

/-- The leases of both stores are exclusive, over all workers and all orders of
their calls. -/
theorem leases_exclusive :
    Exclusive InMemoryProvisioningStore.perform .initial ∧
      Exclusive DynamoProvisioningStore.perform .initial :=
  ⟨InMemoryProvisioningStore.leaseSpec.fenced.exclusive _,
    DynamoProvisioningStore.leaseSpec.fenced.exclusive _⟩

end EsigSuite.Provisioning
