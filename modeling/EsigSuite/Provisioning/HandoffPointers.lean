import EsigSuite.Provisioning.Leases

/-!
# Handoff pointers

The four pointer operations of both stores, called by any workers in any order
with any arguments, next to the lease operations. A pointer starts in generation
0 and moves on by one, a revoked one stays revoked, and a published one names its
publication. Each write is made under a current lease, which is the lease of the
pointer's own subscription where the call presents no other.
-/

namespace EsigSuite.Provisioning

open Lib

/-- The pointer a call is about. -/
def LeaseCall.pointer : LeaseCall → Option CredentialHandoffPointer
  | .acquire .. | .renew .. | .release _ => none
  | .beginHandoff pointer _ _ _ => some pointer
  | .bindHandoff input _ | .publishHandoff input | .revokeHandoff input => some input.pointer

/-- What a write may put in place of a pointer. -/
inductive Rewritten (lease : JobExecutionLease) :
    Option CredentialHandoffPointer → CredentialHandoffPointer → Prop
  | begun {p} (generation : p.publicationGeneration = 0) (state : p.state = .pending)
      (subscriptionId : p.subscriptionId = lease.subscriptionId) : Rewritten lease none p
  | replaced {existing p} (open' : existing.state ≠ .revoked)
      (generation : p.publicationGeneration = existing.publicationGeneration + 1)
      (state : p.state = .pending) (subscriptionId : p.subscriptionId = lease.subscriptionId) :
      Rewritten lease (some existing) p
  | issued {existing p} (open' : existing.state ≠ .revoked)
      (generation : p.publicationGeneration = existing.publicationGeneration)
      (publication : pointerHasPublication p = true)
      (subscriptionId : p.subscriptionId = existing.subscriptionId) :
      Rewritten lease (some existing) p
  | revoked {existing p} (generation : p.publicationGeneration = existing.publicationGeneration)
      (state : p.state = .revoked) (subscriptionId : p.subscriptionId = existing.subscriptionId) :
      Rewritten lease (some existing) p

theorem Rewritten.published {existing : Option CredentialHandoffPointer}
    {lease : JobExecutionLease} {p : CredentialHandoffPointer} (h : Rewritten lease existing p)
    (hp : p.state = .published) : pointerHasPublication p = true := by
  cases h with
  | begun _ state | replaced _ _ state | revoked _ state => rw [state] at hp; cases hp
  | issued _ _ publication => exact publication

-- ---------------------------------------------------------------------------
-- What is promised
-- ---------------------------------------------------------------------------

section
variable {σ κ : Type} (perform : σ → LeaseCall → Outcome σ LeaseAnswer)
  (leases : σ → String → Option JobExecutionLease)
  (pointers : σ → κ → Option CredentialHandoffPointer) (keyOf : CredentialHandoffPointer → κ)

/-- The call presents a lease of the subscription whose pointer it is about. -/
def PresentsOwn (s : σ) (call : LeaseCall) : Prop :=
  ∀ pointer lease now existing, call.pointer = some pointer → call.fence = some (lease, now) →
    pointers s (keyOf pointer) = some existing → existing.subscriptionId = lease.subscriptionId

/-- The call presents the current lease of the subscription. -/
def HoldsLease (s : σ) (call : LeaseCall) (subscriptionId : String) : Prop :=
  ∃ lease now, call.fence = some (lease, now) ∧ lease.subscriptionId = subscriptionId ∧
    Fence.Current (cellOf (leases s) subscriptionId) lease.ownerId lease.fencingToken now

structure PointersGuarded (initial : σ) : Prop where
  /-- A first pointer has generation 0, and a call keeps the generation or adds one. -/
  generation : ∀ s, LeaseRun perform initial s → ∀ call key,
    match pointers s key, pointers (perform s call).2 key with
    | none, none => True
    | none, some p => p.publicationGeneration = 0
    | some _, none => False
    | some p, some p' => p'.publicationGeneration = p.publicationGeneration ∨
        p'.publicationGeneration = p.publicationGeneration + 1
  /-- A revoked pointer stays so, in its generation. -/
  revoked : ∀ s s', LeaseRun perform initial s → LeaseRun perform s s' → ∀ key p,
    pointers s key = some p → p.state = .revoked →
    ∃ p', pointers s' key = some p' ∧ p'.state = .revoked ∧
      p'.publicationGeneration = p.publicationGeneration
  published : ∀ s, LeaseRun perform initial s → ∀ key p, pointers s key = some p →
    p.state = .published → pointerHasPublication p = true
  /-- Whoever changes a pointer holds the lease of its subscription. -/
  holder : ∀ s, LeaseRun perform initial s → ∀ call, PresentsOwn pointers keyOf s call → ∀ key,
    pointers (perform s call).2 key ≠ pointers s key →
    ∀ p, pointers s key = some p ∨ pointers (perform s call).2 key = some p →
      HoldsLease leases s call p.subscriptionId

end

-- ---------------------------------------------------------------------------
-- From one write to every run
-- ---------------------------------------------------------------------------

/-- What each operation does to the pointers of a store. -/
structure PointerSpec {σ κ : Type} [DecidableEq κ] (perform : σ → LeaseCall → Outcome σ LeaseAnswer)
    (leases : σ → String → Option JobExecutionLease)
    (pointers : σ → κ → Option CredentialHandoffPointer) (keyOf : CredentialHandoffPointer → κ) :
    Prop where
  write : ∀ s call, (∀ key p, pointers s key = some p → keyOf p = key) →
    pointers (perform s call).2 = pointers s ∨
      ∃ pointer lease now p, call.pointer = some pointer ∧ call.fence = some (lease, now) ∧
        Fence.Current (cellOf (leases s) lease.subscriptionId) lease.ownerId lease.fencingToken
          now ∧
        keyOf p = keyOf pointer ∧ Rewritten lease (pointers s (keyOf pointer)) p ∧
        pointers (perform s call).2 = Function.update (pointers s) (keyOf pointer) (some p)

namespace PointerSpec

variable {σ κ : Type} [DecidableEq κ] {perform : σ → LeaseCall → Outcome σ LeaseAnswer}
  {leases : σ → String → Option JobExecutionLease}
  {pointers : σ → κ → Option CredentialHandoffPointer} {keyOf : CredentialHandoffPointer → κ}
  {initial s s' : σ} {call : LeaseCall}

/-- A call leaves the pointers alone or writes the one that it names. -/
theorem write_of {pointer : CredentialHandoffPointer} {lease : JobExecutionLease} {now : Int}
    {after : κ → Option CredentialHandoffPointer} (hpointer : call.pointer = some pointer)
    (hfence : call.fence = some (lease, now))
    (h : after = pointers s ∨
      ∃ p, Fence.Current (cellOf (leases s) lease.subscriptionId) lease.ownerId lease.fencingToken
          now ∧ keyOf p = keyOf pointer ∧ Rewritten lease (pointers s (keyOf pointer)) p ∧
        after = Function.update (pointers s) (keyOf pointer) (some p)) :
    after = pointers s ∨
      ∃ pointer lease now p, call.pointer = some pointer ∧ call.fence = some (lease, now) ∧
        Fence.Current (cellOf (leases s) lease.subscriptionId) lease.ownerId lease.fencingToken
          now ∧
        keyOf p = keyOf pointer ∧ Rewritten lease (pointers s (keyOf pointer)) p ∧
        after = Function.update (pointers s) (keyOf pointer) (some p) := by
  rcases h with h | ⟨p, hcurrent, hkey, hwrite, hset⟩
  · exact .inl h
  · exact .inr ⟨pointer, lease, now, p, hpointer, hfence, hcurrent, hkey, hwrite, hset⟩

/-- A pointer is stored under its own key, and a published one names its publication. -/
structure Sound (pointers : σ → κ → Option CredentialHandoffPointer)
    (keyOf : CredentialHandoffPointer → κ) (s : σ) : Prop where
  key : ∀ key p, pointers s key = some p → keyOf p = key
  published : ∀ key p, pointers s key = some p → p.state = .published →
    pointerHasPublication p = true

theorem sound_step (h : PointerSpec perform leases pointers keyOf) (hs : Sound pointers keyOf s) :
    Sound pointers keyOf (perform s call).2 := by
  obtain hsame | ⟨pointer, lease, now, p, -, -, -, hkey, hwrite, hset⟩ := h.write s call hs.key
  · exact ⟨by rw [hsame]; exact hs.key, by rw [hsame]; exact hs.published⟩
  · constructor <;> intro key p' hp'
    · rw [hset] at hp'
      by_cases heq : key = keyOf pointer
      · subst heq
        rw [Function.update_self] at hp'
        exact Option.some.inj hp' ▸ hkey
      · rw [Function.update_of_ne heq] at hp'
        exact hs.key key p' hp'
    · rw [hset] at hp'
      by_cases heq : key = keyOf pointer
      · subst heq
        rw [Function.update_self] at hp'
        exact Option.some.inj hp' ▸ hwrite.published
      · rw [Function.update_of_ne heq] at hp'
        exact hs.published key p' hp'

theorem sound_run (h : PointerSpec perform leases pointers keyOf) (hs : Sound pointers keyOf s)
    (hrun : LeaseRun perform s s') : Sound pointers keyOf s' := by
  induction hrun with
  | refl => exact hs
  | tail _ hstep ih =>
    obtain ⟨call, rfl⟩ := hstep
    exact h.sound_step ih

theorem revoked_step (h : PointerSpec perform leases pointers keyOf) (hs : Sound pointers keyOf s)
    {key : κ} {p : CredentialHandoffPointer} (hp : pointers s key = some p)
    (hrevoked : p.state = .revoked) :
    ∃ p', pointers (perform s call).2 key = some p' ∧ p'.state = .revoked ∧
      p'.publicationGeneration = p.publicationGeneration := by
  obtain hsame | ⟨pointer, lease, now, p', -, -, -, -, hwrite, hset⟩ := h.write s call hs.key
  · exact ⟨p, by rw [hsame, hp], hrevoked, rfl⟩
  · by_cases heq : key = keyOf pointer
    · subst heq
      rw [hp] at hwrite
      rw [hset, Function.update_self]
      cases hwrite with
      | replaced hopen | issued hopen => exact absurd hrevoked hopen
      | revoked generation state => exact ⟨p', rfl, state, generation⟩
    · exact ⟨p, by rw [hset, Function.update_of_ne heq, hp], hrevoked, rfl⟩

theorem guarded (h : PointerSpec perform leases pointers keyOf)
    (hinitial : ∀ key, pointers initial key = none) :
    PointersGuarded perform leases pointers keyOf initial := by
  have hstart : Sound pointers keyOf initial :=
    ⟨fun key p hp => (nomatch (hinitial key).symm.trans hp),
      fun key p hp => (nomatch (hinitial key).symm.trans hp)⟩
  refine ⟨fun s hrun call key => ?_, fun s s' hrun hlater key p hp hrevoked => ?_,
    fun s hrun => (h.sound_run hstart hrun).published, fun s hrun call hown key hne p hp => ?_⟩
  · obtain hsame | ⟨pointer, lease, now, p', -, -, -, -, hwrite, hset⟩ :=
      h.write s call (h.sound_run hstart hrun).key
    · rw [hsame]
      cases pointers s key with
      | none => exact trivial
      | some p => exact .inl rfl
    · rw [hset]
      by_cases heq : key = keyOf pointer
      · subst heq
        rw [Function.update_self]
        revert hwrite
        cases pointers s (keyOf pointer) with
        | none =>
          intro hwrite
          cases hwrite with
          | begun generation => exact generation
        | some existing =>
          intro hwrite
          cases hwrite with
          | replaced _ generation => exact .inr generation
          | issued _ generation | revoked generation => exact .inl generation
      · rw [Function.update_of_ne heq]
        cases pointers s key with
        | none => exact trivial
        | some p => exact .inl rfl
  · have hsound := h.sound_run hstart hrun
    induction hlater with
    | refl => exact ⟨p, hp, hrevoked, rfl⟩
    | tail hto hstep ih =>
      obtain ⟨call, rfl⟩ := hstep
      obtain ⟨p', hp', hrevoked', hgeneration⟩ := ih
      obtain ⟨p'', hp'', hrevoked'', hgeneration'⟩ :=
        h.revoked_step (h.sound_run hsound hto) hp' hrevoked'
      exact ⟨p'', hp'', hrevoked'', hgeneration'.trans hgeneration⟩
  · obtain hsame | ⟨pointer, lease, now, p', hpointer, hfence, hcurrent, -, hwrite, hset⟩ :=
      h.write s call (h.sound_run hstart hrun).key
    · exact absurd (congrFun hsame key) hne
    · rw [hset] at hne hp
      obtain rfl : key = keyOf pointer := by
        by_contra heq
        exact hne (Function.update_of_ne heq ..)
      rw [Function.update_self] at hp
      suffices hsub : p.subscriptionId = lease.subscriptionId from
        ⟨lease, now, hfence, hsub.symm, hsub ▸ hcurrent⟩
      have hold := hown pointer lease now
      generalize pointers s (keyOf pointer) = stored at hwrite hp hold
      cases hwrite with
      | begun _ _ subscriptionId =>
        obtain hp | hp := hp
        · cases hp
        · exact Option.some.inj hp ▸ subscriptionId
      | replaced _ _ _ subscriptionId =>
        obtain hp | hp := hp
        · exact hold p hpointer hfence hp
        · exact Option.some.inj hp ▸ subscriptionId
      | issued _ _ _ subscriptionId | revoked _ _ subscriptionId =>
        obtain hp | hp := hp
        · exact hold p hpointer hfence hp
        · exact Option.some.inj hp ▸ subscriptionId.trans (hold _ hpointer hfence rfl)

end PointerSpec

-- ---------------------------------------------------------------------------
-- The in-memory store
-- ---------------------------------------------------------------------------

theorem samePointerGeneration_iff {left right : CredentialHandoffPointer} :
    samePointerGeneration left right = true ↔ left.handoffId = right.handoffId ∧
      left.subscriptionId = right.subscriptionId ∧ left.jobId = right.jobId ∧
      left.activationGeneration = right.activationGeneration ∧
      left.publicationGeneration = right.publicationGeneration ∧
      left.fencingToken = right.fencingToken := by
  simp only [samePointerGeneration, Bool.and_eq_true, beq_iff_eq, and_assoc]

namespace InMemoryProvisioningStore

theorem changePointer_write (store : InMemoryProvisioningStore) {lease : JobExecutionLease} {now : Int}
    {handoffId : String} {change : Option CredentialHandoffPointer → Option CredentialHandoffPointer}
    (hchange : ∀ existing p, change existing = some p →
      p.handoffId = handoffId ∧ Rewritten lease existing p) :
    (store.changePointer lease now handoffId change).2.credentialHandoffs =
        store.credentialHandoffs ∨
      ∃ p, Fence.Current (cellOf store.executionLeases lease.subscriptionId) lease.ownerId
          lease.fencingToken now ∧ p.handoffId = handoffId ∧
        Rewritten lease (store.credentialHandoffs handoffId) p ∧
        (store.changePointer lease now handoffId change).2.credentialHandoffs =
          Function.update store.credentialHandoffs handoffId (some p) := by
  obtain ⟨-, hcurrent | ⟨e, he⟩⟩ := store.changePointer_cases lease now handoffId change
  · unfold changePointer
    split
    · exact .inl rfl
    · cases hp : change (store.credentialHandoffs handoffId) with
      | none => exact .inl rfl
      | some p =>
        obtain ⟨hid, hwrite⟩ := hchange _ _ hp
        exact .inr ⟨p, hcurrent, hid, hwrite, by rw [← hid]; rfl⟩
  · exact .inl (by rw [he])

theorem pointerSpec : PointerSpec InMemoryProvisioningStore.perform (fun store => store.executionLeases)
    (fun store => store.credentialHandoffs) (·.handoffId) where
  write store call _ := by
    cases call with
    | acquire subscriptionId ownerId now leaseDurationMs =>
      left
      simp only [perform, answer, acquireJobExecutionLease]
      repeat' split
      all_goals rfl
    | renew lease now leaseDurationMs =>
      left
      simp only [perform, answer, renewJobExecutionLease]
      repeat' split
      all_goals rfl
    | release lease =>
      left
      simp only [perform, answer, releaseJobExecutionLease]
      repeat' split
      all_goals rfl
    | beginHandoff pointer lease now expected =>
      refine PointerSpec.write_of rfl rfl (store.changePointer_write fun existing p hp => ?_)
      split at hp
      · cases hp
      next hvalid =>
        cases hp
        simp only [Bool.or_eq_true, Bool.and_eq_true, Bool.not_eq_true', decide_eq_true_eq, not_or,
          not_and, Bool.not_eq_false, not_not] at hvalid
        obtain ⟨⟨⟨⟨⟨⟨hnew, hpending⟩, hsub⟩, -⟩, -⟩, -⟩, -⟩ := hvalid
        refine ⟨rfl, ?_⟩
        cases existing with
        | none =>
          by_cases h : validNew pointer expected none = true
          · rw [validNew, Bool.and_eq_true, beq_iff_eq] at h
            exact .begun h.2 hpending hsub
          · exact absurd (hnew (Bool.eq_false_iff.mpr h)) Bool.false_ne_true
        | some existing =>
          have h := hnew rfl
          simp only [validReplacement, Bool.and_eq_true, beq_iff_eq, bne_iff_ne] at h
          exact .replaced h.2 h.1.2 hpending hsub
    | bindHandoff input publication =>
      refine PointerSpec.write_of rfl rfl (store.changePointer_write fun existing p hp => ?_)
      cases existing with
      | none => cases hp
      | some existing =>
        dsimp only at hp
        split at hp
        · cases hp
        next hvalid =>
          cases hp
          simp only [Bool.or_eq_true, Bool.and_eq_true, Bool.not_eq_true', decide_eq_true_eq, not_or,
            not_and, Bool.not_eq_false, not_not] at hvalid
          obtain ⟨⟨hsame, hpending⟩, -⟩ := hvalid
          refine ⟨(samePointerGeneration_iff.mp hsame).1, .issued ?_ rfl rfl rfl⟩
          rw [hpending]
          intro h
          cases h
    | publishHandoff input =>
      refine PointerSpec.write_of rfl rfl (store.changePointer_write fun existing p hp => ?_)
      cases existing with
      | none => cases hp
      | some existing =>
        dsimp only at hp
        split at hp
        · cases hp
        next hvalid =>
          cases hp
          simp only [Bool.or_eq_true, Bool.and_eq_true, Bool.not_eq_true', decide_eq_true_eq, not_or,
            not_and, Bool.not_eq_false, not_not] at hvalid
          obtain ⟨⟨⟨hsame, hpublication⟩, -⟩, hstate⟩ := hvalid
          refine ⟨(samePointerGeneration_iff.mp hsame).1, .issued (fun hrevoked => ?_) rfl hpublication rfl⟩
          rw [hrevoked] at hstate
          cases hstate fun h => by cases h
    | revokeHandoff input =>
      refine PointerSpec.write_of rfl rfl (store.changePointer_write fun existing p hp => ?_)
      cases existing with
      | none => cases hp
      | some existing =>
        dsimp only at hp
        split at hp
        · cases hp
        next hsame =>
          cases hp
          rw [Bool.not_eq_true, Bool.not_eq_false'] at hsame
          exact ⟨(samePointerGeneration_iff.mp hsame).1, .revoked rfl rfl rfl⟩

end InMemoryProvisioningStore

-- ---------------------------------------------------------------------------
-- The DynamoDB store
-- ---------------------------------------------------------------------------

namespace DynamoProvisioningStore

/-- The item under the subscription and the handoff id of a key. -/
def pointerAt (store : DynamoProvisioningStore) (key : String × String) :
    Option CredentialHandoffPointer :=
  store.handoffItems key.1 key.2

def pointerKey (pointer : CredentialHandoffPointer) : String × String :=
  (pointer.subscriptionId, pointer.handoffId)

theorem transactPointerPut_write (store : DynamoProvisioningStore) {lease : JobExecutionLease}
    {now : Int} {pointer : CredentialHandoffPointer}
    {condition : Option CredentialHandoffPointer → Bool}
    (hcondition : condition (store.pointerAt (pointerKey pointer)) = true →
      Rewritten lease (store.pointerAt (pointerKey pointer)) pointer) :
    (store.transactPointerPut pointer lease now condition).2.pointerAt = store.pointerAt ∨
      ∃ p, Fence.Current (cellOf store.leaseItems lease.subscriptionId) lease.ownerId
          lease.fencingToken now ∧ pointerKey p = pointerKey pointer ∧
        Rewritten lease (store.pointerAt (pointerKey pointer)) p ∧
        (store.transactPointerPut pointer lease now condition).2.pointerAt =
          Function.update store.pointerAt (pointerKey pointer) (some p) := by
  obtain ⟨-, hcurrent | ⟨e, he⟩⟩ := store.transactPointerPut_cases pointer lease now condition
  · unfold transactPointerPut
    dsimp only
    split
    next hput =>
      refine .inr ⟨pointer, hcurrent, rfl, hcondition (Bool.and_eq_true _ _ ▸ hput).2, ?_⟩
      funext key
      by_cases hsub : key.1 = pointer.subscriptionId
      · by_cases hid : key.2 = pointer.handoffId
        · obtain rfl : key = pointerKey pointer := Prod.ext hsub hid
          simp [pointerAt, pointerKey]
        · have hne : key ≠ pointerKey pointer := fun heq => hid (congrArg (·.2) heq)
          simp [pointerAt, hsub, hid, Function.update_of_ne hne]
      · have hne : key ≠ pointerKey pointer := fun heq => hsub (congrArg (·.1) heq)
        simp [pointerAt, hsub, Function.update_of_ne hne]
    · exact .inl rfl
  · exact .inl (by rw [he])

/-- A condition that no missing item meets speaks of an item of the pointer's subscription. -/
theorem transactPointerPut_mutation (store : DynamoProvisioningStore)
    (hkey : ∀ key p, store.pointerAt key = some p → pointerKey p = key)
    {lease : JobExecutionLease} {now : Int} {pointer : CredentialHandoffPointer}
    {condition : Option CredentialHandoffPointer → Bool} (hnone : condition none = false)
    (hcondition : ∀ existing, condition (some existing) = true →
      pointer.subscriptionId = existing.subscriptionId → Rewritten lease (some existing) pointer) :
    (store.transactPointerPut pointer lease now condition).2.pointerAt = store.pointerAt ∨
      ∃ p, Fence.Current (cellOf store.leaseItems lease.subscriptionId) lease.ownerId
          lease.fencingToken now ∧ pointerKey p = pointerKey pointer ∧
        Rewritten lease (store.pointerAt (pointerKey pointer)) p ∧
        (store.transactPointerPut pointer lease now condition).2.pointerAt =
          Function.update store.pointerAt (pointerKey pointer) (some p) := by
  refine store.transactPointerPut_write fun h => ?_
  cases hstored : store.pointerAt (pointerKey pointer) with
  | none => rw [hstored, hnone] at h; cases h
  | some existing =>
    rw [hstored] at h
    exact hcondition existing h (congrArg (·.1) (hkey _ _ hstored)).symm

theorem pointerSpec : PointerSpec DynamoProvisioningStore.perform (fun store => store.leaseItems)
    pointerAt pointerKey where
  write store call hkey := by
    cases call with
    | acquire subscriptionId ownerId now leaseDurationMs =>
      left
      simp only [perform, answer, acquireJobExecutionLease]
      repeat' split
      all_goals rfl
    | renew lease now leaseDurationMs =>
      left
      simp only [perform, answer, renewJobExecutionLease]
      repeat' split
      all_goals rfl
    | release lease =>
      left
      simp only [perform, answer, releaseJobExecutionLease]
      repeat' split
      all_goals rfl
    | beginHandoff pointer lease now expected =>
      simp only [perform, answer, beginCredentialHandoff]
      split
      · exact .inl rfl
      next hvalid =>
        simp only [Bool.or_eq_true, decide_eq_true_eq, not_or, not_not] at hvalid
        obtain ⟨⟨⟨hpending, hsub⟩, -⟩, hgeneration⟩ := hvalid
        refine PointerSpec.write_of rfl rfl (store.transactPointerPut_write fun hcondition => ?_)
        generalize store.pointerAt (pointerKey pointer) = stored at hcondition
        cases expected with
        | none =>
          obtain rfl := Option.isNone_iff_eq_none.mp hcondition
          exact .begun hgeneration hpending hsub
        | some expected =>
          cases stored with
          | none => cases hcondition
          | some existing =>
            simp only [Bool.and_eq_true, beq_iff_eq, bne_iff_ne] at hcondition
            exact .replaced hcondition.2 (hcondition.1 ▸ hgeneration) hpending hsub
    | bindHandoff input publication =>
      refine PointerSpec.write_of rfl rfl
        (store.transactPointerPut_mutation hkey ?_ fun existing hcondition hsub => ?_)
      · rfl
      · simp only [sameFence, Bool.and_eq_true, beq_iff_eq] at hcondition
        obtain ⟨⟨⟨hgeneration, -⟩, hpending⟩, -⟩ := hcondition
        refine .issued (fun hrevoked => ?_) hgeneration.symm rfl hsub
        rw [hrevoked] at hpending
        cases hpending
    | publishHandoff input =>
      simp only [perform, answer, publishCredentialHandoff]
      split
      · exact .inl rfl
      next hpublication =>
        refine PointerSpec.write_of rfl rfl
          (store.transactPointerPut_mutation hkey ?_ fun existing hcondition hsub => ?_)
        · rfl
        · simp only [sameFence, Bool.and_eq_true, beq_iff_eq, Bool.or_eq_true] at hcondition
          obtain ⟨⟨⟨hgeneration, -⟩, hstate⟩, -⟩ := hcondition
          rw [Bool.not_eq_true, Bool.not_eq_false'] at hpublication
          refine .issued (fun hrevoked => ?_) hgeneration.symm hpublication hsub
          rw [hrevoked] at hstate
          obtain h | h := hstate <;> cases h
    | revokeHandoff input =>
      refine PointerSpec.write_of rfl rfl
        (store.transactPointerPut_mutation hkey ?_ fun existing hcondition hsub => ?_)
      · rfl
      · simp only [sameFence, Bool.and_eq_true, beq_iff_eq] at hcondition
        exact .revoked hcondition.1.symm rfl hsub

end DynamoProvisioningStore

-- ---------------------------------------------------------------------------
-- Both stores
-- ---------------------------------------------------------------------------

/-- Over all workers, all arguments and all orders of their calls. -/
theorem pointers_guarded {store : InMemoryProvisioningStore} {table : DynamoProvisioningStore}
    (hstore : ∀ handoffId, store.credentialHandoffs handoffId = none)
    (htable : ∀ key, table.pointerAt key = none) :
    PointersGuarded InMemoryProvisioningStore.perform (fun store => store.executionLeases)
        (fun store => store.credentialHandoffs) (·.handoffId) store ∧
      PointersGuarded DynamoProvisioningStore.perform (fun store => store.leaseItems)
        DynamoProvisioningStore.pointerAt DynamoProvisioningStore.pointerKey table :=
  ⟨InMemoryProvisioningStore.pointerSpec.guarded hstore,
    DynamoProvisioningStore.pointerSpec.guarded htable⟩

/-- From the start. -/
theorem pointers_guarded_initial :
    PointersGuarded InMemoryProvisioningStore.perform (fun store => store.executionLeases)
        (fun store => store.credentialHandoffs) (·.handoffId) .initial ∧
      PointersGuarded DynamoProvisioningStore.perform (fun store => store.leaseItems)
        DynamoProvisioningStore.pointerAt DynamoProvisioningStore.pointerKey .initial :=
  pointers_guarded (fun _ => rfl) (fun _ => rfl)

namespace HandoffSample

def pointer : CredentialHandoffPointer where
  handoffId := "handoff_1"
  subscriptionId := "sub_1"
  jobId := "job_1"
  activationGeneration := 0
  publicationGeneration := 0
  fencingToken := 1
  state := .pending
  secretId := none
  publicationId := none
  credentialId := none

def lease (subscriptionId ownerId : String) : JobExecutionLease := ⟨subscriptionId, ownerId, 1, 1000⟩

/-- A worker of each of two jobs, and a handoff of the first job. -/
def calls : List LeaseCall :=
  [.acquire "sub_1" "worker_1" 0 1000, .acquire "sub_2" "worker_2" 0 1000,
    .beginHandoff pointer (lease "sub_1" "worker_1") 1 none]

/-- The worker of the second job revokes the handoff of the first. -/
def foreign : LeaseCall := .revokeHandoff ⟨pointer, lease "sub_2" "worker_2", 2⟩

end HandoffSample

theorem leaseRun_calls {σ : Type} {perform : σ → LeaseCall → Outcome σ LeaseAnswer} (s : σ)
    (calls : List LeaseCall) :
    LeaseRun perform s (calls.foldl (fun s call => (perform s call).2) s) := by
  induction calls generalizing s with
  | nil => exact .refl
  | cons call calls ih => exact .head ⟨call, rfl⟩ (ih _)

/-- Revoking asks for no lease of the pointer's own subscription. -/
theorem foreign_lease_accepted :
    (¬ ∀ s, LeaseRun InMemoryProvisioningStore.perform .initial s → ∀ call key,
      (s.perform call).2.credentialHandoffs key ≠ s.credentialHandoffs key →
      ∀ p, s.credentialHandoffs key = some p ∨ (s.perform call).2.credentialHandoffs key = some p →
        HoldsLease (fun store : InMemoryProvisioningStore => store.executionLeases) s call
          p.subscriptionId) ∧
    ¬ ∀ s, LeaseRun DynamoProvisioningStore.perform .initial s → ∀ call key,
      (s.perform call).2.pointerAt key ≠ s.pointerAt key →
      ∀ p, s.pointerAt key = some p ∨ (s.perform call).2.pointerAt key = some p →
        HoldsLease (fun store : DynamoProvisioningStore => store.leaseItems) s call
          p.subscriptionId := by
  constructor
  · intro h
    obtain ⟨lease, now, hfence, hsub, -⟩ := h _ (leaseRun_calls _ HandoffSample.calls)
      HandoffSample.foreign "handoff_1" (by decide) HandoffSample.pointer (.inl (by decide))
    cases hfence
    exact absurd hsub (by decide)
  · intro h
    obtain ⟨lease, now, hfence, hsub, -⟩ := h _ (leaseRun_calls _ HandoffSample.calls)
      HandoffSample.foreign ("sub_1", "handoff_1") (by decide) HandoffSample.pointer
      (.inl (by decide))
    cases hfence
    exact absurd hsub (by decide)

end EsigSuite.Provisioning
