import EsigSuite.Lib.Table
import EsigSuite.Provisioning.Tenants

/-!
# The tenant tables over all calls

`TenantView` is what the tables say of one tenant. A committed call moves the
view of one tenant by one of the `ViewMoved` steps, and these keep it
consistent.
-/

namespace EsigSuite.Provisioning

open Lib Lib.Transaction

structure TenantView where
  status : TenantStatus
  state : TenantState
  billing : BillingState
  active : Nat

structure TenantView.Consistent (v : TenantView) : Prop where
  state : v.state = v.status.toState
  running : v.status = .provisioning ∨ v.status = .ready → v.active = 1
  stopped : v.status = .suspended ∨ v.status = .disabled → v.active = 0
  suspended : v.status = .suspended ↔ v.billing = .past_due
  disabled : v.status = .disabled ↔ v.billing = .canceled ∨ v.billing = .refunded

namespace TenantDb

def empty : TenantDb where
  esig_organizations := []
  esig_memberships _ _ := none
  esig_entitlements _ := none
  esig_api_keys := []
  esig_tenant_provisioning _ := none

def view (db : TenantDb) (id : String) : Option TenantView := do
  let o ← db.organization? id
  let e ← db.esig_entitlements id
  let p ← db.esig_tenant_provisioning id
  pure ⟨o.status, p.state, e.subscription_status, (db.activeKeys id).length⟩

def ids (db : TenantDb) : List String := db.esig_organizations.map (·.id)

/-- Primary keys, foreign keys, and that every organization has its rows. -/
structure Wellformed (db : TenantDb) : Prop where
  nodup : db.ids.Nodup
  entitlements : ∀ id ∈ db.ids, (db.esig_entitlements id).isSome = true
  provisioning : ∀ id, id ∈ db.ids ↔ (db.esig_tenant_provisioning id).isSome = true

def addOrganization (db : TenantDb) (o : Organization) : TenantDb :=
  { db with esig_organizations := db.esig_organizations ++ [o] }

def addKey (db : TenantDb) (key : ApiKey) : TenantDb :=
  { db with esig_api_keys := db.esig_api_keys ++ [key] }

end TenantDb

-- ---------------------------------------------------------------------------
-- The tables after a statement
-- ---------------------------------------------------------------------------

namespace TenantDb

variable (db : TenantDb) (id id' : String)

@[simp] theorem organization?_setEntitlement (e : Entitlement) :
    (db.setEntitlement id e).organization? id' = db.organization? id' := rfl

@[simp] theorem organization?_setProvisioning (p : TenantProvisioning) :
    (db.setProvisioning id p).organization? id' = db.organization? id' := rfl

@[simp] theorem organization?_setMembership (email : String) (m : Membership) :
    (db.setMembership id email m).organization? id' = db.organization? id' := rfl

@[simp] theorem organization?_revokeKeys :
    (db.revokeKeys id).organization? id' = db.organization? id' := rfl

theorem organization?_setOrganization {f : Organization → Organization}
    (hf : ∀ o, (f o).id = o.id) :
    (db.setOrganization id f).organization? id' =
      (db.organization? id').map fun o => if o.id = id then f o else o := by
  simp only [organization?, setOrganization, List.find?_map]
  congr 2
  funext o
  simp only [Function.comp]
  split <;> simp [hf]

@[simp] theorem activeKeys_setEntitlement (e : Entitlement) :
    (db.setEntitlement id e).activeKeys id' = db.activeKeys id' := rfl

@[simp] theorem activeKeys_setProvisioning (p : TenantProvisioning) :
    (db.setProvisioning id p).activeKeys id' = db.activeKeys id' := rfl

@[simp] theorem activeKeys_setOrganization (f : Organization → Organization) :
    (db.setOrganization id f).activeKeys id' = db.activeKeys id' := rfl

@[simp] theorem activeKeys_setMembership (email : String) (m : Membership) :
    (db.setMembership id email m).activeKeys id' = db.activeKeys id' := rfl

@[simp] theorem activeKeys_revokeKeys :
    (db.revokeKeys id).activeKeys id' = if id' = id then [] else db.activeKeys id' := by
  simp only [activeKeys, revokeKeys]
  split
  next h =>
    subst h
    rw [List.filter_eq_nil_iff]
    intro k hk
    obtain ⟨k', -, rfl⟩ := List.mem_map.mp hk
    split <;> simp_all
  next h =>
    induction db.esig_api_keys with
    | nil => rfl
    | cons k rest ih =>
      rw [List.map_cons, List.filter_cons, List.filter_cons, ih]
      by_cases hk : k.tenant_id = id ∧ k.status = .active
      · have hne : k.tenant_id ≠ id' := fun he => h (he.symm.trans hk.1)
        simp [hk.1, hk.2, hk.1 ▸ hne]
      · rw [if_neg hk]

@[simp] theorem organization?_addKey (key : ApiKey) :
    (db.addKey key).organization? id = db.organization? id := rfl

@[simp] theorem activeKeys_addOrganization (o : Organization) :
    (db.addOrganization o).activeKeys id = db.activeKeys id := rfl

theorem activeKeys_addKey {key : ApiKey} (hactive : key.status = .active) :
    (db.addKey key).activeKeys id =
      db.activeKeys id ++ if key.tenant_id = id then [key] else [] := by
  simp only [activeKeys, addKey, List.filter_append]
  congr 1
  by_cases h : key.tenant_id = id <;> simp [h, hactive]

theorem organization?_addOrganization (o : Organization) :
    (db.addOrganization o).organization? id =
      (db.organization? id).or (if o.id = id then some o else none) := by
  simp only [organization?, addOrganization, List.find?_append]
  congr 1
  by_cases h : o.id = id <;> simp [h]

@[simp] theorem entitlements_setEntitlement (e : Entitlement) :
    (db.setEntitlement id e).esig_entitlements id' =
      if id' = id then some e else db.esig_entitlements id' := by
  simp [setEntitlement, Function.update_apply]

@[simp] theorem entitlements_setProvisioning (p : TenantProvisioning) :
    (db.setProvisioning id p).esig_entitlements = db.esig_entitlements := rfl

@[simp] theorem entitlements_setOrganization (f : Organization → Organization) :
    (db.setOrganization id f).esig_entitlements = db.esig_entitlements := rfl

@[simp] theorem entitlements_setMembership (email : String) (m : Membership) :
    (db.setMembership id email m).esig_entitlements = db.esig_entitlements := rfl

@[simp] theorem entitlements_revokeKeys :
    (db.revokeKeys id).esig_entitlements = db.esig_entitlements := rfl

@[simp] theorem entitlements_addKey (key : ApiKey) :
    (db.addKey key).esig_entitlements = db.esig_entitlements := rfl

@[simp] theorem entitlements_addOrganization (o : Organization) :
    (db.addOrganization o).esig_entitlements = db.esig_entitlements := rfl

@[simp] theorem provisioning_setProvisioning (p : TenantProvisioning) :
    (db.setProvisioning id p).esig_tenant_provisioning id' =
      if id' = id then some p else db.esig_tenant_provisioning id' := by
  simp [setProvisioning, Function.update_apply]

@[simp] theorem provisioning_setEntitlement (e : Entitlement) :
    (db.setEntitlement id e).esig_tenant_provisioning = db.esig_tenant_provisioning := rfl

@[simp] theorem provisioning_setOrganization (f : Organization → Organization) :
    (db.setOrganization id f).esig_tenant_provisioning = db.esig_tenant_provisioning := rfl

@[simp] theorem provisioning_setMembership (email : String) (m : Membership) :
    (db.setMembership id email m).esig_tenant_provisioning = db.esig_tenant_provisioning := rfl

@[simp] theorem provisioning_revokeKeys :
    (db.revokeKeys id).esig_tenant_provisioning = db.esig_tenant_provisioning := rfl

@[simp] theorem provisioning_addKey (key : ApiKey) :
    (db.addKey key).esig_tenant_provisioning = db.esig_tenant_provisioning := rfl

@[simp] theorem provisioning_addOrganization (o : Organization) :
    (db.addOrganization o).esig_tenant_provisioning = db.esig_tenant_provisioning := rfl

theorem organization?_isSome : (db.organization? id).isSome = true ↔ id ∈ db.ids := by
  simp [organization?, ids, List.find?_isSome]

theorem organization?_id {o : Organization} (h : db.organization? id = some o) : o.id = id := by
  simpa using List.find?_some h

theorem organization?_mem {o : Organization} (h : db.organization? id = some o) :
    o ∈ db.esig_organizations :=
  List.mem_of_find?_eq_some h

variable {db}

theorem organization?_of_mem (hnodup : db.ids.Nodup) {o : Organization}
    (h : o ∈ db.esig_organizations) : db.organization? o.id = some o := by
  obtain ⟨o', ho'⟩ := Option.isSome_iff_exists.mp
    ((db.organization?_isSome o.id).mpr (List.mem_map_of_mem h))
  rw [ho', eq_of_key hnodup (db.organization?_mem o.id ho') h (db.organization?_id o.id ho')]

@[simp] theorem ids_setOrganization (id : String) {f : Organization → Organization}
    (hf : ∀ o, (f o).id = o.id) : (db.setOrganization id f).ids = db.ids := by
  simp only [ids, setOrganization, List.map_map]
  congr 1
  funext o
  simp only [Function.comp]
  split <;> simp [hf]

-- ---------------------------------------------------------------------------
-- Wellformed tables
-- ---------------------------------------------------------------------------

namespace Wellformed

theorem setEntitlement (h : db.Wellformed) (id : String) (e : Entitlement) :
    (db.setEntitlement id e).Wellformed where
  nodup := h.nodup
  entitlements id' hid' := by
    by_cases heq : id' = id
    · simp [TenantDb.setEntitlement, heq]
    · simpa [TenantDb.setEntitlement, heq] using h.entitlements id' hid'
  provisioning := h.provisioning

theorem setProvisioning (h : db.Wellformed) {id : String} (hid : id ∈ db.ids)
    (p : TenantProvisioning) : (db.setProvisioning id p).Wellformed where
  nodup := h.nodup
  entitlements := h.entitlements
  provisioning id' := by
    change id' ∈ db.ids ↔ _
    by_cases heq : id' = id
    · subst heq
      simpa [TenantDb.setProvisioning] using hid
    · simpa [TenantDb.setProvisioning, heq] using h.provisioning id'

theorem setOrganization (h : db.Wellformed) (id : String) {f : Organization → Organization}
    (hf : ∀ o, (f o).id = o.id) : (db.setOrganization id f).Wellformed where
  nodup := by
    rw [ids_setOrganization id hf]
    exact h.nodup
  entitlements := by
    rw [ids_setOrganization id hf]
    exact h.entitlements
  provisioning := by
    rw [ids_setOrganization id hf]
    exact h.provisioning

theorem setMembership (h : db.Wellformed) (id email : String) (m : Membership) :
    (db.setMembership id email m).Wellformed :=
  ⟨h.nodup, h.entitlements, h.provisioning⟩

theorem revokeKeys (h : db.Wellformed) (id : String) : (db.revokeKeys id).Wellformed :=
  ⟨h.nodup, h.entitlements, h.provisioning⟩

theorem addKey (h : db.Wellformed) (key : ApiKey) : (db.addKey key).Wellformed :=
  ⟨h.nodup, h.entitlements, h.provisioning⟩

/-- A new organization together with its rows. -/
theorem created (h : db.Wellformed) {o : Organization} (hnew : db.organization? o.id = none)
    (e : Entitlement) (p : TenantProvisioning) :
    (((db.addOrganization o).setEntitlement o.id e).setProvisioning o.id p).Wellformed := by
  have hids : o.id ∉ db.ids := by
    rw [← db.organization?_isSome, hnew]
    simp
  refine ⟨?_, ?_, ?_⟩
  · simpa [ids, addOrganization, TenantDb.setEntitlement, TenantDb.setProvisioning,
      List.nodup_append] using ⟨h.nodup, fun o' ho' heq => hids (List.mem_map.mpr ⟨o', ho', heq⟩)⟩
  · intro id hid
    by_cases heq : id = o.id
    · simp [TenantDb.setEntitlement, TenantDb.setProvisioning, heq]
    · have hid' : id ∈ db.ids := by
        simpa [ids, addOrganization, TenantDb.setEntitlement, TenantDb.setProvisioning, heq]
          using hid
      simpa [TenantDb.setEntitlement, TenantDb.setProvisioning, addOrganization, heq]
        using h.entitlements id hid'
  · intro id
    by_cases heq : id = o.id
    · simp [ids, addOrganization, TenantDb.setEntitlement, TenantDb.setProvisioning, heq]
    · simpa [ids, TenantDb.setEntitlement, TenantDb.setProvisioning, addOrganization, heq]
        using h.provisioning id

end Wellformed

-- ---------------------------------------------------------------------------
-- The views of the other tenants
-- ---------------------------------------------------------------------------

section
variable {id id' : String}

theorem view_setEntitlement_ne (hne : id' ≠ id) (e : Entitlement) :
    (db.setEntitlement id e).view id' = db.view id' := by
  simp [view, hne]

theorem view_setProvisioning_ne (hne : id' ≠ id) (p : TenantProvisioning) :
    (db.setProvisioning id p).view id' = db.view id' := by
  simp [view, hne]

theorem view_setMembership (email : String) (m : Membership) :
    (db.setMembership id email m).view id' = db.view id' := rfl

theorem view_revokeKeys_ne (hne : id' ≠ id) : (db.revokeKeys id).view id' = db.view id' := by
  simp [view, hne]

theorem view_addKey_ne {key : ApiKey} (hactive : key.status = .active)
    (hne : id' ≠ key.tenant_id) : (db.addKey key).view id' = db.view id' := by
  simp [view, activeKeys_addKey _ _ hactive, Ne.symm hne]

theorem view_setOrganization_ne (hne : id' ≠ id) {f : Organization → Organization}
    (hf : ∀ o, (f o).id = o.id) : (db.setOrganization id f).view id' = db.view id' := by
  cases ho : db.organization? id' with
  | none => simp [view, organization?_setOrganization _ _ _ hf, ho]
  | some o =>
    have hid : o.id ≠ id := fun h => hne ((db.organization?_id id' ho).symm.trans h)
    simp [view, organization?_setOrganization _ _ _ hf, ho, hid]

theorem view_addOrganization_ne {o : Organization} (hne : id' ≠ o.id) :
    (db.addOrganization o).view id' = db.view id' := by
  simp [view, organization?_addOrganization, Ne.symm hne]

end

end TenantDb

-- ---------------------------------------------------------------------------
-- The view after a call
-- ---------------------------------------------------------------------------

/-- The tests that are true of some stored view are part of each step. -/
inductive ViewMoved : Option TenantView → Option TenantView → Prop
  | kept (v : Option TenantView) : ViewMoved v v
  | created : ViewMoved none (some ⟨.provisioning, .provisioning, .active, 1⟩)
  | provisioned (v : TenantView) : v.status ≠ .disabled → v.active ≠ 0 →
      ViewMoved (some v) (some { v with
        state := if v.state = .ready then .ready else .provisioning, billing := .active })
  | reissued (v : TenantView) : v.status ≠ .disabled → v.status ≠ .suspended →
      ViewMoved (some v) (some { v with active := 1 })
  | readied (v : TenantView) : v.status = .provisioning ∨ v.status = .ready →
      ViewMoved (some v) (some { v with status := .ready, state := .ready })
  | resumed (v : TenantView) : v.status = .suspended → v.billing = .past_due →
      ViewMoved (some v) (some ⟨.provisioning, .provisioning, .active, 1⟩)
  | suspended (v : TenantView) : v.status ≠ .disabled → v.billing.terminal = false →
      ViewMoved (some v) (some ⟨.suspended, .suspended, .past_due, 0⟩)
  | disabled (v : TenantView) (requested : BillingState) : requested.terminal = true →
      v.billing.terminal = false →
      ViewMoved (some v) (some ⟨.disabled, .disabled, requested, 0⟩)
  | terminal (v : TenantView) : v.billing.terminal = true →
      ViewMoved (some v) (some ⟨.disabled, .disabled, v.billing, 0⟩)

theorem terminal_iff {b : BillingState} : b.terminal = true ↔ b = .canceled ∨ b = .refunded := by
  cases b <;> simp [BillingState.terminal]

/-- Every step keeps a view consistent. -/
theorem ViewMoved.consistent (h : ViewMoved before after)
    (hbefore : ∀ v, before = some v → v.Consistent) : ∀ v, after = some v → v.Consistent := by
  intro v' hv'
  cases h with
  | kept => exact hbefore v' hv'
  | created =>
    cases hv'
    exact ⟨rfl, fun _ => rfl, by simp, by simp, by simp⟩
  | provisioned v hdisabled hactive =>
    cases hv'
    have hv := hbefore v rfl
    have hstopped := hv.stopped
    have hstate := hv.state
    have hrunning := hv.running
    cases hstatus : v.status <;> simp_all [TenantStatus.toState] <;>
      exact ⟨by simp_all [TenantStatus.toState], by simp_all, by simp_all, by simp_all, by simp_all⟩
  | reissued v hdisabled hsuspended =>
    cases hv'
    have hv := hbefore v rfl
    exact ⟨hv.state, fun _ => rfl, by simp_all, hv.suspended, hv.disabled⟩
  | readied v hstatus =>
    cases hv'
    have hv := hbefore v rfl
    have hactive := hv.running hstatus
    have hsuspended := hv.suspended
    have hdisabled := hv.disabled
    exact ⟨rfl, fun _ => hactive, by simp, by obtain hs | hs := hstatus <;> simp_all,
      by obtain hs | hs := hstatus <;> simp_all⟩
  | resumed v hsuspended hbilling =>
    cases hv'
    exact ⟨rfl, fun _ => rfl, by simp, by simp, by simp⟩
  | suspended v hdisabled hbilling =>
    cases hv'
    exact ⟨rfl, by simp, fun _ => rfl, by simp, by simp⟩
  | disabled v requested hrequested hbilling =>
    cases hv'
    rw [terminal_iff] at hrequested
    exact ⟨rfl, by simp, fun _ => rfl, by obtain rfl | rfl := hrequested <;> simp, by simpa⟩
  | terminal v hbilling =>
    cases hv'
    rw [terminal_iff] at hbilling
    exact ⟨rfl, by simp, fun _ => rfl, by obtain hb | hb := hbilling <;> simp [hb], by simpa⟩

/-- Disabled with a canceled or refunded entitlement is left by no step. -/
theorem ViewMoved.absorbing (h : ViewMoved (some v) after)
    (hdisabled : v.status = .disabled) (hbilling : v.billing.terminal = true) :
    ∃ v', after = some v' ∧ v'.status = .disabled ∧ v'.billing = v.billing := by
  cases h with
  | kept => exact ⟨v, rfl, hdisabled, rfl⟩
  | provisioned _ hno _ => exact (hno hdisabled).elim
  | reissued _ hno _ => exact (hno hdisabled).elim
  | readied _ hstatus => simp [hdisabled] at hstatus
  | resumed _ hsuspended _ => simp [hdisabled] at hsuspended
  | suspended _ hno _ => exact (hno hdisabled).elim
  | disabled _ requested _ hno => simp [hbilling] at hno
  | terminal _ _ => exact ⟨_, rfl, rfl, rfl⟩

-- ---------------------------------------------------------------------------
-- Statements taken apart
-- ---------------------------------------------------------------------------

section
variable {db : TenantDb}

theorem raiseIf_ok : raiseIf condition message errcode db = .ok r ↔
    condition = false ∧ r = ((), db) := by
  cases condition with
  | true => exact ⟨fun h => (nomatch h), fun h => (nomatch h.1)⟩
  | false => exact ⟨fun h => ⟨rfl, (Except.ok.inj h).symm⟩, fun h => h.2 ▸ rfl⟩

theorem raise_ok {r : α × TenantDb} : (raise message errcode : Tx α) db = .ok r ↔ False :=
  throw_ok

theorem orRaise_ok {o : Option α} {r : α × TenantDb} :
    orRaise message errcode o db = .ok r ↔ ∃ a, o = some a ∧ r = (a, db) := by
  cases o with
  | none => exact ⟨fun h => (nomatch h), by rintro ⟨a, h, -⟩; cases h⟩
  | some a =>
    refine ⟨fun h => ⟨a, rfl, (Except.ok.inj h).symm⟩, ?_⟩
    rintro ⟨a', h, rfl⟩
    cases h
    rfl

theorem notNull_ok {o : Option α} {r : α × TenantDb} :
    notNull o db = .ok r ↔ ∃ a, o = some a ∧ r = (a, db) :=
  orRaise_ok

theorem found_ok {o : Option α} {r : α × TenantDb} :
    found message o db = .ok r ↔ ∃ a, o = some a ∧ r = (a, db) :=
  orRaise_ok

/-- The new key is the only active one of its tenant. -/
theorem generateApiKey_ok (h : generateApiKey pg generated tenant_id db = .ok r) :
    ∃ key : ApiKey, key.tenant_id = tenant_id ∧ key.status = .active ∧ r.2 = db.addKey key ∧
      db.activeKeys tenant_id = [] ∧ (db.organization? tenant_id).isSome = true := by
  simp only [generateApiKey, insertApiKey, bind_ok, get_ok, raiseIf_ok, set_ok, pure_ok] at h
  obtain ⟨_, _, ⟨_, _, h1, _, _, h2, _, _, h3, _, _, h4, h5⟩, h6⟩ := h
  cases h1
  obtain ⟨-, h2⟩ := h2
  cases h2
  obtain ⟨horg, h3⟩ := h3
  cases h3
  obtain ⟨hunique, h4⟩ := h4
  cases h4
  cases h5
  cases h6
  refine ⟨_, rfl, rfl, rfl, ?_, by simpa using horg⟩
  rw [TenantDb.activeKeys, List.filter_eq_nil_iff]
  intro k hk hactive
  rw [List.any_eq_false] at hunique
  have hk' := hunique k hk
  simp only [Bool.and_eq_true, beq_iff_eq] at hactive
  simp [hactive.1, hactive.2] at hk'

end

/-- A committed call: the tables stay wellformed and one view moves. -/
structure Moved (db db' : TenantDb) : Prop where
  wellformed : db'.Wellformed
  views : ∃ id, ViewMoved (db.view id) (db'.view id) ∧ ∀ id' ≠ id, db'.view id' = db.view id'

theorem TenantDb.view_eq_some {db : TenantDb} {id : String} : db.view id = some v ↔
    ∃ o e p, db.organization? id = some o ∧ db.esig_entitlements id = some e ∧
      db.esig_tenant_provisioning id = some p ∧
      v = ⟨o.status, p.state, e.subscription_status, (db.activeKeys id).length⟩ := by
  simp only [TenantDb.view, bind, Option.bind_eq_some_iff, pure, Option.some.injEq]
  constructor
  · rintro ⟨o, ho, e, he, p, hp, rfl⟩
    exact ⟨o, e, p, ho, he, hp, rfl⟩
  · rintro ⟨o, e, p, ho, he, hp, rfl⟩
    exact ⟨o, ho, e, he, p, hp, rfl⟩

/-- The rows an organization of wellformed tables has. -/
theorem TenantDb.Wellformed.rows {db : TenantDb} {id : String} (h : db.Wellformed)
    (ho : db.organization? id = some o) :
    ∃ e p, db.esig_entitlements id = some e ∧ db.esig_tenant_provisioning id = some p ∧
      db.view id = some ⟨o.status, p.state, e.subscription_status, (db.activeKeys id).length⟩ := by
  have hid : id ∈ db.ids := (db.organization?_isSome id).mp (by simp [ho])
  obtain ⟨e, he⟩ := Option.isSome_iff_exists.mp (h.entitlements id hid)
  obtain ⟨p, hp⟩ := Option.isSome_iff_exists.mp ((h.provisioning id).mp hid)
  exact ⟨e, p, he, hp, db.view_eq_some.mpr ⟨o, e, p, ho, he, hp, rfl⟩⟩

section
variable {db db' : TenantDb} {pg : Postgres} {generated : Generated}

/-- `Wellformed.rows` of an organization that a `SELECT` found. -/
theorem rows_of_find {o : Organization} (hdb : db.Wellformed) {matching : Organization → Bool}
    (ho : db.esig_organizations.find? matching = some o) :
    db.organization? o.id = some o ∧ o.id ∈ db.ids := by
  have hmem := List.mem_of_find?_eq_some ho
  exact ⟨TenantDb.organization?_of_mem hdb.nodup hmem, List.mem_map_of_mem hmem⟩

theorem reissue_moved (hdb : db.Wellformed)
    (h : reissue_esig_tenant_credential pg generated p_tenant_id p_subscription_id db =
      .ok (r, db')) : Moved db db' := by
  simp only [reissue_esig_tenant_credential, bind_ok, get_ok, found_ok, raiseIf_ok,
    modify_ok] at h
  obtain ⟨_, _, h0, o, _, ⟨_, ho, h1⟩, _, _, ⟨hdisabled, h2⟩, _, _, ⟨hsuspended, h3⟩, _, _, h4,
    hgenerate⟩ := h
  cases h0; cases h1; cases h2; cases h3; cases h4
  obtain ⟨horg, -⟩ := rows_of_find hdb ho
  obtain ⟨e, p, he, hp, hview⟩ := hdb.rows horg
  obtain ⟨key, hkey, hactive, rfl, -, -⟩ := generateApiKey_ok hgenerate
  refine ⟨(hdb.revokeKeys _).addKey _, o.id, ?_, fun id' hne => ?_⟩
  · have hafter : ((db.revokeKeys o.id).addKey key).view o.id =
        some ⟨o.status, p.state, e.subscription_status, 1⟩ := by
      simp [TenantDb.view, horg, he, hp, TenantDb.activeKeys_addKey _ _ hactive, hkey]
    rw [hview, hafter]
    exact .reissued _ (by simpa using hdisabled) (by simpa using hsuspended)
  · rw [TenantDb.view_addKey_ne hactive (hkey ▸ hne), TenantDb.view_revokeKeys_ne hne]

theorem markReady_moved (hdb : db.Wellformed)
    (h : mark_esig_tenant_ready p_tenant_id db = .ok (r, db')) : Moved db db' := by
  simp only [mark_esig_tenant_ready, bind_ok, get_ok, found_ok, raiseIf_ok, modify_ok,
    readyableRows] at h
  obtain ⟨_, _, h0, ⟨o, p⟩, _, ⟨_, hrows, h1⟩, h⟩ := h
  cases h0; cases h1
  obtain ⟨_, _, ⟨hterminal, h2⟩, _, _, ⟨hreadyable, h3⟩, _, _, h4, h5⟩ := h
  cases h2; cases h3; cases h4; cases h5
  simp only [Option.bind_eq_bind, Option.bind_eq_some_iff, Option.pure_def,
    Option.some.injEq] at hrows
  obtain ⟨_, ho, _, hp, heq⟩ := hrows
  cases heq
  obtain ⟨horg, hid⟩ := rows_of_find hdb ho
  obtain ⟨e, p', he, hp', hview⟩ := hdb.rows horg
  obtain rfl : p = p' := Option.some.inj (hp.symm.trans hp')
  have hkeep : ∀ o' : Organization, ({ o' with status := .ready } : Organization).id = o'.id :=
    fun _ => rfl
  refine ⟨(hdb.setProvisioning hid _).setOrganization _ hkeep, o.id, ?_, fun id' hne => ?_⟩
  · have hafter : (((db.setProvisioning o.id { state := .ready, safe_error_code := none }).setOrganization
        o.id fun o => { o with status := .ready }).view o.id) =
          some ⟨.ready, .ready, e.subscription_status, (db.activeKeys o.id).length⟩ := by
      simp [TenantDb.view, TenantDb.organization?_setOrganization, horg, he]
    rw [hview, hafter]
    refine .readied ⟨o.status, p.state, e.subscription_status, (db.activeKeys o.id).length⟩ ?_
    cases hs : o.status <;> simp_all
  · rw [TenantDb.view_setOrganization_ne hne hkeep, TenantDb.view_setProvisioning_ne hne]

theorem tenantRows_some {matching : Organization → Bool} {rows : TenantRows}
    (hdb : db.Wellformed) (h : tenantRows matching db = some rows) :
    db.organization? rows.o.id = some rows.o ∧ rows.o.id ∈ db.ids ∧
      db.esig_entitlements rows.o.id = some rows.e ∧
      db.view rows.o.id = some ⟨rows.o.status, rows.p.state, rows.e.subscription_status,
        (db.activeKeys rows.o.id).length⟩ := by
  simp only [tenantRows, Option.bind_eq_bind, Option.bind_eq_some_iff, Option.pure_def,
    Option.some.injEq] at h
  obtain ⟨o, ho, e, he, p, hp, rfl⟩ := h
  obtain ⟨horg, hid⟩ := rows_of_find hdb ho
  exact ⟨horg, hid, he, db.view_eq_some.mpr ⟨o, e, p, horg, he, hp, rfl⟩⟩

/-- The rows of a tenant whose status, state and entitlement are all set. -/
theorem view_set {o : Organization} (horg : db.organization? o.id = some o)
    {f : Organization → Organization} (hf : ∀ o, (f o).id = o.id) (e : Entitlement)
    (p : TenantProvisioning) :
    (((db.setEntitlement o.id e).setOrganization o.id f).setProvisioning o.id p).view o.id =
      some ⟨(f o).status, p.state, e.subscription_status, (db.activeKeys o.id).length⟩ := by
  simp [TenantDb.view, TenantDb.organization?_setOrganization _ _ _ hf, horg]

theorem view_set_ne {id id' : String} (hne : id' ≠ id) {f : Organization → Organization}
    (hf : ∀ o, (f o).id = o.id) (e : Entitlement) (p : TenantProvisioning) :
    (((db.setEntitlement id e).setOrganization id f).setProvisioning id p).view id' =
      db.view id' := by
  rw [TenantDb.view_setProvisioning_ne hne, TenantDb.view_setOrganization_ne hne hf,
    TenantDb.view_setEntitlement_ne hne]

theorem resumeSuspended_moved (hdb : db.Wellformed) {rows : TenantRows}
    (horg : db.organization? rows.o.id = some rows.o) (hid : rows.o.id ∈ db.ids)
    (hview : db.view rows.o.id = some ⟨rows.o.status, rows.p.state, rows.e.subscription_status,
      (db.activeKeys rows.o.id).length⟩)
    (hstatus : rows.o.status = .suspended) (hbilling : rows.e.subscription_status = .past_due)
    (h : resumeSuspended pg generated rows db = .ok (r, db')) : Moved db db' := by
  simp only [resumeSuspended, bind_ok, modify_ok, pure_ok] at h
  obtain ⟨_, _, h0, ⟨credentialId, plaintext⟩, _, hgenerate, _, _, h1, _, _, h2, _, _, h3, h4⟩ := h
  cases h0; cases h1; cases h2; cases h3; cases h4
  obtain ⟨key, hkey, hactive, rfl, hnone, -⟩ := generateApiKey_ok hgenerate
  have horg' : ((db.revokeKeys rows.o.id).addKey key).organization? rows.o.id = some rows.o := horg
  have hkeep : ∀ o' : Organization,
      ({ o' with status := .provisioning } : Organization).id = o'.id := fun _ => rfl
  refine ⟨?_, rows.o.id, ?_, fun id' hne => ?_⟩
  · exact ((((hdb.revokeKeys _).addKey _).setEntitlement _ _).setOrganization _
      hkeep).setProvisioning (by rw [TenantDb.ids_setOrganization _ hkeep]; exact hid) _
  · rw [hview, view_set horg' hkeep, TenantDb.activeKeys_addKey _ _ hactive, hnone]
    simp only [hkey, if_true, List.nil_append, List.length_singleton]
    exact .resumed _ hstatus hbilling
  · rw [view_set_ne hne hkeep, TenantDb.view_addKey_ne hactive (hkey ▸ hne),
      TenantDb.view_revokeKeys_ne hne]

theorem resume_moved (hdb : db.Wellformed)
    (h : resume_esig_tenant pg generated p_tenant_id p_subscription_id db = .ok (r, db')) :
    Moved db db' := by
  simp only [resume_esig_tenant, bind_ok, get_ok, found_ok, raiseIf_ok] at h
  obtain ⟨_, _, h0, rows, _, ⟨_, hrows, h1⟩, _, _, ⟨-, h2⟩, h⟩ := h
  cases h0; cases h1; cases h2
  obtain ⟨horg, hid, -, hview⟩ := tenantRows_some hdb hrows
  split at h
  · split at h
    · -- already running: the active credential is answered
      simp only [bind_ok, get_ok, found_ok, pure_ok] at h
      obtain ⟨_, _, h3, _, _, ⟨_, -, h4⟩, h5⟩ := h
      cases h3; cases h4; cases h5
      exact ⟨hdb, rows.o.id, .kept _, fun _ _ => rfl⟩
    · simp only [raise_ok] at h
  next hsuspended =>
    rw [not_or, not_not, not_not] at hsuspended
    exact resumeSuspended_moved hdb horg hid hview hsuspended.1 hsuspended.2 h

/-- The status that a disable call leaves. -/
theorem disable_moved (hdb : db.Wellformed) (hconsistent : ∀ id v, db.view id = some v → v.Consistent)
    (h : disable_esig_tenant p_tenant_id p_subscription_status p_safe_error_code db =
      .ok (r, db')) : Moved db db' := by
  simp only [disable_esig_tenant, bind_ok, get_ok, found_ok, raiseIf_ok, modify_ok, notNull_ok] at h
  obtain ⟨_, _, ⟨-, h0⟩, _, _, ⟨-, h1⟩, _, _, h2, rows, _, ⟨_, hrows, h3⟩, h⟩ := h
  cases h0; cases h1; cases h2; cases h3
  obtain ⟨_, _, h4, billing, _, ⟨_, hbilling, h5⟩, _, _, h6, _, _, h7, h8⟩ := h
  cases h4; cases h5; cases h6; cases h7; cases h8
  obtain ⟨horg, hid, -, hview⟩ := tenantRows_some hdb hrows
  have hv := hconsistent _ _ hview
  have horg' : (db.revokeKeys rows.o.id).organization? rows.o.id = some rows.o := horg
  generalize hdisabled : (decide (rows.o.status = .disabled) ||
    rows.e.subscription_status.terminal ||
      Option.any (·.terminal) (p_subscription_status.bind disableStatus)) = disabled
  have hkeep : ∀ o' : Organization,
      ({ o' with status := if disabled = true then .disabled else .suspended } : Organization).id =
        o'.id := fun _ => rfl
  refine ⟨?_, rows.o.id, ?_, fun id' hne => ?_⟩
  · exact (((hdb.revokeKeys _).setEntitlement _ _).setOrganization _ hkeep).setProvisioning
      (by rw [TenantDb.ids_setOrganization _ hkeep]; exact hid) _
  · rw [hview, view_set horg' hkeep]
    simp only [TenantDb.activeKeys_revokeKeys, if_true, List.length_nil]
    cases hterminal : rows.e.subscription_status.terminal with
    | true =>
      simp only [hterminal, if_true, Option.some.injEq] at hbilling
      subst hbilling
      obtain rfl : disabled = true := by simpa [hterminal] using hdisabled.symm
      exact .terminal _ hterminal
    | false =>
      have hstatus : rows.o.status ≠ .disabled := fun hd => by
        have := terminal_iff.mpr (hv.disabled.mp hd)
        simp [hterminal] at this
      simp only [hterminal, Bool.false_eq_true, if_false] at hbilling
      simp only [hterminal, hstatus, decide_false, Bool.or_self, Bool.false_or, hbilling,
        Option.any_some] at hdisabled
      subst hdisabled
      cases hrequested : billing.terminal with
      | true => exact .disabled _ billing hrequested hterminal
      | false =>
        have hpast : billing = .past_due := by
          obtain ⟨status, -, hstatus⟩ := Option.bind_eq_some_iff.mp hbilling
          simp only [disableStatus] at hstatus
          split at hstatus <;> cases hstatus <;> simp_all [BillingState.terminal]
        subst hpast
        exact .suspended _ hstatus hterminal
  · rw [view_set_ne hne hkeep, TenantDb.view_revokeKeys_ne hne]

-- ---------------------------------------------------------------------------
-- Provisioning
-- ---------------------------------------------------------------------------

theorem upsertOrganization_ok {o : Organization}
    (h : upsertOrganization o db = .ok (true, db')) :
    (db.organization? o.id = none ∧ db' = db.addOrganization o) ∨
      ∃ existing, db.organization? o.id = some existing ∧
        existing.stripe_subscription_id = o.stripe_subscription_id ∧
        ∃ f : Organization → Organization, (∀ x, (f x).id = x.id) ∧
          (∀ x, (f x).status = x.status) ∧ db' = db.setOrganization o.id f := by
  simp only [upsertOrganization, bind_ok, get_ok, raiseIf_ok] at h
  obtain ⟨_, _, h0, _, _, ⟨-, h1⟩, h⟩ := h
  cases h0; cases h1
  cases hexisting : db.organization? o.id with
  | some existing =>
    simp only [hexisting] at h
    split at h
    next hsame =>
      simp only [bind_ok, set_ok, pure_ok] at h
      obtain ⟨_, _, h2, h3⟩ := h
      cases h2; cases h3
      refine .inr ⟨existing, rfl, hsame.1, _, ?_, ?_, rfl⟩
      · exact fun _ => rfl
      · exact fun _ => rfl
    · simp only [pure_ok] at h
      cases h
  | none =>
    simp only [hexisting, bind_ok, raiseIf_ok, set_ok, pure_ok] at h
    obtain ⟨_, _, ⟨-, h2⟩, _, _, h3, h4⟩ := h
    cases h2; cases h3; cases h4
    exact .inl ⟨rfl, rfl⟩

theorem upsertMembership_ok (h : upsertMembership pg tenant_id email db = .ok (r, db')) :
    ∃ m, db' = db.setMembership tenant_id email m := by
  simp only [upsertMembership, bind_ok, get_ok, raiseIf_ok, set_ok] at h
  obtain ⟨_, _, h0, _, _, ⟨-, h1⟩, h2⟩ := h
  cases h0; cases h1; cases h2
  exact ⟨_, rfl⟩

/-- A new organization has its first key, an existing one has an active key. -/
theorem provisionedCredential_ok
    (h : provisionedCredential pg generated tenant_id created db = .ok (r, db')) :
    (created = true ∧ ∃ key : ApiKey, key.tenant_id = tenant_id ∧ key.status = .active ∧
        db' = db.addKey key ∧ db.activeKeys tenant_id = []) ∨
      (created = false ∧ db' = db ∧ db.activeKeys tenant_id ≠ []) := by
  unfold provisionedCredential at h
  split at h
  next hcreated =>
    simp only [bind_ok, pure_ok] at h
    obtain ⟨⟨id, plaintext⟩, _, hgenerate, h0⟩ := h
    cases h0
    obtain ⟨key, hkey, hactive, rfl, hnone, -⟩ := generateApiKey_ok hgenerate
    exact .inl ⟨hcreated, key, hkey, hactive, rfl, hnone⟩
  next hcreated =>
    simp only [bind_ok, get_ok, found_ok, pure_ok] at h
    obtain ⟨_, _, h0, key, _, ⟨_, hkey, h1⟩, h2⟩ := h
    cases h0; cases h1; cases h2
    refine .inr ⟨by simpa using hcreated, rfl, fun hnil => ?_⟩
    simp [hnil] at hkey

/-- A new organization with all its rows and its first key. -/
theorem created_moved (email : String) (hdb : db.Wellformed) {o : Organization} (hnew : db.organization? o.id = none)
    (hstatus : o.status = .provisioning) (m : Membership) {e : Entitlement}
    (he : e.subscription_status = .active) {key : ApiKey} (hkey : key.tenant_id = o.id)
    (hactive : key.status = .active) (hnone : db.activeKeys o.id = []) :
    Moved db (((((db.addOrganization o).setMembership o.id email m).setEntitlement o.id e).addKey
      key).setProvisioning o.id ⟨.provisioning, none⟩) := by
  have hwf := hdb.created hnew e ⟨.provisioning, none⟩
  refine ⟨⟨hwf.nodup, hwf.entitlements, hwf.provisioning⟩, o.id, ?_, fun id' hne => ?_⟩
  · have hbefore : db.view o.id = none := by simp [TenantDb.view, hnew]
    rw [hbefore]
    simpa [TenantDb.view, TenantDb.organization?_addOrganization, hnew, hstatus, he,
      TenantDb.activeKeys_addKey _ _ hactive, hnone, hkey] using ViewMoved.created
  · rw [TenantDb.view_setProvisioning_ne hne, TenantDb.view_addKey_ne hactive (hkey ▸ hne),
      TenantDb.view_setEntitlement_ne hne, TenantDb.view_setMembership,
      TenantDb.view_addOrganization_ne hne]

/-- An organization that is there, is not disabled and has an active key. -/
theorem provisioned_moved {id : String} (email : String) (hdb : db.Wellformed) {o : Organization}
    (horg : db.organization? id = some o) (hstatus : o.status ≠ .disabled)
    {f : Organization → Organization} (hf : ∀ x, (f x).id = x.id)
    (hfstatus : ∀ x, (f x).status = x.status) (m : Membership) {e : Entitlement}
    (he : e.subscription_status = .active) (hkeys : db.activeKeys id ≠ []) :
    Moved db ((((db.setOrganization id f).setMembership id email m).setEntitlement id
      e).setProvisioning id ⟨provisionedState (db.esig_tenant_provisioning id), none⟩) := by
  have hid : id ∈ db.ids := (db.organization?_isSome id).mp (by simp [horg])
  obtain ⟨e', p, -, hp, hview⟩ := hdb.rows horg
  refine ⟨?_, id, ?_, fun id' hne => ?_⟩
  · refine (((hdb.setOrganization id hf).setMembership id email m).setEntitlement id
      e).setProvisioning ?_ _
    change id ∈ (db.setOrganization id f).ids
    rw [TenantDb.ids_setOrganization id hf]
    exact hid
  · have hoid := db.organization?_id id horg
    have hafter : ((((db.setOrganization id f).setMembership id email m).setEntitlement id
        e).setProvisioning id ⟨provisionedState (db.esig_tenant_provisioning id), none⟩).view id =
        some ⟨o.status, if p.state = .ready then .ready else .provisioning, .active,
          (db.activeKeys id).length⟩ := by
      simp [TenantDb.view, TenantDb.organization?_setOrganization _ _ _ hf, horg, hoid, hfstatus, he,
        hp, provisionedState]
    rw [hview, hafter]
    exact .provisioned _ hstatus (by simpa using hkeys)
  · rw [TenantDb.view_setProvisioning_ne hne, TenantDb.view_setEntitlement_ne hne,
      TenantDb.view_setMembership, TenantDb.view_setOrganization_ne hne hf]

theorem provision_moved (hdb : db.Wellformed)
    (h : provision_esig_tenant pg generated a db = .ok (r, db')) : Moved db db' := by
  simp only [provision_esig_tenant, bind_ok, get_ok, raiseIf_ok, notNull_ok, orRaise_ok, modify_ok,
    found_ok, pure_ok] at h
  obtain ⟨_, _, ⟨-, h0⟩, _, _, ⟨-, h1⟩, limits, _, ⟨_, -, h2⟩, _, _, ⟨-, h3⟩, _, _, h4, _, _,
    ⟨hconflict, h5⟩, _, _, ⟨hdisabled, h6⟩, tenant_id, _, ⟨_, htenant, h7⟩, h⟩ := h
  cases h0; cases h1; cases h2; cases h3; cases h4; cases h5; cases h6; cases h7
  obtain ⟨slug, _, ⟨_, -, h0⟩, name, _, ⟨_, -, h1⟩, mode, _, ⟨_, -, h2⟩, customer, _, ⟨_, -, h3⟩,
    subscription, _, ⟨_, hsubscription, h4⟩, written, _, horganization, _, _, ⟨hwritten, h5⟩,
    owner, _, ⟨_, -, h6⟩, h⟩ := h
  cases h0; cases h1; cases h2; cases h3; cases h4; cases h5; cases h6
  obtain ⟨_, _, hmembership, _, _, h0, ⟨credentialId, plaintext⟩, _, hcredential, _, _, h1, _, _, h2,
    _, _, h3, o, _, ⟨_, -, h4⟩, h5⟩ := h
  cases h0; cases h1; cases h2; cases h3; cases h4; cases h5
  obtain ⟨m, rfl⟩ := upsertMembership_ok hmembership
  obtain rfl : written = true := by simpa using hwritten
  -- an organization with the subscription is the tenant itself, and runs
  have hexisting : ∀ o, db.esig_organizations.find? (fun o =>
      decide (some o.stripe_subscription_id = a.p_subscription_id)) = some o →
      db.organization? tenant_id = some o ∧ o.status ≠ .disabled := by
    intro o ho
    obtain ⟨horg, -⟩ := rows_of_find hdb ho
    simp only [ho, Option.any_some, htenant, decide_eq_false_iff_not, ne_eq, not_not] at hconflict
    simp only [ho, Option.any_some, decide_eq_false_iff_not] at hdisabled
    exact ⟨hconflict ▸ horg, hdisabled⟩
  obtain ⟨hnew, rfl⟩ | ⟨existing, horg, hsame, f, hf, hfstatus, rfl⟩ :=
    upsertOrganization_ok horganization
  · have hp : db.esig_tenant_provisioning tenant_id = none := by
      have hno := (hdb.provisioning tenant_id).not
      rw [← db.organization?_isSome, hnew] at hno
      simpa using hno
    obtain ⟨-, key, hkey, hactive, rfl, hnone⟩ | ⟨hsome, -, -⟩ :=
      provisionedCredential_ok hcredential
    · have hmoved := created_moved owner hdb hnew rfl m
        (e := ⟨a.p_plan_key.getD "", .active, limits.envelopes, limits.seats, limits.rpm⟩) rfl hkey
        hactive hnone
      simpa [hp, provisionedState] using hmoved
    · obtain ⟨o', ho'⟩ := Option.isSome_iff_exists.mp (Option.isNone_eq_false_iff.mp hsome)
      rw [(hexisting o' ho').1] at hnew
      cases hnew
  · obtain ⟨hcreated, -⟩ | ⟨hsome, rfl, hkeys⟩ := provisionedCredential_ok hcredential
    · -- the subscription of the existing organization would have been found
      rw [Option.isNone_iff_eq_none, List.find?_eq_none] at hcreated
      refine (hcreated existing (db.organization?_mem _ horg) ?_).elim
      rw [hsubscription, hsame]
      exact decide_eq_true rfl
    · obtain ⟨o', ho'⟩ := Option.isSome_iff_exists.mp (Option.isNone_eq_false_iff.mp hsome)
      obtain ⟨horg', hstatus⟩ := hexisting o' ho'
      obtain rfl : o' = existing := Option.some.inj (horg'.symm.trans horg)
      exact provisioned_moved owner hdb horg' hstatus hf hfstatus m rfl hkeys

end

-- ---------------------------------------------------------------------------
-- Runs
-- ---------------------------------------------------------------------------

inductive TenantCall
  | provision (generated : Generated) (args : ProvisionArgs)
  | reissue (generated : Generated) (p_tenant_id p_subscription_id : Option String)
  | markReady (p_tenant_id : Option String)
  | resume (generated : Generated) (p_tenant_id p_subscription_id : Option String)
  | disable (p_tenant_id p_subscription_status p_safe_error_code : Option String)

/-- The tables after one call. -/
def TenantCall.apply (pg : Postgres) (db : TenantDb) : TenantCall → TenantDb
  | .provision generated args => commit (provision_esig_tenant pg generated args) db
  | .reissue generated p_tenant_id p_subscription_id =>
    commit (reissue_esig_tenant_credential pg generated p_tenant_id p_subscription_id) db
  | .markReady p_tenant_id => commit (mark_esig_tenant_ready p_tenant_id) db
  | .resume generated p_tenant_id p_subscription_id =>
    commit (resume_esig_tenant pg generated p_tenant_id p_subscription_id) db
  | .disable p_tenant_id p_subscription_status p_safe_error_code =>
    commit (disable_esig_tenant p_tenant_id p_subscription_status p_safe_error_code) db

/-- Wellformed tables in which every tenant is consistent. -/
structure TenantDb.Consistent (db : TenantDb) : Prop where
  wellformed : db.Wellformed
  views : ∀ id v, db.view id = some v → v.Consistent

theorem TenantDb.Consistent.moved {db db' : TenantDb} (h : db.Consistent) (hmoved : Moved db db') :
    db'.Consistent := by
  obtain ⟨hwf, id, hview, hothers⟩ := hmoved
  refine ⟨hwf, fun id' v hv => ?_⟩
  by_cases hid : id' = id
  · subst hid
    exact hview.consistent (h.views id') v hv
  · exact h.views id' v (hothers id' hid ▸ hv)

/-- A call is rolled back, or moves the tables. -/
theorem TenantCall.apply_cases {db : TenantDb} (pg : Postgres) (call : TenantCall)
    (h : db.Consistent) : call.apply pg db = db ∨ Moved db (call.apply pg db) := by
  cases call with
  | provision generated args =>
    obtain hsame | ⟨r, hr⟩ := commit_cases (provision_esig_tenant pg generated args) db
    · exact .inl hsame
    · exact .inr (provision_moved h.wellformed hr)
  | reissue generated p_tenant_id p_subscription_id =>
    obtain hsame | ⟨r, hr⟩ := commit_cases
      (reissue_esig_tenant_credential pg generated p_tenant_id p_subscription_id) db
    · exact .inl hsame
    · exact .inr (reissue_moved h.wellformed hr)
  | markReady p_tenant_id =>
    obtain hsame | ⟨r, hr⟩ := commit_cases (mark_esig_tenant_ready p_tenant_id) db
    · exact .inl hsame
    · exact .inr (markReady_moved h.wellformed hr)
  | resume generated p_tenant_id p_subscription_id =>
    obtain hsame | ⟨r, hr⟩ := commit_cases
      (resume_esig_tenant pg generated p_tenant_id p_subscription_id) db
    · exact .inl hsame
    · exact .inr (resume_moved h.wellformed hr)
  | disable p_tenant_id p_subscription_status p_safe_error_code =>
    obtain hsame | ⟨r, hr⟩ := commit_cases
      (disable_esig_tenant p_tenant_id p_subscription_status p_safe_error_code) db
    · exact .inl hsame
    · exact .inr (disable_moved h.wellformed h.views hr)

def TenantRun (pg : Postgres) : TenantDb → TenantDb → Prop :=
  Relation.ReflTransGen fun db db' => ∃ call : TenantCall, db' = call.apply pg db

theorem TenantDb.consistent_empty : TenantDb.empty.Consistent where
  wellformed := ⟨by simp [TenantDb.ids, TenantDb.empty], by simp [TenantDb.ids, TenantDb.empty],
    by simp [TenantDb.ids, TenantDb.empty]⟩
  views id v hv := by simp [TenantDb.view, TenantDb.organization?, TenantDb.empty] at hv

theorem TenantRun.consistent {pg : Postgres} {db db' : TenantDb} (hrun : TenantRun pg db db')
    (h : db.Consistent) : db'.Consistent := by
  refine run_keeps ?_ hrun h
  rintro db _ ⟨call, rfl⟩ h
  obtain hsame | hmoved := call.apply_cases pg h
  · rwa [hsame]
  · exact h.moved hmoved

/-- A tenant that is disabled with a terminal entitlement stays so. -/
theorem TenantRun.absorbing {pg : Postgres} {db db' : TenantDb} (hrun : TenantRun pg db db')
    (h : db.Consistent) {id : String} {v : TenantView} (hv : db.view id = some v)
    (hdisabled : v.status = .disabled) (hbilling : v.billing.terminal = true) :
    ∃ v', db'.view id = some v' ∧ v'.status = .disabled ∧ v'.billing = v.billing := by
  have hkept : db'.Consistent ∧
      ∃ v', db'.view id = some v' ∧ v'.status = .disabled ∧ v'.billing = v.billing := by
    refine run_keeps (P := fun db => db.Consistent ∧
      ∃ v', db.view id = some v' ∧ v'.status = .disabled ∧ v'.billing = v.billing) ?_ hrun
      ⟨h, v, hv, hdisabled, rfl⟩
    rintro db _ ⟨call, rfl⟩ ⟨h, v', hv', hdisabled', hbilling'⟩
    obtain hsame | hmoved := call.apply_cases pg h
    · rw [hsame]
      exact ⟨h, v', hv', hdisabled', hbilling'⟩
    · refine ⟨h.moved hmoved, ?_⟩
      obtain ⟨-, id', hview, hothers⟩ := hmoved
      by_cases hid : id = id'
      · subst hid
        rw [hv'] at hview
        obtain ⟨v'', hv'', hd, hb⟩ := hview.absorbing hdisabled' (hbilling' ▸ hbilling)
        exact ⟨v'', hv'', hd, hb.trans hbilling'⟩
      · exact ⟨v', (hothers id hid).trans hv', hdisabled', hbilling'⟩
  exact hkept.2

/-- What the tables say of a tenant after any calls, and that being disabled
with a canceled or refunded entitlement is for good. -/
theorem tenants_consistent (pg : Postgres) :
    ∀ db, TenantRun pg TenantDb.empty db → ∀ o ∈ db.esig_organizations,
      ∃ e p, db.esig_entitlements o.id = some e ∧ db.esig_tenant_provisioning o.id = some p ∧
        p.state = o.status.toState ∧
        (o.status = .provisioning ∨ o.status = .ready → (db.activeKeys o.id).length = 1) ∧
        (o.status = .suspended ∨ o.status = .disabled → db.activeKeys o.id = []) ∧
        (o.status = .suspended ↔ e.subscription_status = .past_due) ∧
        (o.status = .disabled ↔
          e.subscription_status = .canceled ∨ e.subscription_status = .refunded) ∧
        (o.status = .disabled → ∀ db', TenantRun pg db db' →
          ∃ o' e', o' ∈ db'.esig_organizations ∧ o'.id = o.id ∧ o'.status = .disabled ∧
            db'.esig_entitlements o.id = some e' ∧
            e'.subscription_status = e.subscription_status) := by
  intro db hrun o ho
  have hdb := hrun.consistent TenantDb.consistent_empty
  have horg := TenantDb.organization?_of_mem hdb.wellformed.nodup ho
  obtain ⟨e, p, he, hp, hview⟩ := hdb.wellformed.rows horg
  have hv := hdb.views _ _ hview
  refine ⟨e, p, he, hp, hv.state, hv.running, ?_, hv.suspended, hv.disabled, ?_⟩
  · intro hstatus
    exact List.length_eq_zero_iff.mp (hv.stopped hstatus)
  · intro hdisabled db' hrun'
    obtain ⟨v', hv', hdisabled', hbilling'⟩ :=
      hrun'.absorbing hdb hview hdisabled (terminal_iff.mpr (hv.disabled.mp hdisabled))
    obtain ⟨o', e', p', ho', he', -, rfl⟩ := db'.view_eq_some.mp hv'
    exact ⟨o', e', db'.organization?_mem _ ho', db'.organization?_id _ ho', hdisabled', he',
      hbilling'⟩

namespace Sample

def postgres : Postgres where
  lower text := text
  sha256Hex _ := "db94155a248e4915f77aaaeca00e144f99e2a84eed377afe44967126bfef8875"

def provisionCall : TenantCall :=
  .provision
    ⟨"3f2b8c1e-9a47-4d6e-8b35-6c1f0d2e7a94", "b7e0d153-24cf-4a8b-9e61-0f5d3c8a7b26", "5d9c7e21-63b4-4f0a-8c1d-92e7f4a6b058"⟩
    { p_tenant_id := some "0b6c2f4e-1d83-5a97-b2e5-7f9a3c6d8e10"
      p_subscription_id := some "sub_1"
      p_customer_id := some "cus_1"
      p_owner_email := some "owner@example.com"
      p_display_name := some "e-sig Cloud 0b6c2f4e"
      p_slug := some "esig-0b6c2f4e1d835a97b2e57f9a"
      p_plan_key := some "cloud_starter"
      p_deployment_mode := some "shared"
      p_dedicated_stack_id := none }

def tenantDb : TenantDb := provisionCall.apply postgres TenantDb.empty

theorem tenantDb_organizations : tenantDb.esig_organizations.map (·.id) =
    ["0b6c2f4e-1d83-5a97-b2e5-7f9a3c6d8e10"] := by
  decide +kernel

end Sample

theorem tenants_consistent_sample : ∃ o ∈ Sample.tenantDb.esig_organizations,
    o.id = "0b6c2f4e-1d83-5a97-b2e5-7f9a3c6d8e10" ∧
      (o.status = .provisioning ∨ o.status = .ready →
        (Sample.tenantDb.activeKeys o.id).length = 1) := by
  have hmem : "0b6c2f4e-1d83-5a97-b2e5-7f9a3c6d8e10" ∈
      Sample.tenantDb.esig_organizations.map (·.id) := by
    simp [Sample.tenantDb_organizations]
  obtain ⟨o, ho, hid⟩ := List.mem_map.mp hmem
  obtain ⟨e, p, -, -, -, hrunning, -⟩ := tenants_consistent Sample.postgres Sample.tenantDb
    (.single ⟨Sample.provisionCall, rfl⟩) o ho
  exact ⟨o, ho, hid, hrunning⟩

end EsigSuite.Provisioning
