import EsigSuite.Lib.Transaction
import EsigSuite.Provisioning.BillingReducer

/-!
# The tenant functions of the database

The PL/pgSQL functions of `0004_esig_cloud_tenants.sql` on the tables they
write. A function is one transaction: what it raises leaves the tables as they
were. An argument that may be `NULL` is an option, and a test that is `NULL` is
not taken.
-/

namespace EsigSuite.Provisioning

inductive TenantStatus
  | provisioning
  | ready
  | suspended
  | disabled
  deriving DecidableEq, Repr

/-- `esig_tenant_provisioning.state` -/
inductive TenantState
  | provisioning
  | ready
  | suspended
  | failed
  | disabled
  deriving DecidableEq, Repr

def TenantStatus.toState : TenantStatus → TenantState
  | .provisioning => .provisioning
  | .ready => .ready
  | .suspended => .suspended
  | .disabled => .disabled

structure Organization where
  id : String
  slug : String
  display_name : String
  deployment_mode : String
  status : TenantStatus
  stripe_customer_id : String
  stripe_subscription_id : String
  storage_namespace : String
  dedicated_stack_id : Option String
  deriving DecidableEq

inductive MembershipStatus
  | invited
  | active
  | disabled
  deriving DecidableEq

structure Membership where
  user_id : Option String
  role : String
  status : MembershipStatus
  deriving DecidableEq

structure Entitlement where
  plan_key : String
  subscription_status : BillingState
  envelopes_per_month : Nat
  seats : Nat
  requests_per_minute : Nat
  deriving DecidableEq

inductive ApiKeyStatus
  | active
  | revoked
  deriving DecidableEq

structure ApiKey where
  id : String
  tenant_id : String
  key_prefix : String
  key_hash : String
  status : ApiKeyStatus
  deriving DecidableEq

structure TenantProvisioning where
  state : TenantState
  safe_error_code : Option String
  deriving DecidableEq

/-- The tables, those with a primary key on the tenant as functions of it. -/
structure TenantDb where
  esig_organizations : List Organization
  esig_memberships : String → String → Option Membership
  esig_entitlements : String → Option Entitlement
  esig_api_keys : List ApiKey
  esig_tenant_provisioning : String → Option TenantProvisioning

structure SqlError where
  message : String
  errcode : String
  deriving DecidableEq, Repr

abbrev Tx := Lib.Transaction TenantDb SqlError

/-- What the functions use of PostgreSQL. -/
structure Postgres where
  lower : String → String
  /-- `encode(sha256(convert_to(.., 'UTF8')), 'hex')` -/
  sha256Hex : String → String

/-- The values of `gen_random_uuid()` in one call. -/
structure Generated where
  uuid : String
  uuid' : String
  credentialId : String

def raiseIf (condition : Bool) (message errcode : String) : Tx Unit :=
  if condition then throw ⟨message, errcode⟩ else pure ()

def raise (message errcode : String) : Tx α := throw ⟨message, errcode⟩

def orRaise (message errcode : String) : Option α → Tx α
  | none => raise message errcode
  | some a => pure a

def notNull (value : Option α) : Tx α := orRaise "not_null_violation" "23502" value

def found (message : String) (row : Option α) : Tx α := orRaise message "P0002" row

-- ---------------------------------------------------------------------------
-- Constraints
-- ---------------------------------------------------------------------------

/-- `trim(..)` -/
def sqlTrim (text : String) : String :=
  String.ofList ((text.toList.dropWhile (· == ' ')).reverse.dropWhile (· == ' ')).reverse

def lowerOrDigit (c : Char) : Bool := ('a' ≤ c && c ≤ 'z') || ('0' ≤ c && c ≤ '9')

/-- `'^[a-z0-9][a-z0-9-]{1,61}[a-z0-9]$'` -/
def slugValid (slug : String) : Bool :=
  let chars := slug.toList
  3 ≤ chars.length && chars.length ≤ 63 && chars.head?.any lowerOrDigit &&
    chars.getLast?.any lowerOrDigit && chars.all fun c => lowerOrDigit c || c == '-'

def wordChar (c : Char) : Bool := lowerOrDigit c || ('A' ≤ c && c ≤ 'Z') || c == '_' || c == '-'

/-- `'^esig_(test|live)_[A-Za-z0-9_-]{6,24}$'` -/
def keyPrefixValid ( key_prefix : String) : Bool :=
  let chars := key_prefix.toList
  let rest := chars.drop 10
  (chars.take 10 == "esig_test_".toList || chars.take 10 == "esig_live_".toList) &&
    6 ≤ rest.length && rest.length ≤ 24 && rest.all wordChar

/-- `'^[a-z0-9_]{1,80}$'` -/
def safeErrorCodeValid (code : String) : Bool :=
  1 ≤ code.toList.length && code.toList.length ≤ 80 &&
    code.toList.all fun c => lowerOrDigit c || c == '_'

/-- The `CHECK`s of an organization. -/
def Organization.checks (o : Organization) : Bool :=
  (o.deployment_mode == "shared" || o.deployment_mode == "dedicated") && slugValid o.slug &&
    1 ≤ (sqlTrim o.display_name).toList.length && (sqlTrim o.display_name).toList.length ≤ 160

/-- A `UNIQUE` column that is not the conflict target has the value already. -/
def Organization.clashes (o other : Organization) : Bool :=
  o.slug == other.slug || o.stripe_customer_id == other.stripe_customer_id ||
    o.stripe_subscription_id == other.stripe_subscription_id ||
    o.storage_namespace == other.storage_namespace

namespace TenantDb

variable (db : TenantDb)

def organization? (id : String) : Option Organization := db.esig_organizations.find? (·.id == id)

def setOrganization (id : String) (f : Organization → Organization) : TenantDb :=
  { db with esig_organizations := db.esig_organizations.map fun o => if o.id = id then f o else o }

def setMembership (id email : String) (m : Membership) : TenantDb :=
  { db with
    esig_memberships := Function.update db.esig_memberships id
      (Function.update (db.esig_memberships id) email (some m)) }

def setEntitlement (id : String) (e : Entitlement) : TenantDb :=
  { db with esig_entitlements := Function.update db.esig_entitlements id (some e) }

def setProvisioning (id : String) (p : TenantProvisioning) : TenantDb :=
  { db with esig_tenant_provisioning := Function.update db.esig_tenant_provisioning id (some p) }

def activeKeys (id : String) : List ApiKey :=
  db.esig_api_keys.filter fun k => k.tenant_id == id && k.status == .active

/-- `UPDATE esig_api_keys SET status = 'revoked' ..` -/
def revokeKeys (id : String) : TenantDb :=
  { db with
    esig_api_keys := db.esig_api_keys.map fun k =>
      if k.tenant_id = id ∧ k.status = .active then { k with status := .revoked } else k }

end TenantDb

-- ---------------------------------------------------------------------------
-- Statements
-- ---------------------------------------------------------------------------

def insertApiKey (key : ApiKey) : Tx Unit := do
  let db ← get
  raiseIf (!keyPrefixValid key.key_prefix || !isDigest key.key_hash) "check_violation" "23514"
  raiseIf (db.organization? key.tenant_id).isNone "foreign_key_violation" "23503"
  raiseIf
    (db.esig_api_keys.any fun k =>
      k.id == key.id || k.key_hash == key.key_hash ||
        (k.tenant_id == key.tenant_id && k.key_prefix == key.key_prefix) ||
        (k.tenant_id == key.tenant_id && k.status == .active && key.status == .active))
    "unique_violation" "23505"
  set { db with esig_api_keys := db.esig_api_keys ++ [key] }

/-- The new key and its plaintext. -/
def generateApiKey (pg : Postgres) (generated : Generated) (tenant_id : String) :
    Tx (String × String) := do
  let hex := fun (uuid : String) => String.ofList (uuid.toList.filter (· != '-'))
  let plaintext := "esig_live_" ++ hex generated.uuid ++ hex generated.uuid'
  insertApiKey
    { id := generated.credentialId
      tenant_id
      key_prefix := String.ofList (plaintext.toList.take 24)
      key_hash := pg.sha256Hex plaintext
      status := .active }
  pure (generated.credentialId, plaintext)

/-- `INSERT INTO esig_organizations .. ON CONFLICT (id) DO UPDATE .. WHERE ..`,
with `FOUND`. -/
def upsertOrganization (o : Organization) : Tx Bool := do
  let db ← get
  raiseIf (!o.checks) "check_violation" "23514"
  match db.organization? o.id with
  | some existing =>
    if existing.stripe_subscription_id = o.stripe_subscription_id ∧
        existing.stripe_customer_id = o.stripe_customer_id ∧
        existing.deployment_mode = o.deployment_mode then
      set (db.setOrganization o.id fun existing =>
        { existing with
          display_name := o.display_name
          dedicated_stack_id := existing.dedicated_stack_id.or o.dedicated_stack_id })
      pure true
    else pure false
  | none =>
    raiseIf (db.esig_organizations.any o.clashes) "unique_violation" "23505"
    set { db with esig_organizations := db.esig_organizations ++ [o] }
    pure true

def upsertMembership (pg : Postgres) (tenant_id email : String) : Tx Unit := do
  let db ← get
  raiseIf (email ≠ pg.lower (sqlTrim email) || !email.toList.contains '@') "check_violation" "23514"
  set (db.setMembership tenant_id email
    (match db.esig_memberships tenant_id email with
    | none => { user_id := none, role := "owner", status := .invited }
    | some m =>
      { m with role := "owner", status := if m.user_id.isNone then .invited else .active }))

-- ---------------------------------------------------------------------------
-- The functions
-- ---------------------------------------------------------------------------

structure ProvisionArgs where
  p_tenant_id : Option String
  p_subscription_id : Option String
  p_customer_id : Option String
  p_owner_email : Option String
  p_display_name : Option String
  p_slug : Option String
  p_plan_key : Option String
  p_deployment_mode : Option String
  p_dedicated_stack_id : Option String
  deriving DecidableEq

/-- The row of `provision_esig_tenant` and of `resume_esig_tenant`, with
`created` or `resumed` as its last column. -/
structure TenantRow where
  tenant_id : String
  organization_status : TenantStatus
  provisioning_state : TenantState
  storage_namespace : String
  credential_id : String
  credential_plaintext : Option String
  changed : Bool
  deriving DecidableEq

structure PlanLimits where
  envelopes : Nat
  seats : Nat
  rpm : Nat

def planLimits : String → Option PlanLimits
  | "cloud_starter" => some ⟨100, 1, 60⟩
  | "cloud_team" => some ⟨500, 5, 300⟩
  | "cloud_scale" => some ⟨1500, 15, 1000⟩
  | _ => none

/-- A new tenant gets a key; an existing one must have one. -/
def provisionedCredential (pg : Postgres) (generated : Generated) (tenant_id : String)
    (tenant_created : Bool) : Tx (String × Option String) := do
  if tenant_created then
    let (id, plaintext) ← generateApiKey pg generated tenant_id
    pure (id, some plaintext)
  else
    let key ← found "active_credential_not_found" ((← get).activeKeys tenant_id).head?
    pure (key.id, none)

/-- `CASE WHEN esig_tenant_provisioning.state = 'ready' THEN 'ready' ..` -/
def provisionedState : Option TenantProvisioning → TenantState
  | none => .provisioning
  | some p => if p.state = .ready then .ready else .provisioning

def provision_esig_tenant (pg : Postgres) (generated : Generated) (a : ProvisionArgs) :
    Tx TenantRow := do
  raiseIf (a.p_deployment_mode.any fun mode => mode ≠ "shared" && mode ≠ "dedicated")
    "invalid_deployment_mode" "22023"
  let normalized_owner := a.p_owner_email.map fun email => pg.lower (sqlTrim email)
  raiseIf (normalized_owner.any fun owner => owner = "" || !owner.toList.contains '@')
    "invalid_owner_email" "22023"
  let limits ← orRaise "invalid_plan_key" "22023" (a.p_plan_key.bind planLimits)
  raiseIf (a.p_deployment_mode = some "shared" && a.p_dedicated_stack_id.isSome)
    "shared_stack_id_forbidden" "22023"
  let existing := (← get).esig_organizations.find? fun o =>
    some o.stripe_subscription_id = a.p_subscription_id
  raiseIf (existing.any fun o => a.p_tenant_id.any (o.id ≠ ·)) "subscription_tenant_conflict" "23505"
  raiseIf (existing.any fun o => o.status = .disabled) "tenant_disabled" "55000"
  let tenant_created := existing.isNone
  let tenant_id ← notNull a.p_tenant_id
  let organization : Organization :=
    { id := tenant_id
      slug := ← notNull a.p_slug
      display_name := sqlTrim (← notNull a.p_display_name)
      deployment_mode := ← notNull a.p_deployment_mode
      status := .provisioning
      stripe_customer_id := ← notNull a.p_customer_id
      stripe_subscription_id := ← notNull a.p_subscription_id
      storage_namespace := tenant_id ++ "/"
      dedicated_stack_id := a.p_dedicated_stack_id }
  let written ← upsertOrganization organization
  raiseIf (!written) "tenant_identity_conflict" "23505"
  upsertMembership pg tenant_id (← notNull normalized_owner)
  modify (·.setEntitlement tenant_id
    { plan_key := a.p_plan_key.getD ""
      subscription_status := .active
      envelopes_per_month := limits.envelopes
      seats := limits.seats
      requests_per_minute := limits.rpm })
  let (credential_id, credential_plaintext) ←
    provisionedCredential pg generated tenant_id tenant_created
  let state := provisionedState ((← get).esig_tenant_provisioning tenant_id)
  modify (·.setProvisioning tenant_id { state, safe_error_code := none })
  let o ← found "tenant_not_found" ((← get).organization? tenant_id)
  pure
    { tenant_id := o.id
      organization_status := o.status
      provisioning_state := state
      storage_namespace := o.storage_namespace
      credential_id
      credential_plaintext
      changed := tenant_created }

def reissue_esig_tenant_credential (pg : Postgres) (generated : Generated)
    (p_tenant_id p_subscription_id : Option String) : Tx (String × String) := do
  let o ← found "tenant_not_found" ((← get).esig_organizations.find? fun o =>
    some o.id = p_tenant_id ∧ some o.stripe_subscription_id = p_subscription_id)
  raiseIf (o.status = .disabled) "tenant_disabled" "55000"
  raiseIf (o.status = .suspended) "tenant_suspended" "55000"
  modify (·.revokeKeys o.id)
  generateApiKey pg generated o.id

/-- The joined rows of one tenant. -/
structure TenantRows where
  o : Organization
  e : Entitlement
  p : TenantProvisioning

/-- `FROM esig_organizations o JOIN esig_tenant_provisioning p .. WHERE o.id = ..` -/
def readyableRows (p_tenant_id : Option String) (db : TenantDb) :
    Option (Organization × TenantProvisioning) := do
  let o ← db.esig_organizations.find? fun o => some o.id = p_tenant_id
  let p ← db.esig_tenant_provisioning o.id
  pure (o, p)

def mark_esig_tenant_ready (p_tenant_id : Option String) : Tx Unit := do
  let (o, p) ← found "tenant_not_found" (readyableRows p_tenant_id (← get))
  raiseIf (o.status = .suspended || o.status = .disabled || p.state = .suspended ||
    p.state = .disabled) "tenant_terminal" "55000"
  raiseIf ((o.status ≠ .provisioning && o.status ≠ .ready) ||
    (p.state ≠ .provisioning && p.state ≠ .ready)) "tenant_not_readyable" "55000"
  modify (·.setProvisioning o.id { state := .ready, safe_error_code := none })
  modify (·.setOrganization o.id fun o => { o with status := .ready })

/-- The rows of a tenant, `FOR UPDATE`. -/
def tenantRows (matching : Organization → Bool) (db : TenantDb) : Option TenantRows := do
  let o ← db.esig_organizations.find? matching
  let e ← db.esig_entitlements o.id
  let p ← db.esig_tenant_provisioning o.id
  pure ⟨o, e, p⟩

/-- A suspended tenant gets a new key and has to become ready again. -/
def resumeSuspended (pg : Postgres) (generated : Generated) (rows : TenantRows) : Tx TenantRow := do
  let tenant_id := rows.o.id
  modify (·.revokeKeys tenant_id)
  let (credential_id, plaintext) ← generateApiKey pg generated tenant_id
  modify (·.setEntitlement tenant_id { rows.e with subscription_status := .active })
  modify (·.setOrganization tenant_id fun o => { o with status := .provisioning })
  modify (·.setProvisioning tenant_id { state := .provisioning, safe_error_code := none })
  pure
    { tenant_id
      organization_status := .provisioning
      provisioning_state := .provisioning
      storage_namespace := rows.o.storage_namespace
      credential_id
      credential_plaintext := some plaintext
      changed := true }

def resume_esig_tenant (pg : Postgres) (generated : Generated)
    (p_tenant_id p_subscription_id : Option String) : Tx TenantRow := do
  let rows ← found "tenant_not_found" (tenantRows
    (fun o => some o.id = p_tenant_id ∧ some o.stripe_subscription_id = p_subscription_id) (← get))
  raiseIf (rows.o.status = .disabled || rows.e.subscription_status.terminal)
    "tenant_disabled" "55000"
  if rows.o.status ≠ .suspended ∨ rows.e.subscription_status ≠ .past_due then
    if (rows.o.status = .provisioning ∨ rows.o.status = .ready) ∧
        rows.e.subscription_status = .active then
      let key ← found "active_credential_not_found" ((← get).activeKeys rows.o.id).head?
      pure
        { tenant_id := rows.o.id
          organization_status := rows.o.status
          provisioning_state := rows.p.state
          storage_namespace := rows.o.storage_namespace
          credential_id := key.id
          credential_plaintext := none
          changed := false }
    else raise "tenant_not_resumable" "55000"
  else resumeSuspended pg generated rows

def disableStatus : String → Option BillingState
  | "past_due" => some .past_due
  | "canceled" => some .canceled
  | "refunded" => some .refunded
  | _ => none

def disable_esig_tenant (p_tenant_id p_subscription_status p_safe_error_code : Option String) :
    Tx Unit := do
  raiseIf (p_subscription_status.any fun status => (disableStatus status).isNone)
    "invalid_disable_status" "22023"
  raiseIf (p_safe_error_code.any fun code => !safeErrorCodeValid code)
    "invalid_safe_error_code" "22023"
  let rows ← found "tenant_not_found" (tenantRows (fun o => some o.id = p_tenant_id) (← get))
  let requested := p_subscription_status.bind disableStatus
  modify (·.revokeKeys rows.o.id)
  -- a terminal billing state is kept
  let subscription_status ← notNull
    (if rows.e.subscription_status.terminal then some rows.e.subscription_status else requested)
  modify (·.setEntitlement rows.o.id { rows.e with subscription_status })
  let disabled := rows.o.status = .disabled || rows.e.subscription_status.terminal ||
    requested.any (·.terminal)
  modify (·.setOrganization rows.o.id fun o =>
    { o with status := if disabled then .disabled else .suspended })
  modify (·.setProvisioning rows.o.id
    { state := if disabled then .disabled else .suspended, safe_error_code := p_safe_error_code })

end EsigSuite.Provisioning
