import EsigSuite.Lib.Async
import EsigSuite.Lib.JsRegex
import EsigSuite.Lib.JsonRead
import Mathlib.Data.List.Sort

/-!
# Migrations of a dedicated project

`applyMigrations` of `supabase-dedicated-bootstrapper.ts`, called by any number
of workers. A request is sent and then awaited: the database may run it at any
time, late, repeatedly or never, and its answer may be lost. The scripts of the
migrations contain no statement that ends a transaction.
-/

namespace EsigSuite.Provisioning.Bootstrapper

open Lib

-- ---------------------------------------------------------------------------
-- Sources
-- ---------------------------------------------------------------------------

def DEDICATED_REQUIRED_MIGRATIONS : List JsString :=
  [js "0001_esig_self_contained.sql", js "0002_esig_audit_hashchain.sql",
    js "0003_esig_pq_keys.sql", js "0004_esig_cloud_tenants.sql"]

inductive ProviderErrorCode
  | PROVIDER_INVALID_REQUEST
  | PROVIDER_AUTH_FAILED
  | PROVIDER_RATE_LIMITED
  | PROVIDER_CONFLICT
  | PROVIDER_NOT_FOUND
  | PROVIDER_TRANSIENT
  | PROVIDER_TIMEOUT
  | PROVIDER_RESPONSE_INVALID
  | PROVIDER_RESOURCE_FAILED
  deriving DecidableEq

structure BootstrapError where
  code : ProviderErrorCode
  operation : String
  retryable : Bool := false
  statusCode : Option Nat := none
  deriving DecidableEq

structure MigrationSource where
  name : JsString
  sql : JsString

structure Migration extends MigrationSource where
  ordinal : Nat
  checksum : JsString

structure LedgerRow where
  version : JsString
  ordinal : Nat
  checksum : JsString
  deriving DecidableEq

def Migration.row (m : Migration) : LedgerRow := ⟨m.name, m.ordinal, m.checksum⟩

/-- `sha256` gives the lower case hexadecimal digits. -/
def immutableMigrationSources (sha256 : JsString → JsString) (sources : List MigrationSource) :
    Except BootstrapError (List Migration) :=
  if sources.map (·.name) ≠ DEDICATED_REQUIRED_MIGRATIONS ∨
      sources.any (fun source => source.sql.all isWhiteUnit) then
    .error ⟨.PROVIDER_INVALID_REQUEST, "migration.ledger", false, none⟩
  else
    .ok (sources.mapIdx fun index source =>
      { source with ordinal := index + 1, checksum := sha256 source.sql })

-- ---------------------------------------------------------------------------
-- The database
-- ---------------------------------------------------------------------------

inductive Query
  | createLedger
  | readLedger
  | apply (m : Migration)

/-- A statement or script that the database runs. -/
inductive Session
  /-- The snapshot is taken, and the lock is waited for. -/
  | reading (request : Nat) (snapshot : List LedgerRow)
  | answered (request : Nat) (snapshot : List LedgerRow)
  /-- After `BEGIN`. -/
  | begun (m : Migration)
  | locked (m : Migration)
  | guarded (m : Migration)
  /-- The script and the row are written, and not committed. -/
  | written (m : Migration)
  | ended

/-- `committed` are the migrations whose script has been committed. -/
structure Database where
  ledger : Option (List LedgerRow)
  committed : List Migration
  requests : List Query
  sessions : List Session
  lock : Option Nat

/-- The condition of `SELECT 1 / CASE WHEN .. END`. -/
def guard (m : Migration) (rows : List LedgerRow) : Bool :=
  rows.all (·.version ≠ m.name) && rows.length + 1 == m.ordinal && rows.all (·.ordinal < m.ordinal)

def Session.HoldsLock : Session → Prop
  | .locked _ | .guarded _ | .written _ => True
  | _ => False

/-- A transaction holds the lock until it ends, and each statement sees what is
committed when it starts. -/
inductive Serve : Database → Database → Prop
  | create {d : Database} {r : Nat} : d.requests[r]? = some .createLedger →
      Serve d { d with ledger := some (d.ledger.getD []) }
  | snapshot {d : Database} {r : Nat} {rows : List LedgerRow} :
      d.requests[r]? = some .readLedger → d.ledger = some rows →
      Serve d { d with sessions := d.sessions ++ [.reading r rows] }
  | answer {d : Database} {k r : Nat} {rows : List LedgerRow} :
      d.sessions[k]? = some (.reading r rows) → d.lock = none →
      Serve d { d with sessions := d.sessions.set k (.answered r rows) }
  | begin' {d : Database} {r : Nat} {m : Migration} : d.requests[r]? = some (.apply m) →
      Serve d { d with sessions := d.sessions ++ [.begun m] }
  | lock {d : Database} {k : Nat} {m : Migration} : d.sessions[k]? = some (.begun m) →
      d.lock = none → Serve d { d with sessions := d.sessions.set k (.locked m), lock := some k }
  | guard {d : Database} {k : Nat} {m : Migration} {rows : List LedgerRow} :
      d.sessions[k]? = some (.locked m) → d.ledger = some rows → guard m rows = true →
      Serve d { d with sessions := d.sessions.set k (.guarded m) }
  | write {d : Database} {k : Nat} {m : Migration} : d.sessions[k]? = some (.guarded m) →
      Serve d { d with sessions := d.sessions.set k (.written m) }
  | commit {d : Database} {k : Nat} {m : Migration} {rows : List LedgerRow} :
      d.sessions[k]? = some (.written m) → d.ledger = some rows →
      Serve d { d with ledger := some (rows ++ [m.row]), committed := d.committed ++ [m],
                       sessions := d.sessions.set k .ended, lock := none }
  | abort {d : Database} {k : Nat} {session : Session} : d.sessions[k]? = some session →
      Serve d { d with sessions := d.sessions.set k .ended,
                       lock := if d.lock = some k then none else d.lock }

-- ---------------------------------------------------------------------------
-- Requests
-- ---------------------------------------------------------------------------

/-- `ORDER BY migration.ordinal` -/
def ordered (rows : List LedgerRow) : List LedgerRow :=
  rows.insertionSort fun a b => a.ordinal ≤ b.ordinal

def rowJson (row : LedgerRow) : Json :=
  .object [(js "version", .string row.version), (js "ordinal", .number (.finite row.ordinal)),
    (js "checksum", .string row.checksum)]

/-- The rows of `READ_LEDGER_SQL`. -/
def ledgerJson (rows : List LedgerRow) : List Json :=
  [.object [(js "migrations", .array ((ordered rows).map rowJson))]]

inductive Op
  | send (q : Query)
  | receive (request : Nat)

/-- A request is named by its number. -/
abbrev Res : Op → Type
  | .send _ => Nat
  | .receive _ => Except BootstrapError (List Json)

/-- An answer may be lost, be it of a request that was carried out. Only to a
read is it known what an answer says. -/
inductive Exec : (op : Op) → Database → Res op → Database → Prop
  | send (q : Query) (d : Database) :
      Exec (.send q) d d.requests.length { d with requests := d.requests ++ [q] }
  | lost (request : Nat) (e : BootstrapError) (d : Database) : Exec (.receive request) d (.error e) d
  | done {request : Nat} (rows : List Json) {d : Database} :
      (∀ q, d.requests[request]? = some q → q = .readLedger → ∃ (k : Nat) (snapshot : List LedgerRow),
        d.sessions[k]? = some (.answered request snapshot) ∧ rows = ledgerJson snapshot) →
      Exec (.receive request) d (.ok rows) d

abbrev Bootstrap (α : Type) := ExceptT BootstrapError (Prog Op Res) α

/-- `#postSql` -/
def postSql (q : Query) : Bootstrap (List Json) := ExceptT.mk do
  let request ← (Prog.perform (Op.send q) : Prog Op Res Nat)
  Prog.perform (Op.receive request)

-- ---------------------------------------------------------------------------
-- The ledger
-- ---------------------------------------------------------------------------

def bootstrapError (code : ProviderErrorCode) (operation : String) : BootstrapError :=
  ⟨code, operation, false, none⟩

/-- `CHECKSUM_PATTERN` -/
def isChecksum (text : JsString) : Bool :=
  text.length == 64 && text.all fun c => isDigitUnit c || inRange 0x61 0x66 c

def validateRow (value : Json) (expected : Migration) : Except BootstrapError LedgerRow :=
  match value with
  | .object members =>
    match lookup members (js "checksum") with
    | some (.string checksum) =>
      if isString expected.name (lookup members (js "version")) = false ∨
          isNumber expected.ordinal (lookup members (js "ordinal")) = false ∨
          isChecksum checksum = false then
        .error (bootstrapError .PROVIDER_CONFLICT "migration.ledger")
      else if checksum ≠ expected.checksum then
        .error (bootstrapError .PROVIDER_CONFLICT "migration.ledger")
      else .ok ⟨expected.name, expected.ordinal, checksum⟩
    | _ => .error (bootstrapError .PROVIDER_CONFLICT "migration.ledger")
  | _ => .error (bootstrapError .PROVIDER_CONFLICT "migration.ledger")

/-- The checks of `#readAndValidateLedger` on the rows of the query. -/
def validateLedger (migrations : List Migration) (rows : List Json) :
    Except BootstrapError (List LedgerRow) :=
  match rows with
  | [.object members] =>
    match lookup members (js "migrations") with
    | some (.array values) =>
      if values.length > migrations.length then
        .error (bootstrapError .PROVIDER_CONFLICT "migration.ledger")
      else (values.zip migrations).mapM fun p => validateRow p.1 p.2
    | _ => .error (bootstrapError .PROVIDER_RESPONSE_INVALID "migration.ledger")
  | _ => .error (bootstrapError .PROVIDER_RESPONSE_INVALID "migration.ledger")

def readAndValidateLedger (migrations : List Migration) : Bootstrap (List LedgerRow) := do
  let rows ← postSql .readLedger
  ExceptT.mk (pure (validateLedger migrations rows))

/-- A read after a lost answer proves that the table is there. -/
def ensureLedger (migrations : List Migration) : Bootstrap Unit :=
  tryCatchThe BootstrapError (do let _ ← postSql .createLedger) fun requestError =>
    tryCatchThe BootstrapError (do let _ ← readAndValidateLedger migrations) fun _ =>
      throw requestError

-- ---------------------------------------------------------------------------
-- applyMigrations
-- ---------------------------------------------------------------------------

/-- What of an error of the read is thrown on, with the error of the request. -/
def thrown (requestError : Option BootstrapError) (proofError : BootstrapError) : BootstrapError :=
  if proofError.code = .PROVIDER_CONFLICT ∨ proofError.code = .PROVIDER_RESPONSE_INVALID then
    proofError
  else requestError.getD proofError

/-- The body of the loop: the ledger after the migration. -/
def applyMigration (migrations : List Migration) (m : Migration) : Bootstrap (List LedgerRow) := do
  let requestError : Option BootstrapError ←
    tryCatchThe BootstrapError (do let _ ← postSql (.apply m); return none)
      fun error => return some error
  let ledger ← tryCatchThe BootstrapError (readAndValidateLedger migrations) fun proofError =>
    throw (thrown requestError proofError)
  match ledger[m.ordinal - 1]? with
  | some applied =>
    if applied.version = m.name ∧ applied.checksum = m.checksum then return ledger
    else throw (requestError.getD (bootstrapError .PROVIDER_RESPONSE_INVALID "migration.apply"))
  | none => throw (requestError.getD (bootstrapError .PROVIDER_RESPONSE_INVALID "migration.apply"))

/-- Over `migrations.slice(ledger.length)`, as it was when the loop began. -/
def applyRest (migrations : List Migration) : List Migration → List LedgerRow →
    Bootstrap (List LedgerRow)
  | [], ledger => return ledger
  | m :: rest, _ => do
    let ledger ← applyMigration migrations m
    applyRest migrations rest ledger

structure DedicatedMigrationInput where
  projectRef : JsString
  migrations : List JsString

/-- `PROJECT_REF_PATTERN` -/
def isProjectRef (text : JsString) : Bool :=
  text.length == 20 && text.all fun c => inRange 0x61 0x7A c || isDigitUnit c

def refuse (bad : Prop) [Decidable bad] (error : BootstrapError) : Bootstrap Unit :=
  if bad then throw error else return ()

def applyMigrations (migrations : List Migration) (input : DedicatedMigrationInput) :
    Bootstrap (List JsString) := do
  refuse (isProjectRef input.projectRef = false)
    (bootstrapError .PROVIDER_INVALID_REQUEST "tenant.provision")
  refuse (input.migrations ≠ DEDICATED_REQUIRED_MIGRATIONS)
    (bootstrapError .PROVIDER_INVALID_REQUEST "migration.apply")
  ensureLedger migrations
  let before ← readAndValidateLedger migrations
  let ledger ← applyRest migrations (migrations.drop before.length) before
  refuse (ledger.length ≠ migrations.length)
    (bootstrapError .PROVIDER_RESPONSE_INVALID "migration.ledger")
  return ledger.map (·.version)

end EsigSuite.Provisioning.Bootstrapper
