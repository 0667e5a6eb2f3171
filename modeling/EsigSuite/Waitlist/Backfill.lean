import EsigSuite.Waitlist.Notifier

/-!
# The backfill of the outbox

`backfill-outbox.js`: three passes at most, each a scan of the submissions and
then one after another a migration of those whose id is a legacy one and an
outbox item for those that have none. A run goes in the steps between its calls,
at each of which it may stop. Handlers and other runs do theirs between them.
-/

namespace EsigSuite.Waitlist.Backfill

open Lib
open Notifier (readStringAttribute readIntegerAttribute)

def SUBMISSION_ID_VERSION : JsString := js "random-v1"

def PRIVATE_PROJECTION : List JsString :=
  [js "submission_key", js "submission_id", js "submission_id_version", js "created_at", js "offer",
    js "retention_class", js "expires_at_epoch", js "record_type"]

-- ---------------------------------------------------------------------------
-- Records
-- ---------------------------------------------------------------------------

def readString (item : Item) (field : String) : Option JsString := readStringAttribute item field

/-- A field that is there is a text. -/
def readOptionalString (item : Item) (field : String) : Option (Option JsString) :=
  match attributeOf item (js field) with
  | none => some none
  | some (.S value) => some (some value)
  | some _ => none

def readInteger (item : Item) (field : String) : Option Int := readIntegerAttribute item field

/-- `/^WAITLIST#[0-9a-f]{64}$/` -/
def isSubmissionKey (text : JsString) : Bool :=
  let chars := scalars text
  chars.take 9 == "WAITLIST#".toList && (chars.drop 9).length == 64 && (chars.drop 9).all isHexDigit

structure Source where
  recordType : JsString
  submissionId : Option JsString
  submissionKey : JsString
  version : Option JsString
  deriving DecidableEq

def validateSource (item : Item) : Option Source := do
  let submissionKey ← readString item "submission_key"
  let recordType ← readString item "record_type"
  let version ← readOptionalString item "submission_id_version"
  let submissionId ← readOptionalString item "submission_id"
  if !isSubmissionKey submissionKey ∨
      !([js "waitlist_submission", js "smoke_test"].contains recordType) then none
  else if version.any (· ≠ SUBMISSION_ID_VERSION) then none
  else if version = some SUBMISSION_ID_VERSION ∧ !isSubmissionId (submissionId.getD []) then none
  else
    let _ ← readInteger item "expires_at_epoch"
    some { recordType, submissionId, submissionKey, version }

def setAttribute (item : Item) (name : String) (value : AttributeValue) : Item :=
  item.filter (·.1 ≠ js name) ++ [(js name, value)]

def withOpaqueSubmissionId (item : Item) (submissionId : JsString) : Item :=
  setAttribute (setAttribute item "submission_id" (.S submissionId)) "submission_id_version"
    (.S SUBMISSION_ID_VERSION)

/-- The items that a scan or a read returns of a row. -/
def project (names : List JsString) (row : Item) : Item := row.filter fun entry => names.contains entry.1

section
variable (rt : Runtime)

def toOutbox (item : Item) : Option Outbox := do
  let submission_id ← readString item "submission_id"
  let submission_id_version ← readString item "submission_id_version"
  let created_at ← readString item "created_at"
  let offer ← readString item "offer"
  let retention_class ← readString item "retention_class"
  let expires_at_epoch ← readInteger item "expires_at_epoch"
  let record_type ← readString item "record_type"
  createNotificationOutbox rt
    { submission_id
      submission_id_version
      created_at
      offer
      retention_class
      expires_at_epoch
      record_type
      source := js "pricing"
      contact_permission_status := js "asserted_unverified"
      email_verification_status := js "unverified" }

def freshId (previousId : Option JsString) : List (List UInt8) → Option JsString
  | [] => none
  | randomBytes :: draws => do
    let candidate ← createOpaqueSubmissionId randomBytes
    if some candidate ≠ previousId then some candidate else freshId previousId draws

/-- The first of four draws that is not the id of before. -/
def nextOpaqueId (draws : List (List UInt8)) (previousId : Option JsString) : Option JsString :=
  freshId previousId (draws.take 4)

-- ---------------------------------------------------------------------------
-- Migrations
-- ---------------------------------------------------------------------------

/-- The update, the put and the delete of one transaction. -/
structure Migration where
  submissionKey : JsString
  oldSubmissionId : Option JsString
  newSubmissionId : JsString
  outbox : Option Outbox
  deriving DecidableEq

/-- What `migrateSource` sends for an item. Nothing is an error. -/
def migrateSource (sourceItem : Item) (nowEpoch : Int) (draws : List (List UInt8)) :
    Option Migration := do
  let source ← validateSource sourceItem
  let newSubmissionId ← nextOpaqueId draws source.submissionId
  let migratedItem := withOpaqueSubmissionId sourceItem newSubmissionId
  let expiresAtEpoch ← readInteger sourceItem "expires_at_epoch"
  let migration : Migration := ⟨source.submissionKey, source.submissionId, newSubmissionId, none⟩
  if source.recordType = js "waitlist_submission" ∧ nowEpoch < expiresAtEpoch then
    let outbox ← toOutbox rt migratedItem
    some { migration with outbox := some outbox }
  else some migration

end

/-- The item under the legacy id, which is one that the handler made. -/
def Migration.deletes (migration : Migration) : Option JsString :=
  (migration.oldSubmissionId.filter (isSubmissionId ·)).map outboxKey

/-- `TransactWriteItemsCommand`, with nothing for a condition that does not hold. -/
def Migration.transact (migration : Migration) (tables : Tables) : Option Tables :=
  let row := (tables.submissions migration.submissionKey).getD []
  if attributeOf row (js "submission_id_version") = none ∧
      attributeOf row (js "submission_id") = migration.oldSubmissionId.map .S ∧
      !migration.outbox.any (fun outbox => (tables.outbox outbox.outbox_key).isSome) then
    let put :=
      match migration.outbox with
      | some outbox => Function.update tables.outbox outbox.outbox_key (some outbox.toDynamoItem)
      | none => tables.outbox
    some
      { submissions :=
          Function.update tables.submissions migration.submissionKey
            (some (withOpaqueSubmissionId row migration.newSubmissionId))
        outbox :=
          match migration.deletes with
          | some key => Function.update put key none
          | none => put }
  else none

/-- `PutItemCommand` of an item that is not there. -/
def putOutbox (outbox : Outbox) (tables : Tables) : Option Tables :=
  if (tables.outbox outbox.outbox_key).isSome then none
  else
    some
      { tables with
        outbox := Function.update tables.outbox outbox.outbox_key (some outbox.toDynamoItem) }

/-- `GetItemCommand`, and the item is the expected one whatever the order of its
attributes. -/
def verify (outbox : Outbox) (tables : Tables) : Bool :=
  match tables.outbox outbox.outbox_key with
  | some row => outbox.toDynamoItem.all fun entry => attributeOf row entry.1 == some entry.2
  | none => false

-- ---------------------------------------------------------------------------
-- Runs
-- ---------------------------------------------------------------------------

/-- The variables of a pass. -/
structure Pass where
  pass : Nat
  sourceItems : List Item
  inserted : Nat
  migrated : Nat
  retryNeeded : Bool

def Pass.insertedOne (p : Pass) : Pass := { p with inserted := p.inserted + 1 }

def Pass.migratedOne (p : Pass) : Pass := { p with migrated := p.migrated + 1 }

def Pass.retry (p : Pass) : Pass := { p with retryNeeded := true }

/-- `migrated === 0 && inserted === 0 && !retryNeeded` -/
def Pass.clean (p : Pass) : Bool := p.migrated == 0 && p.inserted == 0 && !p.retryNeeded

inductive Run
  /-- In `scanAll`, which has these items so far. -/
  | scanning (pass : Nat) (items : List Item)
  | working (pass : Pass) (rest : List Item)
  /-- In `verify`, before it goes on with the rest. -/
  | verifying (pass : Pass) (outbox : Outbox) (rest : List Item)
  /-- Returned `verified`. -/
  | verified (pass : Nat) (sourceItems : List Item)
  /-- An error was thrown, or the process is gone. -/
  | failed

/-- After a transaction: an outbox item that it put is verified. -/
def afterPut (p : Pass) (outbox : Option Outbox) (rest : List Item) : Run :=
  match outbox with
  | some outbox => .verifying p outbox rest
  | none => .working p rest

/-- The item gets an outbox item. -/
def eligible (nowEpoch : Int) (item : Item) : Bool :=
  readString item "record_type" == some (js "waitlist_submission") &&
    (readInteger item "expires_at_epoch").any (nowEpoch < ·)

/-- One step of a run that started at `nowEpoch`. The random bytes give ids that
satisfy `Random`. A call whose answer is lost is sent again, and then its
condition fails. -/
inductive Step (rt : Runtime) (Random : JsString → Prop) (nowEpoch : Int) :
    Tables × Run → Tables × Run → Prop
  | read (key : JsString) (row : Item) (found : tables.submissions key = some row) :
      Step rt Random nowEpoch (tables, .scanning n items)
        (tables, .scanning n (items ++ [project PRIVATE_PROJECTION row]))
  | scanned : Step rt Random nowEpoch (tables, .scanning n items)
      (tables, .working ⟨n, items, 0, 0, false⟩ items)
  | migrate (source : Source) (valid : validateSource item = some source)
      (legacy : source.version ≠ some SUBMISSION_ID_VERSION) (draws : List (List UInt8))
      (planned : migrateSource rt item nowEpoch draws = some migration)
      (random : Random migration.newSubmissionId)
      (committed : migration.transact tables = some after) :
      Step rt Random nowEpoch (tables, .working p (item :: rest))
        (after, afterPut p.migratedOne migration.outbox rest)
  | migrateLost (source : Source) (valid : validateSource item = some source)
      (legacy : source.version ≠ some SUBMISSION_ID_VERSION) (draws : List (List UInt8))
      (planned : migrateSource rt item nowEpoch draws = some migration)
      (random : Random migration.newSubmissionId)
      (committed : migration.transact tables = some after) :
      Step rt Random nowEpoch (tables, .working p (item :: rest)) (after, .working p.retry rest)
  | migrateCancelled (source : Source) (valid : validateSource item = some source)
      (legacy : source.version ≠ some SUBMISSION_ID_VERSION) (draws : List (List UInt8))
      (planned : migrateSource rt item nowEpoch draws = some migration)
      (cancelled : migration.transact tables = none) :
      Step rt Random nowEpoch (tables, .working p (item :: rest)) (tables, .working p.retry rest)
  | skip (source : Source) (valid : validateSource item = some source)
      (random : source.version = some SUBMISSION_ID_VERSION)
      (other : eligible nowEpoch item = false) :
      Step rt Random nowEpoch (tables, .working p (item :: rest)) (tables, .working p rest)
  | put (source : Source) (valid : validateSource item = some source)
      (random : source.version = some SUBMISSION_ID_VERSION)
      (due : eligible nowEpoch item = true) (derived : toOutbox rt item = some outbox)
      (committed : putOutbox outbox tables = some after) :
      Step rt Random nowEpoch (tables, .working p (item :: rest))
        (after, .verifying p.insertedOne outbox rest)
  | putLost (source : Source) (valid : validateSource item = some source)
      (random : source.version = some SUBMISSION_ID_VERSION)
      (due : eligible nowEpoch item = true) (derived : toOutbox rt item = some outbox)
      (committed : putOutbox outbox tables = some after) :
      Step rt Random nowEpoch (tables, .working p (item :: rest)) (after, .verifying p outbox rest)
  | putThere (source : Source) (valid : validateSource item = some source)
      (random : source.version = some SUBMISSION_ID_VERSION)
      (due : eligible nowEpoch item = true) (derived : toOutbox rt item = some outbox)
      (there : putOutbox outbox tables = none) :
      Step rt Random nowEpoch (tables, .working p (item :: rest)) (tables, .verifying p outbox rest)
  | verify (equal : Backfill.verify outbox tables = true) :
      Step rt Random nowEpoch (tables, .verifying p outbox rest) (tables, .working p rest)
  | finish (clean : p.clean = true) :
      Step rt Random nowEpoch (tables, .working p []) (tables, .verified p.pass p.sourceItems)
  | nextPass (again : p.clean = false) (more : p.pass < 3) :
      Step rt Random nowEpoch (tables, .working p []) (tables, .scanning (p.pass + 1) [])
  | fail (run : Run) (going : ∀ pass items, run ≠ .verified pass items) :
      Step rt Random nowEpoch (tables, run) (tables, .failed)

/-- The tables, and the runs that there are or will be. -/
structure World (ι : Type) where
  tables : Tables
  runs : ι → Run

def World.start (ι : Type) (tables : Tables) : World ι := ⟨tables, fun _ => .scanning 1 []⟩

/-- A request that a handler stores, or a step of a run. -/
inductive World.Next [DecidableEq ι] (rt : Runtime) (Random : JsString → Prop) (nowEpoch : ι → Int) :
    World ι → World ι → Prop
  | submitted (settings : Settings) (request : Request)
      (stored : waitlistHandler rt settings request = .stores items)
      (random : Random items.submission.submission_id)
      (committed : world.tables.transact items = some after) :
      Next rt Random nowEpoch world { world with tables := after }
  | ran (i : ι) (step : Step rt Random (nowEpoch i) (world.tables, world.runs i) (after, run)) :
      Next rt Random nowEpoch world ⟨after, Function.update world.runs i run⟩

end EsigSuite.Waitlist.Backfill
