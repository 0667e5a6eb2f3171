import EsigSuite.Lib.IsoTime
import EsigSuite.Lib.JsRegex
import EsigSuite.Lib.ToNumber

/-!
# The waitlist handler

`handler.js` of the waitlist, from the decoded body of a request to the
transaction that stores a submission and, for one that is no smoke test, an
outbox item. `normalize("NFKC")`, `toLowerCase()`, the hash and what an engine
makes of dates in other formats are parameters.
-/

namespace EsigSuite.Waitlist

open Lib

structure Runtime where
  nfkc : JsString → JsString
  toLowerCase : JsString → JsString
  sha256 : List UInt8 → List UInt8
  /-- `new Date(text)` of a text that has not the format of `toISOString()`. -/
  parseOther : JsString → Option Int

def DEFAULT_PRODUCTION_RETENTION_DAYS : Nat := 180

def DEFAULT_SMOKE_TEST_TTL_HOURS : Nat := 24

def ALLOWED_OFFERS : List JsString :=
  [js "shared_starter", js "shared_team", js "shared_scale", js "business", js "dedicated",
    js "addon_hipaa_baa", js "addon_hsm_signer", js "addon_21cfr_part11", js "addon_uuaid_ent",
    js "addon_worm", js "addon_eidas_qes"]

def ALLOWED_BODY_KEYS : List JsString :=
  [js "offer", js "email", js "name", js "company", js "useCase", js "expectedMonthlyEnvelopes",
    js "consent", js "website", js "source"]

def hexText (bytes : List UInt8) : JsString :=
  .ofText (bytes.flatMap fun byte => Lib.hexDigits 2 byte.toNat)

/-- From 12 random bytes. -/
def createOpaqueSubmissionId (bytes : List UInt8) : Option JsString :=
  if bytes.length = 12 then some (js "wl_" ++ hexText bytes) else none

-- ---------------------------------------------------------------------------
-- Validation
-- ---------------------------------------------------------------------------

section
variable (rt : Runtime)

def trim (text : JsString) : JsString :=
  (text.dropWhile isWhiteUnit).rdropWhile isWhiteUnit

def at' : UInt16 := 0x40

def dot : UInt16 := 0x2E

def isLowerUnit (unit : UInt16) : Bool := inRange 0x61 0x7A unit

/-- `[a-z0-9]` -/
def isLabelEnd (unit : UInt16) : Bool := isLowerUnit unit || isDigitUnit unit

/-- The characters of the local part of an address. -/
def isLocalUnit (unit : UInt16) : Bool :=
  isLabelEnd unit || (js ".!#$%&'*+/=?^_`\x7b|\x7d~-").contains unit

/-- `/^[a-z0-9](?:[a-z0-9-]*[a-z0-9])?$/`, of at most 63 characters. -/
def labelValid (label : JsString) : Bool :=
  label.length ≤ 63 && label.head?.any isLabelEnd && label.getLast?.any isLabelEnd &&
    label.all fun unit => isLabelEnd unit || unit == 0x2D

def isControlUnit (unit : UInt16) : Bool := unit ≤ 0x1F || unit == 0x7F

def localValid (localPart : JsString) : Bool :=
  1 ≤ localPart.length && localPart.length ≤ 64 && localPart.all isLocalUnit &&
    localPart.head? != some dot && localPart.getLast? != some dot &&
      !(localPart.zip localPart.tail).contains (dot, dot)

def domainValid (domain : JsString) : Bool :=
  let domainLabels := domain.splitOn dot
  3 ≤ domain.length && domain.length ≤ 253 && 2 ≤ domainLabels.length && domainLabels.all labelValid

/-- Nothing for an address with an error. -/
def normalizeEmail : Option Json → Option JsString
  | some (.string value) =>
    let normalized := rt.toLowerCase (rt.nfkc (trim value))
    match normalized.splitOn at' with
    | [localPart, domain] =>
      if normalized.length ≤ 254 && localValid localPart && domainValid domain &&
          !normalized.any (fun unit => isWhiteUnit unit || isControlUnit unit) then
        some normalized
      else none
    | _ => none
  | _ => none

def isTextControl (unit : UInt16) : Bool :=
  unit == 0 || unit == 8 || unit == 0xB || unit == 0xC || inRange 0xE 0x1F unit || unit == 0x7F

/-- Nothing for a text with an error; an empty one is undefined. -/
def normalizeOptionalText (value : Option Json) (maxLength : Nat) : Option (Option JsString) :=
  match value with
  | none | some .null | some (.string []) => some none
  | some (.string value) =>
    let normalized := rt.nfkc (trim value)
    if maxLength < normalized.length || normalized.any isTextControl then none
    else some (if normalized = [] then none else some normalized)
  | _ => none

structure Value where
  email : JsString
  offer : JsString
  source : JsString
  name : Option JsString
  company : Option JsString
  use_case : Option JsString
  expected_monthly_envelopes : Option JsString

def errorIf (wrong : Bool) (field : String) : List String := if wrong then [field] else []

def textOrEmpty : Option Json → JsString
  | some (.string text) => text
  | _ => []

def validateSubmission (body : List (JsString × Json)) : Except (List String) Value :=
  let email := normalizeEmail rt (lookup body (js "email"))
  let offer := textOrEmpty (lookup body (js "offer"))
  let name := normalizeOptionalText rt (lookup body (js "name")) 100
  let company := normalizeOptionalText rt (lookup body (js "company")) 160
  let useCase := normalizeOptionalText rt (lookup body (js "useCase")) 2000
  let expectedMonthlyEnvelopes :=
    normalizeOptionalText rt (lookup body (js "expectedMonthlyEnvelopes")) 64
  let errors :=
    errorIf (body.any fun entry => !ALLOWED_BODY_KEYS.contains entry.1) "request" ++
    errorIf email.isNone "email" ++
    errorIf (!ALLOWED_OFFERS.contains offer) "offer" ++
    errorIf (!isString (js "pricing") (lookup body (js "source"))) "source" ++
    errorIf (match lookup body (js "consent") with
      | some (.bool true) => false
      | _ => true) "consent" ++
    errorIf (match lookup body (js "website") with
      | none | some (.string _) => false
      | _ => true) "website" ++
    errorIf name.isNone "name" ++
    errorIf company.isNone "company" ++
    errorIf useCase.isNone "useCase" ++
    errorIf expectedMonthlyEnvelopes.isNone "expectedMonthlyEnvelopes"
  if errors = [] then
    .ok
      { email := email.getD []
        offer
        source := js "pricing"
        name := name.getD none
        company := company.getD none
        use_case := useCase.getD none
        expected_monthly_envelopes := expectedMonthlyEnvelopes.getD none }
  else .error errors.eraseDups

/-- What follows the last `@` is `example.com`. -/
def isSmokeTestEmail (email : JsString) : Bool :=
  email.rtakeWhile (· != at') == js "example.com"

end

-- ---------------------------------------------------------------------------
-- Submissions
-- ---------------------------------------------------------------------------

/-- What an outbox item is made of. -/
structure OutboxSource where
  submission_id : JsString
  submission_id_version : JsString
  offer : JsString
  source : JsString
  contact_permission_status : JsString
  email_verification_status : JsString
  created_at : JsString
  record_type : JsString
  retention_class : JsString
  expires_at_epoch : Int

structure Submission extends OutboxSource where
  submission_key : JsString
  email : JsString
  privacy_notice_version : JsString
  name : Option JsString
  company : Option JsString
  use_case : Option JsString
  expected_monthly_envelopes : Option JsString

section
variable (rt : Runtime)

def submissionKey (email offer : JsString) : JsString :=
  js "WAITLIST#" ++ hexText (rt.sha256 (textEncode (email ++ 0 :: offer)))

/-- The timestamp is in milliseconds. -/
def createSubmission (value : Value) (now : Int) (productionRetentionDays smokeTestTtlHours : Nat)
    (randomBytes : List UInt8) : Option Submission := do
  let submission_id ← createOpaqueSubmissionId randomBytes
  let smokeTest := isSmokeTestEmail value.email
  some
    { submission_key := submissionKey rt value.email value.offer
      submission_id
      submission_id_version := js "random-v1"
      email := value.email
      offer := value.offer
      source := value.source
      contact_permission_status := js "asserted_unverified"
      email_verification_status := js "unverified"
      privacy_notice_version := js "2026-08-06"
      created_at := .ofText (IsoTime.toISOString now)
      name := value.name
      company := value.company
      use_case := value.use_case
      expected_monthly_envelopes := value.expected_monthly_envelopes
      record_type := if smokeTest then js "smoke_test" else js "waitlist_submission"
      retention_class :=
        if smokeTest then .ofText ("smoke_".toList ++ Nat.toDigits 10 smokeTestTtlHours ++ ['h'])
        else .ofText ("waitlist_".toList ++ Nat.toDigits 10 productionRetentionDays ++ ['d'])
      expires_at_epoch :=
        now / 1000 +
          if smokeTest then (smokeTestTtlHours : Int) * 60 * 60
          else (productionRetentionDays : Int) * 24 * 60 * 60 }

-- ---------------------------------------------------------------------------
-- Outbox items
-- ---------------------------------------------------------------------------

/-- `new Date(text).getTime()`, with nothing for NaN. -/
def dateOf (text : JsString) : Option Int :=
  (IsoTime.readIso (scalars text)).or (rt.parseOther text)

/-- `/^waitlist_([0-9]{2,3})d$/` -/
def waitlistDays (text : JsString) : Option Nat :=
  let chars := scalars text
  let digits := (chars.drop 9).dropLast
  if chars.take 9 = "waitlist_".toList ∧ chars.getLast? = some 'd' ∧ 2 ≤ digits.length ∧
      digits.length ≤ 3 ∧ digits.all Char.isDigit then
    some (readNat digits)
  else none

/-- `/^wl_[a-f0-9]{24}$/` -/
def isSubmissionId (text : JsString) : Bool :=
  let chars := scalars text
  chars.take 3 == "wl_".toList && (chars.drop 3).length == 24 && (chars.drop 3).all isHexDigit

structure Outbox where
  outbox_key : JsString
  record_type : JsString
  submission_id : JsString
  offer : JsString
  source : JsString
  created_at : JsString
  retention_class : JsString
  contact_permission_status : JsString
  email_verification_status : JsString
  expires_at_epoch : Int
  deriving DecidableEq

def outboxKey (submissionId : JsString) : JsString := js "OUTBOX#" ++ submissionId

/-- `createdAt.toISOString() === created_at` -/
def exactDate (created_at : JsString) : Option Int :=
  (dateOf rt created_at).filter fun t => JsString.ofText (IsoTime.toISOString t) == created_at

/-- Nothing is an error. -/
def createNotificationOutbox (submission : OutboxSource) : Option Outbox := do
  let retentionDays ← waitlistDays submission.retention_class
  let createdAt ← exactDate rt submission.created_at
  if submission.record_type ≠ js "waitlist_submission" ∨ !isSubmissionId submission.submission_id ∨
      submission.submission_id_version ≠ js "random-v1" ∨
      !ALLOWED_OFFERS.contains submission.offer ∨ submission.source ≠ js "pricing" ∨
      submission.contact_permission_status ≠ js "asserted_unverified" ∨
      submission.email_verification_status ≠ js "unverified" ∨ retentionDays < 30 ∨
      180 < retentionDays ∨
      submission.expires_at_epoch ≠ createdAt / 1000 + (retentionDays : Int) * 24 * 60 * 60 then
    none
  else
    some
      { outbox_key := outboxKey submission.submission_id
        record_type := js "waitlist_notification_outbox"
        submission_id := submission.submission_id
        offer := submission.offer
        source := submission.source
        created_at := submission.created_at
        retention_class := submission.retention_class
        contact_permission_status := submission.contact_permission_status
        email_verification_status := submission.email_verification_status
        expires_at_epoch := submission.expires_at_epoch }

end

-- ---------------------------------------------------------------------------
-- The store
-- ---------------------------------------------------------------------------

/-- An attribute of DynamoDB. -/
inductive AttributeValue
  | S (value : JsString)
  | N (value : JsString)
  | BOOL (value : Bool)
  deriving DecidableEq

/-- No key is there twice. -/
abbrev Item := List (JsString × AttributeValue)

def attributeOf (item : Item) (key : JsString) : Option AttributeValue :=
  (item.find? (·.1 == key)).map (·.2)

def numberAttribute (value : Int) : AttributeValue := .N (.ofText (Double.text (.finite value)))

def optionalAttribute (key : String) (value : Option JsString) : Item :=
  (value.map fun text => (js key, .S text)).toList

/-- `toDynamoItem`, which leaves out what is undefined. -/
def Submission.toDynamoItem (submission : Submission) : Item :=
  [(js "submission_key", .S submission.submission_key),
    (js "submission_id", .S submission.submission_id),
    (js "submission_id_version", .S submission.submission_id_version),
    (js "email", .S submission.email),
    (js "offer", .S submission.offer),
    (js "source", .S submission.source),
    (js "contact_permission_status", .S submission.contact_permission_status),
    (js "email_verification_status", .S submission.email_verification_status),
    (js "privacy_notice_version", .S submission.privacy_notice_version),
    (js "created_at", .S submission.created_at)] ++
  optionalAttribute "name" submission.name ++
  optionalAttribute "company" submission.company ++
  optionalAttribute "use_case" submission.use_case ++
  optionalAttribute "expected_monthly_envelopes" submission.expected_monthly_envelopes ++
  [(js "record_type", .S submission.record_type),
    (js "retention_class", .S submission.retention_class),
    (js "expires_at_epoch", numberAttribute submission.expires_at_epoch)]

def Outbox.toDynamoItem (outbox : Outbox) : Item :=
  [(js "outbox_key", .S outbox.outbox_key),
    (js "record_type", .S outbox.record_type),
    (js "submission_id", .S outbox.submission_id),
    (js "offer", .S outbox.offer),
    (js "source", .S outbox.source),
    (js "created_at", .S outbox.created_at),
    (js "retention_class", .S outbox.retention_class),
    (js "contact_permission_status", .S outbox.contact_permission_status),
    (js "email_verification_status", .S outbox.email_verification_status),
    (js "expires_at_epoch", numberAttribute outbox.expires_at_epoch)]

structure Tables where
  submissions : JsString → Option Item
  outbox : JsString → Option Item

def Tables.empty : Tables := ⟨fun _ => none, fun _ => none⟩

/-- The puts of one transaction, each of an item that is not there. -/
structure TransactItems where
  submission : Submission
  outbox : Option Outbox

section
variable (rt : Runtime)

/-- What `putSubmission` sends. Nothing is an error. -/
def putSubmission (submission : Submission) : Option TransactItems :=
  if submission.record_type = js "waitlist_submission" then do
    let outbox ← createNotificationOutbox rt submission.toOutboxSource
    some ⟨submission, some outbox⟩
  else some ⟨submission, none⟩

/-- `TransactWriteItemsCommand`. Nothing changes where it is cancelled. -/
def Tables.transact (items : TransactItems) (tables : Tables) : Option Tables :=
  if (tables.submissions items.submission.submission_key).isSome ∨
      items.outbox.any fun outbox => (tables.outbox outbox.outbox_key).isSome then
    none
  else
    some
      { submissions :=
          Function.update tables.submissions items.submission.submission_key
            (some items.submission.toDynamoItem)
        outbox :=
          match items.outbox with
          | some outbox =>
            Function.update tables.outbox outbox.outbox_key (some outbox.toDynamoItem)
          | none => tables.outbox }

-- ---------------------------------------------------------------------------
-- The handler
-- ---------------------------------------------------------------------------

/-- The environment of the function. -/
structure Settings where
  PRODUCTION_RETENTION_DAYS : Option JsString
  SMOKE_TEST_TTL_HOURS : Option JsString

def integerBetween (low high : Nat) : JsNumber → Option Nat
  | some (.finite x) => if x.den = 1 ∧ (low : ℚ) ≤ x ∧ x ≤ high then some x.num.toNat else none
  | _ => none

def readSmokeTestTtlHours (value : Option JsString) : Nat :=
  (value.bind fun text => integerBetween 1 168 (numberOfText text)).getD
    DEFAULT_SMOKE_TEST_TTL_HOURS

def readProductionRetentionDays (value : Option JsString) : Nat :=
  (value.bind fun text => integerBetween 30 180 (numberOfText text)).getD
    DEFAULT_PRODUCTION_RETENTION_DAYS

/-- A decoded body, the clock and what the source of entropy gives. -/
structure Request where
  body : List (JsString × Json)
  now : Option Int
  randomBytes : List UInt8

inductive Handled
  | rejected (fields : List String)
  | unavailable
  /-- Accepted, but nothing is stored. -/
  | ignored
  | stores (items : TransactItems)

/-- The field that people do not see was filled in. -/
def isHoneypot (body : List (JsString × Json)) : Bool :=
  match lookup body (js "website") with
  | some (.string website) => trim website != []
  | _ => false

def waitlistHandler (settings : Settings) (request : Request) : Handled :=
  if isHoneypot request.body then .ignored
  else
    match validateSubmission rt request.body with
    | .error fields => .rejected fields
    | .ok value =>
      match request.now.filter IsoTime.InRange with
      | none => .unavailable
      | some now =>
        match createSubmission rt value now
            (readProductionRetentionDays settings.PRODUCTION_RETENTION_DAYS)
            (readSmokeTestTtlHours settings.SMOKE_TEST_TTL_HOURS) request.randomBytes with
        | none => .unavailable
        | some submission =>
          match putSubmission rt submission with
          | none => .unavailable
          | some items => .stores items

end

end EsigSuite.Waitlist
