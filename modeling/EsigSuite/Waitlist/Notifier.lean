import EsigSuite.Lib.JsonOrder
import EsigSuite.Waitlist.Handler

/-!
# The waitlist notifier

`buildBrokerPayload` of `notifier.js`, from a record of the stream of the outbox
table.
-/

namespace EsigSuite.Waitlist.Notifier

open Lib

def BROKER_ROUTE : JsString := js "esig.waitlist.sales.v1"

def BROKER_EVENT_TYPE : JsString := js "waitlist.submitted"

def BROKER_SCHEMA_VERSION : Nat := 1

def ALLOWED_OFFERS : List JsString :=
  [js "shared_starter", js "shared_team", js "shared_scale", js "business", js "dedicated",
    js "addon_hipaa_baa", js "addon_hsm_signer", js "addon_21cfr_part11", js "addon_uuaid_ent",
    js "addon_worm", js "addon_eidas_qes"]

def OUTBOX_IMAGE_FIELDS : List JsString :=
  [js "contact_permission_status", js "created_at", js "email_verification_status",
    js "expires_at_epoch", js "offer", js "outbox_key", js "record_type", js "retention_class",
    js "source", js "submission_id"]

structure StreamRecord where
  eventSource : JsString
  eventName : JsString
  /-- `dynamodb.NewImage` -/
  newImage : Item

structure BrokerPayload where
  route : JsString
  schemaVersion : Nat
  eventType : JsString
  submissionId : JsString
  offer : JsString
  source : JsString
  createdAt : JsString
  retentionClass : JsString
  contactPermissionStatus : JsString
  emailVerificationStatus : JsString

/-- Nothing is an error. -/
def readStringAttribute (image : Item) (name : String) : Option JsString :=
  match attributeOf image (js name) with
  | some (.S value) => some value
  | _ => none

/-- A safe integer. -/
def readIntegerAttribute (image : Item) (name : String) : Option Int :=
  match attributeOf image (js name) with
  | some (.N text) =>
    match numberOfText text with
    | some (.finite x) => if x.den = 1 ∧ x.num.natAbs < 2 ^ 53 then some x.num else none
    | _ => none
  | _ => none

def isEligibleInsert (record : StreamRecord) : Bool :=
  record.eventName == js "INSERT" &&
    attributeOf record.newImage (js "record_type") == some (.S (js "waitlist_notification_outbox"))

/-- `Object.keys(image).sort()` -/
def imageFields (image : Item) : List JsString := (image.mergeSort Json.byKey).map (·.1)

/-- From 30 to 180. -/
def retentionDays (value : JsString) : Option Nat :=
  (waitlistDays value).filter fun days => 30 ≤ days && days ≤ 180

section
variable (rt : Runtime)

def isExactIsoTimestamp (value : JsString) : Bool := (exactDate rt value).isSome

/-- Nothing is an error; the payload is undefined where the item has expired. The
time is in milliseconds. -/
def buildBrokerPayload (record : StreamRecord) (now : Option Int) :
    Option (Option BrokerPayload) := do
  if record.eventSource ≠ js "aws:dynamodb" ∨ !isEligibleInsert record then none
  else
    let image := record.newImage
    if imageFields image ≠ OUTBOX_IMAGE_FIELDS then none
    else
      let outboxKey ← readStringAttribute image "outbox_key"
      let submissionId ← readStringAttribute image "submission_id"
      let offer ← readStringAttribute image "offer"
      let source ← readStringAttribute image "source"
      let createdAt ← readStringAttribute image "created_at"
      let retentionClass ← readStringAttribute image "retention_class"
      let expiresAtEpoch ← readIntegerAttribute image "expires_at_epoch"
      let contactPermissionStatus ← readStringAttribute image "contact_permission_status"
      let emailVerificationStatus ← readStringAttribute image "email_verification_status"
      let now ← now.filter IsoTime.InRange
      let createdAtTime ← dateOf rt createdAt
      let allowedRetentionDays ← retentionDays retentionClass
      if outboxKey ≠ Waitlist.outboxKey submissionId ∨ !isSubmissionId submissionId ∨
          !ALLOWED_OFFERS.contains offer ∨ source ≠ js "pricing" ∨
          !isExactIsoTimestamp rt createdAt ∨
          expiresAtEpoch ≠ createdAtTime / 1000 + (allowedRetentionDays : Int) * 24 * 60 * 60 ∨
          contactPermissionStatus ≠ js "asserted_unverified" ∨
          emailVerificationStatus ≠ js "unverified" then
        none
      else if expiresAtEpoch ≤ now / 1000 then some none
      else
        some (some
          { route := BROKER_ROUTE
            schemaVersion := BROKER_SCHEMA_VERSION
            eventType := BROKER_EVENT_TYPE
            submissionId
            offer
            source
            createdAt
            retentionClass
            contactPermissionStatus
            emailVerificationStatus })

end

end EsigSuite.Waitlist.Notifier
