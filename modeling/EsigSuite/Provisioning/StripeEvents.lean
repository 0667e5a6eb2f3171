import EsigSuite.Lib.Double
import EsigSuite.Provisioning.Domain

/-!
# Normalized Stripe events

`normalizeStripeEvent` of `handlers/normalize-stripe-event.ts`, over the parsed
body of a verified delivery.
-/

namespace EsigSuite.Provisioning

/-- What `JSON.parse` gives. Strings have no lone surrogates. -/
inductive JsonValue
  | null
  | boolean (value : Bool)
  | number (value : Lib.Double)
  | string (value : String)
  | array (items : List JsonValue)
  | object (fields : List (String × JsonValue))

/-- The fields of a `Stripe.Event` that are read. -/
structure StripeEvent where
  id : String
  type : String
  created : Int
  /-- `data.object` -/
  object : JsonValue

namespace JsonValue

/-- `asRecord(value)[key]`. An array has none of the keys that are read. -/
def get (value : Option JsonValue) (key : String) : Option JsonValue :=
  match value with
  | some (.object fields) => (fields.find? (·.1 == key)).map (·.2)
  | _ => none

/-- `left ?? right` -/
def orElse (left right : Option JsonValue) : Option JsonValue :=
  match left with
  | none | some .null => right
  | some value => some value

end JsonValue

open JsonValue (get orElse)

def stringValue : Option JsonValue → Option String
  | some (.string value) => if value = "" then none else some value
  | _ => none

def identifier (value : Option JsonValue) : Option String :=
  (stringValue value).or (stringValue (get value "id"))

def planId (value : Option JsonValue) : Option PlanId :=
  match value with
  | some (.string "starter") => some .starter
  | some (.string "team") => some .team
  | some (.string "scale") => some .scale
  | _ => none

def deploymentMode (value : Option JsonValue) : Option DeploymentMode :=
  match value with
  | some (.string "shared") => some .shared
  | some (.string "dedicated") => some .dedicated
  | _ => none

def subscriptionBillingState (status : Option String) : NonRefundedBillingState :=
  match status with
  | some "active" | some "trialing" => ⟨.active, nofun⟩
  | some "past_due" | some "paused" | some "unpaid" => ⟨.past_due, nofun⟩
  | some "canceled" | some "incomplete_expired" => ⟨.canceled, nofun⟩
  | _ => ⟨.pending, nofun⟩

def resolveSubscriptionId (eventType : String) (object metadata : Option JsonValue) :
    Option String :=
  if "customer.subscription.".toList.isPrefixOf eventType.toList then stringValue (get object "id")
  else
    (((identifier (get object "subscription")).or
      (identifier (get (get (get object "parent") "subscription_details") "subscription"))).or
      (stringValue (get metadata "subscription_id"))).or
      (stringValue (get metadata "subscriptionId"))

/-- `acceptedTypes.has(type)`, with the `billingState` of the two types that
carry one. -/
def acceptedType (type : String) (object : Option JsonValue) : Option AcceptedStripeEventType :=
  let billingState := subscriptionBillingState (stringValue (get object "status"))
  match type with
  | "checkout.session.completed" => some .checkoutSessionCompleted
  | "invoice.paid" => some .invoicePaid
  | "invoice.payment_failed" => some .invoicePaymentFailed
  | "customer.subscription.created" => some (.subscriptionCreated billingState)
  | "customer.subscription.updated" => some (.subscriptionUpdated billingState)
  | "customer.subscription.deleted" => some .subscriptionDeleted
  | "charge.refunded" => some .chargeRefunded
  | _ => none

def normalizeStripeEvent (event : StripeEvent) (payloadDigest : String) : NormalizedStripeEvent :=
  let object := some event.object
  let metadata := get object "metadata"
  let subscriptionId := resolveSubscriptionId event.type object metadata
  let base : NormalizedStripeEventBase :=
    { eventId := event.id, createdAt := event.created, payloadDigest }
  match acceptedType event.type object, subscriptionId with
  | some type, some subscriptionId =>
    .accepted
      { base with
        subscriptionId
        type
        customerId := (identifier (get object "customer")).or
          (stringValue (get metadata "customer_id"))
        ownerSubject := (stringValue (get metadata "owner_subject")).or
          (stringValue (get metadata "ownerSubject"))
        mode := deploymentMode (orElse (get metadata "deployment_mode") (get metadata "mode"))
        plan := planId (orElse (get metadata "plan") (get metadata "plan_id")) }
  | _, subscriptionId => .ignored base event.type subscriptionId

theorem normalizeStripeEvent_base (event : StripeEvent) (payloadDigest : String) :
    (normalizeStripeEvent event payloadDigest).base = ⟨event.id, event.created, payloadDigest⟩ := by
  simp only [normalizeStripeEvent]
  split <;> rfl

theorem stringValue_ne (value : Option JsonValue) : stringValue value ≠ some "" := by
  unfold stringValue
  split
  · split <;> simp_all
  · nofun

theorem identifier_ne (value : Option JsonValue) : identifier value ≠ some "" := by
  simp [identifier, Option.or_eq_some_iff, stringValue_ne]

theorem resolveSubscriptionId_ne (eventType : String) (object metadata : Option JsonValue) :
    resolveSubscriptionId eventType object metadata ≠ some "" := by
  unfold resolveSubscriptionId
  split
  · exact stringValue_ne _
  · simp [Option.or_eq_some_iff, stringValue_ne, identifier_ne]

/-- The texts of an accepted event are not empty. -/
theorem normalizeStripeEvent_texts {payloadDigest : String}
    (h : normalizeStripeEvent event payloadDigest = .accepted e) :
    e.subscriptionId ≠ "" ∧ e.customerId ≠ some "" ∧ e.ownerSubject ≠ some "" := by
  simp only [normalizeStripeEvent] at h
  split at h
  · rename_i hs
    injection h with h
    subst h
    refine ⟨?_, ?_, ?_⟩
    · rintro rfl
      exact resolveSubscriptionId_ne _ _ _ hs
    · simp [Option.or_eq_some_iff, stringValue_ne, identifier_ne]
    · simp [Option.or_eq_some_iff, stringValue_ne]
  · cases h

/-- An accepted event names its subscription. -/
theorem normalizeStripeEvent_subscriptionId {payloadDigest : String}
    (h : normalizeStripeEvent event payloadDigest = .accepted e) : e.subscriptionId ≠ "" :=
  (normalizeStripeEvent_texts h).1

end EsigSuite.Provisioning
