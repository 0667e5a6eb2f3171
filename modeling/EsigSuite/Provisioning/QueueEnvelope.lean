import EsigSuite.Lib.JsRegex
import EsigSuite.Lib.JsonOrder
import EsigSuite.Lib.JsonRead
import EsigSuite.Provisioning.Convergence
import EsigSuite.Provisioning.Identifiers
import EsigSuite.Provisioning.StripeEvents

/-!
# The queue between the webhook and the worker

`SqsProvisioningQueue` writes a normalized event as JSON. `parseQueueEnvelope`
of `handlers/worker.ts` reads it back with its own lists of types, modes, plans
and states, and `reduceBillingEvent` validates the event once more.
-/

namespace EsigSuite.Provisioning

open Lib

-- ---------------------------------------------------------------------------
-- The names of `domain.ts`
-- ---------------------------------------------------------------------------

def ACCEPTED_STRIPE_EVENT_TYPES : List String :=
  ["checkout.session.completed", "invoice.paid", "invoice.payment_failed",
    "customer.subscription.created", "customer.subscription.updated",
    "customer.subscription.deleted", "charge.refunded"]

def DEPLOYMENT_MODES : List String := ["shared", "dedicated"]

def BILLING_STATES : List String := ["pending", "active", "past_due", "canceled", "refunded"]

/-- The keys of `PLAN_CATALOG`. -/
def PLAN_IDS : List String := ["starter", "team", "scale"]

namespace AcceptedStripeEventType

def text : AcceptedStripeEventType → String
  | checkoutSessionCompleted => "checkout.session.completed"
  | invoicePaid => "invoice.paid"
  | invoicePaymentFailed => "invoice.payment_failed"
  | subscriptionCreated _ => "customer.subscription.created"
  | subscriptionUpdated _ => "customer.subscription.updated"
  | subscriptionDeleted => "customer.subscription.deleted"
  | chargeRefunded => "charge.refunded"

def billingState : AcceptedStripeEventType → Option BillingState
  | subscriptionCreated state | subscriptionUpdated state => some state
  | _ => none

end AcceptedStripeEventType

def PlanId.text : PlanId → String
  | .starter => "starter"
  | .team => "team"
  | .scale => "scale"

def BillingState.text : BillingState → String
  | .pending => "pending"
  | .active => "active"
  | .past_due => "past_due"
  | .canceled => "canceled"
  | .refunded => "refunded"

-- ---------------------------------------------------------------------------
-- The message
-- ---------------------------------------------------------------------------

/-- `createHash("sha256").update(rawBody).digest("hex")` -/
def payloadDigest (sha256 : List UInt8 → Vector UInt8 32) (rawBody : List UInt8) : String :=
  String.ofList ((sha256 rawBody).toList.flatMap hexByte)

/-- `optional(key, value)` -/
def optionalMember (key : String) (value : Option String) : List (JsString × Json) :=
  (value.map (textMember key)).toList

/-- A normalized event, its members in the order in which they are set. -/
def eventMembers (event : OrderEvent) : List (JsString × Json) :=
  [textMember "eventId" event.eventId, (js "createdAt", .number (.finite event.createdAt)),
    textMember "payloadDigest" event.payloadDigest,
    textMember "subscriptionId" event.subscriptionId] ++
  (optionalMember "customerId" event.customerId ++
  (optionalMember "ownerSubject" event.ownerSubject ++
  (optionalMember "mode" (event.mode.map DeploymentMode.text) ++
  (optionalMember "plan" (event.plan.map PlanId.text) ++
  (textMember "type" event.type.text ::
  optionalMember "billingState" (event.type.billingState.map BillingState.text))))))

/-- `ProvisioningQueueMessage` -/
def provisioningQueueMessage (event : OrderEvent) : Json :=
  .object [(js "version", .number (.finite 1)), textMember "kind" "stripe-event",
    (js "event", .object (eventMembers event))]

/-- The `MessageBody` that `enqueue` sends. -/
def messageBody (event : OrderEvent) : Except String (List Char) :=
  if event.subscriptionId = "" then
    .error "Accepted provisioning event requires a subscription ID"
  else .ok (provisioningQueueMessage event).stringify

-- ---------------------------------------------------------------------------
-- The worker
-- ---------------------------------------------------------------------------

def isRecord : Option Json → Bool
  | some (.object _) => true
  | _ => false

def isOneOf (value : Option Json) (allowed : List String) : Bool :=
  allowed.any fun text => isString (js text) value

def optionalString : Option Json → Bool
  | none => true
  | some (.string text) => text != []
  | _ => false

/-- A string that is not empty. -/
def isText : Option Json → Bool
  | some (.string text) => text != []
  | _ => false

/-- A safe integer that is not negative. -/
def isCreatedAt : Option Json → Bool
  | some (.number (.finite x)) => x.den == 1 && x.num.natAbs < 2 ^ 53 && 0 ≤ x
  | _ => false

/-- `/^[a-f0-9]{64}$/` -/
def isPayloadDigest : Option Json → Bool
  | some (.string text) => text.length == 64 && text.all fun c => inRange 0x61 0x66 c || isDigitUnit c
  | _ => false

def isNormalizedAcceptedEvent (value : Option Json) : Bool :=
  match value with
  | some (.object members) =>
    let get (key : String) := lookup members (js key)
    if !isText (get "eventId") || !isCreatedAt (get "createdAt") ||
        !isPayloadDigest (get "payloadDigest") || !isText (get "subscriptionId") ||
        !isOneOf (get "type") ACCEPTED_STRIPE_EVENT_TYPES then false
    else if !optionalString (get "customerId") || !optionalString (get "ownerSubject") then false
    else if (get "mode").isSome && !isOneOf (get "mode") DEPLOYMENT_MODES then false
    else if (get "plan").isSome && !isOneOf (get "plan") PLAN_IDS then false
    else if isString (js "customer.subscription.created") (get "type") ||
        isString (js "customer.subscription.updated") (get "type") then
      !isString (js "refunded") (get "billingState") && isOneOf (get "billingState") BILLING_STATES
    else (get "billingState").isNone
  | _ => false

def parseQueueEnvelope (body : List Char) : Except String Json :=
  match Json.parse body with
  | none => .error "INVALID_QUEUE_MESSAGE"
  | some value =>
    if !isRecord (some value) || !isNumber 1 (member value "version") ||
        !isString (js "stripe-event") (member value "kind") then .error "INVALID_QUEUE_MESSAGE"
    else if !isNormalizedAcceptedEvent (member value "event") then .error "INVALID_QUEUE_MESSAGE"
    else .ok value

-- ---------------------------------------------------------------------------
-- An event from its JSON
-- ---------------------------------------------------------------------------

def modeNamed (text : String) : Option DeploymentMode := [.shared, .dedicated].find? (·.text == text)

def planNamed (text : String) : Option PlanId := [.starter, .team, .scale].find? (·.text == text)

def billingStateNamed (text : String) : Option NonRefundedBillingState :=
  match text with
  | "pending" => some ⟨.pending, BillingState.pending_ne_refunded⟩
  | "active" => some ⟨.active, BillingState.active_ne_refunded⟩
  | "past_due" => some ⟨.past_due, BillingState.past_due_ne_refunded⟩
  | "canceled" => some ⟨.canceled, BillingState.canceled_ne_refunded⟩
  | _ => none

def eventTypeNamed (text : String) (billingState : Option NonRefundedBillingState) :
    Option AcceptedStripeEventType :=
  match text with
  | "checkout.session.completed" => some .checkoutSessionCompleted
  | "invoice.paid" => some .invoicePaid
  | "invoice.payment_failed" => some .invoicePaymentFailed
  | "customer.subscription.created" => billingState.map .subscriptionCreated
  | "customer.subscription.updated" => billingState.map .subscriptionUpdated
  | "customer.subscription.deleted" => some .subscriptionDeleted
  | "charge.refunded" => some .chargeRefunded
  | _ => none

def createdAtOf : Option Json → Option Int
  | some (.number (.finite x)) => if x.den = 1 then some x.num else none
  | _ => none

/-- The event that a JSON value is under the types of `domain.ts`. -/
def eventOf (value : Json) : Option OrderEvent := do
  let eventId ← textOf (member value "eventId")
  let createdAt ← createdAtOf (member value "createdAt")
  let payloadDigest ← textOf (member value "payloadDigest")
  let subscriptionId ← textOf (member value "subscriptionId")
  let type ← (textOf (member value "type")).bind
    (eventTypeNamed · ((textOf (member value "billingState")).bind billingStateNamed))
  pure
    { eventId, createdAt, payloadDigest, subscriptionId, type
      customerId := textOf (member value "customerId")
      ownerSubject := textOf (member value "ownerSubject")
      mode := (textOf (member value "mode")).bind modeNamed
      plan := (textOf (member value "plan")).bind planNamed }

-- ---------------------------------------------------------------------------
-- The members of a message
-- ---------------------------------------------------------------------------

@[simp] theorem lookup_optionalMember (key : String) (value : Option String)
    (rest : List (JsString × Json)) (k : String) :
    lookup (optionalMember key value ++ rest) (js k) =
      if key = k then (value.map fun text => .string (js text)).or (lookup rest (js k))
      else lookup rest (js k) := by
  cases value with
  | none => simp [optionalMember]
  | some value => simp [optionalMember]

@[simp] theorem lookup_lastMember (key : String) (value : Option String) (k : String) :
    lookup (optionalMember key value) (js k) =
      if key = k then value.map fun text => .string (js text) else none := by
  have h := lookup_optionalMember key value [] k
  simpa using h

/-- The member of an event under each name. -/
def eventField (event : OrderEvent) (key : String) : Option Json :=
  let text (value : String) : Json := .string (js value)
  match key with
  | "eventId" => some (text event.eventId)
  | "createdAt" => some (.number (.finite event.createdAt))
  | "payloadDigest" => some (text event.payloadDigest)
  | "subscriptionId" => some (text event.subscriptionId)
  | "customerId" => event.customerId.map text
  | "ownerSubject" => event.ownerSubject.map text
  | "mode" => event.mode.map fun mode => text mode.text
  | "plan" => event.plan.map fun plan => text plan.text
  | "type" => some (text event.type.text)
  | "billingState" => event.type.billingState.map fun state => text state.text
  | _ => none

theorem lookup_eventMembers (event : OrderEvent) (key : String) :
    lookup (eventMembers event) (js key) = eventField event key := by
  unfold eventField
  split <;> simp [eventMembers, Function.comp_def]
  -- a name that no member has
  simp_all [eq_comm]

theorem member_eventMembers (event : OrderEvent) (key : String) :
    member (.object (eventMembers event)) key = eventField event key :=
  lookup_eventMembers event key

@[simp] theorem textOf_map (text : Option String) :
    textOf (text.map fun text => .string (js text)) = text := by
  cases text <;> simp [textOf]

@[simp] theorem modeNamed_text (mode : DeploymentMode) : modeNamed mode.text = some mode := by
  cases mode <;> rfl

@[simp] theorem planNamed_text (plan : PlanId) : planNamed plan.text = some plan := by
  cases plan <;> rfl

theorem billingStateNamed_text (state : NonRefundedBillingState) :
    billingStateNamed (BillingState.text state) = some state := by
  obtain ⟨state, h⟩ := state
  cases state with
  | refunded => exact absurd rfl h
  | _ => rfl

theorem eventTypeNamed_text (type : AcceptedStripeEventType) :
    eventTypeNamed type.text
      ((type.billingState.map BillingState.text).bind billingStateNamed) = some type := by
  cases type <;>
    simp [AcceptedStripeEventType.text, AcceptedStripeEventType.billingState, eventTypeNamed,
      billingStateNamed_text]

theorem eventOf_eventMembers (event : OrderEvent) :
    eventOf (.object (eventMembers event)) = some event := by
  have hmode : (textOf (eventField event "mode")).bind modeNamed = event.mode := by
    cases h : event.mode <;> simp [eventField, h, textOf]
  have hplan : (textOf (eventField event "plan")).bind planNamed = event.plan := by
    cases h : event.plan <;> simp [eventField, h, textOf]
  have htype : (textOf (eventField event "type")).bind
      (eventTypeNamed · ((textOf (eventField event "billingState")).bind billingStateNamed)) =
        some event.type := by
    have hstate : textOf (eventField event "billingState") =
        event.type.billingState.map BillingState.text := by
      cases h : event.type.billingState <;> simp [eventField, h, textOf]
    rw [hstate]
    simpa [eventField] using eventTypeNamed_text event.type
  simp only [eventOf, member_eventMembers, hmode, hplan, htype]
  simp [eventField, createdAtOf]

-- ---------------------------------------------------------------------------
-- A message is accepted
-- ---------------------------------------------------------------------------

theorem eventMembers_keys (event : OrderEvent) : ((eventMembers event).map (·.1)).Sublist
    (["eventId", "createdAt", "payloadDigest", "subscriptionId", "customerId", "ownerSubject",
      "mode", "plan", "type", "billingState"].map js) := by
  have hkey (key : String) (value : Option String) :
      ((optionalMember key value).map (·.1)).Sublist [js key] := by
    cases value with
    | none => exact List.nil_sublist _
    | some value => exact .refl _
  simp only [eventMembers, List.map_append, List.map_cons, List.map_nil]
  exact (List.Sublist.refl [_, _, _, _]).append <| (hkey _ _).append <| (hkey _ _).append <|
    (hkey _ _).append <| (hkey _ _).append <| (hkey _ _).cons₂ _

@[simp] theorem optionalMember_plain (key : String) (value : Option String) :
    Json.PlainMembers (optionalMember key value) := by
  cases value <;> simp [optionalMember, textMember, Json.PlainMembers, Json.Plain]

theorem provisioningQueueMessage_plain {event : OrderEvent} (h : event.createdAt.natAbs < 2 ^ 53) :
    (provisioningQueueMessage event).Plain := by
  have hkeys : ((eventMembers event).map (·.1)).Nodup := by
    refine (eventMembers_keys event).nodup (List.Nodup.map (fun _ _ => js_inj.mp) ?_)
    decide
  have hplain : Json.PlainMembers (eventMembers event) := by
    simp [eventMembers, Json.PlainMembers, textMember, Json.Plain, Double.exact_int h]
  refine ⟨by simp [textMember], ?_⟩
  simp only [Json.PlainMembers, textMember, Json.Plain, true_and, and_true]
  exact ⟨by simpa using Double.exact_nat (n := 1) (by decide), hkeys, hplain⟩

theorem isPayloadDigest_js {digest : String} (h : isDigest digest = true) :
    isPayloadDigest (some (.string (js digest))) = true := by
  simp only [isDigest, Bool.and_eq_true, beq_iff_eq, List.all_eq_true] at h
  obtain ⟨hlength, hall⟩ := h
  have hunit (c : Char) (hc : c ∈ digest.toList) : c.toNat < 0x80 ∧
      (inRange 0x61 0x66 (UInt16.ofNat c.toNat) || isDigitUnit (UInt16.ofNat c.toNat)) = true := by
    have hrange := hall c hc
    simp only [Bool.or_eq_true, Bool.and_eq_true, decide_eq_true_eq, Char.le_def,
      UInt32.le_iff_toNat_le] at hrange
    change 97 ≤ c.toNat ∧ c.toNat ≤ 102 ∨ 48 ≤ c.toNat ∧ c.toNat ≤ 57 at hrange
    have hvalue : (UInt16.ofNat c.toNat).toNat = c.toNat := by
      rw [UInt16.toNat_ofNat']
      omega
    simp only [inRange, isDigitUnit, Bool.or_eq_true, Bool.and_eq_true, decide_eq_true_eq,
      UInt16.le_iff_toNat_le, hvalue]
    exact ⟨by omega, hrange⟩
  have hjs : js digest = digest.toList.map fun c => UInt16.ofNat c.toNat := by
    rw [js, JsString.ofText, List.map_eq_flatMap]
    exact List.flatMap_congr fun c hc => utf16_small ((hunit c hc).1.trans (by decide))
  simp only [isPayloadDigest, hjs, List.length_map, hlength, List.all_map, List.all_eq_true,
    Bool.and_eq_true, beq_self_eq_true, true_and]
  exact fun c hc => (hunit c hc).2

theorem isDigest_payloadDigest (sha256 : List UInt8 → Vector UInt8 32) (rawBody : List UInt8) :
    isDigest (payloadDigest sha256 rawBody) = true := by
  have hdigit : ∀ n < 16, (('a' ≤ Nat.digitChar n && Nat.digitChar n ≤ 'f') ||
      ('0' ≤ Nat.digitChar n && Nat.digitChar n ≤ '9')) = true := by decide
  have hlength (bytes : List UInt8) : (bytes.flatMap hexByte).length = 2 * bytes.length := by
    induction bytes with
    | nil => rfl
    | cons byte bytes ih => simp [hexByte, ih]; omega
  simp only [isDigest, payloadDigest, String.toList_ofList, hlength, Vector.length_toList,
    Bool.and_eq_true, List.all_eq_true, List.mem_flatMap]
  refine ⟨rfl, ?_⟩
  rintro c ⟨byte, -, hc⟩
  have hbyte := byte.toNat_lt
  simp only [hexByte, List.mem_cons, List.not_mem_nil, or_false] at hc
  rcases hc with rfl | rfl
  · exact hdigit _ (by omega)
  · exact hdigit _ (by omega)

theorem isText_js {text : String} (h : text ≠ "") : isText (some (.string (js text))) = true := by
  have hne : js text ≠ [] := fun hempty => h (js_inj.mp hempty)
  simpa [isText] using hne

theorem optionalString_js {text : Option String} (h : text ≠ some "") :
    optionalString (text.map fun text => .string (js text)) = true := by
  cases text with
  | none => rfl
  | some text => exact isText_js (by simpa using h)

theorem valid_accepted {event : OrderEvent} :
    NormalizedStripeEvent.valid (.accepted event) = true ↔
      event.eventId ≠ "" ∧ event.createdAt < 2 ^ 53 ∧ 0 ≤ event.createdAt ∧
        isDigest event.payloadDigest = true ∧ event.subscriptionId ≠ "" := by
  simp only [NormalizedStripeEvent.valid, Bool.and_eq_true, decide_eq_true_eq, and_assoc]
  rfl

theorem isNormalizedAcceptedEvent_eventMembers {event : OrderEvent}
    (h : NormalizedStripeEvent.valid (.accepted event) = true)
    (hcustomer : event.customerId ≠ some "") (howner : event.ownerSubject ≠ some "") :
    isNormalizedAcceptedEvent (some (.object (eventMembers event))) = true := by
  obtain ⟨hid, hsafe, hnonneg, hdigest, hsubscription⟩ := valid_accepted.mp h
  have hcreated : isCreatedAt (eventField event "createdAt") = true := by
    have hnumber : event.createdAt.natAbs < 2 ^ 53 := by omega
    simp only [eventField, isCreatedAt, Bool.and_eq_true, decide_eq_true_eq, beq_iff_eq]
    exact ⟨⟨Rat.den_intCast _, by simpa using hnumber⟩, by exact_mod_cast hnonneg⟩
  have hmode : ((eventField event "mode").isSome &&
      !isOneOf (eventField event "mode") DEPLOYMENT_MODES) = false := by
    rcases hmode : event.mode with - | - | - <;>
      simp [eventField, hmode, isOneOf, DEPLOYMENT_MODES, isString_js, DeploymentMode.text]
  have hplan : ((eventField event "plan").isSome &&
      !isOneOf (eventField event "plan") PLAN_IDS) = false := by
    rcases hplan : event.plan with - | - | - | - <;>
      simp [eventField, hplan, isOneOf, PLAN_IDS, isString_js, PlanId.text]
  have htype : isOneOf (eventField event "type") ACCEPTED_STRIPE_EVENT_TYPES = true := by
    cases htype : event.type <;>
      simp [eventField, htype, isOneOf, ACCEPTED_STRIPE_EVENT_TYPES, isString_js,
        AcceptedStripeEventType.text]
  have hstate : (if isString (js "customer.subscription.created") (eventField event "type") ||
        isString (js "customer.subscription.updated") (eventField event "type") then
      !isString (js "refunded") (eventField event "billingState") &&
        isOneOf (eventField event "billingState") BILLING_STATES
    else (eventField event "billingState").isNone) = true := by
    cases htype : event.type with
    | subscriptionCreated state | subscriptionUpdated state =>
      obtain ⟨state, hne⟩ := state
      cases state with
      | refunded => exact absurd rfl hne
      | _ =>
        simp [eventField, htype, isOneOf, BILLING_STATES, isString_js,
          AcceptedStripeEventType.text, AcceptedStripeEventType.billingState, BillingState.text]
    | _ =>
      simp [eventField, htype, isString_js, AcceptedStripeEventType.text,
        AcceptedStripeEventType.billingState]
  have htexts : isText (eventField event "eventId") = true ∧
      isText (eventField event "subscriptionId") = true ∧
      isPayloadDigest (eventField event "payloadDigest") = true :=
    ⟨isText_js hid, isText_js hsubscription, isPayloadDigest_js hdigest⟩
  have hoptional : optionalString (eventField event "customerId") = true ∧
      optionalString (eventField event "ownerSubject") = true :=
    ⟨optionalString_js hcustomer, optionalString_js howner⟩
  simp only [isNormalizedAcceptedEvent, lookup_eventMembers, htexts, hoptional, hcreated, hmode,
    hplan, htype, Bool.not_true, Bool.or_self, Bool.false_eq_true, if_false, hstate]

theorem parseQueueEnvelope_message {event : OrderEvent}
    (h : NormalizedStripeEvent.valid (.accepted event) = true)
    (hcustomer : event.customerId ≠ some "") (howner : event.ownerSubject ≠ some "") :
    parseQueueEnvelope (provisioningQueueMessage event).stringify =
      .ok (provisioningQueueMessage event) := by
  have hnumber : event.createdAt.natAbs < 2 ^ 53 := by
    obtain ⟨-, hsafe, hnonneg, -⟩ := valid_accepted.mp h
    omega
  have hversion : member (provisioningQueueMessage event) "version" =
      some (.number (.finite 1)) := by
    simp [provisioningQueueMessage, member]
  have hkind : member (provisioningQueueMessage event) "kind" =
      some (.string (js "stripe-event")) := by
    simp [provisioningQueueMessage, member]
  have hevent : member (provisioningQueueMessage event) "event" =
      some (.object (eventMembers event)) := by
    simp [provisioningQueueMessage, member]
  have hrecord : isRecord (some (provisioningQueueMessage event)) = true := rfl
  have haccepted := isNormalizedAcceptedEvent_eventMembers h hcustomer howner
  simp [parseQueueEnvelope, Json.parse_stringify (provisioningQueueMessage_plain hnumber), hversion,
    hkind, hevent, hrecord, haccepted, isNumber, isString]

-- ---------------------------------------------------------------------------
-- From the webhook to the order
-- ---------------------------------------------------------------------------

theorem reduceBillingEvent_accepts (c : Collation) {event : OrderEvent} {current : Option OrderRecord}
    (h : NormalizedStripeEvent.valid (.accepted event) = true)
    (hsame : ∀ order ∈ current, order.subscriptionId = event.subscriptionId) :
    ∃ reduction, reduceBillingEvent c current (.accepted event) = .ok reduction := by
  cases current with
  | none => exact ⟨_, by simp [reduceBillingEvent, h]; rfl⟩
  | some order => exact ⟨_, by simp [reduceBillingEvent, h, hsame order rfl]; rfl⟩

/-- Every event that the webhook does not ignore reaches the reducer as it was
sent, and the reducer takes it. -/
theorem queuedEvent_accepted (c : Collation) (sha256 : List UInt8 → Vector UInt8 32)
    (rawBody : List UInt8) {event : StripeEvent} {e : OrderEvent} (hid : event.id ≠ "")
    (hcreated : 0 ≤ event.created ∧ event.created < 2 ^ 53)
    (h : normalizeStripeEvent event (payloadDigest sha256 rawBody) = .accepted e) :
    ∃ body value, messageBody e = .ok body ∧ parseQueueEnvelope body = .ok value ∧
      member value "event" = some (.object (eventMembers e)) ∧
      (member value "event").bind eventOf = some e ∧
      ∀ current : Option OrderRecord,
        (∀ order ∈ current, order.subscriptionId = e.subscriptionId) →
        ∃ reduction, reduceBillingEvent c current (.accepted e) = .ok reduction := by
  obtain ⟨hsubscription, hcustomer, howner⟩ := normalizeStripeEvent_texts h
  have hbase := normalizeStripeEvent_base event (payloadDigest sha256 rawBody)
  have hvalid : NormalizedStripeEvent.valid (.accepted e) = true := by
    rw [h] at hbase
    change e.toNormalizedStripeEventBase = _ at hbase
    rw [valid_accepted, hbase]
    exact ⟨hid, hcreated.2, hcreated.1, isDigest_payloadDigest _ _, hsubscription⟩
  have hevent : member (provisioningQueueMessage e) "event" =
      some (.object (eventMembers e)) := by
    simp [provisioningQueueMessage, member]
  refine ⟨_, _, if_neg hsubscription, parseQueueEnvelope_message hvalid hcustomer howner, hevent,
    ?_, fun current hsame => reduceBillingEvent_accepts c hvalid hsame⟩
  rw [hevent]
  exact eventOf_eventMembers e

namespace Sample

def delivery : StripeEvent where
  id := "evt_1"
  type := "invoice.paid"
  created := 1700000000
  object := .object [("subscription", .string "sub_1")]

def deliveryBody : List UInt8 :=
  "\x7b\"id\":\"evt_1\",\"type\":\"invoice.paid\",\"created\":1700000000,\"data\":\x7b\"object\":\x7b\"subscription\":\"sub_1\"\x7d\x7d\x7d".toUTF8.data.toList

/-- SHA-256 of `deliveryBody`. -/
def deliverySha256 (_ : List UInt8) : Vector UInt8 32 :=
  #v[0x05, 0x9d, 0x8b, 0x5a, 0xc2, 0xf4, 0xe0, 0xba, 0x60, 0x6e, 0x9a, 0x4a, 0x3c, 0x43, 0x3b, 0xf5,
    0xd1, 0x2d, 0x5d, 0x0c, 0xc4, 0xbb, 0xb4, 0x5a, 0xe0, 0x43, 0xb8, 0xf6, 0x72, 0x79, 0xc3, 0xbf]

def deliveredEvent : OrderEvent where
  eventId := "evt_1"
  createdAt := 1700000000
  payloadDigest := payloadDigest deliverySha256 deliveryBody
  subscriptionId := "sub_1"
  type := .invoicePaid
  customerId := none
  ownerSubject := none
  mode := none
  plan := none

theorem queuedEvent_accepted_delivery :
    ∃ body value, messageBody deliveredEvent = .ok body ∧ parseQueueEnvelope body = .ok value ∧
      member value "event" = some (.object (eventMembers deliveredEvent)) ∧
      (member value "event").bind eventOf = some deliveredEvent ∧
      ∀ current : Option OrderRecord,
        (∀ order ∈ current, order.subscriptionId = deliveredEvent.subscriptionId) →
        ∃ reduction, reduceBillingEvent .codePoints current (.accepted deliveredEvent) =
          .ok reduction :=
  queuedEvent_accepted .codePoints deliverySha256 deliveryBody
    (show delivery.id ≠ "" by decide) (by decide) rfl

end Sample

end EsigSuite.Provisioning
