import EsigSuite.Lib.Async
import EsigSuite.Provisioning.StripeEvents

/-!
# The webhook

`createWebhookHandler` with the event ledger and the provisioning queue it
calls. Every call of AWS is atomic, may fail without effect, and may have its
effect without an answer. The world also logs what was leased and sent, and by
which delivery.
-/

namespace EsigSuite.Provisioning

open Lib

-- ---------------------------------------------------------------------------
-- Requests and responses
-- ---------------------------------------------------------------------------

/-- `APIGatewayProxyEventV2` -/
structure WebhookRequest where
  headers : List (String × Option String)
  body : Option String
  isBase64Encoded : Bool

structure WebhookResponse where
  statusCode : Nat
  body : List (String × JsonValue)

def base64Digit (c : Char) : Option Nat :=
  if 'A' ≤ c ∧ c ≤ 'Z' then some (c.toNat - 'A'.toNat)
  else if 'a' ≤ c ∧ c ≤ 'z' then some (c.toNat - 'a'.toNat + 26)
  else if '0' ≤ c ∧ c ≤ '9' then some (c.toNat - '0'.toNat + 52)
  else if c = '+' ∨ c = '-' then some 62
  else if c = '/' ∨ c = '_' then some 63
  else none

def base64Groups : List Nat → List UInt8
  | a :: b :: c :: d :: rest =>
    .ofNat (a * 4 + b / 16) :: .ofNat (b % 16 * 16 + c / 4) :: .ofNat (c % 4 * 64 + d) ::
      base64Groups rest
  | [a, b, c] => [.ofNat (a * 4 + b / 16), .ofNat (b % 16 * 16 + c / 4)]
  | [a, b] => [.ofNat (a * 4 + b / 16)]
  | _ => []

/-- `Buffer.from(text, "base64")`: other characters are skipped, and padding
ends the text. -/
def base64Bytes (text : String) : List UInt8 :=
  base64Groups ((text.toList.takeWhile (· ≠ '=')).filterMap base64Digit)

def utf8Bytes (text : String) : List UInt8 := text.toUTF8.data.toList

def rawBodyFrom (request : WebhookRequest) : Option (List UInt8) :=
  request.body.map fun body => if request.isBase64Encoded then base64Bytes body else utf8Bytes body

def toLowerCase (text : String) : List Char := text.toList.map Char.toLower

def header (headers : List (String × Option String)) (name : String) : Option String :=
  (headers.find? fun entry => toLowerCase entry.1 == toLowerCase name).bind (·.2)

def response (statusCode : Nat) (body : List (String × JsonValue)) : WebhookResponse :=
  ⟨statusCode, body⟩

-- ---------------------------------------------------------------------------
-- What the handler calls
-- ---------------------------------------------------------------------------

inductive DeliveryStatus
  | pending
  | enqueued
  | ignored
  deriving DecidableEq, Repr

structure EventLedgerItem where
  eventId : String
  eventType : String
  createdAt : Int
  payloadDigest : String
  subscriptionId : Option String
  /-- in milliseconds -/
  claimedAt : Int
  deliveryStatus : DeliveryStatus
  deliveryLeaseOwner : Option String
  deliveryLeaseExpiresAt : Option Int
  enqueuedAt : Option Int
  deriving DecidableEq

/-- The SQS message of one event, `version` and `kind` apart. -/
structure QueueMessage where
  event : OrderEvent
  messageDeduplicationId : String
  messageGroupId : String
  deriving DecidableEq

/-- A delivery may send from `claimedAt` until `expiresAt`. -/
structure DeliveryLease where
  eventId : String
  deliveryToken : String
  claimedAt : Int
  expiresAt : Int

structure SentMessage (ι : Type) where
  delivery : ι
  deliveryToken : String
  message : QueueMessage

structure WebhookWorld (ι : Type) where
  ledger : String → Option EventLedgerItem
  queue : List (SentMessage ι)
  /-- The leases the ledger has given, the latest last. -/
  leases : List DeliveryLease
  /-- The delivery that drew a token. -/
  tokens : String → Option ι

def WebhookWorld.initial : WebhookWorld ι where
  ledger _ := none
  queue := []
  leases := []
  tokens _ := none

inductive AwsError
  | ConditionalCheckFailedException
  | other
  deriving DecidableEq

inductive WebhookOp (ι : Type)
  | now
  | randomUUID (delivery : ι)
  | getSecret
  | clearSecret
  | constructEvent (payload : List UInt8) (signature secret : String)
  | put (item : EventLedgerItem)
  | get (eventId : String)
  | takeOver (eventId owner : String) (expires now : Int)
  | markEnqueued (eventId owner : String) (enqueuedAt : Int)
  | sendMessage (delivery : ι) (deliveryToken : String) (message : QueueMessage)

def WebhookOp.Res : WebhookOp ι → Type
  | .now => Int
  | .randomUUID _ => String
  | .getSecret => Option String
  | .clearSecret => Unit
  | .constructEvent .. => Option StripeEvent
  | .put _ | .takeOver .. | .markEnqueued .. | .sendMessage .. => Except AwsError Unit
  | .get _ => Except AwsError (Option EventLedgerItem)

/-- `Math.floor(now.getTime() / 1_000)` -/
def seconds (milliseconds : Int) : Int := milliseconds / 1000

def EventLedgerItem.lease? (item : EventLedgerItem) : Option DeliveryLease :=
  match item.deliveryLeaseOwner, item.deliveryLeaseExpiresAt with
  | some owner, some expiresAt => some ⟨item.eventId, owner, seconds item.claimedAt, expiresAt⟩
  | _, _ => none

/-- The condition of the take-over: pending, and the lease has expired. -/
def EventLedgerItem.claimable (item : EventLedgerItem) (now : Int) : Bool :=
  item.deliveryStatus == .pending && item.deliveryLeaseExpiresAt.all (· ≤ now)

/-- The condition of the mark: pending, and leased to `owner`. -/
def EventLedgerItem.heldBy (item : EventLedgerItem) (owner : String) : Bool :=
  item.deliveryStatus == .pending && item.deliveryLeaseOwner == some owner

/-- What a delivery runs in. `parse` reads the payload of an event, whose
signature `constructEvent` has checked. -/
structure WebhookEnvironment where
  parse : List UInt8 → StripeEvent
  sha256Hex : List UInt8 → String
  leaseSeconds : Nat

namespace WebhookWorld

variable (world : WebhookWorld ι)

def setItem (item : EventLedgerItem) : WebhookWorld ι :=
  { world with ledger := Function.update world.ledger item.eventId (some item) }

def logLease (lease : Option DeliveryLease) : WebhookWorld ι :=
  { world with leases := world.leases ++ lease.toList }

def putItem (item : EventLedgerItem) : WebhookWorld ι := (world.setItem item).logLease item.lease?

def takeOver (item : EventLedgerItem) (owner : String) (expires now : Int) : WebhookWorld ι :=
  (world.setItem
    { item with deliveryLeaseOwner := some owner, deliveryLeaseExpiresAt := some expires }).logLease
      (some ⟨item.eventId, owner, now, expires⟩)

def markEnqueued (item : EventLedgerItem) (enqueuedAt : Int) : WebhookWorld ι :=
  world.setItem
    { item with
      deliveryStatus := .enqueued
      enqueuedAt := some enqueuedAt
      deliveryLeaseOwner := none
      deliveryLeaseExpiresAt := none }

def send (sent : SentMessage ι) : WebhookWorld ι := { world with queue := world.queue ++ [sent] }

/-- A write that goes through where `next` is its effect, and is refused
otherwise. Either way the answer may be lost, and it may not arrive at all. -/
def Written (next : Option (WebhookWorld ι)) (r : Except AwsError Unit)
    (world' : WebhookWorld ι) : Prop :=
  (∃ w, next = some w ∧ world' = w ∧ (r = .ok () ∨ r = .error .other)) ∨
    (world' = world ∧
      ((next = none ∧ r = .error .ConditionalCheckFailedException) ∨ r = .error .other))

end WebhookWorld

def WebhookOp.exec [DecidableEq ι] (env : WebhookEnvironment) : (op : WebhookOp ι) → WebhookWorld ι → op.Res → WebhookWorld ι → Prop
  | .now, w, _, w' => w' = w
  | .getSecret, w, _, w' => w' = w
  | .clearSecret, w, _, w' => w' = w
  | .randomUUID delivery, w, token, w' =>
    w.tokens token = none ∧ w' = { w with tokens := Function.update w.tokens token (some delivery) }
  | .constructEvent payload _ _, w, r, w' => w' = w ∧ ∀ event, r = some event → event = env.parse payload
  | .get eventId, w, r, w' => w' = w ∧ (r = .ok (w.ledger eventId) ∨ r = .error .other)
  | .put item, w, r, w' =>
    w.Written (if (w.ledger item.eventId).isNone then some (w.putItem item) else none) r w'
  | .takeOver eventId owner expires current, w, r, w' =>
    w.Written (((w.ledger eventId).filter (·.claimable current)).map
      fun item => w.takeOver item owner expires current) r w'
  | .markEnqueued eventId owner enqueuedAt, w, r, w' =>
    w.Written (((w.ledger eventId).filter (·.heldBy owner)).map
      fun item => w.markEnqueued item enqueuedAt) r w'
  | .sendMessage delivery deliveryToken message, w, r, w' =>
    w.Written (some (w.send ⟨delivery, deliveryToken, message⟩)) r w'

abbrev Webhook (ι : Type) := Prog (WebhookOp ι) WebhookOp.Res

namespace Aws

def now : Webhook ι Int := .perform (WebhookOp.now)

def randomUUID (delivery : ι) : Webhook ι String := .perform (WebhookOp.randomUUID delivery)

def getSecret : Webhook ι (Option String) := .perform (WebhookOp.getSecret)

def clearSecret : Webhook ι Unit := .perform (WebhookOp.clearSecret)

def constructEvent (payload : List UInt8) (signature secret : String) :
    Webhook ι (Option StripeEvent) :=
  .perform (WebhookOp.constructEvent payload signature secret)

def put (item : EventLedgerItem) : Webhook ι (Except AwsError Unit) := .perform (WebhookOp.put item)

def get (eventId : String) : Webhook ι (Except AwsError (Option EventLedgerItem)) :=
  .perform (WebhookOp.get eventId)

def takeOver (eventId owner : String) (expires now : Int) : Webhook ι (Except AwsError Unit) :=
  .perform (WebhookOp.takeOver eventId owner expires now)

def markEnqueued (eventId owner : String) (enqueuedAt : Int) : Webhook ι (Except AwsError Unit) :=
  .perform (WebhookOp.markEnqueued eventId owner enqueuedAt)

def sendMessage (delivery : ι) (deliveryToken : String) (message : QueueMessage) :
    Webhook ι (Except AwsError Unit) :=
  .perform (WebhookOp.sendMessage delivery deliveryToken message)

end Aws

section
variable (env : WebhookEnvironment)

-- ---------------------------------------------------------------------------
-- The ledger
-- ---------------------------------------------------------------------------

/-- What is thrown inside `claimEvent`. -/
inductive LedgerError
  | aws (error : AwsError)
  | error (message : String)
  deriving DecidableEq

structure EventClaimInput where
  eventId : String
  eventType : String
  eventCreated : Int
  payloadDigest : String
  subscriptionId : Option String
  shouldEnqueue : Bool

inductive EventClaimResult
  | deliver (deliveryToken : String)
  | duplicate
  | «in-flight»
  | ignored

/-- The item of a first claim. -/
def ledgerItem (input : EventClaimInput) (deliveryToken : String) (now : Int) : EventLedgerItem where
  eventId := input.eventId
  eventType := input.eventType
  createdAt := input.eventCreated
  payloadDigest := input.payloadDigest
  subscriptionId := input.subscriptionId
  claimedAt := now
  deliveryStatus := if input.shouldEnqueue then .pending else .ignored
  deliveryLeaseOwner := if input.shouldEnqueue then some deliveryToken else none
  deliveryLeaseExpiresAt :=
    if input.shouldEnqueue then some (seconds now + env.leaseSeconds) else none
  enqueuedAt := none

def takeOverEvent (input : EventClaimInput) (deliveryToken : String) (now : Int) :
    Webhook ι (Except LedgerError EventClaimResult) := do
  match ← Aws.takeOver input.eventId deliveryToken (seconds now + env.leaseSeconds) (seconds now) with
  | .ok _ => pure (.ok (.deliver deliveryToken))
  | .error .ConditionalCheckFailedException => pure (.ok .«in-flight»)
  | .error e => pure (.error (.aws e))

/-- The claim of an event that is in the ledger already. -/
def claimExisting (input : EventClaimInput) (deliveryToken : String) (now : Int) :
    Webhook ι (Except LedgerError EventClaimResult) := do
  match ← Aws.get input.eventId with
  | .error e => pure (.error (.aws e))
  | .ok none => pure (.error (.error ("Event claim disappeared: " ++ input.eventId)))
  | .ok (some existing) =>
    if existing.payloadDigest ≠ input.payloadDigest then
      pure (.error (.error "Stripe event payload digest conflict"))
    else if existing.deliveryStatus = .enqueued ∨ existing.deliveryStatus = .ignored then
      pure (.ok .duplicate)
    else if existing.deliveryLeaseExpiresAt.getD 0 > seconds now then pure (.ok .«in-flight»)
    else takeOverEvent env input deliveryToken now

def claimEvent (delivery : ι) (input : EventClaimInput) :
    Webhook ι (Except LedgerError EventClaimResult) := do
  let now ← Aws.now
  let deliveryToken ← Aws.randomUUID delivery
  match ← Aws.put (ledgerItem env input deliveryToken now) with
  | .ok _ => pure (.ok (if input.shouldEnqueue then .deliver deliveryToken else .ignored))
  | .error .ConditionalCheckFailedException => claimExisting env input deliveryToken now
  | .error e => pure (.error (.aws e))

def markEnqueued (eventId deliveryToken : String) : Webhook ι (Except AwsError Unit) := do
  let now ← Aws.now
  Aws.markEnqueued eventId deliveryToken now

-- ---------------------------------------------------------------------------
-- The queue
-- ---------------------------------------------------------------------------

def subscriptionMessageGroup (subscriptionId : String) : String :=
  "subscription-" ++ env.sha256Hex (utf8Bytes subscriptionId)

def queueMessageOf (event : OrderEvent) : QueueMessage where
  event
  messageDeduplicationId := event.eventId
  messageGroupId := subscriptionMessageGroup env event.subscriptionId

/-- `false` is what is thrown: no subscription, or a failed send. -/
def enqueue (delivery : ι) (deliveryToken : String) (event : OrderEvent) : Webhook ι Bool := do
  if event.subscriptionId = "" then pure false
  else
    match ← Aws.sendMessage delivery deliveryToken (queueMessageOf env event) with
    | .ok _ => pure true
    | .error _ => pure false

-- ---------------------------------------------------------------------------
-- The handler
-- ---------------------------------------------------------------------------

/-- The verified event, or the response without one. A second secret is tried,
as the first may have been rotated. -/
def verifiedEvent (rawBody : List UInt8) (signature : String) :
    Webhook ι (Except WebhookResponse StripeEvent) := do
  match ← Aws.getSecret with
  | none => pure (.error (response 500 [("error", .string "secret_unavailable")]))
  | some secret =>
    match ← Aws.constructEvent rawBody signature secret with
    | some event => pure (.ok event)
    | none =>
      Aws.clearSecret
      match ← Aws.getSecret with
      | none => pure (.error (response 500 [("error", .string "secret_unavailable")]))
      | some secret =>
        match ← Aws.constructEvent rawBody signature secret with
        | some event => pure (.ok event)
        | none => pure (.error (response 400 [("error", .string "invalid_signature")]))

def deliver (delivery : ι) (deliveryToken : String) (event : OrderEvent) :
    Webhook ι WebhookResponse := do
  if !(← enqueue env delivery deliveryToken event) then
    pure (response 500 [("error", .string "queue_unavailable")])
  else
    match ← markEnqueued event.eventId deliveryToken with
    | .error _ => pure (response 500 [("error", .string "event_store_unavailable")])
    | .ok _ => pure (response 200 [("received", .boolean true)])

def claimInput (event : StripeEvent) (payloadDigest : String) : EventClaimInput where
  eventId := event.id
  eventType := event.type
  eventCreated := event.created
  payloadDigest
  subscriptionId :=
    match normalizeStripeEvent event payloadDigest with
    | .ignored _ _ subscriptionId => subscriptionId
    | .accepted event => some event.subscriptionId
  shouldEnqueue :=
    match normalizeStripeEvent event payloadDigest with
    | .ignored .. => false
    | .accepted _ => true

def handleEvent (delivery : ι) (event : StripeEvent) (payloadDigest : String) :
    Webhook ι WebhookResponse := do
  match ← claimEvent env delivery (claimInput event payloadDigest) with
  | .error _ => pure (response 500 [("error", .string "event_store_unavailable")])
  | .ok .ignored => pure (response 200 [("received", .boolean true), ("ignored", .boolean true)])
  | .ok .duplicate =>
    pure (response 200 [("received", .boolean true), ("duplicate", .boolean true)])
  | .ok .«in-flight» => pure (response 500 [("error", .string "event_delivery_in_progress")])
  | .ok (.deliver deliveryToken) =>
    match normalizeStripeEvent event payloadDigest with
    | .ignored .. => pure (response 500 [("error", .string "event_store_inconsistent")])
    | .accepted event => deliver env delivery deliveryToken event

def webhookHandler (delivery : ι) (request : WebhookRequest) : Webhook ι WebhookResponse := do
  match rawBodyFrom request, header request.headers "stripe-signature" with
  | some rawBody, some signature =>
    if signature = "" then pure (response 400 [("error", .string "invalid_webhook")])
    else
      match ← verifiedEvent rawBody signature with
      | .error r => pure r
      | .ok event => handleEvent env delivery event (env.sha256Hex rawBody)
  | _, _ => pure (response 400 [("error", .string "invalid_webhook")])

end

end EsigSuite.Provisioning
