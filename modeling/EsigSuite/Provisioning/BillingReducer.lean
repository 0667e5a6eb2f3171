import EsigSuite.Provisioning.Domain
import Mathlib.Algebra.GroupWithZero.Nat
import Mathlib.Algebra.Ring.Int.Defs
import Mathlib.Data.Prod.Lex

/-!
# The order reducer

`reduceBillingEvent` of `state-machine.ts`. Event ids are compared with
`localeCompare`, of which only a strict total order is used.
-/

namespace EsigSuite.Provisioning

/-- `String.prototype.localeCompare`, taken as a strict total order. -/
structure Collation where
  localeCompare : String → String → Int
  eq_of_zero : localeCompare a b = 0 → a = b
  self_zero : localeCompare a a = 0
  swap : 0 < localeCompare a b → localeCompare b a < 0
  swap' : localeCompare a b < 0 → 0 < localeCompare b a
  trans : 0 < localeCompare a b → 0 < localeCompare b d → 0 < localeCompare a d

inductive BillingReductionDisposition
  | ignored
  | created
  | applied
  | stale
  | stale_metadata_filled
  | terminal_preserved
  deriving DecidableEq

structure BillingReduction where
  disposition : BillingReductionDisposition
  order : Option OrderRecord
  deriving DecidableEq

def STATE_PRECEDENCE : BillingState → Nat
  | .pending => 1
  | .active => 2
  | .past_due => 3
  | .canceled => 4
  | .refunded => 5

def desiredBillingState (event : OrderEvent) : BillingState :=
  match event.type with
  | .checkoutSessionCompleted => .pending
  | .invoicePaid => .active
  | .invoicePaymentFailed => .past_due
  | .subscriptionCreated state | .subscriptionUpdated state => state
  | .subscriptionDeleted => .canceled
  | .chargeRefunded => .refunded

/-- `/^[a-f0-9]{64}$/` -/
def isDigest (text : String) : Bool :=
  text.toList.length == 64 &&
    text.toList.all fun c => ('a' ≤ c && c ≤ 'f') || ('0' ≤ c && c ≤ '9')

/-- `validateEvent` does not throw. -/
def NormalizedStripeEvent.valid (event : NormalizedStripeEvent) : Bool :=
  event.base.eventId ≠ "" && event.base.createdAt < 2 ^ 53 && 0 ≤ event.base.createdAt &&
    isDigest event.base.payloadDigest &&
    match event with
    | .ignored .. => true
    | .accepted event => event.subscriptionId ≠ ""

variable (c : Collation)

def compareCursor (left right : EventCursor) : Int :=
  if left.createdAt ≠ right.createdAt then left.createdAt - right.createdAt
  else if left.precedence ≠ right.precedence then (left.precedence - right.precedence : Int)
  else c.localeCompare left.eventId right.eventId

def eventCursor (event : OrderEvent) (state : BillingState) : EventCursor where
  createdAt := event.createdAt
  precedence := STATE_PRECEDENCE state
  eventId := event.eventId

def isLatestAcceptedEvent (current : OrderRecord) (event : OrderEvent) : Bool :=
  event.createdAt > current.latestEventCreatedAt ||
    (event.createdAt == current.latestEventCreatedAt &&
      c.localeCompare event.eventId current.latestEventId > 0)

def mergeMetadata (current : OrderRecord) (event : OrderEvent) (mayReplacePlan : Bool) :
    NormalizedOrderMetadata where
  customerId := current.customerId.or event.customerId
  ownerSubject := current.ownerSubject.or event.ownerSubject
  mode := current.mode.or event.mode
  plan :=
    if mayReplacePlan && event.plan.isSome then event.plan else current.plan.or event.plan

def metadataWasFilled (current next : OrderRecord) : Bool :=
  (current.customerId.isNone && next.customerId.isSome) ||
    (current.ownerSubject.isNone && next.ownerSubject.isSome) ||
    (current.mode.isNone && next.mode.isSome) || (current.plan.isNone && next.plan.isSome)

def BillingState.terminal (state : BillingState) : Bool :=
  state == .canceled || state == .refunded

/-- The new `billingState` and `stateCursor`, and `terminalPreserved`. -/
def reduceState (current : OrderRecord) (event : OrderEvent) :
    BillingState × EventCursor × Bool :=
  let desired := desiredBillingState event
  let cursor := eventCursor event desired
  if current.billingState = .refunded then
    (current.billingState, current.stateCursor, desired ≠ .refunded)
  else if desired = .refunded then (.refunded, cursor, false)
  else if current.billingState = .canceled then
    (current.billingState, current.stateCursor, desired ≠ .canceled)
  else if desired = .canceled then (.canceled, cursor, false)
  else if compareCursor c cursor current.stateCursor > 0 then (desired, cursor, false)
  else (current.billingState, current.stateCursor, false)

/-- The order of the branch without a current order. -/
def createOrder (event : OrderEvent) : OrderRecord where
  version := 0
  subscriptionId := event.subscriptionId
  toNormalizedOrderMetadata := event.toNormalizedOrderMetadata
  billingState := desiredBillingState event
  latestEventCreatedAt := event.createdAt
  latestEventId := event.eventId
  stateCursor := eventCursor event (desiredBillingState event)

/-- `next`. -/
def nextOrder (current : OrderRecord) (event : OrderEvent) : OrderRecord :=
  let acceptedIsLatest := isLatestAcceptedEvent c current event
  let (billingState, stateCursor, _) := reduceState c current event
  { current with
    toNormalizedOrderMetadata := mergeMetadata current event
      (acceptedIsLatest && !current.billingState.terminal && !(desiredBillingState event).terminal)
    billingState
    stateCursor
    latestEventCreatedAt :=
      if acceptedIsLatest then event.createdAt else current.latestEventCreatedAt
    latestEventId := if acceptedIsLatest then event.eventId else current.latestEventId }

def nextDisposition (current : OrderRecord) (event : OrderEvent) : BillingReductionDisposition :=
  let acceptedIsLatest := isLatestAcceptedEvent c current event
  let cursor := eventCursor event (desiredBillingState event)
  if (reduceState c current event).2.2 then .terminal_preserved
  else if !acceptedIsLatest && metadataWasFilled current (nextOrder c current event) then
    .stale_metadata_filled
  else if !acceptedIsLatest && compareCursor c cursor current.stateCursor ≤ 0 then .stale
  else .applied

def reduceBillingEvent (current : Option OrderRecord) (event : NormalizedStripeEvent) :
    Except SafeErrorCode BillingReduction :=
  if !event.valid then .error .INVALID_EVENT
  else
    match event with
    | .ignored .. => .ok ⟨.ignored, current⟩
    | .accepted event =>
      match current with
      | none => .ok ⟨.created, some (createOrder event)⟩
      | some current =>
        if current.subscriptionId ≠ event.subscriptionId then .error .INVALID_EVENT
        else .ok ⟨nextDisposition c current event, some (nextOrder c current event)⟩

/-- Events reduced one after the other, from nothing. -/
def reduceAll (events : List NormalizedStripeEvent) : Except SafeErrorCode (Option OrderRecord) :=
  events.foldlM (fun current event => BillingReduction.order <$> reduceBillingEvent c current event)
    none

-- ---------------------------------------------------------------------------
-- Valid events of one subscription
-- ---------------------------------------------------------------------------

def acceptedEvents (events : List NormalizedStripeEvent) : List OrderEvent :=
  events.filterMap fun
    | .ignored .. => none
    | .accepted event => some event

theorem mem_acceptedEvents : e ∈ acceptedEvents events ↔ .accepted e ∈ events := by
  simp only [acceptedEvents, List.mem_filterMap]
  constructor
  · rintro ⟨e', he', h⟩
    cases e' with
    | ignored => cases h
    | accepted e' => cases h; exact he'
  · intro h
    exact ⟨_, h, rfl⟩

/-- One accepted event, on the order it finds. -/
def acceptEvent (current : Option OrderRecord) (event : OrderEvent) : Option OrderRecord :=
  match current with
  | none => some (createOrder event)
  | some current => some (nextOrder c current event)

/-- Events that may arrive for one subscription. -/
structure OneSubscription (subscriptionId : String) (events : List NormalizedStripeEvent) :
    Prop where
  valid : ∀ e ∈ events, e.valid = true
  same : ∀ e, .accepted e ∈ events → e.subscriptionId = subscriptionId

theorem OneSubscription.subset (h : OneSubscription s events) (hsub : ∀ e ∈ events', e ∈ events) :
    OneSubscription s events' where
  valid e he := h.valid e (hsub e he)
  same e he := h.same e (hsub _ he)

theorem OneSubscription.tail (h : OneSubscription s (e :: rest)) : OneSubscription s rest :=
  h.subset fun _ => List.mem_cons_of_mem _

@[simp] theorem nextOrder_billingState (o : OrderRecord) (e : OrderEvent) :
    (nextOrder c o e).billingState = (reduceState c o e).1 := rfl

@[simp] theorem nextOrder_stateCursor (o : OrderRecord) (e : OrderEvent) :
    (nextOrder c o e).stateCursor = (reduceState c o e).2.1 := rfl

/-- State and cursor move together, or not at all. -/
theorem reduceState_cases (o : OrderRecord) (e : OrderEvent) :
    (reduceState c o e).1 = o.billingState ∧ (reduceState c o e).2.1 = o.stateCursor ∨
      (reduceState c o e).1 = desiredBillingState e ∧
        (reduceState c o e).2.1 = eventCursor e (desiredBillingState e) := by
  unfold reduceState
  dsimp only
  split
  · exact .inl ⟨rfl, rfl⟩
  split
  next h => exact .inr ⟨h.symm, rfl⟩
  split
  · exact .inl ⟨rfl, rfl⟩
  split
  next h => exact .inr ⟨h.symm, rfl⟩
  split
  · exact .inr ⟨rfl, rfl⟩
  · exact .inl ⟨rfl, rfl⟩

/-- A valid event of the subscription never throws. -/
theorem reduceBillingEvent_accepted (hvalid : NormalizedStripeEvent.valid (.accepted e) = true)
    (hsame : ∀ o, current = some o → o.subscriptionId = e.subscriptionId) :
    BillingReduction.order <$> reduceBillingEvent c current (.accepted e) =
      .ok (acceptEvent c current e) := by
  cases current with
  | none => simp [reduceBillingEvent, hvalid, acceptEvent]
  | some o => simp [reduceBillingEvent, hvalid, hsame o rfl, acceptEvent]

theorem acceptEvent_subscriptionId (he : e.subscriptionId = s)
    (hcurrent : ∀ o, current = some o → o.subscriptionId = s) :
    ∀ o, acceptEvent c current e = some o → o.subscriptionId = s := by
  intro o ho
  cases current with
  | none => cases ho; exact he
  | some current => cases ho; exact hcurrent current rfl

theorem foldlM_reduce (h : OneSubscription s events)
    (hcurrent : ∀ o, current = some o → o.subscriptionId = s) :
    events.foldlM (fun current event =>
        BillingReduction.order <$> reduceBillingEvent c current event) current =
      .ok ((acceptedEvents events).foldl (acceptEvent c) current) := by
  induction events generalizing current with
  | nil => rfl
  | cons e rest ih =>
    rw [List.foldlM_cons]
    cases e with
    | ignored base originalType subscriptionId =>
      have hvalid := h.valid _ List.mem_cons_self
      have hstep : BillingReduction.order <$> reduceBillingEvent c current
          (.ignored base originalType subscriptionId) = .ok current := by
        simp [reduceBillingEvent, hvalid]
      rw [hstep]
      exact ih h.tail hcurrent
    | accepted e =>
      have he := h.same e List.mem_cons_self
      rw [reduceBillingEvent_accepted c (h.valid _ List.mem_cons_self)
        (fun o ho => (hcurrent o ho).trans he.symm)]
      exact ih h.tail (acceptEvent_subscriptionId c he hcurrent)

/-- Reducing never fails, and an ignored event changes nothing. -/
theorem reduceAll_eq (h : OneSubscription s events) :
    reduceAll c events = .ok ((acceptedEvents events).foldl (acceptEvent c) none) :=
  foldlM_reduce c h (fun _ ho => by cases ho)

end EsigSuite.Provisioning
