import EsigSuite.Provisioning.Webhook

/-!
# Runs of the webhook

Any number of deliveries handled at once. What a delivery may rely on is that
the others keep the digest of every record and never send in its name. What it
keeps is that a record is marked only once its message is in the queue, and
that the leases of an event follow one another.
-/

namespace EsigSuite.Provisioning

open Lib
open Lib.Protocol (Holds stable_const)

section
variable {ι : Type} (env : WebhookEnvironment) (requests : ι → WebhookRequest)

def normalized (rawBody : List UInt8) : NormalizedStripeEvent :=
  normalizeStripeEvent (env.parse rawBody) (env.sha256Hex rawBody)

/-- The message of an event was sent. -/
def Enqueued (event : OrderEvent) (w : WebhookWorld ι) : Prop :=
  ∃ sent ∈ w.queue, sent.message.event = event

/-- What the status of a record says about the body it was claimed for. -/
def StatusTrue (w : WebhookWorld ι) (event : NormalizedStripeEvent) : DeliveryStatus → Prop
  | .pending => True
  | .ignored => ∀ e, event ≠ .accepted e
  | .enqueued => ∀ e, event = .accepted e → Enqueued e w

/-- The record was made for one of the deliveries. -/
def Recorded (w : WebhookWorld ι) (item : EventLedgerItem) : Prop :=
  ∃ i rawBody, rawBodyFrom (requests i) = some rawBody ∧
    item.eventId = (env.parse rawBody).id ∧ item.payloadDigest = env.sha256Hex rawBody ∧
      StatusTrue w (normalized env rawBody) item.deliveryStatus

/-- A pending record bears the lease that ends last. -/
def LastLease (w : WebhookWorld ι) (item : EventLedgerItem) : Prop :=
  item.deliveryStatus = .pending → ∃ expiresAt, item.deliveryLeaseExpiresAt = some expiresAt ∧
    ∀ lease ∈ w.leases, lease.eventId = item.eventId → lease.expiresAt ≤ expiresAt

/-- A lease starts when the earlier ones of its event have expired. -/
def DeliveryLease.Before (a b : DeliveryLease) : Prop :=
  a.eventId = b.eventId → a.expiresAt ≤ b.claimedAt

/-- The lease of a delivery token. -/
def Leased (eventId deliveryToken : String) (w : WebhookWorld ι) : Prop :=
  ∃ lease ∈ w.leases, lease.eventId = eventId ∧ lease.deliveryToken = deliveryToken

structure WebhookInv (w : WebhookWorld ι) : Prop where
  keyed : ∀ eventId item, w.ledger eventId = some item → item.eventId = eventId
  recorded : ∀ eventId item, w.ledger eventId = some item → Recorded env requests w item
  lastLease : ∀ eventId item, w.ledger eventId = some item → LastLease w item
  leased : ∀ lease ∈ w.leases, w.ledger lease.eventId ≠ none
  successive : w.leases.Pairwise DeliveryLease.Before
  senders : w.queue.Pairwise fun a b => a.delivery ≠ b.delivery
  drawn : ∀ sent ∈ w.queue, w.tokens sent.deliveryToken = some sent.delivery
  sentUnderLease : ∀ sent ∈ w.queue, Leased sent.message.event.eventId sent.deliveryToken w

-- ---------------------------------------------------------------------------
-- The protocol
-- ---------------------------------------------------------------------------

/-- What any delivery does. -/
structure WebhookMoved (w w' : WebhookWorld ι) : Prop where
  digest : ∀ eventId item, w.ledger eventId = some item →
    ∃ item', w'.ledger eventId = some item' ∧ item'.payloadDigest = item.payloadDigest
  queue : ∀ sent ∈ w.queue, sent ∈ w'.queue
  leases : ∀ lease ∈ w.leases, lease ∈ w'.leases
  tokens : ∀ token delivery, w.tokens token = some delivery → w'.tokens token = some delivery

/-- A record of the same event bears another digest. -/
def Conflicts (request : WebhookRequest) (w : WebhookWorld ι) : Prop :=
  ∃ rawBody item, rawBodyFrom request = some rawBody ∧
    w.ledger (env.parse rawBody).id = some item ∧ item.payloadDigest ≠ env.sha256Hex rawBody

/-- The delivery `i` sends in its own name, and never against the digest on
record. -/
structure WebhookStep (i : ι) (w w' : WebhookWorld ι) : Prop extends WebhookMoved w w' where
  own : ∀ sent ∈ w'.queue, sent ∈ w.queue ∨ sent.delivery = i
  refused : Conflicts env (requests i) w → w'.ledger = w.ledger ∧ w'.queue = w.queue

variable {env requests} {w w' : WebhookWorld ι}

theorem WebhookMoved.refl (w : WebhookWorld ι) : WebhookMoved w w where
  digest _ item h := ⟨item, h, rfl⟩
  queue _ h := h
  leases _ h := h
  tokens _ _ h := h

theorem WebhookStep.refl (i : ι) (w : WebhookWorld ι) : WebhookStep env requests i w w where
  toWebhookMoved := .refl w
  own _ h := .inl h
  refused _ := ⟨rfl, rfl⟩

-- ---------------------------------------------------------------------------
-- What lasts
-- ---------------------------------------------------------------------------

theorem WebhookMoved.leased (h : WebhookMoved w w') (hl : Leased eventId token w) :
    Leased eventId token w' := by
  obtain ⟨lease, hlease, hid, htoken⟩ := hl
  exact ⟨lease, h.leases lease hlease, hid, htoken⟩

theorem WebhookMoved.enqueued (h : WebhookMoved w w') (he : Enqueued event w) :
    Enqueued event w' := by
  obtain ⟨sent, hsent, hevent⟩ := he
  exact ⟨sent, h.queue sent hsent, hevent⟩

section
variable [DecidableEq ι] {i : ι}

end

-- ---------------------------------------------------------------------------
-- The effects
-- ---------------------------------------------------------------------------

theorem StatusTrue.moved (h : WebhookMoved w w') (hs : StatusTrue w event status) :
    StatusTrue w' event status := by
  cases status with
  | pending => trivial
  | ignored => exact hs
  | enqueued => exact fun e he => h.enqueued (hs e he)

theorem Recorded.moved (h : WebhookMoved w w') (hr : Recorded env requests w item) :
    Recorded env requests w' item := by
  obtain ⟨i, rawBody, hraw, hid, hdigest, hstatus⟩ := hr
  exact ⟨i, rawBody, hraw, hid, hdigest, hstatus.moved h⟩

theorem setItem_ledger (w : WebhookWorld ι) (item : EventLedgerItem) (eventId : String) :
    (w.setItem item).ledger eventId = if eventId = item.eventId then some item else w.ledger eventId :=
  Function.update_apply _ _ _ _

/-- The lease that is given with a record: it starts after the leases of the
event, and ends with the record's. -/
structure LeaseGiven (w : WebhookWorld ι) (item : EventLedgerItem) (lease : DeliveryLease) :
    Prop where
  eventId : lease.eventId = item.eventId
  expiresAt : item.deliveryLeaseExpiresAt = some lease.expiresAt
  ordered : lease.claimedAt ≤ lease.expiresAt
  after : ∀ old ∈ w.leases, old.eventId = item.eventId → old.expiresAt ≤ lease.claimedAt

theorem WebhookInv.setItem {lease : Option DeliveryLease} (h : WebhookInv env requests w)
    (hmoved : WebhookMoved w ((w.setItem item).logLease lease))
    (hrecorded : Recorded env requests w item) (hlease : ∀ l ∈ lease, LeaseGiven w item l)
    (hpending : item.deliveryStatus = .pending → lease ≠ none) :
    WebhookInv env requests ((w.setItem item).logLease lease) where
  keyed eventId stored hstored := by
    change (w.setItem item).ledger eventId = _ at hstored
    rw [setItem_ledger] at hstored
    split at hstored
    · cases hstored; exact Eq.symm ‹_›
    · exact h.keyed eventId stored hstored
  recorded eventId stored hstored := by
    change (w.setItem item).ledger eventId = _ at hstored
    rw [setItem_ledger] at hstored
    split at hstored
    · cases hstored; exact hrecorded.moved hmoved
    · exact (h.recorded eventId stored hstored).moved hmoved
  lastLease eventId stored hstored hstatus := by
    change (w.setItem item).ledger eventId = _ at hstored
    rw [setItem_ledger] at hstored
    split at hstored
    · cases hstored
      obtain ⟨l, rfl⟩ := Option.ne_none_iff_exists'.mp (hpending hstatus)
      have hgiven := hlease l rfl
      refine ⟨l.expiresAt, hgiven.expiresAt, fun old hold hid => ?_⟩
      rcases List.mem_append.mp hold with hold | hnew
      · exact Int.le_trans (hgiven.after old hold hid) hgiven.ordered
      · cases List.mem_singleton.mp hnew
        exact Int.le_refl _
    · rename_i hne
      obtain ⟨expiresAt, hexpires, hlast⟩ := h.lastLease eventId stored hstored hstatus
      refine ⟨expiresAt, hexpires, fun old hold hid => ?_⟩
      rcases List.mem_append.mp hold with hold | hnew
      · exact hlast old hold hid
      · have hgiven := hlease old (Option.mem_toList.mp hnew)
        rw [hgiven.eventId, h.keyed eventId stored hstored] at hid
        exact absurd hid.symm hne
  leased old hold := by
    change (w.setItem item).ledger old.eventId ≠ none
    rw [setItem_ledger]
    split
    · nofun
    · rename_i hne
      rcases List.mem_append.mp hold with hold | hnew
      · exact h.leased old hold
      · exact absurd (hlease old (Option.mem_toList.mp hnew)).eventId hne
  successive := by
    refine List.pairwise_append.mpr ⟨h.successive, ?_, ?_⟩
    · cases lease <;> simp
    · intro old hold new hnew hid
      have hgiven := hlease new (Option.mem_toList.mp hnew)
      exact hgiven.after old hold (hid.trans hgiven.eventId)
  senders := h.senders
  drawn := h.drawn
  sentUnderLease sent hsent := hmoved.leased (h.sentUnderLease sent hsent)

variable (env requests) in
/-- What the delivery `i` may do to the world in one call. -/
def Allowed (i : ι) (w w' : WebhookWorld ι) : Prop :=
  WebhookInv env requests w' ∧ WebhookStep env requests i w w'

section
variable {rawBody : List UInt8} {i : ι}

end

-- ---------------------------------------------------------------------------
-- The calls of a delivery
-- ---------------------------------------------------------------------------

section
variable [DecidableEq ι] {i : ι} {P R Q : WebhookWorld ι → Prop}

omit [DecidableEq ι] in
/-- A write whose effect is allowed. -/
theorem WebhookWorld.Written.spec {next : Option (WebhookWorld ι)} {r : Except AwsError Unit}
    (h : w.Written next r w') (hinv : WebhookInv env requests w) (hR : R w)
    (hnext : ∀ v, next = some v → Allowed env requests i w v ∧ R v ∧ Q v) :
    WebhookInv env requests w' ∧ WebhookStep env requests i w w' ∧ R w' ∧ (r = .ok () → Q w') := by
  rcases h with ⟨v, hv, rfl, -⟩ | ⟨rfl, hr⟩
  · obtain ⟨hallowed, hRv, hQv⟩ := hnext w' hv
    exact ⟨hallowed.1, hallowed.2, hRv, fun _ => hQv⟩
  · refine ⟨hinv, WebhookStep.refl i w', hR, fun hok => ?_⟩
    rcases hr with ⟨-, rfl⟩ | rfl <;> cases hok

variable {rawBody : List UInt8}

def WebhookResponse.success (r : WebhookResponse) : Bool := r.statusCode / 100 == 2

/-- An accepted event is answered with success once its message is sent. -/
def Answered (env : WebhookEnvironment) (rawBody : List UInt8) (r : WebhookResponse)
    (w : WebhookWorld ι) : Prop :=
  r.success = true → ∀ e, normalized env rawBody = .accepted e → Enqueued e w

end

-- ---------------------------------------------------------------------------
-- Every interleaving
-- ---------------------------------------------------------------------------

end

-- ---------------------------------------------------------------------------
-- One delivery
-- ---------------------------------------------------------------------------

section
variable {ι : Type} [DecidableEq ι] {env : WebhookEnvironment} {w : WebhookWorld ι}

omit [DecidableEq ι] in
theorem WebhookWorld.Written.done {v : WebhookWorld ι} {next : Option (WebhookWorld ι)}
    (h : next = some v) : w.Written next (.ok ()) v :=
  .inl ⟨v, h, rfl, .inl rfl⟩

theorem put_eval (hnew : w.ledger item.eventId = none) :
    (Aws.put item).Eval (WebhookOp.exec env) w (.ok ()) (w.putItem item) := by
  have hput : (if (w.ledger item.eventId).isNone then some (w.putItem item) else none) = _ :=
    if_pos (Option.isNone_iff_eq_none.mpr hnew)
  exact ⟨(.ok () : Except AwsError Unit), w.putItem item, .done hput, rfl, rfl⟩

theorem sendMessage_eval (i : ι) (token : String) (message : QueueMessage) :
    (Aws.sendMessage i token message).Eval (WebhookOp.exec env) w (.ok ())
      (w.send ⟨i, token, message⟩) :=
  ⟨(.ok () : Except AwsError Unit), _, .done rfl, rfl, rfl⟩

theorem markEnqueued_eval (hitem : w.ledger eventId = some item) (hheld : item.heldBy token = true)
    (now : Int) :
    (markEnqueued eventId token).Eval (WebhookOp.exec env) w (.ok ()) (w.markEnqueued item now) := by
  have hmark : ((w.ledger eventId).filter (·.heldBy token)).map
      (fun item => w.markEnqueued item now) = some (w.markEnqueued item now) := by
    simp [hitem, hheld]
  refine .bind (a := now) (t := w) (.perform rfl) ?_
  exact ⟨(.ok () : Except AwsError Unit), w.markEnqueued item now, .done hmark, rfl, rfl⟩

theorem claimEvent_eval {input : EventClaimInput} (hnew : w.ledger input.eventId = none)
    (hsend : input.shouldEnqueue = true) (hfresh : w.tokens token = none) (i : ι) (now : Int) :
    (claimEvent env i input).Eval (WebhookOp.exec env) w (.ok (.deliver token))
      (WebhookWorld.putItem { w with tokens := Function.update w.tokens token (some i) }
        (ledgerItem env input token now)) := by
  refine .bind (a := now) (t := w) (.perform rfl) ?_
  refine .bind (a := token) (.perform ⟨hfresh, rfl⟩) ?_
  refine .bind (put_eval hnew) ⟨?_, rfl⟩
  rw [hsend]
  rfl

variable (env) in
theorem deliver_eval {event : OrderEvent} (hsubscription : event.subscriptionId ≠ "")
    (hitem : w.ledger event.eventId = some item) (hheld : item.heldBy token = true) (i : ι)
    (now : Int) :
    (deliver env i token event).Eval (WebhookOp.exec env) w
      (response 200 [("received", .boolean true)])
      ((w.send ⟨i, token, queueMessageOf env event⟩).markEnqueued item now) := by
  have henqueue : (enqueue env i token event).Eval (WebhookOp.exec env) w true
      (w.send ⟨i, token, queueMessageOf env event⟩) := by
    unfold enqueue
    rw [if_neg hsubscription]
    exact .bind (sendMessage_eval i token _) ⟨rfl, rfl⟩
  refine .bind henqueue ?_
  exact .bind (markEnqueued_eval (w := w.send _) hitem hheld now) ⟨rfl, rfl⟩

variable (env) in
/-- A first delivery of an accepted event that nothing fails is answered with
success. -/
theorem handleEvent_eval {event : StripeEvent} {digest : String} {e : OrderEvent}
    (hnew : w.ledger event.id = none) (hfresh : w.tokens token = none)
    (hevent : normalizeStripeEvent event digest = .accepted e) (i : ι) (now : Int) :
    ∃ w', (handleEvent env i event digest).Eval (WebhookOp.exec env) w
      (response 200 [("received", .boolean true)]) w' := by
  have hinput : (claimInput event digest).shouldEnqueue = true := by
    simp [claimInput, hevent]
  have heventId : e.eventId = event.id := by
    have hbase := normalizeStripeEvent_base event digest
    rw [hevent] at hbase
    exact congrArg NormalizedStripeEventBase.eventId hbase
  let item := ledgerItem env (claimInput event digest) token now
  let claimed := WebhookWorld.putItem { w with tokens := Function.update w.tokens token (some i) } item
  have hitem : claimed.ledger e.eventId = some item := by
    rw [heventId]
    exact Function.update_self _ _ _
  have hheld : item.heldBy token = true := by
    simp [item, EventLedgerItem.heldBy, ledgerItem, hinput]
  have hdeliver := deliver_eval env (normalizeStripeEvent_subscriptionId hevent) hitem hheld
    i now
  refine ⟨(claimed.send ⟨i, token, queueMessageOf env e⟩).markEnqueued item now, ?_⟩
  refine .bind (claimEvent_eval hnew hinput hfresh i now) ?_
  dsimp only
  rw [hevent]
  exact hdeliver

end

namespace WebhookSample

def text : String :=
  "\x7b\"id\":\"evt_1\",\"type\":\"invoice.paid\",\"created\":1700000000,\"data\":\x7b\"object\":\x7b\"subscription\":\"sub_1\"\x7d\x7d\x7d"

def event : StripeEvent where
  id := "evt_1"
  type := "invoice.paid"
  created := 1700000000
  object := .object [("subscription", .string "sub_1")]

def digest : String := "059d8b5ac2f4e0ba606e9a4a3c433bf5d12d5d0cc4bbb45ae043b8f67279c3bf"

def env : WebhookEnvironment where
  parse _ := event
  sha256Hex bytes :=
    if bytes = utf8Bytes text then digest
    else "13a076fce7d175418cc5f004c44c106152903cf35ea51ec3c73a20ff6ffa02ec"
  leaseSeconds := 60

def request : WebhookRequest where
  headers := [("Stripe-Signature", some "t=1700000000,v1=00")]
  body := some text
  isBase64Encoded := false

def orderEvent : OrderEvent where
  eventId := "evt_1"
  createdAt := 1700000000
  payloadDigest := digest
  customerId := none
  ownerSubject := none
  mode := none
  plan := none
  subscriptionId := "sub_1"
  type := .invoicePaid

theorem rawBody : rawBodyFrom request = some (utf8Bytes text) := by
  simp [rawBodyFrom, request]

theorem digest_eq : env.sha256Hex (utf8Bytes text) = digest := by
  simp [env]

theorem signature : header request.headers "stripe-signature" = some "t=1700000000,v1=00" := by
  decide

/-- The delivery `i` alone. -/
theorem eval (i : Bool) : ∃ w, (webhookHandler env i request).Eval (WebhookOp.exec env)
    WebhookWorld.initial (response 200 [("received", .boolean true)]) w := by
  have hevent : normalizeStripeEvent event digest = .accepted orderEvent := rfl
  have hfresh : (WebhookWorld.initial : WebhookWorld Bool).tokens
      "00000000-0000-4000-8000-000000000000" = none := rfl
  obtain ⟨w, hw⟩ := handleEvent_eval env (w := WebhookWorld.initial) rfl hfresh hevent i 1700000001000
  refine ⟨w, ?_⟩
  unfold webhookHandler
  rw [rawBody, signature]
  have hverified : (verifiedEvent (utf8Bytes text) "t=1700000000,v1=00").Eval (WebhookOp.exec env)
      (WebhookWorld.initial (ι := Bool)) (.ok event) WebhookWorld.initial := by
    refine .bind (a := some "whsec_1") (t := WebhookWorld.initial) ⟨_, _, rfl, rfl, rfl⟩ ?_
    refine .bind (a := some event) (t := WebhookWorld.initial) ⟨_, _, ⟨rfl, ?_⟩, rfl, rfl⟩ ⟨rfl, rfl⟩
    intro e he
    exact (Option.some.inj he).symm
  refine .bind hverified ?_
  rw [digest_eq]
  exact hw

end WebhookSample

end EsigSuite.Provisioning
