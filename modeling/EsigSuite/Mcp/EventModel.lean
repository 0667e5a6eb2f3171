import EsigSuite.Mcp.Sealing

/-!
# Events, links and reminders on an envelope

The parts of `metadata.mcp` that `events/log.ts`, `events/expiry.ts`,
`reminders.ts` and the link bookkeeping of `envelopes.ts` keep, with their pure
functions. ISO timestamps are the times they stand for.
-/

namespace EsigSuite

structure EsigEventSigner where
  signerId : String
  name : String
  email : String
  status : EnvelopeSignerStatus
  deriving DecidableEq

/-- The `data` of the twelve types. -/
inductive EventData
  | none
  | created (signerCount : Nat) (delivery : String)
  | declined (hasReason : Bool)
  | rejected (reason : String) (level : IdentityLevel)
  | verified (level : IdentityLevel)
  | sealed (pqSealed : Bool)
  | seal_failed (attempts : Nat)
  | reminded (ok : Bool)
  deriving DecidableEq

structure EsigEventInput where
  type : EventType
  envelopeId : String
  phase : EnvelopePhase
  signer : Option EsigEventSigner := none
  data : EventData := .none
  deriving DecidableEq

structure EsigEvent extends EsigEventInput where
  id : String
  createdAt : Time
  deriving DecidableEq

structure SignerReminderState where
  sentAt : List Time := []
  manualSentAt : List Time := []
  nextAt : Option Time := none
  deriving DecidableEq

/-- `Record<string, SignerReminderState>` is a function to options. A stored
link is an encrypted text under its signer's id. -/
structure McpDelivery where
  links : List (String × String) := []
  reminders : String → Option SignerReminderState := fun _ => none

/-- What this part of the service keeps under `metadata.mcp`. -/
structure Bookkeeping where
  message : Option String := none
  delivery : McpDelivery := {}
  viewed : String → Option Time := fun _ => none
  events : List EsigEvent := []
  expiredEmittedAt : Option Time := none
  pillarUnregisteredSignerIds : List String := []

instance : Inhabited Bookkeeping := ⟨{}⟩

inductive ReminderKind
  | scheduled
  | manual
  deriving DecidableEq

structure DeliveryLink where
  signerId : String
  name : String
  email : String
  url : String

/-- What `deliver` is told of the envelope. -/
structure DeliveryEnvelope where
  id : String
  title : String
  message : Option String
  expiresAt : Option Time

structure Receipt where
  signerId : String
  channel : String
  ok : Bool
  detail : Option String := none
  messageId : Option String := none

inductive QueueStatus
  | pending
  | dead
  deriving DecidableEq

structure QueueFile where
  event : EsigEvent
  attempts : Nat
  nextAt : Time
  status : QueueStatus
  deriving DecidableEq

namespace Mcp

abbrev McpEnvelope := ServiceEnvelope Bookkeeping

def bookOf (e : McpEnvelope) : Bookkeeping := (Service.sealMeta e).other

def withBook (e : McpEnvelope) (book : Bookkeeping) : McpEnvelope :=
  Service.withSealMeta e { Service.sealMeta e with other := book }

def derivePhase (e : McpEnvelope) : EnvelopePhase := Service.derivePhase e

@[simp] theorem bookOf_withBook (e : McpEnvelope) (book : Bookkeeping) :
    bookOf (withBook e book) = book := rfl

@[simp] theorem withBook_id (e : McpEnvelope) (book : Bookkeeping) : (withBook e book).id = e.id :=
  rfl

@[simp] theorem withBook_status (e : McpEnvelope) (book : Bookkeeping) :
    (withBook e book).status = e.status := rfl

@[simp] theorem withBook_signers (e : McpEnvelope) (book : Bookkeeping) :
    (withBook e book).signers = e.signers := rfl

-- ---------------------------------------------------------------------------
-- events/log.ts
-- ---------------------------------------------------------------------------

@[irreducible] def MAX_EVENTS : Nat := 200

def eventsOf (e : McpEnvelope) : List EsigEvent := (bookOf e).events

def setEvents (e : McpEnvelope) (events : List EsigEvent) : McpEnvelope :=
  withBook e { bookOf e with events }

@[simp] theorem eventsOf_setEvents (e : McpEnvelope) (events : List EsigEvent) :
    eventsOf (setEvents e events) = events := rfl

/-- The envelope with the event, and what was trimmed off. -/
def appendEventInMemory (e : McpEnvelope) (event : EsigEvent) : McpEnvelope × List EsigEvent :=
  let next := eventsOf e ++ [event]
  (setEvents e (next.drop (next.length - MAX_EVENTS)), next.take (next.length - MAX_EVENTS))

-- ---------------------------------------------------------------------------
-- events/expiry.ts
-- ---------------------------------------------------------------------------

def expiredEmittedAt (e : McpEnvelope) : Option Time := (bookOf e).expiredEmittedAt

def markExpiredEmitted (e : McpEnvelope) (now : Time) : McpEnvelope :=
  withBook e { bookOf e with expiredEmittedAt := some now }

def isPastExpiry (e : McpEnvelope) (now : Time) : Bool := e.expiresAt.any (· ≤ now)

/-- `candidate` of the expiry tick. -/
def expiryCandidate (e : McpEnvelope) (now : Time) : Bool :=
  (e.live && isPastExpiry e now) || (e.status == .expired && expiredEmittedAt e == none)

-- ---------------------------------------------------------------------------
-- Stored links
-- ---------------------------------------------------------------------------

def linksOf (e : McpEnvelope) : List (String × String) := (bookOf e).delivery.links

def withLinks (e : McpEnvelope) (links : List (String × String)) : McpEnvelope :=
  withBook e { bookOf e with delivery := { (bookOf e).delivery with links } }

def linkOf (e : McpEnvelope) (signerId : String) : Option String :=
  ((linksOf e).find? (·.1 == signerId)).map (·.2)

/-- The link of one signer, or every link. -/
def eraseStoredLinks (e : McpEnvelope) : Option String → McpEnvelope
  | none => withLinks e []
  | some signerId => withLinks e ((linksOf e).filter (·.1 != signerId))

-- ---------------------------------------------------------------------------
-- reminders.ts
-- ---------------------------------------------------------------------------

def reminderStateOf (e : McpEnvelope) (signerId : String) : Option SignerReminderState :=
  (bookOf e).delivery.reminders signerId

def withReminderState (e : McpEnvelope) (signerId : String) (state : SignerReminderState) :
    McpEnvelope :=
  withBook e
    { bookOf e with
      delivery := { (bookOf e).delivery with
        reminders := Function.update (bookOf e).delivery.reminders signerId (some state) } }

/-- The sends of a signer, none where nothing is recorded. -/
def sentOfSigner (e : McpEnvelope) (signerId : String) : SignerReminderState :=
  (reminderStateOf e signerId).getD {}

structure ReminderDueEntry where
  signerId : String
  index : Nat
  deriving DecidableEq

def computeDue (e : McpEnvelope) (now : Time) (scheduleMs : List Int) (max : Nat) :
    List ReminderDueEntry :=
  if scheduleMs = [] then []
  else if e.status = .voided ∨ e.status = .expired ∨ e.status = .completed then []
  else
    e.signers.filterMap fun signer =>
      let sent := (reminderStateOf e signer.id).getD {}
      if signer.status ≠ .pending then none
      else if sent.sentAt.length ≥ scheduleMs.length then none
      else if sent.sentAt.length + sent.manualSentAt.length ≥ max then none
      else if now ≥ e.createdAt + scheduleMs.getD sent.sentAt.length 0 then
        some ⟨signer.id, sent.sentAt.length⟩
      else none

def reminderNextAt (scheduleMs : List Int) (max : Nat) (createdAt : Time) (scheduledCount : Nat) :
    Option Time :=
  if scheduledCount < min max scheduleMs.length then
    some (createdAt + scheduleMs.getD scheduledCount 0)
  else none

/-- What an event says of a signer. -/
def eventSigner (s : EnvelopeSigner) : EsigEventSigner := ⟨s.id, s.name, s.email, s.status⟩

def signerById (e : McpEnvelope) (signerId : String) : Option EnvelopeSigner :=
  e.signers.find? (·.id == signerId)

end Mcp

end EsigSuite
