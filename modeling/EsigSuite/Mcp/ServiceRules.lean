import EsigSuite.Mcp.ServiceCalls
import EsigSuite.Mcp.Tracks
import EsigSuite.Envelope.Changes

/-!
# What a call of the service writes and owes

`Rewrite` lists what any call makes of an envelope that it was given. `Duties`
follows one call: the event that it stored and has not enqueued, the links that
it has still to erase, the reminder that it holds a claim of, the nonce that it
drew.
-/

namespace EsigSuite.Mcp

open Lib
open EnvelopeFile (getRev setRev)

variable {ι : Type}

-- ---------------------------------------------------------------------------
-- Purposes
-- ---------------------------------------------------------------------------

namespace Purpose

/-- A write that comes with an event. -/
def notes : Purpose → Bool
  | .note | .erase _ => true
  | _ => false

def erases : Purpose → Bool
  | .erase _ => true
  | _ => false

/-- The last attempt to erase. -/
def erasesLast : Purpose → Bool
  | .erase 0 => true
  | _ => false

/-- Neither an event nor a reminder. -/
def bare : Purpose → Bool
  | .plain | .void | .seal | .sign _ => true
  | _ => false

/-- An edit of the envelope functions. -/
def changes : Purpose → Bool
  | .plain | .void | .sign _ => true
  | _ => false

def rollsBack : Purpose → Bool
  | .rollback .. => true
  | _ => false

def rollsBackLast : Purpose → Bool
  | .rollback _ _ _ 0 => true
  | _ => false

/-- There is no list to take a claim out of. -/
def strays (e : McpEnvelope) : Purpose → Bool
  | .rollback c .. => (reminderStateOf e c.signerId).isNone
  | _ => false

end Purpose

-- ---------------------------------------------------------------------------
-- Rewrites
-- ---------------------------------------------------------------------------

/-- The same but for the log, the identities and the seal. -/
structure Same (e e' : McpEnvelope) : Prop where
  status : e'.status = e.status
  voidedAt : e'.voidedAt = e.voidedAt
  signers : e'.signers = e.signers
  createdAt : e'.createdAt = e.createdAt
  expiresAt : e'.expiresAt = e.expiresAt
  links : linksOf e' = linksOf e
  reminders : reminderStateOf e' = reminderStateOf e
  emitted : expiredEmittedAt e' = expiredEmittedAt e

theorem Same.refl (e : McpEnvelope) : Same e e := ⟨rfl, rfl, rfl, rfl, rfl, rfl, rfl, rfl⟩

theorem Same.trans {e e' e'' : McpEnvelope} (h : Same e e') (h' : Same e' e'') : Same e e'' :=
  ⟨h'.status.trans h.status, h'.voidedAt.trans h.voidedAt, h'.signers.trans h.signers,
    h'.createdAt.trans h.createdAt, h'.expiresAt.trans h.expiresAt, h'.links.trans h.links,
    h'.reminders.trans h.reminders, h'.emitted.trans h.emitted⟩

/-- The caller had found a reminder due. -/
def Due (server : Server) (c : ClaimFor) : Prop :=
  match c.kind, c.foundAt with
  | .scheduled, some at_ =>
    ⟨c.signerId, (sentOfSigner c.envelopeIn c.signerId).sentAt.length⟩ ∈
      computeDue c.envelopeIn at_ server.config.durationsMs server.config.max
  | .manual, none => ∃ s ∈ c.envelopeIn.signers, s.id = c.signerId ∧ s.status = .pending
  | _, _ => False

/-- As `buildExpired` has it. -/
def expiredEdit (e : McpEnvelope) (now : Time) : McpEnvelope :=
  eraseStoredLinks (markExpiredEmitted { e with status := .expired } now) none

/-- The list of a kind, with another list in its place. -/
def withList (server : Server) (e : McpEnvelope) (signerId : String) (kind : ReminderKind)
    (sent : List Time) : McpEnvelope :=
  withReminderState e signerId (withSent server e.createdAt kind (sentOfSigner e signerId) sent)

def listOf (e : McpEnvelope) (signerId : String) (kind : ReminderKind) : List Time :=
  sentOf kind (sentOfSigner e signerId)

inductive Rewrite (server : Server) (e : McpEnvelope) : McpEnvelope → Purpose → Prop
  /-- Lazy expiry, a signature or a refusal. -/
  | change {e' : McpEnvelope} {purpose : Purpose} (hlive : e.live = true) (h : Change e e')
      (hpurpose : purpose = .plain ∨ ∃ gate, purpose = .sign gate) : Rewrite server e e' purpose
  | void (hopen : e.status ≠ .completed) (voidedAt : Time) :
      Rewrite server e { e with status := .voided, voidedAt := some voidedAt } .void
  | aside {e' : McpEnvelope} {purpose : Purpose} (h : Same e e')
      (hpurpose : purpose = .plain ∨ purpose = .note ∨ purpose = .seal) :
      Rewrite server e e' purpose
  | claim (c : ClaimFor) (sentTimestamp : Time) (hid : e.id = c.envelopeIn.id)
      (hsigner : (signerById e c.signerId).isSome) (hlink : (linkOf e c.signerId).isSome)
      (hmax : (sentOfSigner e c.signerId).sentAt.length +
        (sentOfSigner e c.signerId).manualSentAt.length < server.config.max)
      (hdue : Due server c) :
      Rewrite server e
        (withList server e c.signerId c.kind (listOf e c.signerId c.kind ++ [sentTimestamp]))
        (.claim c sentTimestamp)
  | rollback (c : ClaimFor) (sentTimestamp : Time) (index left : Nat)
      (hstate : (reminderStateOf e c.signerId).isSome) :
      Rewrite server e
        (withList server e c.signerId c.kind ((listOf e c.signerId c.kind).eraseIdx index))
        (.rollback c sentTimestamp index left)
  /-- The links of an envelope that nobody has signed. -/
  | persist {e' : McpEnvelope} (hsent : e.status = .sent)
      (hpending : ∀ s ∈ e.signers, s.status = .pending) (hemitted : expiredEmittedAt e = none)
      (links : List (String × String)) (h : Same (withLinks e links) e') :
      Rewrite server e e' .plain
  | erase {e' : McpEnvelope} (left : Nat) (signerId : Option String)
      (h : Same (eraseStoredLinks e signerId) e') : Rewrite server e e' (.erase left)
  | purge {e' : McpEnvelope} (h : Same (eraseStoredLinks e none) e') : Rewrite server e e' .plain
  | expire {e' : McpEnvelope} (now : Time) (hcan : e.live = true ∨ e.status = .expired)
      (hemitted : expiredEmittedAt e = none) (h : Same (expiredEdit e now) e') :
      Rewrite server e e' .note

/-- The log as the purpose has it. Only the expiry tells of an expiry. -/
def Noted (drawn : List String) (e e' : McpEnvelope) (purpose : Purpose) : Prop :=
  if purpose.notes then
    ∃ event : EsigEvent, event.id ∈ drawn ∧ event.envelopeId = e.id ∧
      eventsOf e' = lastEvents (eventsOf e ++ [event]) ∧
      (event.type = .envelope_expired → expiredEmittedAt e = none ∧ expiredEmittedAt e' ≠ none ∧
        (e.live = true ∨ e.status = .expired))
  else eventsOf e' = eventsOf e

-- ---------------------------------------------------------------------------
-- Identities
-- ---------------------------------------------------------------------------

def challengeOf (e : McpEnvelope) (signerId : String) : Option SignerChallengeState :=
  (getSignerIdentityState e signerId).bind (·.challenge)

def statesOf (e : McpEnvelope) : String → Option SignerIdentityState := getSignerIdentityState e

inductive IdentityEdit (nonce : Option String) (e e' : McpEnvelope) : Prop
  | same (h : statesOf e' = statesOf e)
  /-- A level that asks for no challenge. -/
  | record (signerId : String) (record : SignerIdentityRecord)
      (h : statesOf e' = Function.update (statesOf e) signerId
        (some { (getSignerIdentityState e signerId).getD {} with verified := some record }))
  | issue (signerId : String) (challenge : SignerChallengeState)
      (hnonce : nonce = some challenge.nonce) (hopen : challenge.consumed = false)
      (hfree : ∀ c, challengeOf e signerId = some c →
        c.consumed = true ∨ c.expiresAt ≤ challenge.issuedAt)
      (h : statesOf e' = Function.update (statesOf e) signerId
        (some { (getSignerIdentityState e signerId).getD {} with challenge := some challenge }))
  | finalize (signerId : String) (challenge : SignerChallengeState) (record : SignerIdentityRecord)
      (hchallenge : challengeOf e signerId = some challenge) (hopen : challenge.consumed = false)
      (h : statesOf e' = Function.update (statesOf e) signerId
        (some { challenge := some { challenge with consumed := true }, verified := some record }))

-- ---------------------------------------------------------------------------
-- Duties
-- ---------------------------------------------------------------------------

/-- A reminder that is claimed, where its entry was put. -/
structure Held where
  envelopeId : String
  claim : ClaimFor
  sentTimestamp : Time
  index : Nat

/-- `eventLost`, `linksLost` and `gaveUp` say that a duty will not be met: a call
failed that the rest depends on. A link is owed of one signer or of all. -/
structure Duties (ι : Type) where
  who : ι
  last : Option McpEnvelope := none
  event : Option EsigEvent := none
  eventLost : Bool := false
  links : List (String × Option String) := []
  linksLost : Bool := false
  held : Option Held := none
  /-- The claim was not sent. -/
  failed : Bool := false
  gaveUp : Bool := false
  nonce : Option String := none

/-- Nobody signs or may see a link any more. -/
def Closed (e : McpEnvelope) : Prop := e.status = .completed ∨ e.status = .voided

instance (e : McpEnvelope) : Decidable (Closed e) := inferInstanceAs (Decidable (_ ∨ _))

/-- Who has signed with this write. -/
def newlySigned (read e : McpEnvelope) : List String :=
  ((e.signers.zip read.signers).filter fun s => s.1.status = .signed ∧ s.2.status ≠ .signed).map
    (·.1.id)

/-- The links that a write makes superfluous. -/
def owed (read e : McpEnvelope) : List (String × Option String) :=
  (newlySigned read e).map (fun signerId => (e.id, some signerId)) ++
    if Closed e ∧ e.status ≠ read.status then [(e.id, none)] else []

/-- A link that is owed is still stored, as far as this envelope says. -/
def stillStored (e : McpEnvelope) : String × Option String → Bool
  | (id, none) => id != e.id || linksOf e != []
  | (id, some signerId) => id != e.id || (linksOf e).any (·.1 == signerId)

/-- The gate had found another signer, or nobody. -/
def misses (read e : McpEnvelope) : Purpose → Bool
  | .sign gate => (newlySigned read e).any fun signerId => gate != some signerId
  | _ => false

/-- A row that stands between a closing write and the erasure. -/
def closes : AuditAction → Bool
  | .envelope_signed | .envelope_declined | .envelope_voided => true
  | _ => false

/-- A row that stands between an event's write and its enqueueing. -/
def interposes : AuditAction → Bool
  | .events_trimmed | .envelope_expired => true
  | _ => false

namespace Duties

def missed (own : Duties ι) (purpose : Purpose) : Duties ι :=
  { own with
    linksLost := own.linksLost || purpose.erases
    gaveUp := own.gaveUp || purpose.rollsBack }

/-- After a read. -/
def found (own : Duties ι) (purpose : Purpose) : Except Thrown (Option McpEnvelope) → Duties ι
  | .ok (some e) => { own with last := some e, gaveUp := own.gaveUp || purpose.strays e }
  | _ => own.missed purpose

/-- The claim that is held after a write. -/
def heldAfter (own : Duties ι) (e : McpEnvelope) : Purpose → Option Held
  | .claim c sentTimestamp =>
    some ⟨e.id, c, sentTimestamp, (listOf e c.signerId c.kind).length - 1⟩
  | .rollback .. => none
  | _ => own.held

def failedAfter (own : Duties ι) : Purpose → Bool
  | .claim .. | .rollback .. => false
  | _ => own.failed

/-- After a write over what was last given. -/
def written (webhook : Bool) (own : Duties ι) (purpose : Purpose) (read e e' : McpEnvelope) :
    Duties ι :=
  { own with
    last := some e'
    event := if webhook && purpose.notes then (eventsOf e).getLast? else own.event
    links := (own.links ++ if purpose.changes then owed read e else []).filter (stillStored e)
    linksLost := own.linksLost || (purpose.changes && misses read e purpose)
    held := own.heldAfter e purpose
    failed := own.failedAfter purpose
    nonce := none }

def updated (webhook : Bool) (own : Duties ι) (purpose : Purpose) (e : McpEnvelope) :
    Except Thrown McpEnvelope → Duties ι
  | .ok e' => own.written webhook purpose (own.last.getD e) e e'
  | .error _ =>
    { own with
      linksLost := own.linksLost || purpose.erasesLast
      gaveUp := own.gaveUp || purpose.rollsBackLast
      nonce := none }

def audited (own : Duties ι) (action : AuditAction) : Except Thrown Unit → Duties ι
  | .ok _ => own
  | .error _ =>
    { own with
      eventLost := own.eventLost || interposes action
      linksLost := own.linksLost || closes action }

def enqueued (own : Duties ι) : Except Thrown Unit → Duties ι
  | .ok _ => { own with event := none }
  | .error _ => { own with eventLost := true }

/-- A claim that was sent is over; one that was not is to be taken back, if the
channel says so. -/
def delivered (own : Duties ι) (purpose : Purpose) : Except Thrown (List Receipt) → Duties ι
  | .ok (receipt :: _) =>
    match purpose with
    | .claim .. =>
      if receipt.ok then { own with held := none, failed := false } else { own with failed := true }
    | _ => own
  | _ =>
    match purpose with
    | .claim .. => { own with gaveUp := true }
    | _ => own

def next (webhook : Bool) (t : Track (Duties ι)) : (op : Op ι) → Res op → Duties ι
  | .random, r => { t.own with nonce := some r }
  | .insert _, r => t.own.found .plain (some <$> (r : Except Thrown McpEnvelope))
  | .findByTokenHash _, r => t.own.found .plain r
  | .findById tag _ _, r => t.own.found tag.purpose r
  | .update tag e, r => t.own.updated webhook tag.purpose e r
  | .audit entry, r => t.own.audited entry.action r
  | .enqueue _, r => t.own.enqueued r
  | .deliver tag _ _, r => t.own.delivered tag.purpose r
  | _, _ => t.own

end Duties

/-- No event waits to be enqueued. -/
def Enqueued (own : Duties ι) : Prop := own.event = none ∨ own.eventLost = true

/-- No claim waits to be sent or taken back. -/
def Unclaimed (own : Duties ι) : Prop := own.held = none ∨ own.gaveUp = true

/-- As it is inserted. -/
structure Fresh (server : Server) (drawn : List String) (e : McpEnvelope) : Prop where
  tenantId : e.tenantId = server.config.tenant
  status : e.status = .sent
  pending : ∀ s ∈ e.signers, s.status = .pending
  ids : (e.id :: (e.signers.map (·.id)).reverse) <+: drawn
  links : linksOf e = []
  reminders : reminderStateOf e = fun _ => none
  emitted : expiredEmittedAt e = none
  states : statesOf e = fun _ => none

/-- What a call is held to when it writes. -/
structure Writes (server : Server) (t : Track (Duties ι)) (tag : Tag ι) (read e : McpEnvelope) :
    Prop where
  last : tag.purpose = .seal ∨ t.own.last = some read
  who : tag.who = t.own.who
  rewrite : Rewrite server read e tag.purpose
  noted : Noted t.drawn read e tag.purpose
  identity : IdentityEdit t.own.nonce read e
  owes : owed read e ≠ [] → t.own.linksLost = false
  claims : ∀ c sentTimestamp, tag.purpose = .claim c sentTimestamp →
    Unclaimed t.own ∧ c.envelopeIn ∈ t.seen
  rollsBack : ∀ c sentTimestamp index left, tag.purpose = .rollback c sentTimestamp index left →
    t.own.held = some ⟨read.id, c, sentTimestamp, index⟩ ∧ t.own.failed = true

def serviceRules (server : Server) : Rules ι (Duties ι) where
  edit t tag read e := Writes server t tag read e
  allows t
    | .insert e => Fresh server t.drawn e ∧ Enqueued t.own
    | .audit entry => interposes entry.action = true ∨ Enqueued t.own
    | .enqueue event => t.own.event = some event ∨ t.own.eventLost = true
    | .deliver tag envelope _ => tag.who = t.own.who ∧ Enqueued t.own ∧
        ∀ c sentTimestamp, tag.purpose = .claim c sentTimestamp → t.own.failed = false ∧
          ∃ index, t.own.held = some ⟨envelope.id, c, sentTimestamp, index⟩
    | .queue .. | .restart => False
    | _ => Enqueued t.own
  next := Duties.next server.config.webhook

end EsigSuite.Mcp
