import EsigSuite.Mcp.ServiceWorld

/-!
# Events, expiry and reminders

`events/log.ts`, `events/expiry.ts`, `reminders.ts` and the parts of
`EnvelopeService` that emit events and send reminders. What the source closes
over, the clock and the configuration, is in `Server`.
-/

namespace EsigSuite.Mcp

open Lib

structure McpConfig extends Config where
  baseUrl : String
  /-- `delivery.kind` -/
  delivery : String
  /-- `reminders.durationsMs` -/
  durationsMs : List Int
  /-- `reminders.max` -/
  max : Nat
  /-- An event queue is there. -/
  webhook : Bool

structure Server where
  config : McpConfig
  hashToken : String → String
  assertImageDataUrl : String → Option String
  checks : IdentityChecks
  sha256 : String → String
  sanitizeEnvelopeHtml : String → String
  /-- `decryptKeyPem` of a stored link. -/
  decryptLink : String → Except Thrown String

section
variable {ι : Type}

/-- A call that may throw is one of a list: the others go on. -/
def isolated (x : M ι Unit) : M ι Unit := tryCatchThe Thrown x fun _ => return ()

variable (server : Server) (who : ι)

def auditEntry (server : Server) (action : AuditAction) (targetId : String)
    (metadata : AuditMetadata) : AuditLogEntry :=
  { tenantId := server.config.tenant, action, targetId, metadata }

def audit (action : AuditAction) (targetId : String) (metadata : AuditMetadata) : M ι Unit :=
  auditInsert (auditEntry server action targetId metadata)

/-- `EventQueue.enqueue`, where there is a queue. -/
def enqueue (event : EsigEvent) : M ι Unit :=
  if server.config.webhook then ExceptT.mk (Prog.perform (Op.enqueue event)) else return ()

-- ---------------------------------------------------------------------------
-- appendEvent
-- ---------------------------------------------------------------------------

/-- What an emission makes of the fresh envelope, and the event; or nothing. -/
abbrev Build (ι : Type) := McpEnvelope → M ι (Option (McpEnvelope × EsigEventInput))

def MAX_ATTEMPTS : Nat := 5

def auditTrimmed (envelopeId : String) (trimmed : List EsigEvent) : M ι Unit :=
  if trimmed = [] then return ()
  else audit server .events_trimmed envelopeId (.trimmed (trimmed.map (·.id)))

/-- The `try` of `appendEvent`: the error that it caught. -/
def writeEvent (tag : Tag ι) (envelopeId : String) (appended : McpEnvelope × List EsigEvent) :
    M ι (Option Thrown) :=
  tryCatchThe Thrown
    (do let _ ← (store tag).update appended.1
        auditTrimmed server envelopeId appended.2
        return none)
    fun e => return some e

/-- `appendEvent`, with the given number of attempts left. `purpose` says what
an attempt is for. -/
def appendAttempts (purpose : Nat → Purpose) (clock : M ι Time) (envelopeId : String)
    (build : Build ι) : Nat → M ι (Option EsigEvent)
  | 0 => throw (.error ("could not append event for envelope " ++ envelopeId ++
      " (concurrent update contention)"))
  | attempts + 1 => do
    match ← (store ⟨who, purpose attempts⟩).findById server.config.tenant envelopeId with
    | none => throw (.error ("envelope not found: " ++ envelopeId))
    | some envelope =>
      match ← build envelope with
      | none => return none
      | some (edited, input) =>
        let id ← randomUUID
        let createdAt ← clock
        let event : EsigEvent := { input with id, createdAt }
        match ← writeEvent server ⟨who, purpose attempts⟩ envelopeId
            (appendEventInMemory edited event) with
        | none => return some event
        | some e =>
          if attempts = 0 then throw e
          else appendAttempts purpose clock envelopeId build attempts

def appendEvent (purpose : Nat → Purpose) (clock : M ι Time) (envelopeId : String)
    (build : Build ι) : M ι (Option EsigEvent) :=
  appendAttempts server who purpose clock envelopeId build MAX_ATTEMPTS

/-- Never throws. -/
def emit (purpose : Nat → Purpose) (envelopeId : String) (build : Build ι) :
    M ι (Option EsigEvent) :=
  tryCatchThe Thrown
    (do match ← appendEvent server who purpose now envelopeId build with
        | none => return none
        | some event =>
          enqueue server event
          return some event)
    fun _ => return none

/-- An event with nothing else written. -/
def emitPlain (envelopeId : String) (event : McpEnvelope → EsigEventInput) : M ι Unit :=
  discard (emit server who (fun _ => .note) envelopeId fun e => return some (e, event e))

/-- An event with which stored links go. -/
def emitErasing (envelopeId : String) (signerId : Option String)
    (event : McpEnvelope → EsigEventInput) : M ι Unit :=
  discard (emit server who .erase envelopeId fun e =>
    return some (eraseStoredLinks e signerId, event (eraseStoredLinks e signerId)))

/-- What an update that is retried has written, with what was worked out for it. -/
def writeUpdate (tag : Tag ι) (envelope : McpEnvelope) : M ι (Except Thrown McpEnvelope) :=
  tryCatchThe Thrown (do return .ok (← (store tag).update envelope)) fun e => return .error e

/-- `updateWithRetry`, with the given number of attempts left. -/
def updateAttempts {β : Type} (purpose : Nat → Purpose) (claimed : β → Purpose → Purpose)
    (envelopeId : String) (mutate : McpEnvelope → M ι (Option (McpEnvelope × β))) :
    Nat → M ι (Option (McpEnvelope × β))
  | 0 => throw (.error ("could not update envelope " ++ envelopeId ++
      " (concurrent update contention)"))
  | attempts + 1 => do
    match ← (store ⟨who, purpose attempts⟩).findById server.config.tenant envelopeId with
    | none => throw (.error ("envelope not found: " ++ envelopeId))
    | some envelope =>
      match ← mutate envelope with
      | none => return none
      | some (edited, b) =>
        match ← writeUpdate ⟨who, claimed b (purpose attempts)⟩ edited with
        | .ok envelope => return some (envelope, b)
        | .error e =>
          if attempts = 0 then throw e
          else updateAttempts purpose claimed envelopeId mutate attempts

def updateWithRetry {β : Type} (purpose : Nat → Purpose) (claimed : β → Purpose → Purpose)
    (envelopeId : String) (mutate : McpEnvelope → M ι (Option (McpEnvelope × β))) :
    M ι (Option (McpEnvelope × β)) :=
  updateAttempts server who purpose claimed envelopeId mutate MAX_ATTEMPTS

-- ---------------------------------------------------------------------------
-- events/expiry.ts
-- ---------------------------------------------------------------------------

def buildExpired (now : Time) : Build ι := fun e =>
  if (e.live && isPastExpiry e now) || e.status == .expired then
    let expired : McpEnvelope := { e with status := .expired }
    if (expiredEmittedAt e).isSome then return none
    else
      return some (eraseStoredLinks (markExpiredEmitted expired now) none,
        { type := .envelope_expired, envelopeId := e.id, phase := .open_ .expired })
  else return none

def expireOne (envelopeId : String) (at_ : Time) : M ι Unit := do
  match ← appendEvent server who (fun _ => .note) (return at_) envelopeId (buildExpired at_) with
  | none => return ()
  | some event =>
    audit server .envelope_expired envelopeId .none
    enqueue server event

def expiryTick (at_ : Time) : M ι Unit := do
  let all ← listEnvelopes server.config.tenant
  all.forM fun e =>
    if expiryCandidate e at_ then isolated (expireOne server who e.id at_) else return ()

-- ---------------------------------------------------------------------------
-- Reminders
-- ---------------------------------------------------------------------------

/-- What a reminder that was claimed is sent with. -/
structure Claim where
  link : DeliveryLink
  title : String
  message : Option String
  expiresAt : Option Time
  sentTimestamp : Time
  /-- Where the claim stands in the list of its kind. -/
  index : Nat

/-- The list that a kind appends to. -/
def sentOf : ReminderKind → SignerReminderState → List Time
  | .scheduled, state => state.sentAt
  | .manual, state => state.manualSentAt

/-- The state with another list of one kind. -/
def withSent (server : Server) (createdAt : Time) (kind : ReminderKind)
    (state : SignerReminderState) (sent : List Time) : SignerReminderState :=
  let sentAt := match kind with
    | .scheduled => sent
    | .manual => state.sentAt
  { sentAt
    manualSentAt := match kind with
      | .scheduled => state.manualSentAt
      | .manual => sent
    nextAt := reminderNextAt server.config.durationsMs server.config.max createdAt sentAt.length }

/-- The mutation with which a reminder is claimed. -/
def claimReminder (signerId : String) (kind : ReminderKind) (e : McpEnvelope) :
    M ι (Option (McpEnvelope × Claim)) := do
  match signerById e signerId with
  | none => throw (.error ("signer not found on envelope " ++ e.id ++ ": " ++ signerId))
  | some signer =>
    match (linkOf e signerId).filter (· ≠ "") with
    | none =>
      throw (.error ("no stored signing link for signer " ++ signerId ++ " on envelope " ++ e.id ++
        " — reminders must be configured (ESIG_MCP_REMINDERS) at the time this envelope was created."))
    | some encryptedLink =>
      let url ← ExceptT.mk (pure (server.decryptLink encryptedLink))
      let state := (reminderStateOf e signerId).getD {}
      throwIf (state.sentAt.length + state.manualSentAt.length ≥ server.config.max)
        (.error ("reminder limit reached for signer " ++ signerId ++ " on envelope " ++ e.id ++ " (" ++
          toString server.config.max ++ " sent, scheduled + manual combined) — no further reminders " ++
          "(scheduled or manual) will be sent."))
      let sentTimestamp ← now
      let written := withSent server e.createdAt kind state (sentOf kind state ++ [sentTimestamp])
      return some (withReminderState e signerId written,
        { link := ⟨signerId, signer.name, signer.email, url⟩, title := e.title,
          message := (bookOf e).message, expiresAt := e.expiresAt, sentTimestamp,
          index := (sentOf kind written).length - 1 })

/-- The mutation with which a claim is taken back, by its position. -/
def rollbackReminder (signerId : String) (kind : ReminderKind) (index : Nat) (e : McpEnvelope) :
    M ι (Option (McpEnvelope × Unit)) :=
  match reminderStateOf e signerId with
  | none => return none
  | some state =>
    return some (withReminderState e signerId
      (withSent server e.createdAt kind state ((sentOf kind state).eraseIdx index)), ())

/-- `foundAt` is for the record. -/
def sendOneReminder (envelopeIn : McpEnvelope) (signerId : String) (kind : ReminderKind)
    (foundAt : Option Time) : M ι Receipt := do
  let claimFor : ClaimFor := ⟨envelopeIn, signerId, kind, foundAt⟩
  match ← updateWithRetry server who (fun _ => .plain)
      (fun (claim : Claim) _ => .claim claimFor claim.sentTimestamp) envelopeIn.id
      (claimReminder server signerId kind) with
  | none => throw (.error "Cannot read properties of undefined (reading 'id')")
  | some (envelope, claim) =>
    match ← deliver ⟨who, .claim claimFor claim.sentTimestamp⟩
        ⟨envelope.id, claim.title, claim.message, claim.expiresAt⟩ [claim.link] with
    | [] => throw (.error "Cannot read properties of undefined (reading 'ok')")
    | receipt :: _ =>
      if receipt.ok then
        audit server .envelope_reminder_sent envelope.id
          (.reminder signerId receipt.ok receipt.messageId none)
        emitPlain server who envelope.id fun e =>
          { type := .envelope_reminder_sent, envelopeId := e.id, phase := derivePhase e,
            signer := (signerById e signerId).map eventSigner, data := .reminded receipt.ok }
        return receipt
      else
        let _ ← updateWithRetry server who (.rollback claimFor claim.sentTimestamp claim.index)
          (fun _ purpose => purpose) envelope.id (rollbackReminder server signerId kind claim.index)
        audit server .envelope_reminder_failed envelope.id
          (.reminder signerId receipt.ok none receipt.detail)
        return receipt

def takeRate : M ι Unit := ExceptT.mk (Prog.perform Op.takeRate)

/-- What the manual path reports of a signer. -/
inductive ReminderOutcome
  | sent (receipt : Receipt)
  | notPending (status : EnvelopeSignerStatus)
  | failed (e : Thrown)

/-- The manual path. -/
def sendReminder (envelopeId : String) (signerId : Option String) :
    M ι (List (String × ReminderOutcome)) := do
  throwIf (server.config.durationsMs = [])
    (.error ("reminders are not configured (ESIG_MCP_REMINDERS is unset) — no signing links were " ++
      "stored to resend."))
  throwIf (server.config.delivery ≠ "email")
    (.error "reminders require ESIG_MCP_DELIVERY=\"email\".")
  match ← (store ⟨who, .plain⟩).findById server.config.tenant envelopeId with
  | none => throw (.error ("envelope not found: " ++ envelopeId))
  | some envelope =>
    let signerId := signerId.filter (· ≠ "")
    let targets := match signerId with
      | none => envelope.signers
      | some id => envelope.signers.filter (·.id == id)
    throwIf (signerId.isSome ∧ targets = [])
      (.error ("signer not found on envelope " ++ envelopeId ++ ": " ++ signerId.getD ""))
    takeRate
    targets.mapM fun signer =>
      if signer.status ≠ .pending then return (signer.id, .notPending signer.status)
      else
        tryCatchThe Thrown
          (do return (signer.id, .sent (← sendOneReminder server who envelope signer.id .manual none)))
          fun e => return (signer.id, .failed e)

def purgeStaleReminderLinks : M ι Unit := do
  let all ← listEnvelopes server.config.tenant
  all.forM fun e =>
    if linksOf e = [] then return ()
    else
      isolated (discard (updateWithRetry server who (fun _ => .plain) (fun _ purpose => purpose) e.id
        fun fresh =>
          if linksOf fresh = [] then return none
          else return some (eraseStoredLinks fresh none, ())))

/-- One pass of the scheduler. `purge` is that this process has not purged yet. -/
def schedulerTick (purge : Bool) : M ι Unit := do
  let at_ ← now
  if server.config.durationsMs ≠ [] then
    let all ← listEnvelopes server.config.tenant
    all.forM fun e =>
      (computeDue e at_ server.config.durationsMs server.config.max).forM fun entry =>
        isolated (discard (sendOneReminder server who e entry.signerId .scheduled (some at_)))
  else if purge then isolated (purgeStaleReminderLinks server who)
  expiryTick server who at_

end

end EsigSuite.Mcp
