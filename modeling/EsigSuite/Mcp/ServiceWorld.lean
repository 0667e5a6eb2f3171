import EsigSuite.Mcp.EventModel
import EsigSuite.Mcp.EnvelopeStores
import EsigSuite.Lib.Watch

/-!
# What the service of envelopes calls

The stores, the clock, the delivery channel and the webhook queue as atomic
calls on one state. The envelope store compares and swaps revisions, as
`EnvelopeFile` has it on the file. A `Tag` says who makes a call and what for;
it is for the record and not data of the program.
-/

namespace EsigSuite.Mcp

open Lib
open EnvelopeFile (getRev setRev)

-- ---------------------------------------------------------------------------
-- Calls
-- ---------------------------------------------------------------------------

/-- Whom a reminder is claimed for, by a caller who had looked at an envelope. The
scheduler had found it due at a time. -/
structure ClaimFor where
  envelopeIn : McpEnvelope
  signerId : String
  kind : ReminderKind
  foundAt : Option Time

inductive Purpose
  | plain
  | void
  | seal
  /-- An event is noted. -/
  | note
  /-- An event whose edit takes stored links away, with the attempts left. -/
  | erase (left : Nat)
  /-- A signature, by a call whose gate had found a signer. -/
  | sign (gate : Option String)
  | claim (claim : ClaimFor) (sentTimestamp : Time)
  | rollback (claim : ClaimFor) (sentTimestamp : Time) (index left : Nat)

structure Tag (ι : Type) where
  who : ι
  purpose : Purpose := .plain

/-- The calls of the webhook queue's tick, in the process that makes them. -/
inductive QueueOp
  | enterTick
  | leaveTick
  | readQueueFiles
  | sendWebhook (event : EsigEvent)
  | writeDelivered (event : EsigEvent)
  | writeQueueFile (file : QueueFile)
  | rm (eventId : String)

inductive Op (ι : Type)
  | now
  | random
  | randomUUID
  | insert (e : McpEnvelope)
  | update (tag : Tag ι) (e : McpEnvelope)
  | findById (tag : Tag ι) (tenantId id : String)
  | findByTokenHash (tokenHash : String)
  | listEnvelopes (tenantId : String)
  | audit (entry : AuditLogEntry)
  | deliver (tag : Tag ι) (envelope : DeliveryEnvelope) (links : List DeliveryLink)
  | enqueue (event : EsigEvent)
  | queue (process : Nat) (op : QueueOp)
  /-- The process stops and another starts. -/
  | restart
  /-- What `create` reads and checks outside: document, registry, rate limit.
  It answers with the signers who are not registered. -/
  | admission
  | takeRate
  | encryptLink (url : String)
  | produce (e : McpEnvelope)
  | persistIdentityBlob (json : JsonText)
  | badge (uuaid : String)
  | verifyCredential (id : String)

def QueueOp.Res : QueueOp → Type
  | .enterTick => Bool
  | .leaveTick => Unit
  | .readQueueFiles => Except Thrown (List QueueFile)
  | .sendWebhook _ | .writeDelivered _ | .writeQueueFile _ | .rm _ => Except Thrown Unit

def Res {ι : Type} : Op ι → Type
  | .now => Time
  | .random | .randomUUID | .encryptLink _ => String
  | .insert _ | .update .. => Except Thrown McpEnvelope
  | .findById .. | .findByTokenHash _ => Except Thrown (Option McpEnvelope)
  | .listEnvelopes _ => Except Thrown (List McpEnvelope)
  | .audit _ | .enqueue _ | .takeRate => Except Thrown Unit
  | .deliver .. => Except Thrown (List Receipt)
  | .queue _ op => op.Res
  | .restart => Unit
  | .admission => Except Thrown (List Nat)
  | .produce _ => Except Thrown Service.Artifact
  | .persistIdentityBlob _ => Except Thrown String
  | .badge _ => Except RegistryFailure JsonText
  | .verifyCredential _ => Except RegistryFailure CredentialStatus

abbrev M (ι : Type) := ExceptT Thrown (Prog (Op ι) Res)

-- ---------------------------------------------------------------------------
-- The state
-- ---------------------------------------------------------------------------

/-- An update that was written, over the row it replaced. -/
structure Write (ι : Type) where
  tag : Tag ι
  old : McpEnvelope
  new : McpEnvelope

/-- A call of the delivery channel, and whether its first receipt is good. -/
structure Send (ι : Type) where
  tag : Tag ι
  envelopeId : String
  ok : Bool

/-- The envelopes, the audit log and the queue directory. `history`, `sends`,
`enqueued` and `delivered` record what happened, `drawn` the tokens and
identifiers that were given out. -/
structure World (ι : Type) where
  rows : List McpEnvelope := []
  audits : List AuditLogEntry := []
  queue : List QueueFile := []
  process : Nat := 0
  ticking : Bool := false
  drawn : List String := []
  history : List (Write ι) := []
  sends : List (Send ι) := []
  enqueued : List EsigEvent := []
  delivered : List EsigEvent := []

variable {ι : Type}

/-- The stored row of the same envelope and revision is replaced. -/
def Swapped (tag : Tag ι) (e : McpEnvelope) (s s' : World ι) : Prop :=
  ∃ (i : Nat) (cur : McpEnvelope), s.rows[i]? = some cur ∧ cur.id = e.id ∧
    cur.tenantId = e.tenantId ∧ getRev cur = getRev e ∧
    s' = { s with rows := s.rows.set i (setRev e (getRev e + 1)),
                  history := s.history ++ [⟨tag, cur, setRev e (getRev e + 1)⟩] }

def World.withFile (s : World ι) (file : QueueFile) : World ι :=
  { s with queue := s.queue.filter (·.event.id != file.event.id) ++ [file] }

/-- A call that fails has no effect. -/
def Failed (r : Except ε α) (s s' : World ι) : Prop := s' = s ∧ ∃ e, r = .error e

/-- A file that cannot be read is left out, and the directory is listed in any
order. -/
def QueueOp.exec : (op : QueueOp) → World ι → op.Res → World ι → Prop
  | .enterTick, s, r, s' => r = s.ticking ∧ s' = { s with ticking := true }
  | .leaveTick, s, _, s' => s' = { s with ticking := false }
  | .readQueueFiles, s, r, s' =>
    (s' = s ∧ ∃ files, r = .ok files ∧ files.Subperm s.queue) ∨ Failed r s s'
  | .sendWebhook event, s, r, s' =>
    (s' = { s with delivered := s.delivered ++ [event] } ∧ r = .ok ()) ∨ Failed r s s'
  | .writeDelivered _, s, r, s' => (s' = s ∧ r = .ok ()) ∨ Failed r s s'
  | .writeQueueFile file, s, r, s' => (s' = s.withFile file ∧ r = .ok ()) ∨ Failed r s s'
  | .rm eventId, s, r, s' =>
    (s' = { s with queue := s.queue.filter (·.event.id != eventId) } ∧ r = .ok ()) ∨ Failed r s s'

/-- The clock and the outside answer anything; tokens and identifiers are new;
any call of a store may fail without effect. A process that has stopped makes no
call. -/
def exec : (op : Op ι) → World ι → Res op → World ι → Prop
  | .random, s, r, s' | .randomUUID, s, r, s' => r ∉ s.drawn ∧ s' = { s with drawn := r :: s.drawn }
  | .insert e, s, r, s' =>
    (s' = { s with rows := s.rows ++ [setRev e 0] } ∧ r = .ok (setRev e 0)) ∨ Failed r s s'
  | .update tag e, s, r, s' =>
    (Swapped tag e s s' ∧ r = .ok (setRev e (getRev e + 1))) ∨ Failed r s s'
  | .findById _ tenantId id, s, r, s' =>
    (s' = s ∧ r = .ok (s.rows.find? fun e => e.tenantId == tenantId && e.id == id)) ∨ Failed r s s'
  | .findByTokenHash tokenHash, s, r, s' =>
    (s' = s ∧ r = .ok (rowOf s.rows tokenHash)) ∨ Failed r s s'
  | .listEnvelopes tenantId, s, r, s' =>
    (s' = s ∧ r = .ok (s.rows.filter (·.tenantId == tenantId))) ∨ Failed r s s'
  | .audit entry, s, r, s' =>
    (s' = { s with audits := s.audits ++ [entry] } ∧ r = .ok ()) ∨ Failed r s s'
  | .deliver tag envelope _, s, r, s' =>
    ∃ ok, s' = { s with sends := s.sends ++ [⟨tag, envelope.id, ok⟩] } ∧
      (ok = true ↔ ∃ receipt rest, r = .ok (receipt :: rest) ∧ receipt.ok = true)
  | .enqueue event, s, r, s' =>
    ((∃ nextAt, s' = { s.withFile ⟨event, 0, nextAt, .pending⟩ with
        enqueued := s.enqueued ++ [event] }) ∧ r = .ok ()) ∨ Failed r s s'
  | .queue process op, s, r, s' => process = s.process ∧ op.exec s r s'
  | .restart, s, _, s' => s' = { s with process := s.process + 1, ticking := false }
  | _, s, _, s' => s' = s

-- ---------------------------------------------------------------------------
-- The store and the outside as the service sees them
-- ---------------------------------------------------------------------------

def now : M ι Time := ExceptT.lift (Prog.perform Op.now)

def randomUUID : M ι String := ExceptT.lift (Prog.perform Op.randomUUID)

def store (tag : Tag ι) : EnvelopeStore (McpMetadata (SealMetadata Bookkeeping)) (M ι) where
  insert e := ExceptT.mk (Prog.perform (Op.insert e))
  update e := ExceptT.mk (Prog.perform (Op.update tag e))
  findById tenantId id := ExceptT.mk (Prog.perform (Op.findById tag tenantId id))
  findByTokenHash tokenHash := ExceptT.mk (Prog.perform (Op.findByTokenHash tokenHash))

def listEnvelopes (tenantId : String) : M ι (List McpEnvelope) :=
  ExceptT.mk (Prog.perform (Op.listEnvelopes tenantId))

def auditInsert (entry : AuditLogEntry) : M ι Unit := ExceptT.mk (Prog.perform (Op.audit entry))

def deliver (tag : Tag ι) (envelope : DeliveryEnvelope) (links : List DeliveryLink) :
    M ι (List Receipt) :=
  ExceptT.mk (Prog.perform (Op.deliver tag envelope links))

end EsigSuite.Mcp
