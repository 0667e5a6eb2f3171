import EsigSuite.Mcp.EventModel
import Mathlib.Logic.Function.Basic

/-!
# The queue of webhook deliveries

`events/queue.ts`: one file for each event in `events/queue`, one receipt in
`events/delivered`. A tick goes in the steps between its calls of the file system,
the receiver and the audit log; any of them may fail, and the process may end
between any two. What `enqueue` writes comes in between. ISO timestamps are the
times they stand for, in milliseconds.
-/

namespace EsigSuite.DeliveryQueue

def DEFAULT_BACKOFF_SEC : List Nat := [60, 120, 240, 480, 960, 1920]

/-- How long a receipt is kept. -/
def DELIVERED_RETENTION_MS : Int := 24 * 60 * 60 * 1000

inductive QueueStatus
  | pending
  | dead
  deriving DecidableEq

structure QueueFile where
  event : EsigEvent
  attempts : Nat
  /-- The event is not attempted again before this time. -/
  nextAt : Time
  status : QueueStatus
  deriving DecidableEq

structure DeliveredFile where
  event : EsigEvent
  attempts : Nat
  deliveredAt : Time
  deriving DecidableEq

/-- The metadata of a `webhook.dead_lettered` row. -/
structure DeadLetter where
  targetId : String
  eventId : String
  eventType : EventType
  attempts : Nat

/-- The files under their event ids. -/
structure Disk where
  queue : String → Option QueueFile
  delivered : String → Option DeliveredFile
  audit : List DeadLetter

def Disk.empty : Disk := ⟨fun _ => none, fun _ => none, []⟩

def Disk.write (disk : Disk) (file : QueueFile) : Disk :=
  { disk with queue := Function.update disk.queue file.event.id (some file) }

def Disk.rm (disk : Disk) (eventId : String) : Disk :=
  { disk with queue := Function.update disk.queue eventId none }

inductive DeliveryStatus
  | pending
  | delivered
  | dead
  deriving DecidableEq

structure EventDeliveryStatus where
  status : DeliveryStatus
  attempts : Nat

section
variable {disk : Disk} {file : QueueFile} {eventId : String}

@[simp] theorem Disk.queue_write_self : (disk.write file).queue file.event.id = some file :=
  Function.update_self ..

theorem Disk.queue_write_of_ne (h : eventId ≠ file.event.id) :
    (disk.write file).queue eventId = disk.queue eventId :=
  Function.update_of_ne h ..

@[simp] theorem Disk.delivered_write : (disk.write file).delivered = disk.delivered := rfl

@[simp] theorem Disk.queue_rm_self : (disk.rm eventId).queue eventId = none :=
  Function.update_self ..

theorem Disk.queue_rm_of_ne {other : String} (h : other ≠ eventId) :
    (disk.rm eventId).queue other = disk.queue other :=
  Function.update_of_ne h ..

theorem Disk.of_queue_rm {other : String} (h : (disk.rm eventId).queue other = some file) :
    other ≠ eventId ∧ disk.queue other = some file := by
  have hne : other ≠ eventId := by
    rintro rfl
    rw [queue_rm_self] at h
    cases h
  rw [queue_rm_of_ne hne] at h
  exact ⟨hne, h⟩

end

def statusOf (disk : Disk) (eventId : String) : Option EventDeliveryStatus :=
  match disk.queue eventId, disk.delivered eventId with
  | some data, _ => some ⟨if data.status = .dead then .dead else .pending, data.attempts⟩
  | none, some data => some ⟨.delivered, data.attempts⟩
  | none, none => none

-- ---------------------------------------------------------------------------
-- A tick
-- ---------------------------------------------------------------------------

/-- The envelope ids in the order in which a `Map` gets them. -/
def envelopeIds (files : List QueueFile) : List String :=
  (files.map (·.event.envelopeId)).eraseDups

/-- `list.sort(..)[0]` -/
def oldest (list : List QueueFile) : Option QueueFile :=
  (list.mergeSort fun a b => a.event.createdAt ≤ b.event.createdAt).head?

/-- The oldest pending file of each envelope. -/
def headsOf (files : List QueueFile) : List QueueFile :=
  let pending := files.filter (·.status = .pending)
  (envelopeIds pending).filterMap fun id => oldest (pending.filter (·.event.envelopeId = id))

inductive Tick
  | idle
  /-- In `readQueueFiles`, with the names that are left and what was read. -/
  | reading (names : List String) (out : List QueueFile)
  | working (now : Time) (heads : List QueueFile)
  /-- In `sendWebhook`. -/
  | sending (now : Time) (data : QueueFile) (heads : List QueueFile)
  /-- The receiver has accepted the event, and the receipt is to be written. -/
  | sent (now deliveredAt : Time) (data : QueueFile) (heads : List QueueFile)
  /-- The receipt is written, and the file is to be removed. -/
  | receipted (now : Time) (data : QueueFile) (heads : List QueueFile)
  /-- In the `catch` of `attempt`. -/
  | failed (now : Time) (data : QueueFile) (heads : List QueueFile)
  /-- The file is dead, and the audit row is to be inserted. -/
  | buried (now : Time) (data : QueueFile) (heads : List QueueFile)
  /-- In `pruneDelivered`, with the names that are left. -/
  | pruning (now : Time) (names : List String)

/-- What `attempt` makes of its file when it fails, at this time. -/
def retried (backoffSec : List Nat) (clock : Time) (data : QueueFile) : QueueFile :=
  { data with
    attempts := data.attempts + 1
    nextAt := clock + backoffSec.getD data.attempts 0 * 1000
    status := .pending }

def died (data : QueueFile) : QueueFile :=
  { data with attempts := data.attempts + 1, status := .dead }

-- ---------------------------------------------------------------------------
-- Runs
-- ---------------------------------------------------------------------------

/-- What has happened to an event. -/
inductive Entry
  | enqueued (event : EsigEvent)
  /-- A tick could not read the file. -/
  | unread (id : String)
  /-- An attempt of a tick that began at this time. -/
  | attempted (id : String) (now : Time)
  | accepted (id : String)
  /-- The failure that the file counts as this attempt. -/
  | counted (id : String) (attempts : Nat) (clock : Time)
  | buried (id : String)

/-- The history has the newest entry first. -/
structure World where
  disk : Disk
  tick : Tick
  clock : Time
  history : List Entry

def World.start (clock : Time) : World := ⟨.empty, .idle, clock, []⟩

/-- The ids that were enqueued. -/
def idsOf (history : List Entry) : List String :=
  history.filterMap fun
    | .enqueued event => some event.id
    | _ => none

/-- One step of the process, or of the world around it. An event id is drawn once. -/
inductive Step (backoffSec : List Nat) : World → World → Prop
  | enqueue (event : EsigEvent) (fresh : event.id ∉ idsOf world.history) (nextAt : Time)
      (drawn : nextAt ≤ world.clock) :
      Step backoffSec world
        { world with
          disk := world.disk.write ⟨event, 0, nextAt, .pending⟩
          history := .enqueued event :: world.history }
  | pass (clock : Time) (later : world.clock ≤ clock) :
      Step backoffSec world { world with clock }
  /-- The process ends, or the tick throws. -/
  | stop : Step backoffSec world { world with tick := .idle }
  | list (names : List String) (nodup : names.Nodup)
      (all : ∀ eventId, eventId ∈ names ↔ (disk.queue eventId).isSome) :
      Step backoffSec ⟨disk, .idle, clock, history⟩ ⟨disk, .reading names [], clock, history⟩
  | read (found : disk.queue eventId = some data) :
      Step backoffSec ⟨disk, .reading (eventId :: names) out, clock, history⟩
        ⟨disk, .reading names (out ++ [data]), clock, history⟩
  | unread : Step backoffSec ⟨disk, .reading (eventId :: names) out, clock, history⟩
      ⟨disk, .reading names out, clock, .unread eventId :: history⟩
  | grouped : Step backoffSec ⟨disk, .reading [] out, clock, history⟩
      ⟨disk, .working clock (headsOf out), clock, history⟩
  | notDue (early : now < data.nextAt) :
      Step backoffSec ⟨disk, .working now (data :: heads), clock, history⟩
        ⟨disk, .working now heads, clock, history⟩
  | attempt (due : data.nextAt ≤ now) :
      Step backoffSec ⟨disk, .working now (data :: heads), clock, history⟩
        ⟨disk, .sending now data heads, clock, .attempted data.event.id now :: history⟩
  | send : Step backoffSec ⟨disk, .sending now data heads, clock, history⟩
      ⟨disk, .sent now clock data heads, clock, .accepted data.event.id :: history⟩
  /-- The receiver has accepted the event, but its answer is not heard. -/
  | sendUnheard : Step backoffSec ⟨disk, .sending now data heads, clock, history⟩
      ⟨disk, .failed now data heads, clock, .accepted data.event.id :: history⟩
  | sendFails : Step backoffSec ⟨disk, .sending now data heads, clock, history⟩
      ⟨disk, .failed now data heads, clock, history⟩
  | receipt : Step backoffSec ⟨disk, .sent now deliveredAt data heads, clock, history⟩
      ⟨{ disk with
          delivered := Function.update disk.delivered data.event.id
            (some ⟨data.event, data.attempts + 1, deliveredAt⟩) },
        .receipted now data heads, clock, history⟩
  | receiptFails : Step backoffSec ⟨disk, .sent now deliveredAt data heads, clock, history⟩
      ⟨disk, .failed now data heads, clock, history⟩
  | rm : Step backoffSec ⟨disk, .receipted now data heads, clock, history⟩
      ⟨disk.rm data.event.id, .working now heads, clock, history⟩
  | rmFails : Step backoffSec ⟨disk, .receipted now data heads, clock, history⟩
      ⟨disk, .failed now data heads, clock, history⟩
  | bury (last : backoffSec.length ≤ data.attempts + 1) :
      Step backoffSec ⟨disk, .failed now data heads, clock, history⟩
        ⟨disk.write (died data), .buried now data heads, clock,
          .buried data.event.id :: .counted data.event.id (data.attempts + 1) clock :: history⟩
  | retry (again : data.attempts + 1 < backoffSec.length) :
      Step backoffSec ⟨disk, .failed now data heads, clock, history⟩
        ⟨disk.write (retried backoffSec clock data), .working now heads, clock,
          .counted data.event.id (data.attempts + 1) clock :: history⟩
  | writeFails : Step backoffSec ⟨disk, .failed now data heads, clock, history⟩
      ⟨disk, .working now heads, clock, history⟩
  | audit : Step backoffSec ⟨disk, .buried now data heads, clock, history⟩
      ⟨{ disk with
          audit := disk.audit ++
            [⟨data.event.envelopeId, data.event.id, data.event.type, data.attempts + 1⟩] },
        .working now heads, clock, history⟩
  | auditFails : Step backoffSec ⟨disk, .buried now data heads, clock, history⟩
      ⟨disk, .working now heads, clock, history⟩
  | prune (names : List String) : Step backoffSec ⟨disk, .working now [], clock, history⟩
      ⟨disk, .pruning now names, clock, history⟩
  | pruneOne (receipt : DeliveredFile) (old : disk.delivered eventId = some receipt)
      (past : DELIVERED_RETENTION_MS < now - receipt.deliveredAt) :
      Step backoffSec ⟨disk, .pruning now (eventId :: names), clock, history⟩
        ⟨{ disk with delivered := Function.update disk.delivered eventId none }, .pruning now names,
          clock, history⟩
  | pruneSkip : Step backoffSec ⟨disk, .pruning now (eventId :: names), clock, history⟩
      ⟨disk, .pruning now names, clock, history⟩
  | done : Step backoffSec ⟨disk, .pruning now [], clock, history⟩ ⟨disk, .idle, clock, history⟩

end EsigSuite.DeliveryQueue
