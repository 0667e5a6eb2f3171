import EsigSuite.Waitlist.BackfillTables
import EsigSuite.Waitlist.NotifierBatch
import Mathlib.Logic.Relation

/-!
# The replay of the outbox

`replay-outbox.js`: three passes at most, each a scan of the items that have not
expired and then one after another an invocation of the notifier for those that the
run has not replayed. A run goes in the steps between its calls, and the outbox
changes between them.
-/

namespace EsigSuite.Waitlist.Replay

open Lib
open Notifier
open Backfill (project)

/-- Nothing is an error. -/
def submissionId (item : Item) : Option JsString :=
  (readStringAttribute item "submission_id").filter (isSubmissionId ·)

def hexValue (digits : JsString) : Nat :=
  digits.foldl (fun value unit => 16 * value + (unit.toNat - if unit < 0x61 then 0x30 else 0x57)) 0

/-- `` BigInt(`0x${id.slice(3)}`).toString(10) `` -/
def sequenceNumberOf (id : JsString) : JsString := .ofText (Nat.toDigits 10 (hexValue (id.drop 3)))

def replayEvent (item : Item) (id : JsString) : SequencedRecord where
  eventSource := js "aws:dynamodb"
  eventName := js "INSERT"
  newImage := item
  sequenceNumber := some (sequenceNumberOf id)

/-- The filter expression of the scan. -/
def due (nowEpoch : Int) (row : Item) : Bool :=
  attributeOf row (js "record_type") == some (.S (js "waitlist_notification_outbox")) &&
    match attributeOf row (js "expires_at_epoch") with
    | some (.N text) =>
      match numberOfText text with
      | some (.finite value) => nowEpoch * value.den < value.num
      | _ => false
    | _ => false

/-- Rows of the outbox under their keys. -/
abbrev Rows := JsString → Option Item

inductive Run
  /-- In `scan`, with the items so far and the rows that have been there since it began. -/
  | scanning (pass : Nat) (items : List Item) (there : Rows)
  | invoking (pass : Nat) (rest : List Item)
  /-- Returned `verified`. -/
  | verified (pass : Nat) (items : List Item) (there : Rows)
  /-- An error was thrown, or the process is gone. -/
  | failed

/-- A row that changes has not been there since the scan began. -/
def Run.changed (key : JsString) : Run → Run
  | .scanning pass items there => .scanning pass items (Function.update there key none)
  | run => run

structure World where
  outbox : Rows
  /-- The messages of this run that the queue has taken. -/
  taken : List BrokerPayload
  replayed : List JsString
  run : Run

def World.start (outbox : Rows) : World := ⟨outbox, [], [], .scanning 1 [] outbox⟩

def pending (replayed : List JsString) (items : List Item) : List Item :=
  items.filter fun item => !(submissionId item).any (· ∈ replayed)

/-- A scan returns each row that was there all the time. -/
def Complete (nowEpoch : Int) (there : Rows) (items : List Item) : Prop :=
  ∀ key row, there key = some row → due nowEpoch row = true → project OUTBOX_IMAGE_FIELDS row ∈ items

inductive Next (rt : Runtime) (nowEpoch : Int) : World → World → Prop
  /-- Handlers put rows, and rows are removed when they have expired. -/
  | changed (key : JsString) (row : Option Item) :
      Next rt nowEpoch world
        { world with outbox := Function.update world.outbox key row, run := world.run.changed key }
  | read (key : JsString) (row : Item) (found : outbox key = some row)
      (matches_ : due nowEpoch row = true) :
      Next rt nowEpoch ⟨outbox, taken, replayed, .scanning n items there⟩
        ⟨outbox, taken, replayed,
          .scanning n (items ++ [project OUTBOX_IMAGE_FIELDS row]) there⟩
  | scanned (complete : Complete nowEpoch there items)
      (valid : ∀ item ∈ items, (submissionId item).isSome) (more : pending replayed items ≠ []) :
      Next rt nowEpoch ⟨outbox, taken, replayed, .scanning n items there⟩
        ⟨outbox, taken, replayed, .invoking n (pending replayed items)⟩
  | verify (complete : Complete nowEpoch there items)
      (valid : ∀ item ∈ items, (submissionId item).isSome) (none_ : pending replayed items = []) :
      Next rt nowEpoch ⟨outbox, taken, replayed, .scanning n items there⟩
        ⟨outbox, taken, replayed, .verified n items there⟩
  | invoke (id : JsString) (valid : submissionId item = some id) (answer : Answer)
      (returned : waitlistNotifier rt [(replayEvent item id, answer)] = .ok batch)
      (clean : batch.failures = []) :
      Next rt nowEpoch ⟨outbox, taken, replayed, .invoking n (item :: rest)⟩
        ⟨outbox, taken ++ batch.taken, replayed ++ [id], .invoking n rest⟩
  /-- The notifier may have run, but what it returned is not known or not clean. -/
  | invokeFails (id : JsString) (valid : submissionId item = some id) (answer : Answer)
      (ran : waitlistNotifier rt [(replayEvent item id, answer)] = .ok batch ∨
        waitlistNotifier rt [(replayEvent item id, answer)] = .error batch) :
      Next rt nowEpoch ⟨outbox, taken, replayed, .invoking n (item :: rest)⟩
        ⟨outbox, taken ++ batch.taken, replayed, .failed⟩
  | nextPass (more : n < 3) :
      Next rt nowEpoch ⟨outbox, taken, replayed, .invoking n []⟩
        ⟨outbox, taken, replayed, .scanning (n + 1) [] outbox⟩
  | stop (going : ∀ n items there, run ≠ .verified n items there) :
      Next rt nowEpoch ⟨outbox, taken, replayed, run⟩ ⟨outbox, taken, replayed, .failed⟩

end EsigSuite.Waitlist.Replay
