import EsigSuite.Waitlist.BackfillRuns
import EsigSuite.Waitlist.Replay

/-!
# Runs of the replay

A replay that returns `verified` has had the notifier handle every item that was in
the outbox throughout its last scan: the queue has taken the message of its
submission, or the item had expired by the notifier's clock.
-/

namespace EsigSuite.Waitlist.Replay

open Lib
open Notifier
open Backfill (project)

/-- What the notifier has read where it makes a payload or finds the item expired. -/
theorem buildBrokerPayload_eq_some {rt : Runtime} {record : StreamRecord} {now : Option Int}
    {result : Option BrokerPayload} (h : buildBrokerPayload rt record now = some result) :
    ∃ submissionId time expiresAt,
      readStringAttribute record.newImage "submission_id" = some submissionId ∧
      readIntegerAttribute record.newImage "expires_at_epoch" = some expiresAt ∧
      (result = none ∧ expiresAt ≤ time / 1000 ∨
        ∃ payload, result = some payload ∧ payload.submissionId = submissionId) := by
  unfold buildBrokerPayload at h
  split_ifs at h
  dsimp only at h
  split_ifs at h
  obtain ⟨_, _, hsubmission⟩ := Option.bind_eq_some_iff.mp h
  obtain ⟨submissionId, hid, hoffer⟩ := Option.bind_eq_some_iff.mp hsubmission
  obtain ⟨_, _, hsource⟩ := Option.bind_eq_some_iff.mp hoffer
  obtain ⟨_, _, hcreated⟩ := Option.bind_eq_some_iff.mp hsource
  obtain ⟨_, _, hretention⟩ := Option.bind_eq_some_iff.mp hcreated
  obtain ⟨_, _, hexpiry⟩ := Option.bind_eq_some_iff.mp hretention
  obtain ⟨expiresAt, hexpires, hcontact⟩ := Option.bind_eq_some_iff.mp hexpiry
  obtain ⟨_, _, hverification⟩ := Option.bind_eq_some_iff.mp hcontact
  obtain ⟨_, _, hnow⟩ := Option.bind_eq_some_iff.mp hverification
  obtain ⟨time, _, hdate⟩ := Option.bind_eq_some_iff.mp hnow
  obtain ⟨_, _, hdays⟩ := Option.bind_eq_some_iff.mp hdate
  obtain ⟨_, _, hchecks⟩ := Option.bind_eq_some_iff.mp hdays
  refine ⟨submissionId, time, expiresAt, hid, hexpires, ?_⟩
  split_ifs at hchecks with hinvalid hexpired
  · cases hchecks
    exact .inl ⟨rfl, hexpired⟩
  · cases hchecks
    exact .inr ⟨_, rfl, rfl⟩

/-- The message of the submission was sent, or an item of it had expired when the
notifier looked at it. -/
def Processed (taken : List BrokerPayload) (id : JsString) : Prop :=
  (∃ payload ∈ taken, payload.submissionId = id) ∨
    ∃ item time expiresAt, submissionId item = some id ∧
      readIntegerAttribute item "expires_at_epoch" = some expiresAt ∧ expiresAt ≤ time / 1000

/-- The item is one that the notifier looks at. -/
def IsOutbox (item : Item) : Prop :=
  attributeOf item (js "record_type") = some (.S (js "waitlist_notification_outbox"))

def RunOk (nowEpoch : Int) (replayed : List JsString) : Run → Prop
  | .scanning _ items _ => ∀ item ∈ items, IsOutbox item
  | .invoking _ rest => ∀ item ∈ rest, IsOutbox item
  | .verified _ items there => Complete nowEpoch there items ∧
      ∀ item ∈ items, ∃ id ∈ replayed, submissionId item = some id
  | .failed => True

structure World.Ok (nowEpoch : Int) (world : World) : Prop where
  replayed : ∀ id ∈ world.replayed, Processed world.taken id
  run : RunOk nowEpoch world.replayed world.run

section
variable {rt : Runtime} {nowEpoch : Int} {world world' : World} {taken : List BrokerPayload}
  {item row : Item} {id key : JsString} {answer : Answer} {batch : Batch}

theorem Processed.append (h : Processed taken id) (more : List BrokerPayload) :
    Processed (taken ++ more) id := by
  rcases h with ⟨payload, hmem, hid⟩ | hexpired
  · exact .inl ⟨payload, List.mem_append_left _ hmem, hid⟩
  · exact .inr hexpired

theorem Processed.prepend (h : Processed taken id) (before : List BrokerPayload) :
    Processed (before ++ taken) id := by
  rcases h with ⟨payload, hmem, hid⟩ | hexpired
  · exact .inl ⟨payload, List.mem_append_right _ hmem, hid⟩
  · exact .inr hexpired

theorem isOutbox_project (h : due nowEpoch row = true) :
    IsOutbox (project OUTBOX_IMAGE_FIELDS row) := by
  unfold IsOutbox
  rw [Backfill.attributeOf_project (by decide)]
  simp only [due, Bool.and_eq_true, beq_iff_eq] at h
  exact h.1

theorem isEligibleInsert_replayEvent (h : IsOutbox item) :
    isEligibleInsert (replayEvent item id).toStreamRecord = true := by
  unfold IsOutbox at h
  simp [isEligibleInsert, replayEvent, h]

/-- An invocation that returns no failure. -/
theorem processed_of_clean (houtbox : IsOutbox item) (hvalid : submissionId item = some id)
    (hreturned : waitlistNotifier rt [(replayEvent item id, answer)] = .ok batch)
    (hclean : batch.failures = []) : Processed batch.taken id := by
  have hok := waitlistNotifier_ok hreturned
  have hread : readStringAttribute item "submission_id" = some id :=
    (Option.filter_eq_some_iff.mp hvalid).1
  rcases hok.handled _ List.mem_cons_self (isEligibleInsert_replayEvent houtbox) with
    ⟨payload, hbuilt, hdelivered⟩ | hexpired | ⟨number, hnumber, -⟩
  · obtain ⟨_, _, _, hid, -, ⟨hnone, -⟩ | ⟨_, hsome, rfl⟩⟩ := buildBrokerPayload_eq_some hbuilt
    · cases hnone
    cases hsome
    obtain ⟨sent, hsent, hsame⟩ := hok.delivered _ hdelivered
    exact .inl ⟨sent, hsent, hsame.trans (Option.some.inj (hid.symm.trans hread))⟩
  · obtain ⟨_, time, expiresAt, -, hexpires, ⟨-, hle⟩ | ⟨_, hsome, -⟩⟩ :=
      buildBrokerPayload_eq_some hexpired
    · exact .inr ⟨item, time, expiresAt, hvalid, hexpires, hle⟩
    · cases hsome
  · rw [hclean] at hnumber
    cases hnumber

theorem replayed_of_pending (hnone : pending replayed items = []) (hmem : item ∈ items)
    (hvalid : (submissionId item).isSome) : ∃ id ∈ replayed, submissionId item = some id := by
  obtain ⟨id, hid⟩ := Option.isSome_iff_exists.mp hvalid
  refine ⟨id, ?_, hid⟩
  have hskipped := List.filter_eq_nil_iff.mp hnone item hmem
  simpa [hid] using hskipped

theorem World.Ok.start (outbox : Rows) : World.Ok nowEpoch (.start outbox) where
  replayed _ h := by cases h
  run _ h := by cases h

theorem World.Ok.step (h : World.Ok nowEpoch world) (hnext : Next rt nowEpoch world world') :
    World.Ok nowEpoch world' := by
  obtain ⟨hreplayed, hrun⟩ := h
  cases hnext with
  | changed key row =>
    obtain ⟨outbox, taken, replayed, run⟩ := world
    refine ⟨hreplayed, ?_⟩
    cases run <;> exact hrun
  | read key row found matches_ =>
    refine ⟨hreplayed, fun item hitem => ?_⟩
    rcases List.mem_append.mp hitem with hitem | hitem
    · exact hrun item hitem
    · rw [List.mem_singleton.mp hitem]
      exact isOutbox_project matches_
  | scanned complete valid more =>
    exact ⟨hreplayed, fun item hitem => hrun item (List.mem_of_mem_filter hitem)⟩
  | verify complete valid none_ =>
    exact ⟨hreplayed, complete, fun item hitem => replayed_of_pending none_ hitem (valid item hitem)⟩
  | invoke id valid answer returned clean =>
    refine ⟨fun other hother => ?_, fun item hitem => hrun item (List.mem_cons_of_mem _ hitem)⟩
    rcases List.mem_append.mp hother with hother | hother
    · exact (hreplayed other hother).append _
    · rw [List.mem_singleton.mp hother]
      exact (processed_of_clean (hrun _ List.mem_cons_self) valid returned clean).prepend _
  | invokeFails id valid answer ran => exact ⟨fun other hother => (hreplayed other hother).append _, trivial⟩
  | nextPass more => exact ⟨hreplayed, fun _ h => by cases h⟩
  | stop going => exact ⟨hreplayed, trivial⟩

theorem World.Ok.all {outbox : Rows}
    (hrun : Relation.ReflTransGen (Next rt nowEpoch) (.start outbox) world) :
    World.Ok nowEpoch world := by
  induction hrun with
  | refl => exact .start outbox
  | tail _ hnext ih => exact ih.step hnext

end

-- ---------------------------------------------------------------------------
-- A run
-- ---------------------------------------------------------------------------

namespace Sample

open Backfill.Sample (runtime legacyId)

/-- A submission of 2025-08-06. -/
def submission : OutboxSource where
  submission_id := legacyId
  created_at := js "2025-08-06T17:06:40.123Z"
  record_type := js "waitlist_submission"
  submission_id_version := js "random-v1"
  offer := js "business"
  source := js "pricing"
  retention_class := js "waitlist_90d"
  contact_permission_status := js "asserted_unverified"
  email_verification_status := js "unverified"
  expires_at_epoch := 1762276000

def row : Item := (outboxOf submission).toDynamoItem

def rows : Rows := fun key => if key = outboxKey legacyId then some row else none

def item : Item := project OUTBOX_IMAGE_FIELDS row

def answer : Answer := ⟨some 1754500000000, .taken⟩

theorem notifiable : Notifiable runtime submission 1754500000123 90 := by
  constructor <;> decide +kernel

theorem row_eq : row = (outboxOf submission).toDynamoItem.dropLast ++
    [(js "expires_at_epoch", .N (js "1762276000"))] := by
  have hnumber : numberAttribute 1762276000 = .N (js "1762276000") := by
    rw [numberAttribute, Double.text_int (by decide)]
    decide +kernel
  rw [← hnumber]
  rfl

/-- What the scan and the run read of the row. -/
theorem reads : due 1754500000 row = true ∧ submissionId item = some legacyId ∧
    item.Perm (outboxOf submission).toDynamoItem := by
  change due 1754500000 row = true ∧ submissionId (project OUTBOX_IMAGE_FIELDS row) = some legacyId ∧
    (project OUTBOX_IMAGE_FIELDS row).Perm row
  rw [row_eq]
  decide +kernel

/-- The notifier sends the message of the row. -/
theorem returned : waitlistNotifier runtime [(replayEvent item legacyId, answer)] =
    .ok ⟨[], [legacyId], [payloadOf submission]⟩ := by
  have hbuilt : buildBrokerPayload runtime (replayEvent item legacyId).toStreamRecord answer.now =
      some (some (payloadOf submission)) :=
    buildBrokerPayload_outboxOf notifiable (by decide +kernel) reads.2.2 (by decide +kernel)
      (by decide)
  have heligible : isEligibleInsert (replayEvent item legacyId).toStreamRecord = true :=
    isEligibleInsert_replayEvent (isOutbox_project reads.1)
  have hone : handleRecord runtime {} (replayEvent item legacyId) answer =
      .ok ⟨[], [legacyId], [payloadOf submission]⟩ := by
    unfold handleRecord
    rw [if_neg (by simp [heligible]), hbuilt]
    rfl
  unfold waitlistNotifier
  rw [List.foldlM_cons, hone]
  rfl

theorem rows_eq {key : JsString} {found : Item} (h : rows key = some found) : found = row := by
  unfold rows at h
  split at h
  · exact (Option.some.inj h).symm
  · cases h

theorem complete : Complete 1754500000 rows [item] := by
  intro key found hfound hdue
  rw [rows_eq hfound]
  exact List.mem_singleton_self _

/-- A pass that replays the row, and one that finds it replayed. -/
theorem run : ∃ taken replayed,
    Relation.ReflTransGen (Next runtime 1754500000) (.start rows)
      ⟨rows, taken, replayed, .verified 2 [item] rows⟩ := by
  obtain ⟨hdue, hid, -⟩ := reads
  have hfound : rows (outboxKey legacyId) = some row := if_pos rfl
  have hvalid : ∀ found ∈ [item], (submissionId found).isSome := by
    intro found hmem
    rw [List.mem_singleton.mp hmem, hid]
    rfl
  have hfirst : pending [] [item] = [item] := by simp [pending]
  have hsecond : pending [legacyId] [item] = [] := by simp [pending, hid]
  refine ⟨[payloadOf submission], [legacyId], ?_⟩
  refine .head (.read _ row hfound hdue) (.head (.scanned complete hvalid ?_) ?_)
  · exact fun h => List.cons_ne_nil _ _ (hfirst.symm.trans h)
  change Relation.ReflTransGen (Next runtime 1754500000)
    ⟨rows, [], [], .invoking 1 (pending [] [item])⟩ _
  rw [hfirst]
  refine .head (.invoke legacyId hid answer returned rfl) (.head (.nextPass (by decide)) ?_)
  exact .head (.read _ row hfound hdue) (.single (.verify complete hvalid hsecond))

end Sample

end EsigSuite.Waitlist.Replay
