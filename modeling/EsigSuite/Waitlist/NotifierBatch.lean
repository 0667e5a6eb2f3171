import EsigSuite.Waitlist.Notifier

/-!
# Batches of the waitlist notifier

The handler of `notifier.js` for the records of one event. A record that it could
not send is reported by its sequence number, and a batch with a failure that has
none fails as a whole.
-/

namespace EsigSuite.Waitlist.Notifier

open Lib

structure SequencedRecord extends StreamRecord where
  /-- `dynamodb.SequenceNumber`, where it is a text. -/
  sequenceNumber : Option JsString

/-- `/^[0-9]{1,128}$/` -/
def isSequenceNumber (text : JsString) : Bool :=
  1 ≤ text.length && text.length ≤ 128 && text.all isDigitUnit

def readSequenceNumber (record : SequencedRecord) : Option JsString :=
  record.sequenceNumber.filter (isSequenceNumber ·)

/-- How a call of `sendMessage` ends. -/
inductive Sent
  | taken
  /-- The queue has taken the message, but the call fails. -/
  | unheard
  | failed
  deriving DecidableEq

/-- The time at a record, and how the call ends if there is one. -/
structure Answer where
  now : Option Int
  sent : Sent

structure Batch where
  /-- `failures`, and `failedSequenceNumbers` -/
  failures : List JsString := []
  /-- `deliveredSubmissionIds` -/
  delivered : List JsString := []
  /-- The messages that the queue has taken. -/
  taken : List BrokerPayload := []

/-- The `catch` of the loop. -/
def Batch.fail (batch : Batch) (sequenceNumber : Option JsString) : Except Batch Batch :=
  match sequenceNumber with
  | none => .error batch
  | some number =>
    if number ∈ batch.failures then .ok batch
    else .ok { batch with failures := batch.failures ++ [number] }

def Batch.take (batch : Batch) (payload : BrokerPayload) : Batch :=
  { batch with taken := batch.taken ++ [payload] }

section
variable (rt : Runtime)

def handleRecord (batch : Batch) (record : SequencedRecord) (answer : Answer) :
    Except Batch Batch :=
  if !isEligibleInsert record.toStreamRecord then .ok batch
  else
    match buildBrokerPayload rt record.toStreamRecord answer.now with
    | none => batch.fail (readSequenceNumber record)
    | some none => .ok batch
    | some (some payload) =>
      if payload.submissionId ∈ batch.delivered then .ok batch
      else
        match answer.sent with
        | .taken =>
          .ok { batch.take payload with delivered := batch.delivered ++ [payload.submissionId] }
        | .unheard => (batch.take payload).fail (readSequenceNumber record)
        | .failed => batch.fail (readSequenceNumber record)

/-- `waitlistNotifier` for records of the stream. An error tells what the queue had
taken before it. -/
def waitlistNotifier (records : List (SequencedRecord × Answer)) : Except Batch Batch :=
  records.foldlM (fun batch entry => handleRecord rt batch entry.1 entry.2) {}

/-- What has become of a record: its message was sent, it has expired, or it is
reported. -/
def Handled (batch : Batch) (entry : SequencedRecord × Answer) : Prop :=
  (∃ payload, buildBrokerPayload rt entry.1.toStreamRecord entry.2.now = some (some payload) ∧
    payload.submissionId ∈ batch.delivered) ∨
  buildBrokerPayload rt entry.1.toStreamRecord entry.2.now = some none ∨
  ∃ number ∈ batch.failures, readSequenceNumber entry.1 = some number

/-- What holds of a batch after these records. -/
structure Batch.Ok (records : List (SequencedRecord × Answer)) (batch : Batch) : Prop where
  handled : ∀ entry ∈ records, isEligibleInsert entry.1.toStreamRecord = true →
    Handled rt batch entry
  once : batch.delivered.Nodup
  delivered : ∀ submissionId ∈ batch.delivered, ∃ payload ∈ batch.taken,
    payload.submissionId = submissionId
  taken : ∀ payload ∈ batch.taken, ∃ entry ∈ records,
    buildBrokerPayload rt entry.1.toStreamRecord entry.2.now = some (some payload)
  apart : batch.failures.Nodup
  failed : ∀ number ∈ batch.failures, ∃ entry ∈ records,
    isEligibleInsert entry.1.toStreamRecord = true ∧ readSequenceNumber entry.1 = some number
  heard : (∀ entry ∈ records, entry.2.sent ≠ .unheard) →
    batch.taken.map (·.submissionId) = batch.delivered

/-- The record is the reason why the batch fails as a whole. -/
def Fatal (entry : SequencedRecord × Answer) : Prop :=
  isEligibleInsert entry.1.toStreamRecord = true ∧ readSequenceNumber entry.1 = none ∧
    (buildBrokerPayload rt entry.1.toStreamRecord entry.2.now = none ∨
      ∃ payload, buildBrokerPayload rt entry.1.toStreamRecord entry.2.now = some (some payload) ∧
        entry.2.sent ≠ .taken)

end

section
variable {rt : Runtime} {records : List (SequencedRecord × Answer)} {batch : Batch}
  {entry : SequencedRecord × Answer}

theorem Handled.mono {after : Batch} (h : Handled rt batch entry)
    (hdelivered : batch.delivered ⊆ after.delivered) (hfailures : batch.failures ⊆ after.failures) :
    Handled rt after entry := by
  rcases h with ⟨payload, hpayload, hmem⟩ | hexpired | ⟨number, hmem, hnumber⟩
  · exact .inl ⟨payload, hpayload, hdelivered hmem⟩
  · exact .inr (.inl hexpired)
  · exact .inr (.inr ⟨number, hfailures hmem, hnumber⟩)

theorem Batch.Ok.empty : Batch.Ok rt [] {} where
  handled _ h := by cases h
  once := List.nodup_nil
  delivered _ h := by cases h
  taken _ h := by cases h
  apart := List.nodup_nil
  failed _ h := by cases h
  heard _ := rfl

/-- What one record may add to a batch. -/
structure Adds (rt : Runtime) (batch after : Batch) (entry : SequencedRecord × Answer) : Prop where
  taken : after.taken = batch.taken ∧ after.delivered = batch.delivered ∨
    ∃ payload, buildBrokerPayload rt entry.1.toStreamRecord entry.2.now = some (some payload) ∧
      after.taken = batch.taken ++ [payload] ∧
      (entry.2.sent = .unheard ∧ after.delivered = batch.delivered ∨
        payload.submissionId ∉ batch.delivered ∧
          after.delivered = batch.delivered ++ [payload.submissionId])
  failures : after.failures = batch.failures ∨
    ∃ number ∉ batch.failures, after.failures = batch.failures ++ [number] ∧
      isEligibleInsert entry.1.toStreamRecord = true ∧ readSequenceNumber entry.1 = some number
  handled : isEligibleInsert entry.1.toStreamRecord = true → Handled rt after entry

theorem Batch.Ok.next {after : Batch} (h : Batch.Ok rt records batch) (hadds : Adds rt batch after entry) :
    Batch.Ok rt (records ++ [entry]) after := by
  have hlast : entry ∈ records ++ [entry] := List.mem_append_right _ List.mem_cons_self
  have hold : ∀ {other}, other ∈ records → other ∈ records ++ [entry] := List.mem_append_left _
  have hdelivered : batch.delivered ⊆ after.delivered := by
    rcases hadds.taken with ⟨-, heq⟩ | ⟨payload, -, -, ⟨-, heq⟩ | ⟨-, heq⟩⟩ <;> simp [heq]
  have hfailures : batch.failures ⊆ after.failures := by
    rcases hadds.failures with heq | ⟨number, -, heq, -⟩ <;> simp [heq]
  constructor
  · intro other hother heligible
    rcases List.mem_append.mp hother with hother | hother
    · exact (h.handled other hother heligible).mono hdelivered hfailures
    · obtain rfl := List.mem_singleton.mp hother
      exact hadds.handled heligible
  · rcases hadds.taken with ⟨-, heq⟩ | ⟨payload, -, -, ⟨-, heq⟩ | ⟨hnew, heq⟩⟩ <;> rw [heq]
    · exact h.once
    · exact h.once
    · rw [← List.concat_eq_append]
      exact h.once.concat hnew
  · intro submissionId hmem
    rcases hadds.taken with ⟨htaken, heq⟩ | ⟨payload, -, htaken, ⟨-, heq⟩ | ⟨-, heq⟩⟩ <;>
      rw [heq] at hmem <;> rw [htaken]
    · exact h.delivered submissionId hmem
    · obtain ⟨found, hfound, hid⟩ := h.delivered submissionId hmem
      exact ⟨found, List.mem_append_left _ hfound, hid⟩
    · rcases List.mem_append.mp hmem with hmem | hmem
      · obtain ⟨found, hfound, hid⟩ := h.delivered submissionId hmem
        exact ⟨found, List.mem_append_left _ hfound, hid⟩
      · exact ⟨payload, List.mem_append_right _ List.mem_cons_self,
          (List.mem_singleton.mp hmem).symm⟩
  · have hbefore : ∀ payload ∈ batch.taken, ∃ entry' ∈ records ++ [entry],
        buildBrokerPayload rt entry'.1.toStreamRecord entry'.2.now = some (some payload) := by
      intro payload hpayload
      obtain ⟨other, hother, hbuilt⟩ := h.taken payload hpayload
      exact ⟨other, hold hother, hbuilt⟩
    rcases hadds.taken with ⟨htaken, -⟩ | ⟨payload, hbuilt, htaken, -⟩ <;> rw [htaken]
    · exact hbefore
    · intro found hfound
      rcases List.mem_append.mp hfound with hfound | hfound
      · exact hbefore found hfound
      · rw [List.mem_singleton.mp hfound]
        exact ⟨entry, hlast, hbuilt⟩
  · rcases hadds.failures with heq | ⟨number, hnew, heq, -⟩ <;> rw [heq]
    · exact h.apart
    · rw [← List.concat_eq_append]
      exact h.apart.concat hnew
  · have hbefore : ∀ number ∈ batch.failures, ∃ entry' ∈ records ++ [entry],
        isEligibleInsert entry'.1.toStreamRecord = true ∧
          readSequenceNumber entry'.1 = some number := by
      intro number hnumber
      obtain ⟨other, hother, hread⟩ := h.failed number hnumber
      exact ⟨other, hold hother, hread⟩
    rcases hadds.failures with heq | ⟨number, -, heq, heligible, hread⟩ <;> rw [heq]
    · exact hbefore
    · intro found hfound
      rcases List.mem_append.mp hfound with hfound | hfound
      · exact hbefore found hfound
      · rw [List.mem_singleton.mp hfound]
        exact ⟨entry, hlast, heligible, hread⟩
  · intro hheard
    have hbefore := h.heard fun other hother => hheard other (hold hother)
    rcases hadds.taken with ⟨htaken, heq⟩ | ⟨payload, -, htaken, ⟨hunheard, -⟩ | ⟨-, heq⟩⟩
    · rw [htaken, heq, hbefore]
    · exact absurd hunheard (hheard entry hlast)
    · rw [htaken, heq, List.map_append, hbefore]
      rfl

/-- What the `catch` adds. -/
theorem Batch.fail_eq_ok {sequenceNumber : Option JsString} {after : Batch}
    (h : batch.fail sequenceNumber = .ok after) :
    after.taken = batch.taken ∧ after.delivered = batch.delivered ∧
      ∃ number, sequenceNumber = some number ∧ number ∈ after.failures ∧
        (after.failures = batch.failures ∨
          number ∉ batch.failures ∧ after.failures = batch.failures ++ [number]) := by
  cases sequenceNumber with
  | none => cases h
  | some number =>
    unfold Batch.fail at h
    dsimp only at h
    split at h
    next hmem =>
      cases h
      exact ⟨rfl, rfl, number, rfl, hmem, .inl rfl⟩
    next hmem =>
      cases h
      exact ⟨rfl, rfl, number, rfl, List.mem_append_right _ List.mem_cons_self, .inr ⟨hmem, rfl⟩⟩

theorem Batch.fail_eq_error {sequenceNumber : Option JsString} {after : Batch}
    (h : batch.fail sequenceNumber = .error after) : sequenceNumber = none ∧ after = batch := by
  cases sequenceNumber with
  | none =>
    cases h
    exact ⟨rfl, rfl⟩
  | some number =>
    unfold Batch.fail at h
    dsimp only at h
    split at h <;> cases h

/-- A record whose failure is reported. -/
theorem Adds.of_fail {taken after : Batch}
    (heligible : isEligibleInsert entry.1.toStreamRecord = true)
    (hfailures : taken.failures = batch.failures)
    (htaken : taken.taken = batch.taken ∧ taken.delivered = batch.delivered ∨
      ∃ payload, buildBrokerPayload rt entry.1.toStreamRecord entry.2.now = some (some payload) ∧
        taken.taken = batch.taken ++ [payload] ∧
        (entry.2.sent = .unheard ∧ taken.delivered = batch.delivered ∨
          payload.submissionId ∉ batch.delivered ∧
            taken.delivered = batch.delivered ++ [payload.submissionId]))
    (h : taken.fail (readSequenceNumber entry.1) = .ok after) : Adds rt batch after entry := by
  obtain ⟨htaken', hdelivered', number, hnumber, hmem, hcases⟩ := Batch.fail_eq_ok h
  refine ⟨?_, ?_, fun _ => .inr (.inr ⟨number, hmem, hnumber⟩)⟩
  · rw [htaken', hdelivered']
    exact htaken
  · rw [← hfailures]
    rcases hcases with heq | ⟨hnew, heq⟩
    · exact .inl heq
    · exact .inr ⟨number, hnew, heq, heligible, hnumber⟩

theorem handleRecord_adds {after : Batch}
    (h : handleRecord rt batch entry.1 entry.2 = .ok after) : Adds rt batch after entry := by
  unfold handleRecord at h
  by_cases heligible : isEligibleInsert entry.1.toStreamRecord = true
  swap
  · rw [if_pos (by simpa using heligible)] at h
    cases h
    exact ⟨.inl ⟨rfl, rfl⟩, .inl rfl, fun h => absurd h heligible⟩
  rw [if_neg (by simpa using heligible)] at h
  rcases hbuilt : buildBrokerPayload rt entry.1.toStreamRecord entry.2.now with _ | _ | payload
  · rw [hbuilt] at h
    exact .of_fail heligible rfl (.inl ⟨rfl, rfl⟩) h
  · rw [hbuilt] at h
    cases h
    exact ⟨.inl ⟨rfl, rfl⟩, .inl rfl, fun _ => .inr (.inl hbuilt)⟩
  · rw [hbuilt] at h
    dsimp only at h
    split at h
    next hmem =>
      cases h
      exact ⟨.inl ⟨rfl, rfl⟩, .inl rfl, fun _ => .inl ⟨payload, hbuilt, hmem⟩⟩
    next hnew =>
      cases hsent : entry.2.sent with
      | taken =>
        rw [hsent] at h
        cases h
        refine ⟨.inr ⟨payload, hbuilt, rfl, .inr ⟨hnew, rfl⟩⟩, .inl rfl, fun _ => .inl ⟨payload, hbuilt, ?_⟩⟩
        exact List.mem_append_right _ List.mem_cons_self
      | unheard =>
        rw [hsent] at h
        have hfailures : (batch.take payload).failures = batch.failures := rfl
        exact .of_fail heligible hfailures (.inr ⟨payload, hbuilt, rfl, .inl ⟨hsent, rfl⟩⟩) h
      | failed =>
        rw [hsent] at h
        exact .of_fail heligible rfl (.inl ⟨rfl, rfl⟩) h

theorem handleRecord_fatal {after : Batch}
    (h : handleRecord rt batch entry.1 entry.2 = .error after) : Fatal rt entry := by
  unfold handleRecord at h
  by_cases heligible : isEligibleInsert entry.1.toStreamRecord = true
  swap
  · rw [if_pos (by simpa using heligible)] at h
    cases h
  rw [if_neg (by simpa using heligible)] at h
  rcases hbuilt : buildBrokerPayload rt entry.1.toStreamRecord entry.2.now with _ | _ | payload
  · rw [hbuilt] at h
    exact ⟨heligible, (Batch.fail_eq_error h).1, .inl hbuilt⟩
  · rw [hbuilt] at h
    cases h
  · rw [hbuilt] at h
    dsimp only at h
    split at h
    · cases h
    cases hsent : entry.2.sent with
    | taken =>
      rw [hsent] at h
      cases h
    | unheard | failed =>
      rw [hsent] at h
      refine ⟨heligible, (Batch.fail_eq_error h).1, .inr ⟨payload, hbuilt, ?_⟩⟩
      rw [hsent]
      intro heq
      cases heq

/-- The loop, from a batch that is right for the records before. -/
theorem foldlM_ok {before : List (SequencedRecord × Answer)} (h : Batch.Ok rt before batch) :
    match records.foldlM (fun batch entry => handleRecord rt batch entry.1 entry.2) batch with
    | .ok after => Batch.Ok rt (before ++ records) after
    | .error _ => ∃ entry ∈ records, Fatal rt entry := by
  induction records generalizing before batch with
  | nil => simpa [pure, Except.pure] using h
  | cons entry records ih =>
    rw [List.foldlM_cons]
    cases hentry : handleRecord rt batch entry.1 entry.2 with
    | error after => exact ⟨entry, List.mem_cons_self, handleRecord_fatal hentry⟩
    | ok next =>
      have hrest := ih (h.next (handleRecord_adds hentry))
      rw [List.append_assoc, List.singleton_append] at hrest
      change match records.foldlM (fun batch entry => handleRecord rt batch entry.1 entry.2) next with
        | .ok after => Batch.Ok rt (before ++ entry :: records) after
        | .error _ => ∃ entry' ∈ entry :: records, Fatal rt entry'
      revert hrest
      cases records.foldlM (fun batch entry => handleRecord rt batch entry.1 entry.2) next with
      | ok after => exact id
      | error after =>
        rintro ⟨fatal, hmem, hfatal⟩
        exact ⟨fatal, List.mem_cons_of_mem _ hmem, hfatal⟩

theorem waitlistNotifier_ok (h : waitlistNotifier rt records = .ok batch) :
    Batch.Ok rt records batch := by
  have hloop := @foldlM_ok rt records {} [] .empty
  unfold waitlistNotifier at h
  rw [h] at hloop
  exact hloop

theorem waitlistNotifier_fatal (h : waitlistNotifier rt records = .error batch) :
    ∃ entry ∈ records, Fatal rt entry := by
  have hloop := @foldlM_ok rt records {} [] .empty
  unfold waitlistNotifier at h
  rw [h] at hloop
  exact hloop

/-- Whatever the queue and the clock answer, each insert of the outbox in a batch has
its message sent, has expired or is reported by its number, and no message that was
heard is sent twice. A batch fails as a whole for an insert without a number only. -/
theorem batch_accounted (rt : Runtime) (records : List (SequencedRecord × Answer)) :
    match waitlistNotifier rt records with
    | .ok batch => Batch.Ok rt records batch
    | .error _ => ∃ entry ∈ records, Fatal rt entry := by
  cases h : waitlistNotifier rt records with
  | ok batch => exact waitlistNotifier_ok h
  | error batch => exact waitlistNotifier_fatal h

end

end EsigSuite.Waitlist.Notifier
