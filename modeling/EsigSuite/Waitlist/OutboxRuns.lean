import EsigSuite.Waitlist.OutboxItems

/-!
# Outbox items of a waitlist

Requests that are handled one after another as their transactions commit, while
rows expire at any time. A request that is accepted for an address that is no
smoke test stores an outbox item which the notifier accepts until it expires,
and no second one is written for an address and an offer while the submission
stays stored.
-/

namespace EsigSuite.Waitlist

open Lib

section
variable (rt : Runtime)

/-- A transaction that commits, or a row that DynamoDB removes. The settings are
those of the instance that handles the request. -/
inductive Event
  | submitted (settings : Settings) (request : Request)
  | submissionRemoved (key : JsString)
  | outboxRemoved (key : JsString)

/-- A request, and the outbox item that it writes with the submission that this
is of. -/
def Tables.submit (tables : Tables) (settings : Settings) (request : Request) :
    Tables × Option (Submission × Outbox) :=
  match waitlistHandler rt settings request with
  | .stores items =>
    match tables.transact items with
    | some after => (after, items.outbox.map fun outbox => (items.submission, outbox))
    | none => (tables, none)
  | _ => (tables, none)

def Tables.step (tables : Tables) : Event → Tables × Option (Submission × Outbox)
  | .submitted settings request => tables.submit rt settings request
  | .submissionRemoved key =>
    ({ tables with submissions := Function.update tables.submissions key none }, none)
  | .outboxRemoved key => ({ tables with outbox := Function.update tables.outbox key none }, none)

def Tables.after (tables : Tables) (events : List Event) : Tables :=
  events.foldl (fun tables event => (tables.step rt event).1) tables

/-- The outbox items that a run writes. -/
def outboxWrites (tables : Tables) : List Event → List (Submission × Outbox)
  | [] => []
  | event :: events =>
    (tables.step rt event).2.toList ++ outboxWrites (tables.step rt event).1 events

/-- The item was written for the address and the offer. -/
def WrittenFor (email offer : JsString) (written : Submission × Outbox) : Prop :=
  written.1.email = email ∧ written.1.offer = offer

instance (email offer : JsString) (written : Submission × Outbox) :
    Decidable (WrittenFor email offer written) := inferInstanceAs (Decidable (_ ∧ _))

end

section
variable {rt : Runtime}

-- ---------------------------------------------------------------------------
-- Requests
-- ---------------------------------------------------------------------------

theorem createSubmission_key {value : Value} {now : Int} {days hours : Nat} {bytes : List UInt8}
    {submission : Submission} (h : createSubmission rt value now days hours bytes = some submission) :
    submission.submission_key = submissionKey rt submission.email submission.offer := by
  simp only [createSubmission, Option.bind_eq_bind, Option.bind_eq_some_iff] at h
  obtain ⟨id, -, h⟩ := h
  obtain rfl := Option.some.inj h
  rfl

theorem putSubmission_submission {submission : Submission} {items : TransactItems}
    (h : putSubmission rt submission = some items) : items.submission = submission := by
  unfold putSubmission at h
  split_ifs at h
  · simp only [Option.bind_eq_bind, Option.bind_eq_some_iff] at h
    obtain ⟨outbox, -, h⟩ := h
    rw [← Option.some.inj h]
  · rw [← Option.some.inj h]

theorem stores_key {settings : Settings} {request : Request} {items : TransactItems}
    (h : waitlistHandler rt settings request = .stores items) :
    items.submission.submission_key =
      submissionKey rt items.submission.email items.submission.offer := by
  unfold waitlistHandler at h
  split_ifs at h
  split at h
  · exact nomatch h
  · split at h
    · exact nomatch h
    · split at h
      · exact nomatch h
      next submission hsubmission =>
        split at h
        · exact nomatch h
        next items' hput =>
          obtain rfl := Handled.stores.inj h
          rw [putSubmission_submission hput]
          exact createSubmission_key hsubmission

/-- A valid request for an address that is no smoke test stores an outbox item. -/
theorem stores_outbox {settings : Settings} {body : List (JsString × Json)} {value : Value}
    {now : Int} {bytes : List UInt8} (hpot : isHoneypot body = false)
    (hvalid : validateSubmission rt body = .ok value)
    (hsmoke : isSmokeTestEmail value.email = false) (hnow : IsoTime.InRange now)
    (hbytes : bytes.length = 12) :
    ∃ submission : Submission,
      waitlistHandler rt settings ⟨body, some now, bytes⟩ =
        .stores ⟨submission, some (outboxOf submission.toOutboxSource)⟩ ∧
      Notifiable rt submission.toOutboxSource now
        (readProductionRetentionDays settings.PRODUCTION_RETENTION_DAYS) := by
  obtain ⟨hoffer, hsource⟩ := validateSubmission_offer hvalid
  have hdays := readProductionRetentionDays_le settings.PRODUCTION_RETENTION_DAYS
  obtain ⟨submission, hsubmission⟩ : ∃ submission, createSubmission rt value now
      (readProductionRetentionDays settings.PRODUCTION_RETENTION_DAYS)
      (readSmokeTestTtlHours settings.SMOKE_TEST_TTL_HOURS) bytes = some submission := by
    simp only [createSubmission, createOpaqueSubmissionId, hbytes, if_true, Option.bind_eq_bind,
      Option.bind_some]
    exact ⟨_, rfl⟩
  have hnotifiable := createSubmission_notifiable hoffer hsource hnow hdays hsmoke hsubmission
  refine ⟨submission, ?_, hnotifiable⟩
  have hput : putSubmission rt submission =
      some ⟨submission, some (outboxOf submission.toOutboxSource)⟩ := by
    unfold putSubmission
    rw [if_pos hnotifiable.recordType,
      createNotificationOutbox_eq_some.mpr ⟨rfl, now, _, hnotifiable⟩]
    rfl
  simp only [waitlistHandler, hpot, Bool.false_eq_true, if_false, hvalid, Option.filter_some, hnow,
    decide_true, if_true, hsubmission, hput]

-- ---------------------------------------------------------------------------
-- Runs
-- ---------------------------------------------------------------------------

/-- All that a request may do. -/
theorem submit_cases (tables : Tables) (settings : Settings) (request : Request) :
    tables.submit rt settings request = (tables, none) ∨
      ∃ items, waitlistHandler rt settings request = .stores items ∧
        tables.submissions items.submission.submission_key = none ∧
        tables.submit rt settings request =
          ({ submissions :=
              Function.update tables.submissions items.submission.submission_key
                (some items.submission.toDynamoItem)
             outbox :=
              match items.outbox with
              | some outbox =>
                Function.update tables.outbox outbox.outbox_key (some outbox.toDynamoItem)
              | none => tables.outbox },
            items.outbox.map fun outbox => (items.submission, outbox)) := by
  unfold Tables.submit
  cases hhandled : waitlistHandler rt settings request with
  | stores items =>
    simp only [Tables.transact]
    split_ifs with hthere
    · exact .inl rfl
    · rw [not_or, Option.not_isSome_iff_eq_none] at hthere
      exact .inr ⟨items, rfl, hthere.1, rfl⟩
  | _ => exact .inl rfl

/-- An item is written with its submission, which was not there. -/
theorem step_written {tables : Tables} {event : Event} {written : Submission × Outbox}
    (h : (tables.step rt event).2 = some written) :
    tables.submissions (submissionKey rt written.1.email written.1.offer) = none ∧
      ((tables.step rt event).1.submissions
        (submissionKey rt written.1.email written.1.offer)).isSome := by
  cases event with
  | submissionRemoved key => exact nomatch h
  | outboxRemoved key => exact nomatch h
  | submitted settings request =>
    obtain hnone | ⟨items, hitems, hkey, hsubmit⟩ := submit_cases tables settings request
    · rw [Tables.step, hnone] at h
      exact nomatch h
    · rw [Tables.step, hsubmit] at h ⊢
      obtain ⟨outbox, -, rfl⟩ := Option.map_eq_some_iff.mp h
      rw [stores_key hitems] at hkey ⊢
      exact ⟨hkey, by simp⟩

/-- A submission stays until it is removed. -/
theorem step_stored {tables : Tables} {event : Event} {key : JsString}
    (h : (tables.submissions key).isSome) (hkept : event ≠ .submissionRemoved key) :
    ((tables.step rt event).1.submissions key).isSome := by
  cases event with
  | outboxRemoved _ => exact h
  | submissionRemoved other =>
    have hne : key ≠ other := fun heq => hkept (by rw [heq])
    simpa [Tables.step, Function.update_of_ne hne] using h
  | submitted settings request =>
    obtain hnone | ⟨items, -, -, hsubmit⟩ := submit_cases tables settings request
    · rw [Tables.step, hnone]
      exact h
    · rw [Tables.step, hsubmit]
      by_cases hkey : key = items.submission.submission_key
      · simp [hkey]
      · simpa [Function.update_of_ne hkey] using h

/-- An item of the outbox was there, or is the one that is written. -/
theorem step_outbox {tables : Tables} {event : Event} {key : JsString} {item : Item}
    (h : (tables.step rt event).1.outbox key = some item) :
    tables.outbox key = some item ∨
      ∃ written, (tables.step rt event).2 = some written ∧ key = written.2.outbox_key ∧
        item = written.2.toDynamoItem := by
  cases event with
  | submissionRemoved _ => exact .inl h
  | outboxRemoved other =>
    by_cases hkey : key = other
    · simp [Tables.step, hkey] at h
    · simp only [Tables.step, Function.update_of_ne hkey] at h
      exact .inl h
  | submitted settings request =>
    obtain hnone | ⟨items, -, -, hsubmit⟩ := submit_cases tables settings request
    · rw [Tables.step, hnone] at h
      exact .inl h
    · rw [Tables.step, hsubmit] at h ⊢
      rcases ho : items.outbox with _ | outbox
      · simp only [ho] at h
        exact .inl h
      · simp only [ho] at h
        by_cases hkey : key = outbox.outbox_key
        · rw [hkey, Function.update_self] at h
          exact .inr ⟨_, rfl, hkey, (Option.some.inj h).symm⟩
        · rw [Function.update_of_ne hkey] at h
          exact .inl h

/-- While a submission is stored, no item is written for its address and offer. -/
theorem no_writes {events : List Event} {email offer : JsString} :
    ∀ {tables : Tables}, (tables.submissions (submissionKey rt email offer)).isSome →
      (∀ event ∈ events, event ≠ .submissionRemoved (submissionKey rt email offer)) →
      (outboxWrites rt tables events).filter (WrittenFor email offer ·) = [] := by
  induction events with
  | nil => exact fun _ _ => rfl
  | cons event events ih =>
    intro tables hstored hkept
    rw [outboxWrites, List.filter_append,
      ih (step_stored hstored (hkept event List.mem_cons_self))
        fun e he => hkept e (List.mem_cons_of_mem _ he), List.append_nil, List.filter_eq_nil_iff]
    intro written hwritten hfor
    obtain ⟨hnone, -⟩ := step_written (Option.mem_toList.mp hwritten)
    obtain ⟨rfl, rfl⟩ := of_decide_eq_true hfor
    rw [hnone] at hstored
    exact nomatch hstored

theorem at_most_one_write {events : List Event} {email offer : JsString} :
    ∀ {tables : Tables},
      (∀ event ∈ events, event ≠ .submissionRemoved (submissionKey rt email offer)) →
      ((outboxWrites rt tables events).filter (WrittenFor email offer ·)).length ≤ 1 := by
  induction events with
  | nil => exact fun _ => Nat.zero_le 1
  | cons event events ih =>
    intro tables hkept
    have hrest : ∀ e ∈ events, e ≠ .submissionRemoved (submissionKey rt email offer) :=
      fun e he => hkept e (List.mem_cons_of_mem _ he)
    rw [outboxWrites, List.filter_append, List.length_append]
    rcases hwrite : (tables.step rt event).2 with _ | written
    · simpa using ih hrest
    · by_cases hfor : WrittenFor email offer written
      · obtain ⟨-, hstored⟩ := step_written hwrite
        obtain ⟨rfl, rfl⟩ := hfor
        have hnone := no_writes hstored hrest
        have hlength := List.length_filter_le
          (fun w => decide (WrittenFor written.1.email written.1.offer w)) [written]
        simp only [Option.toList_some, hnone, List.length_nil, List.length_singleton] at hlength ⊢
        omega
      · simpa [hfor] using ih hrest

/-- Every item of the outbox was there at the start or was written. -/
theorem outbox_written {events : List Event} {key : JsString} {item : Item} :
    ∀ {tables : Tables}, (tables.after rt events).outbox key = some item →
      tables.outbox key = some item ∨
        ∃ written ∈ outboxWrites rt tables events,
          key = written.2.outbox_key ∧ item = written.2.toDynamoItem := by
  induction events with
  | nil => exact fun h => .inl h
  | cons event events ih =>
    intro tables h
    rcases ih h with hthere | ⟨written, hwritten, heq⟩
    · rcases step_outbox hthere with hthere | ⟨written, hwritten, heq⟩
      · exact .inl hthere
      · refine .inr ⟨written, ?_, heq⟩
        rw [outboxWrites, hwritten]
        exact List.mem_cons_self
    · exact .inr ⟨written, List.mem_append_right _ hwritten, heq⟩

end

/-- Every valid request for an address that is no smoke test, at any time and with
any settings, stores an outbox item which the notifier accepts until it expires.
While a submission is not removed, a run writes at most one outbox item for its
address and offer, and none if the submission was there; no other items appear. -/
theorem outbox_accepted_once (rt : Runtime) :
    (∀ settings body value now (randomBytes : List UInt8), isHoneypot body = false →
      validateSubmission rt body = .ok value → isSmokeTestEmail value.email = false →
      IsoTime.InRange now → randomBytes.length = 12 →
      ∃ submission outbox,
        waitlistHandler rt settings ⟨body, some now, randomBytes⟩ =
          .stores ⟨submission, some outbox⟩ ∧
        ∀ image : Item, image.Perm outbox.toDynamoItem → ∀ later, IsoTime.InRange later →
          later < 1000 * outbox.expires_at_epoch →
          ∃ payload,
            Notifier.buildBrokerPayload rt ⟨js "aws:dynamodb", js "INSERT", image⟩ (some later) =
              some (some payload) ∧
            payload.submissionId = submission.submission_id ∧ payload.offer = submission.offer ∧
            payload.createdAt = submission.created_at ∧
            payload.retentionClass = submission.retention_class) ∧
    ∀ (tables : Tables) (events : List Event) email offer,
      (∀ event ∈ events, event ≠ .submissionRemoved (submissionKey rt email offer)) →
      ((outboxWrites rt tables events).filter (WrittenFor email offer ·)).length ≤ 1 ∧
      ((tables.submissions (submissionKey rt email offer)).isSome →
        (outboxWrites rt tables events).filter (WrittenFor email offer ·) = []) ∧
      ∀ key item, (tables.after rt events).outbox key = some item → tables.outbox key = some item ∨
        ∃ written ∈ outboxWrites rt tables events,
          key = written.2.outbox_key ∧ item = written.2.toDynamoItem := by
  constructor
  · intro settings body value now randomBytes hpot hvalid hsmoke hnow hbytes
    obtain ⟨submission, hstores, hnotifiable⟩ := stores_outbox hpot hvalid hsmoke hnow hbytes
    refine ⟨submission, _, hstores, ?_⟩
    intro image himage later hlater hexpiry
    exact ⟨_, buildBrokerPayload_outboxOf hnotifiable hnow himage hlater hexpiry, rfl, rfl, rfl, rfl⟩
  · intro tables events email offer hkept
    exact ⟨at_most_one_write hkept, fun hstored => no_writes hstored hkept,
      fun _ _ => outbox_written⟩

namespace Sample

/-- The hash is the one of the address and the offer of the request below. -/
def runtime : Runtime where
  nfkc text := text
  toLowerCase text := text
  sha256 _ :=
    [0xaa, 0x83, 0xf7, 0x0c, 0xca, 0x13, 0x9f, 0x80, 0x11, 0x12, 0xfa, 0x6f,
      0x41, 0x5c, 0xdb, 0xfa, 0x5a, 0xe4, 0xc7, 0x51, 0x86, 0x1a, 0x77, 0x65,
      0x2f, 0xe0, 0x6b, 0x5d, 0xf1, 0x35, 0xd4, 0x7a]
  parseOther _ := none

def settings : Settings := ⟨some (js "90"), none⟩

def body : List (JsString × Json) :=
  [(js "email", .string (js "buyer@corp.com")), (js "offer", .string (js "business")),
    (js "source", .string (js "pricing")), (js "consent", .bool true)]

def request : Request := ⟨body, some 1754500000123, List.replicate 12 7⟩

def value : Value := ⟨js "buyer@corp.com", js "business", js "pricing", none, none, none, none⟩

/-- When the outbox item of a request expires. -/
def expiryOf : Handled → Option Int
  | .stores items => items.outbox.map (·.expires_at_epoch)
  | _ => none

/-- One second after a request, and when it is sent again. -/
theorem request_accepted_once :
    (∃ submission outbox, waitlistHandler runtime settings request =
        .stores ⟨submission, some outbox⟩ ∧
      ∃ payload, Notifier.buildBrokerPayload runtime
          ⟨js "aws:dynamodb", js "INSERT", outbox.toDynamoItem⟩ (some 1754500001123) =
            some (some payload) ∧ payload.submissionId = submission.submission_id) ∧
      ((outboxWrites runtime .empty [.submitted settings request, .submitted settings request]).filter
        (WrittenFor (js "buyer@corp.com") (js "business") ·)).length ≤ 1 := by
  constructor
  · obtain ⟨submission, outbox, hstores, haccepted⟩ :=
      (outbox_accepted_once runtime).1 settings body value 1754500000123 (List.replicate 12 7)
        (by decide) rfl (by decide) (by decide) (by decide)
    have hexpiry : some outbox.expires_at_epoch = some 1762276000 :=
      (congrArg expiryOf hstores).symm.trans (by decide +kernel)
    obtain ⟨payload, hpayload, hid, -⟩ := haccepted _ (.refl _) 1754500001123 (by decide)
      (by rw [Option.some.inj hexpiry]; decide)
    exact ⟨submission, outbox, hstores, payload, hpayload, hid⟩
  · exact ((outbox_accepted_once runtime).2 .empty _ _ _ (by simp)).1

end Sample

end EsigSuite.Waitlist
