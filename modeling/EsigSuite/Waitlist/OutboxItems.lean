import EsigSuite.Waitlist.Notifier

/-!
# Outbox items

The outbox item of a submission that is no smoke test is accepted by the
notifier until it expires, and of one address and offer no second one is stored
while the submission is.
-/

namespace EsigSuite.Waitlist

open Lib

-- ---------------------------------------------------------------------------
-- Texts
-- ---------------------------------------------------------------------------

@[simp] theorem scalars_ofText (chars : List Char) : scalars (.ofText chars) = chars :=
  (spells_ofText chars).scalars_eq

theorem ofText_append (xs ys : List Char) :
    JsString.ofText (xs ++ ys) = JsString.ofText xs ++ JsString.ofText ys :=
  List.flatMap_append

section
variable {rt : Runtime}

theorem exactDate_toISOString {t : Int} (h : IsoTime.InRange t) :
    exactDate rt (.ofText (IsoTime.toISOString t)) = some t := by
  simp [exactDate, dateOf, IsoTime.readIso_toISOString h]

theorem dateOf_of_exact {text : JsString} {t : Int} (h : exactDate rt text = some t) :
    dateOf rt text = some t := (Option.filter_eq_some_iff.mp h).1

theorem waitlistDays_text {days : Nat} (h : 30 ≤ days ∧ days ≤ 180) :
    waitlistDays (.ofText ("waitlist_".toList ++ Nat.toDigits 10 days ++ ['d'])) = some days := by
  have hlow : 2 ≤ (Nat.toDigits 10 days).length := by
    by_contra hlt
    have := (Nat.length_toDigits_le_iff (b := 10) (n := days) (k := 1) (by decide) (by decide)).mp
      (by omega)
    omega
  have hhigh : (Nat.toDigits 10 days).length ≤ 3 :=
    (Nat.length_toDigits_le_iff (by decide) (by decide)).mpr (by omega)
  have hdigits : (Nat.toDigits 10 days).all Char.isDigit = true :=
    List.all_eq_true.mpr (toDigits_isDigit days)
  have hread : readNat (Nat.toDigits 10 days) = days := Nat.ofDigitChars_ten_toDigits
  have htake : ("waitlist_".toList ++ Nat.toDigits 10 days ++ ['d']).take 9 = "waitlist_".toList := by
    rw [List.append_assoc]
    exact List.take_left' rfl
  have hdrop : ("waitlist_".toList ++ Nat.toDigits 10 days ++ ['d']).drop 9 =
      Nat.toDigits 10 days ++ ['d'] := by
    rw [List.append_assoc]
    exact List.drop_left' rfl
  unfold waitlistDays
  simp only [scalars_ofText]
  rw [htake, hdrop, List.dropLast_concat, List.getLast?_concat]
  simp [hlow, hhigh, hdigits, hread]

theorem isSubmissionId_of_created {bytes : List UInt8} {id : JsString}
    (h : createOpaqueSubmissionId bytes = some id) : isSubmissionId id = true := by
  unfold createOpaqueSubmissionId at h
  split_ifs at h with hlength
  obtain rfl := Option.some.inj h
  have htext : js "wl_" ++ hexText bytes =
      .ofText ("wl_".toList ++ bytes.flatMap fun byte => Lib.hexDigits 2 byte.toNat) :=
    (ofText_append _ _).symm
  have hhex : (bytes.flatMap fun byte => Lib.hexDigits 2 byte.toNat).length = 24 := by
    simp [List.length_flatMap, hlength]
  have hall : (bytes.flatMap fun byte => Lib.hexDigits 2 byte.toNat).all isHexDigit = true := by
    rw [List.all_eq_true]
    intro c hc
    obtain ⟨byte, -, hc⟩ := List.mem_flatMap.mp hc
    exact hexDigits_hex hc
  unfold isSubmissionId
  rw [htext, scalars_ofText]
  simp only [List.take_left' (show "wl_".toList.length = 3 from rfl),
    List.drop_left' (show "wl_".toList.length = 3 from rfl), hhex, hall]
  rfl

-- ---------------------------------------------------------------------------
-- What the handler stores
-- ---------------------------------------------------------------------------

theorem integerBetween_le {low high n : Nat} {number : JsNumber}
    (h : integerBetween low high number = some n) : low ≤ n ∧ n ≤ high := by
  unfold integerBetween at h
  split at h
  case h_1 x =>
    split_ifs at h with hx
    obtain rfl := Option.some.inj h
    have hnum : x = x.num := (Rat.den_eq_one_iff x).mp hx.1 |>.symm
    have hlow : (low : ℤ) ≤ x.num := by
      have := hx.2.1
      rw [hnum] at this
      exact_mod_cast this
    have hhigh : x.num ≤ (high : ℤ) := by
      have := hx.2.2
      rw [hnum] at this
      exact_mod_cast this
    omega
  case h_2 => exact nomatch h

theorem readProductionRetentionDays_le (value : Option JsString) :
    30 ≤ readProductionRetentionDays value ∧ readProductionRetentionDays value ≤ 180 := by
  unfold readProductionRetentionDays
  cases hv : value.bind fun text => integerBetween 30 180 (numberOfText text) with
  | none => exact ⟨by decide, by decide⟩
  | some n =>
    obtain ⟨text, -, htext⟩ := Option.bind_eq_some_iff.mp hv
    exact integerBetween_le htext

theorem validateSubmission_offer {body : List (JsString × Json)} {value : Value}
    (h : validateSubmission rt body = .ok value) :
    ALLOWED_OFFERS.contains value.offer = true ∧ value.source = js "pricing" := by
  unfold validateSubmission at h
  dsimp only at h
  split_ifs at h with herrors
  obtain rfl := Except.ok.inj h
  simp only [List.append_eq_nil_iff] at herrors
  refine ⟨?_, rfl⟩
  have hoffer := herrors.1.1.1.1.1.1.1.2
  unfold errorIf at hoffer
  split_ifs at hoffer with hcontains
  simpa using hcontains

/-- The outbox item of a submission. -/
def outboxOf (submission : OutboxSource) : Outbox where
  outbox_key := outboxKey submission.submission_id
  record_type := js "waitlist_notification_outbox"
  submission_id := submission.submission_id
  offer := submission.offer
  source := submission.source
  created_at := submission.created_at
  retention_class := submission.retention_class
  contact_permission_status := submission.contact_permission_status
  email_verification_status := submission.email_verification_status
  expires_at_epoch := submission.expires_at_epoch

/-- What `createNotificationOutbox` asks of a submission. -/
structure Notifiable (rt : Runtime) (submission : OutboxSource) (createdAt : Int)
    (retentionDays : Nat) : Prop where
  days : waitlistDays submission.retention_class = some retentionDays
  created : exactDate rt submission.created_at = some createdAt
  recordType : submission.record_type = js "waitlist_submission"
  id : isSubmissionId submission.submission_id = true
  version : submission.submission_id_version = js "random-v1"
  offer : ALLOWED_OFFERS.contains submission.offer = true
  source : submission.source = js "pricing"
  permission : submission.contact_permission_status = js "asserted_unverified"
  verification : submission.email_verification_status = js "unverified"
  range : 30 ≤ retentionDays ∧ retentionDays ≤ 180
  expiry : submission.expires_at_epoch = createdAt / 1000 + (retentionDays : Int) * 24 * 60 * 60

theorem createNotificationOutbox_eq_some {submission : OutboxSource} {outbox : Outbox} :
    createNotificationOutbox rt submission = some outbox ↔
      outbox = outboxOf submission ∧ ∃ createdAt days, Notifiable rt submission createdAt days := by
  constructor
  · intro h
    simp only [createNotificationOutbox, Option.bind_eq_bind, Option.bind_eq_some_iff] at h
    obtain ⟨days, hdays, createdAt, hcreated, h⟩ := h
    split_ifs at h with hchecks
    simp only [not_or, not_not, not_lt, Bool.not_eq_true', Bool.not_eq_false] at hchecks
    obtain ⟨h₁, h₂, h₃, h₄, h₅, h₆, h₇, h₈, h₉, h₁₀⟩ := hchecks
    exact ⟨(Option.some.inj h).symm, createdAt, days,
      ⟨hdays, hcreated, h₁, h₂, h₃, h₄, h₅, h₆, h₇, ⟨h₈, h₉⟩, h₁₀⟩⟩
  · rintro ⟨rfl, createdAt, days, h⟩
    simp only [createNotificationOutbox, h.days, h.created, Option.bind_eq_bind, Option.bind_some]
    rw [if_neg]
    · rfl
    · simp only [h.recordType, h.id, h.version, h.offer, h.source, h.permission, h.verification,
        h.expiry, ne_eq, not_true_eq_false, Bool.not_true, Bool.false_eq_true, false_or, or_false]
      have := h.range
      omega

theorem createSubmission_notifiable {value : Value} {now : Int} {days hours : Nat}
    {bytes : List UInt8} {submission : Submission} (hoffer : ALLOWED_OFFERS.contains value.offer = true)
    (hsource : value.source = js "pricing") (hnow : IsoTime.InRange now)
    (hdays : 30 ≤ days ∧ days ≤ 180) (hsmoke : isSmokeTestEmail value.email = false)
    (h : createSubmission rt value now days hours bytes = some submission) :
    Notifiable rt submission.toOutboxSource now days := by
  simp only [createSubmission, Option.bind_eq_bind, Option.bind_eq_some_iff] at h
  obtain ⟨id, hid, h⟩ := h
  obtain rfl := Option.some.inj h
  constructor
  case days => simpa [hsmoke] using waitlistDays_text hdays
  case created => exact exactDate_toISOString hnow
  case id => exact isSubmissionId_of_created hid
  case range => exact hdays
  case offer => exact hoffer
  all_goals simp [hsmoke, hsource]

-- ---------------------------------------------------------------------------
-- What the notifier reads
-- ---------------------------------------------------------------------------

theorem attributeOf_perm {image item : Item} (h : image.Perm item) (hkeys : (item.map (·.1)).Nodup)
    (key : JsString) : attributeOf image key = attributeOf item key := by
  have hkeys' : (image.map (·.1)).Nodup := (h.map _).nodup_iff.mpr hkeys
  unfold attributeOf
  congr 1
  rcases hfind : item.find? (·.1 == key) with _ | entry
  · rw [hfind]
    rw [List.find?_eq_none] at hfind ⊢
    exact fun x hx => hfind x (h.mem_iff.mp hx)
  · have hmem := List.mem_of_find?_eq_some hfind
    have hkey := List.find?_some hfind
    rcases hfind' : image.find? (·.1 == key) with _ | entry'
    · rw [List.find?_eq_none] at hfind'
      exact absurd hkey (hfind' entry (h.mem_iff.mpr hmem))
    · have hmem' := h.mem_iff.mp (List.mem_of_find?_eq_some hfind')
      have hkey' := List.find?_some hfind'
      rw [beq_iff_eq] at hkey hkey'
      rw [hfind, hfind', List.inj_on_of_nodup_map hkeys hmem' hmem (hkey'.trans hkey.symm)]

theorem toDynamoItem_keys (outbox : Outbox) :
    outbox.toDynamoItem.map (·.1) =
      [js "outbox_key", js "record_type", js "submission_id", js "offer", js "source",
        js "created_at", js "retention_class", js "contact_permission_status",
        js "email_verification_status", js "expires_at_epoch"] := rfl

theorem toDynamoItem_nodup (outbox : Outbox) : (outbox.toDynamoItem.map (·.1)).Nodup := by
  rw [toDynamoItem_keys]
  decide

/-- The fields are those that the notifier allows, in whichever order they come. -/
theorem imageFields_toDynamoItem {image : Item} {outbox : Outbox}
    (h : image.Perm outbox.toDynamoItem) :
    Notifier.imageFields image = Notifier.OUTBOX_IMAGE_FIELDS := by
  have hsorted : (Notifier.imageFields image).Pairwise (· ≤ ·) :=
    (List.pairwise_mergeSort Json.byKey_trans Json.byKey_total image).map _
      fun a b hab => Json.byKey_le.mp hab
  have hperm : (Notifier.imageFields image).Perm Notifier.OUTBOX_IMAGE_FIELDS := by
    refine (((List.mergeSort_perm image Json.byKey).trans h).map _).trans ?_
    rw [toDynamoItem_keys]
    decide
  refine hperm.eq_of_pairwise (fun a b _ _ => List.le_antisymm) hsorted ?_
  decide

theorem readIntegerAttribute_number {image : Item} {name : String} {value : Int}
    (h : attributeOf image (js name) = some (numberAttribute value))
    (hsafe : value.natAbs < 2 ^ 53) : Notifier.readIntegerAttribute image name = some value := by
  unfold Notifier.readIntegerAttribute
  rw [h, numberAttribute, Double.text_int hsafe]
  simp only [numberOfText_intText hsafe]
  rw [if_pos ⟨Rat.den_intCast value, by rwa [Rat.num_intCast]⟩, Rat.num_intCast]

theorem retentionDays_eq_some {value : JsString} {days : Nat} :
    Notifier.retentionDays value = some days ↔
      waitlistDays value = some days ∧ 30 ≤ days ∧ days ≤ 180 := by
  simp [Notifier.retentionDays, Option.filter_eq_some_iff]

/-- What the notifier sends for a submission. -/
def payloadOf (submission : OutboxSource) : Notifier.BrokerPayload where
  route := Notifier.BROKER_ROUTE
  schemaVersion := Notifier.BROKER_SCHEMA_VERSION
  eventType := Notifier.BROKER_EVENT_TYPE
  submissionId := submission.submission_id
  offer := submission.offer
  source := submission.source
  createdAt := submission.created_at
  retentionClass := submission.retention_class
  contactPermissionStatus := submission.contact_permission_status
  emailVerificationStatus := submission.email_verification_status

theorem Notifiable.safe {submission : OutboxSource} {createdAt : Int} {days : Nat}
    (h : Notifiable rt submission createdAt days) (hrange : IsoTime.InRange createdAt) :
    submission.expires_at_epoch.natAbs < 2 ^ 53 := by
  have := h.expiry
  have := h.range
  rw [IsoTime.InRange] at hrange
  omega

/-- The notifier accepts the item of a submission, until it expires. -/
theorem buildBrokerPayload_outboxOf {submission : OutboxSource} {createdAt : Int} {days : Nat}
    (h : Notifiable rt submission createdAt days) (hrange : IsoTime.InRange createdAt) {image : Item}
    (himage : image.Perm (outboxOf submission).toDynamoItem) {now : Int}
    (hnow : IsoTime.InRange now) (hexpiry : now < 1000 * submission.expires_at_epoch) :
    Notifier.buildBrokerPayload rt ⟨js "aws:dynamodb", js "INSERT", image⟩ (some now) =
      some (some (payloadOf submission)) := by
  have attr (key : JsString) := attributeOf_perm himage (toDynamoItem_nodup _) key
  have hread (name : String) (value : JsString)
      (hv : attributeOf (outboxOf submission).toDynamoItem (js name) = some (.S value)) :
      Notifier.readStringAttribute image name = some value := by
    simp only [Notifier.readStringAttribute, attr, hv]
  have heligible :
      Notifier.isEligibleInsert ⟨js "aws:dynamodb", js "INSERT", image⟩ = true := by
    have : attributeOf image (js "record_type") =
        some (.S (js "waitlist_notification_outbox")) := (attr _).trans rfl
    simp only [Notifier.isEligibleInsert, this, beq_self_eq_true, Bool.and_self]
  have hint : Notifier.readIntegerAttribute image "expires_at_epoch" =
      some submission.expires_at_epoch :=
    readIntegerAttribute_number ((attr _).trans rfl) (h.safe hrange)
  unfold Notifier.buildBrokerPayload
  rw [if_neg (by simp [heligible])]
  simp only [imageFields_toDynamoItem himage, ne_eq, not_true_eq_false, if_false,
    hread "outbox_key" (outboxKey submission.submission_id) rfl,
    hread "submission_id" submission.submission_id rfl, hread "offer" submission.offer rfl,
    hread "source" submission.source rfl, hread "created_at" submission.created_at rfl,
    hread "retention_class" submission.retention_class rfl,
    hread "contact_permission_status" submission.contact_permission_status rfl,
    hread "email_verification_status" submission.email_verification_status rfl, hint,
    dateOf_of_exact h.created, retentionDays_eq_some.mpr ⟨h.days, h.range⟩, Option.bind_eq_bind,
    Option.bind_some, Option.filter_some, hnow, decide_true, if_true]
  rw [if_neg, if_neg]
  · rfl
  · omega
  · have hoffer : Notifier.ALLOWED_OFFERS.contains submission.offer = true := h.offer
    simp only [Notifier.isExactIsoTimestamp, h.created, Option.isSome_some, h.id, h.source, hoffer,
      h.permission, h.verification, h.expiry, Bool.not_true, Bool.false_eq_true, not_true_eq_false,
      false_or, or_false]
    exact fun hne => hne

end

end EsigSuite.Waitlist
