import EsigSuite.Waitlist.Backfill
import EsigSuite.Waitlist.OutboxItems

/-!
# Tables of the backfill

What every transaction of a handler or of a backfill keeps: a submission without
a version is as it was at the start, the item under a legacy id is gone once the
submission has a random one, and what is under a random id stays.
-/

namespace EsigSuite.Waitlist.Backfill

open Lib

-- ---------------------------------------------------------------------------
-- Attributes
-- ---------------------------------------------------------------------------

def versionOf (item : Item) : Option AttributeValue := attributeOf item (js "submission_id_version")

def idOf (item : Item) : Option AttributeValue := attributeOf item (js "submission_id")

def keyOf (item : Item) : Option AttributeValue := attributeOf item (js "submission_key")

theorem attributeOf_project {names : List JsString} {key : JsString} (h : key ∈ names) (row : Item) :
    attributeOf (project names row) key = attributeOf row key := by
  unfold attributeOf project
  rw [List.find?_filter]
  congr 2
  funext entry
  by_cases hkey : entry.1 = key
  · simp [hkey, h]
  · simp [hkey]

theorem versionOf_project (row : Item) : versionOf (project PRIVATE_PROJECTION row) = versionOf row :=
  attributeOf_project (by decide) row

theorem idOf_project (row : Item) : idOf (project PRIVATE_PROJECTION row) = idOf row :=
  attributeOf_project (by decide) row

theorem keyOf_project (row : Item) : keyOf (project PRIVATE_PROJECTION row) = keyOf row :=
  attributeOf_project (by decide) row

theorem attributeOf_setAttribute (item : Item) (name : String) (value : AttributeValue) :
    attributeOf (setAttribute item name value) (js name) = some value := by
  have hnone : (item.filter (·.1 ≠ js name)).find? (·.1 == js name) = none := by
    rw [List.find?_eq_none]
    intro entry hentry
    simpa using (List.mem_filter.mp hentry).2
  unfold attributeOf setAttribute
  rw [List.find?_append, hnone]
  simp

theorem attributeOf_setAttribute_ne {name : String} {key : JsString} (h : key ≠ js name)
    (item : Item) (value : AttributeValue) :
    attributeOf (setAttribute item name value) key = attributeOf item key := by
  have hfilter : (item.filter (·.1 ≠ js name)).find? (·.1 == key) = item.find? (·.1 == key) := by
    rw [List.find?_filter]
    congr 1
    funext entry
    by_cases hkey : entry.1 = key
    · simp [hkey, h]
    · simp [hkey]
  unfold attributeOf setAttribute
  rw [List.find?_append, hfilter]
  simp [Ne.symm h]

theorem versionOf_random (item : Item) (id : JsString) :
    versionOf (withOpaqueSubmissionId item id) = some (.S SUBMISSION_ID_VERSION) :=
  attributeOf_setAttribute _ _ _

theorem idOf_random (item : Item) (id : JsString) :
    idOf (withOpaqueSubmissionId item id) = some (.S id) :=
  (attributeOf_setAttribute_ne (by simp) _ _).trans (attributeOf_setAttribute _ _ _)

theorem keyOf_random (item : Item) (id : JsString) :
    keyOf (withOpaqueSubmissionId item id) = keyOf item :=
  (attributeOf_setAttribute_ne (by simp) _ _).trans (attributeOf_setAttribute_ne (by simp) _ _)

theorem outboxKey_inj {id id' : JsString} : outboxKey id = outboxKey id' ↔ id = id' :=
  List.append_cancel_left_eq _ _ _ |> iff_of_eq

theorem readString_eq_some {item : Item} {field : String} {value : JsString} :
    readString item field = some value ↔ attributeOf item (js field) = some (.S value) := by
  unfold readString Notifier.readStringAttribute
  split
  next v hv => simp [hv]
  next hv =>
    constructor
    · exact fun h => nomatch h
    · intro h
      exact absurd h (hv value)

theorem readOptionalString_eq_some {item : Item} {field : String} {value : Option JsString}
    (h : readOptionalString item field = some value) :
    attributeOf item (js field) = value.map .S := by
  unfold readOptionalString at h
  split at h
  next hv => rw [hv, ← Option.some.inj h]; rfl
  next v hv => rw [hv, ← Option.some.inj h]; rfl
  next => exact nomatch h

/-- What a valid item tells of its row. -/
theorem validateSource_spec {item : Item} {source : Source} (h : validateSource item = some source) :
    keyOf item = some (.S source.submissionKey) ∧ versionOf item = source.version.map .S ∧
      idOf item = source.submissionId.map .S ∧
      (source.version = none ∨ source.version = some SUBMISSION_ID_VERSION ∧
        ∃ id, source.submissionId = some id ∧ isSubmissionId id = true) := by
  simp only [validateSource, Option.bind_eq_bind, Option.bind_eq_some_iff] at h
  obtain ⟨key, hkey, recordType, -, version, hversion, submissionId, hid, h⟩ := h
  split_ifs at h with h₁ h₂ h₃
  obtain ⟨-, -, h⟩ := Option.bind_eq_some_iff.mp h
  obtain rfl := Option.some.inj h
  refine ⟨readString_eq_some.mp hkey, readOptionalString_eq_some hversion,
    readOptionalString_eq_some hid, ?_⟩
  cases version with
  | none => exact .inl rfl
  | some version =>
    have hv : version = SUBMISSION_ID_VERSION := by simpa using h₂
    refine .inr ⟨by rw [hv], ?_⟩
    cases submissionId with
    | none => exact absurd ⟨by rw [hv], by decide⟩ h₃
    | some id => exact ⟨id, rfl, by simpa [hv] using h₃⟩

theorem toOutbox_spec {rt : Runtime} {item : Item} {outbox : Outbox}
    (h : toOutbox rt item = some outbox) :
    idOf item = some (.S outbox.submission_id) ∧ outbox.outbox_key = outboxKey outbox.submission_id ∧
      isSubmissionId outbox.submission_id = true := by
  simp only [toOutbox, Option.bind_eq_bind, Option.bind_eq_some_iff] at h
  obtain ⟨id, hid, version, -, created, -, offer, -, retention, -, expires, -, record, -, h⟩ := h
  obtain ⟨rfl, _, _, hnotifiable⟩ := createNotificationOutbox_eq_some.mp h
  exact ⟨readString_eq_some.mp hid, rfl, hnotifiable.id⟩

-- ---------------------------------------------------------------------------
-- Tables
-- ---------------------------------------------------------------------------

section
variable (initial : Tables)

/-- An id of a submission that had no version. -/
def Legacy (id : JsString) : Prop :=
  ∃ key row, initial.submissions key = some row ∧ versionOf row = none ∧ idOf row = some (.S id)

/-- An item that was made by `createNotificationOutbox`, under its own key. -/
def OutboxRow (key : JsString) (row : Item) : Prop :=
  ∃ outbox : Outbox, row = outbox.toDynamoItem ∧ key = outbox.outbox_key ∧
    outbox.outbox_key = outboxKey outbox.submission_id ∧ isSubmissionId outbox.submission_id = true

/-- Tables with legacy submissions and others, whose random ids are none of the
legacy ones. -/
structure Admissible : Prop where
  key : ∀ key row, initial.submissions key = some row → keyOf row = some (.S key)
  apart : ∀ key row id, initial.submissions key = some row → versionOf row ≠ none →
    idOf row = some (.S id) → ¬ Legacy initial id
  outbox : ∀ key row, initial.outbox key = some row → OutboxRow key row

/-- A submission that has a version keeps its row, and the outbox keeps what is not
under a legacy id. -/
structure Later (tables after : Tables) : Prop where
  rows : ∀ key row, tables.submissions key = some row →
    ∃ row', after.submissions key = some row' ∧ (versionOf row ≠ none → row' = row)
  outbox : ∀ id row, ¬ Legacy initial id → tables.outbox (outboxKey id) = some row →
    after.outbox (outboxKey id) = some row

/-- What holds of the tables in every run. -/
structure Sound (tables : Tables) : Prop where
  kept : ∀ key row, initial.submissions key = some row → (tables.submissions key).isSome
  key : ∀ key row, tables.submissions key = some row → keyOf row = some (.S key)
  unchanged : ∀ key row, tables.submissions key = some row → versionOf row = none →
    initial.submissions key = some row
  apart : ∀ key row id, tables.submissions key = some row → versionOf row ≠ none →
    idOf row = some (.S id) → ¬ Legacy initial id
  outbox : ∀ key row, tables.outbox key = some row → OutboxRow key row
  /-- The item under the legacy id of a submission that has a version is gone. -/
  cleared : ∀ key row now old, initial.submissions key = some row → versionOf row = none →
    idOf row = some (.S old) → tables.submissions key = some now → versionOf now ≠ none →
    tables.outbox (outboxKey old) = none

end

-- ---------------------------------------------------------------------------
-- The parts of a transaction
-- ---------------------------------------------------------------------------

def putItem (tables : Tables) (key : JsString) (item : Item) : Tables :=
  { tables with outbox := Function.update tables.outbox key (some item) }

def deleteItem (tables : Tables) (key : JsString) : Tables :=
  { tables with outbox := Function.update tables.outbox key none }

def setRow (tables : Tables) (key : JsString) (row : Item) : Tables :=
  { tables with submissions := Function.update tables.submissions key (some row) }

def putNew (tables : Tables) : Option Outbox → Tables
  | some outbox => putItem tables outbox.outbox_key outbox.toDynamoItem
  | none => tables

def deleteOld (tables : Tables) : Option JsString → Tables
  | some key => deleteItem tables key
  | none => tables

section
variable (tables : Tables) {key other : JsString} (item : Item)

@[simp] theorem putItem_self : (putItem tables key item).outbox key = some item :=
  Function.update_self ..

theorem putItem_of_ne (h : other ≠ key) :
    (putItem tables key item).outbox other = tables.outbox other := Function.update_of_ne h _ _

@[simp] theorem deleteItem_self : (deleteItem tables key).outbox key = none := Function.update_self ..

theorem deleteItem_of_ne (h : other ≠ key) :
    (deleteItem tables key).outbox other = tables.outbox other := Function.update_of_ne h _ _

@[simp] theorem setRow_self : (setRow tables key item).submissions key = some item :=
  Function.update_self ..

theorem setRow_of_ne (h : other ≠ key) :
    (setRow tables key item).submissions other = tables.submissions other :=
  Function.update_of_ne h _ _

end

theorem transact_eq_some {tables after : Tables} {items : TransactItems}
    (h : tables.transact items = some after) :
    tables.submissions items.submission.submission_key = none ∧
      (∀ outbox, items.outbox = some outbox → tables.outbox outbox.outbox_key = none) ∧
      after = setRow (putNew tables items.outbox) items.submission.submission_key
        items.submission.toDynamoItem := by
  unfold Tables.transact at h
  split_ifs at h with hthere
  rw [not_or, Option.not_isSome_iff_eq_none, Bool.not_eq_true] at hthere
  refine ⟨hthere.1, fun outbox ho => by simpa [ho] using hthere.2, ?_⟩
  rw [← Option.some.inj h]
  cases items.outbox <;> rfl

theorem Migration.transact_eq_some {tables after : Tables} {migration : Migration} {row : Item}
    (hrow : tables.submissions migration.submissionKey = some row)
    (h : migration.transact tables = some after) :
    versionOf row = none ∧ idOf row = migration.oldSubmissionId.map .S ∧
      (∀ outbox, migration.outbox = some outbox → tables.outbox outbox.outbox_key = none) ∧
      after = setRow (deleteOld (putNew tables migration.outbox) migration.deletes)
        migration.submissionKey (withOpaqueSubmissionId row migration.newSubmissionId) := by
  unfold Migration.transact at h
  dsimp only at h
  split_ifs at h with hcondition
  simp only [hrow, Option.getD_some] at h hcondition
  obtain ⟨hversion, hid, hfree⟩ := hcondition
  refine ⟨hversion, hid, fun outbox ho => by simpa [ho] using hfree, ?_⟩
  rw [← Option.some.inj h]
  cases migration.outbox <;> cases migration.deletes <;> rfl

section
variable {rt : Runtime} {initial : Tables}

theorem Admissible.sound (h : Admissible initial) : Sound initial initial where
  kept _ _ hrow := by rw [hrow]; rfl
  key := h.key
  unchanged _ _ hrow _ := hrow
  apart := h.apart
  outbox := h.outbox
  cleared key row now old hrow hversion _ hnow hne := by
    rw [hrow] at hnow
    exact absurd (Option.some.inj hnow ▸ hversion) hne

theorem Later.refl (tables : Tables) : Later initial tables tables :=
  ⟨fun _ row h => ⟨row, h, fun _ => rfl⟩, fun _ _ _ h => h⟩

theorem Later.trans {s t u : Tables} (hst : Later initial s t) (htu : Later initial t u) :
    Later initial s u := by
  refine ⟨?_, fun id row hid h => htu.outbox id row hid (hst.outbox id row hid h)⟩
  intro key row h
  obtain ⟨row', h', hsame⟩ := hst.rows key row h
  obtain ⟨row'', h'', hsame'⟩ := htu.rows key row' h'
  refine ⟨row'', h'', fun hversion => ?_⟩
  obtain rfl := hsame hversion
  exact hsame' hversion

theorem Sound.not_legacy_of_outbox {tables : Tables} (h : Sound initial tables) {id : JsString}
    (hid : isSubmissionId id = false) : tables.outbox (outboxKey id) = none := by
  rcases hrow : tables.outbox (outboxKey id) with _ | row
  · rfl
  · obtain ⟨outbox, -, hkey, hkey', hvalid⟩ := h.outbox _ row hrow
    rw [← outboxKey_inj.mp (hkey.trans hkey'), hid] at hvalid
    exact nomatch hvalid

/-- An item under a random id is put where none is. -/
theorem Sound.put {tables : Tables} (h : Sound initial tables) {id : JsString} {item : Item}
    (hlegacy : ¬ Legacy initial id) (hnone : tables.outbox (outboxKey id) = none)
    (hitem : OutboxRow (outboxKey id) item) :
    Sound initial (putItem tables (outboxKey id) item) ∧
      Later initial tables (putItem tables (outboxKey id) item) := by
  refine ⟨⟨h.kept, h.key, h.unchanged, h.apart, ?_, ?_⟩, ⟨fun _ row hrow => ⟨row, hrow, fun _ => rfl⟩,
    ?_⟩⟩
  · intro key row hrow
    by_cases hkey : key = outboxKey id
    · rw [hkey] at hrow ⊢
      rw [putItem_self] at hrow
      rw [← Option.some.inj hrow]
      exact hitem
    · rw [putItem_of_ne _ _ hkey] at hrow
      exact h.outbox key row hrow
  · intro key row now old hrow hversion hid hnow hne
    have hold : old ≠ id := fun heq => hlegacy (heq ▸ ⟨key, row, hrow, hversion, hid⟩)
    rw [putItem_of_ne _ _ (outboxKey_inj.not.mpr hold)]
    exact h.cleared key row now old hrow hversion hid hnow hne
  · intro other row hother hrow
    have hne : other ≠ id := by
      rintro rfl
      rw [hnone] at hrow
      exact nomatch hrow
    rwa [putItem_of_ne _ _ (outboxKey_inj.not.mpr hne)]

/-- An item under a legacy id is deleted. -/
theorem Sound.delete {tables : Tables} (h : Sound initial tables) {old : JsString}
    (hlegacy : Legacy initial old) :
    Sound initial (deleteItem tables (outboxKey old)) ∧
      Later initial tables (deleteItem tables (outboxKey old)) := by
  refine ⟨⟨h.kept, h.key, h.unchanged, h.apart, ?_, ?_⟩, ⟨fun _ row hrow => ⟨row, hrow, fun _ => rfl⟩,
    ?_⟩⟩
  · intro key row hrow
    by_cases hkey : key = outboxKey old
    · rw [hkey, deleteItem_self] at hrow
      exact nomatch hrow
    · rw [deleteItem_of_ne _ hkey] at hrow
      exact h.outbox key row hrow
  · intro key row now other hrow hversion hid hnow hne
    by_cases hother : other = old
    · rw [hother, deleteItem_self]
    · rw [deleteItem_of_ne _ (outboxKey_inj.not.mpr hother)]
      exact h.cleared key row now other hrow hversion hid hnow hne
  · intro other row hother hrow
    have hne : other ≠ old := fun heq => hother (heq ▸ hlegacy)
    rwa [deleteItem_of_ne _ (outboxKey_inj.not.mpr hne)]

/-- A submission with a random id is put, or takes the place of one without a
version. -/
theorem Sound.setRow {tables : Tables} (h : Sound initial tables) (key : JsString) (row : Item)
    {id : JsString}
    (hkey : keyOf row = some (.S key)) (hversion : versionOf row ≠ none)
    (hid : idOf row = some (.S id)) (hlegacy : ¬ Legacy initial id)
    (hbefore : ∀ before, tables.submissions key = some before → versionOf before = none)
    (hcleared : ∀ before old, initial.submissions key = some before → versionOf before = none →
      idOf before = some (.S old) → tables.outbox (outboxKey old) = none) :
    Sound initial (Backfill.setRow tables key row) ∧
      Later initial tables (Backfill.setRow tables key row) := by
  have hcases (other : JsString) (now : Item)
      (hnow : (Backfill.setRow tables key row).submissions other = some now) :
      (other = key ∧ now = row) ∨ (other ≠ key ∧ tables.submissions other = some now) := by
    by_cases hother : other = key
    · rw [hother, setRow_self] at hnow
      exact .inl ⟨hother, (Option.some.inj hnow).symm⟩
    · rw [setRow_of_ne _ _ hother] at hnow
      exact .inr ⟨hother, hnow⟩
  refine ⟨⟨?_, ?_, ?_, ?_, h.outbox, ?_⟩, ⟨?_, fun _ _ _ hrow => hrow⟩⟩
  · intro other now hnow
    by_cases hother : other = key
    · rw [hother, setRow_self]
      rfl
    · rw [setRow_of_ne _ _ hother]
      exact h.kept other now hnow
  · intro other now hnow
    obtain ⟨rfl, rfl⟩ | ⟨-, hnow⟩ := hcases other now hnow
    · exact hkey
    · exact h.key other now hnow
  · intro other now hnow hnone
    obtain ⟨rfl, rfl⟩ | ⟨-, hnow⟩ := hcases other now hnow
    · exact absurd hnone hversion
    · exact h.unchanged other now hnow hnone
  · intro other now id' hnow hne hid'
    obtain ⟨rfl, rfl⟩ | ⟨-, hnow⟩ := hcases other now hnow
    · rw [hid] at hid'
      rwa [← AttributeValue.S.inj (Option.some.inj hid')]
    · exact h.apart other now id' hnow hne hid'
  · intro other before now old hother hnone hold hnow hne
    obtain ⟨rfl, rfl⟩ | ⟨-, hnow⟩ := hcases other now hnow
    · exact hcleared before old hother hnone hold
    · exact h.cleared other before now old hother hnone hold hnow hne
  · intro other before hother
    by_cases heq : other = key
    · refine ⟨row, by rw [heq, setRow_self], fun hne => ?_⟩
      exact absurd (hbefore before (heq ▸ hother)) hne
    · exact ⟨before, by rw [setRow_of_ne _ _ heq, hother], fun _ => rfl⟩

/-- The put of a handler or of a migration, where there is one. -/
theorem Sound.putNew {tables : Tables} (h : Sound initial tables) {id : JsString}
    (new : Option Outbox) (hlegacy : ¬ Legacy initial id)
    (hfree : ∀ outbox, new = some outbox → tables.outbox outbox.outbox_key = none)
    (hnew : ∀ outbox, new = some outbox → outbox.outbox_key = outboxKey id ∧
      OutboxRow outbox.outbox_key outbox.toDynamoItem) :
    Sound initial (Backfill.putNew tables new) ∧
      Later initial tables (Backfill.putNew tables new) := by
  cases new with
  | none => exact ⟨h, .refl _⟩
  | some outbox =>
    obtain ⟨hkey, hitem⟩ := hnew outbox rfl
    have hnone := hfree outbox rfl
    rw [hkey] at hitem hnone
    rw [Backfill.putNew, hkey]
    exact h.put hlegacy hnone hitem

/-- The delete of a migration, where there is one. -/
theorem Sound.deleteOld {tables : Tables} (h : Sound initial tables) (migration : Migration)
    (hlegacy : ∀ old, migration.oldSubmissionId = some old → Legacy initial old) :
    Sound initial (Backfill.deleteOld tables migration.deletes) ∧
      Later initial tables (Backfill.deleteOld tables migration.deletes) ∧
      ∀ old, migration.oldSubmissionId = some old →
        (Backfill.deleteOld tables migration.deletes).outbox (outboxKey old) = none := by
  unfold Migration.deletes
  cases hold : migration.oldSubmissionId with
  | none => exact ⟨h, .refl _, fun _ hnone => nomatch hnone⟩
  | some old =>
    by_cases hvalid : isSubmissionId old = true
    · obtain ⟨hsound, hlater⟩ := h.delete (hlegacy old hold)
      simp only [Option.filter_some, hvalid, if_true, Option.map_some]
      refine ⟨hsound, hlater, ?_⟩
      intro other ho
      rw [← Option.some.inj ho]
      exact Function.update_self _ _ _
    · simp only [Option.filter_some, hvalid, Bool.false_eq_true, if_false, Option.map_none]
      refine ⟨h, .refl _, ?_⟩
      intro other ho
      rw [← Option.some.inj ho]
      exact h.not_legacy_of_outbox (Bool.eq_false_of_not_eq_true hvalid)

-- ---------------------------------------------------------------------------
-- Transactions
-- ---------------------------------------------------------------------------

/-- A handler puts no item but the one of its submission. -/
theorem stores_outboxOf {settings : Settings} {request : Request} {items : TransactItems}
    (h : waitlistHandler rt settings request = .stores items) {outbox : Outbox}
    (houtbox : items.outbox = some outbox) :
    outbox = outboxOf items.submission.toOutboxSource ∧
      isSubmissionId items.submission.submission_id = true := by
  obtain ⟨submission, hput⟩ : ∃ submission, putSubmission rt submission = some items := by
    unfold waitlistHandler at h
    split_ifs at h
    split at h
    · exact nomatch h
    · split at h
      · exact nomatch h
      · split at h
        · exact nomatch h
        next submission _ =>
          split at h
          · exact nomatch h
          next hput => exact ⟨submission, Handled.stores.inj h ▸ hput⟩
  unfold putSubmission at hput
  split_ifs at hput
  · simp only [Option.bind_eq_bind, Option.bind_eq_some_iff] at hput
    obtain ⟨other, hother, hitems⟩ := hput
    obtain rfl := Option.some.inj hitems
    obtain rfl := Option.some.inj houtbox
    obtain ⟨rfl, _, _, hnotifiable⟩ := createNotificationOutbox_eq_some.mp hother
    exact ⟨rfl, hnotifiable.id⟩
  · obtain rfl := Option.some.inj hput
    exact nomatch houtbox

theorem Sound.submitted {tables after : Tables} (h : Sound initial tables) {settings : Settings}
    {request : Request} {items : TransactItems}
    (stored : waitlistHandler rt settings request = .stores items)
    (hlegacy : ¬ Legacy initial items.submission.submission_id)
    (committed : tables.transact items = some after) :
    Sound initial after ∧ Later initial tables after := by
  obtain ⟨hnone, hfree, rfl⟩ := transact_eq_some committed
  have hnew (outbox : Outbox) (ho : items.outbox = some outbox) :
      outbox.outbox_key = outboxKey items.submission.submission_id ∧
        OutboxRow outbox.outbox_key outbox.toDynamoItem := by
    obtain ⟨rfl, hid⟩ := stores_outboxOf stored ho
    exact ⟨rfl, _, rfl, rfl, rfl, hid⟩
  obtain ⟨hput, hlater⟩ := h.putNew items.outbox hlegacy hfree hnew
  have hthere : (Backfill.putNew tables items.outbox).submissions
      items.submission.submission_key = none := by
    cases items.outbox <;> exact hnone
  obtain ⟨hset, hlater'⟩ := hput.setRow items.submission.submission_key
    items.submission.toDynamoItem rfl (fun hversion => nomatch hversion) rfl hlegacy
    (by
      intro before hbefore
      rw [hthere] at hbefore
      exact nomatch hbefore)
    (by
      intro before old hbefore
      have hkept := hput.kept _ before hbefore
      rw [hthere] at hkept
      exact nomatch hkept)
  exact ⟨hset, hlater.trans hlater'⟩

theorem migrateSource_spec {item : Item} {nowEpoch : Int} {draws : List (List UInt8)}
    {migration : Migration} (h : migrateSource rt item nowEpoch draws = some migration) :
    keyOf item = some (.S migration.submissionKey) ∧
      ∀ outbox, migration.outbox = some outbox →
        outbox.outbox_key = outboxKey migration.newSubmissionId ∧
          OutboxRow outbox.outbox_key outbox.toDynamoItem := by
  simp only [migrateSource, Option.bind_eq_bind, Option.bind_eq_some_iff] at h
  obtain ⟨source, hsource, id, -, expires, -, h⟩ := h
  have hkey := (validateSource_spec hsource).1
  split_ifs at h
  · obtain ⟨outbox, houtbox, h⟩ := Option.bind_eq_some_iff.mp h
    obtain rfl := Option.some.inj h
    obtain ⟨hid, hokey, hvalid⟩ := toOutbox_spec houtbox
    rw [idOf_random] at hid
    have hnew : id = outbox.submission_id := AttributeValue.S.inj (Option.some.inj hid)
    refine ⟨hkey, ?_⟩
    intro other hother
    obtain rfl := Option.some.inj hother
    exact ⟨hokey.trans (by rw [hnew]), _, rfl, rfl, hokey, hvalid⟩
  · obtain rfl := Option.some.inj h
    exact ⟨hkey, fun _ hnone => nomatch hnone⟩

/-- A migration puts the new item, deletes the one under the legacy id and sets the
id of a row that is as it was at the start. -/
theorem Sound.migrated {tables after : Tables} (h : Sound initial tables) {item row : Item}
    {nowEpoch : Int} {draws : List (List UInt8)} {migration : Migration}
    (planned : migrateSource rt item nowEpoch draws = some migration)
    (hrow : tables.submissions migration.submissionKey = some row)
    (hlegacy : ¬ Legacy initial migration.newSubmissionId)
    (committed : migration.transact tables = some after) :
    Sound initial after ∧ Later initial tables after := by
  obtain ⟨-, hnew⟩ := migrateSource_spec planned
  obtain ⟨hversion, hid, hfree, rfl⟩ := Migration.transact_eq_some hrow committed
  have hinitial := h.unchanged _ row hrow hversion
  have hold (old : JsString) (ho : migration.oldSubmissionId = some old) : Legacy initial old :=
    ⟨_, row, hinitial, hversion, by rw [hid, ho]; rfl⟩
  obtain ⟨hput, hlater⟩ := h.putNew migration.outbox hlegacy hfree hnew
  obtain ⟨hdelete, hlater', hgone⟩ := hput.deleteOld migration hold
  have hsame : (Backfill.deleteOld (Backfill.putNew tables migration.outbox)
      migration.deletes).submissions = tables.submissions := by
    cases migration.outbox <;> cases migration.deletes <;> rfl
  obtain ⟨hset, hlater''⟩ := hdelete.setRow migration.submissionKey
    (withOpaqueSubmissionId row migration.newSubmissionId)
    ((keyOf_random _ _).trans (h.key _ row hrow))
    (by rw [versionOf_random]; exact Option.some_ne_none _) (idOf_random _ _) hlegacy
    (by
      intro before hbefore
      rw [hsame] at hbefore
      rwa [← Option.some.inj (hrow.symm.trans hbefore)])
    (by
      intro before old hbefore _ hbefore'
      rw [← Option.some.inj (hinitial.symm.trans hbefore), hid] at hbefore'
      obtain ⟨other, hother, heq⟩ := Option.map_eq_some_iff.mp hbefore'
      exact hgone old (by rw [hother, AttributeValue.S.inj heq]))
  exact ⟨hset, hlater.trans (hlater'.trans hlater'')⟩

end

end EsigSuite.Waitlist.Backfill
