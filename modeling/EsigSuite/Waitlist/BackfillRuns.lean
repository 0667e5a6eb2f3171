import EsigSuite.Waitlist.BackfillTables
import Mathlib.Logic.Relation

/-!
# Runs of the backfill

Whatever handlers and other runs do between its steps, a run that returns
`verified` leaves every submission that its last scan saw with a random id, the
outbox item of that id where one is due, and none under the legacy id. The id of
a submission never changes once it is a random one.
-/

namespace EsigSuite.Waitlist.Backfill

open Lib

-- ---------------------------------------------------------------------------
-- Items that a run has seen
-- ---------------------------------------------------------------------------

/-- The item is one of the projection of a row that is still there, and which has
not changed if the item has a version. -/
def Seen (tables : Tables) (item : Item) : Prop :=
  ∃ key row, keyOf item = some (.S key) ∧ tables.submissions key = some row ∧
    (versionOf item ≠ none → item = project PRIVATE_PROJECTION row)

/-- The item is that of a submission with this random id. -/
structure RandomRow (tables : Tables) (item : Item) (key id : JsString) (row : Item) : Prop where
  keyed : keyOf item = some (.S key)
  stored : tables.submissions key = some row
  projected : item = project PRIVATE_PROJECTION row
  version : versionOf row = some (.S SUBMISSION_ID_VERSION)
  named : idOf row = some (.S id)
  valid : isSubmissionId id = true

section
variable (rt : Runtime) (nowEpoch : Int)

/-- The item is that of a submission with a random id, and the outbox has the item
that is due. -/
def Settled (tables : Tables) (item : Item) : Prop :=
  ∃ key id row, RandomRow tables item key id row ∧
    (eligible nowEpoch item = true → ∃ outbox, toOutbox rt item = some outbox ∧
      tables.outbox (outboxKey id) = some outbox.toDynamoItem)

/-- What holds of a run. A pass that is clean so far has settled what it is through
with, except for the item that it verifies. -/
def RunOk (tables : Tables) : Run → Prop
  | .scanning _ items => ∀ item ∈ items, Seen tables item
  | .working p rest => (∀ item ∈ rest, Seen tables item) ∧
      (p.clean = true → ∀ item ∈ p.sourceItems, item ∈ rest ∨ Settled rt nowEpoch tables item)
  | .verifying p outbox rest => (∀ item ∈ rest, Seen tables item) ∧
      (p.clean = true → ∀ item ∈ p.sourceItems, item ∈ rest ∨ Settled rt nowEpoch tables item ∨
        ∃ key id row, RandomRow tables item key id row ∧ toOutbox rt item = some outbox)
  | .verified _ items => ∀ item ∈ items, Settled rt nowEpoch tables item
  | .failed => True

end

section
variable {rt : Runtime} {nowEpoch : Int} {initial tables after : Tables} {item : Item}

@[simp] theorem Pass.clean_migratedOne (p : Pass) : p.migratedOne.clean = false := by
  simp [Pass.clean, Pass.migratedOne]

@[simp] theorem Pass.clean_insertedOne (p : Pass) : p.insertedOne.clean = false := by
  simp [Pass.clean, Pass.insertedOne]

@[simp] theorem Pass.clean_retry (p : Pass) : p.retry.clean = false := by
  simp [Pass.clean, Pass.retry]

theorem Seen.later (h : Seen tables item) (hlater : Later initial tables after) : Seen after item := by
  obtain ⟨key, row, hkey, hrow, hsame⟩ := h
  obtain ⟨row', hrow', hkept⟩ := hlater.rows key row hrow
  refine ⟨key, row', hkey, hrow', ?_⟩
  intro hversion
  have hitem := hsame hversion
  rw [hitem, versionOf_project] at hversion
  rw [hkept hversion]
  exact hitem

theorem RandomRow.later {key id : JsString} {row : Item} (h : RandomRow tables item key id row)
    (hlater : Later initial tables after) : RandomRow after item key id row := by
  obtain ⟨row', hrow', hkept⟩ := hlater.rows key row h.stored
  obtain rfl := hkept (by rw [h.version]; exact Option.some_ne_none _)
  exact { h with stored := hrow' }

/-- The random id is not a legacy one. -/
theorem RandomRow.not_legacy {key id : JsString} {row : Item} (h : RandomRow tables item key id row)
    (hsound : Sound initial tables) : ¬ Legacy initial id :=
  hsound.apart key row id h.stored (by rw [h.version]; exact Option.some_ne_none _) h.named

theorem Settled.later (h : Settled rt nowEpoch tables item) (hsound : Sound initial tables)
    (hlater : Later initial tables after) : Settled rt nowEpoch after item := by
  obtain ⟨key, id, row, hrandom, hdue⟩ := h
  refine ⟨key, id, row, hrandom.later hlater, fun heligible => ?_⟩
  obtain ⟨outbox, houtbox, hthere⟩ := hdue heligible
  exact ⟨outbox, houtbox, hlater.outbox id _ (hrandom.not_legacy hsound) hthere⟩

/-- What others do leaves a run as it is. -/
theorem RunOk.later {run : Run} (h : RunOk rt nowEpoch tables run) (hsound : Sound initial tables)
    (hlater : Later initial tables after) : RunOk rt nowEpoch after run := by
  cases run with
  | scanning pass items => exact fun item hitem => (h item hitem).later hlater
  | working p rest =>
    obtain ⟨hseen, hdone⟩ := h
    refine ⟨fun item hitem => (hseen item hitem).later hlater, ?_⟩
    intro hclean item hitem
    exact (hdone hclean item hitem).imp_right fun hsettled => hsettled.later hsound hlater
  | verifying p outbox rest =>
    obtain ⟨hseen, hdone⟩ := h
    refine ⟨fun item hitem => (hseen item hitem).later hlater, ?_⟩
    intro hclean item hitem
    rcases hdone hclean item hitem with hrest | hsettled | ⟨key, id, row, hrandom, houtbox⟩
    · exact .inl hrest
    · exact .inr (.inl (hsettled.later hsound hlater))
    · exact .inr (.inr ⟨key, id, row, hrandom.later hlater, houtbox⟩)
  | verified pass items => exact fun item hitem => (h item hitem).later hsound hlater
  | failed => trivial

-- ---------------------------------------------------------------------------
-- Steps of a run
-- ---------------------------------------------------------------------------

/-- A seen item that is valid and has a version. -/
theorem Seen.randomRow (h : Seen tables item) {source : Source} (valid : validateSource item = some source)
    (random : source.version = some SUBMISSION_ID_VERSION) :
    ∃ key id row, RandomRow tables item key id row := by
  obtain ⟨key, row, hkey, hrow, hsame⟩ := h
  obtain ⟨-, hversion, hid, hcases⟩ := validateSource_spec valid
  rw [random, Option.map_some] at hversion
  have hitem := hsame (by rw [hversion]; exact Option.some_ne_none _)
  obtain hnone | ⟨-, id, hsource, hvalid⟩ := hcases
  · rw [random] at hnone
    exact nomatch hnone
  · rw [hsource, Option.map_some] at hid
    refine ⟨key, id, row, hkey, hrow, hitem, ?_, ?_, hvalid⟩
    · rw [← versionOf_project, ← hitem, hversion]
    · rw [← idOf_project, ← hitem, hid]

/-- The id of the item that is derived. -/
theorem RandomRow.derived {key id : JsString} {row : Item} (h : RandomRow tables item key id row)
    {outbox : Outbox} (houtbox : toOutbox rt item = some outbox) :
    outbox.outbox_key = outboxKey id ∧ OutboxRow (outboxKey id) outbox.toDynamoItem := by
  obtain ⟨hid, hkey, hvalid⟩ := toOutbox_spec houtbox
  rw [h.projected, idOf_project, h.named] at hid
  rw [AttributeValue.S.inj (Option.some.inj hid)]
  exact ⟨hkey, outbox, rfl, hkey.symm, hkey, hvalid⟩

/-- An item of the outbox with the attributes of another is the other. -/
theorem toDynamoItem_of_attributes {expected found : Outbox}
    (h : expected.toDynamoItem.all (fun entry => attributeOf found.toDynamoItem entry.1 == some entry.2)
      = true) : found.toDynamoItem = expected.toDynamoItem := by
  rw [List.all_eq_true] at h
  simp [Outbox.toDynamoItem, attributeOf] at h ⊢
  tauto

/-- An item that is verified is the one that was derived. -/
theorem verify_eq_true (hsound : Sound initial tables) {outbox : Outbox}
    (h : verify outbox tables = true) :
    tables.outbox outbox.outbox_key = some outbox.toDynamoItem := by
  unfold verify at h
  split at h
  next row hrow =>
    obtain ⟨found, rfl, -⟩ := hsound.outbox _ row hrow
    rw [hrow, toDynamoItem_of_attributes h]
  next => exact nomatch h

theorem RandomRow.settled (hsound : Sound initial tables) {key id : JsString} {row : Item}
    (h : RandomRow tables item key id row) {outbox : Outbox} (houtbox : toOutbox rt item = some outbox)
    (hverify : verify outbox tables = true) : Settled rt nowEpoch tables item := by
  refine ⟨key, id, row, h, fun _ => ⟨outbox, houtbox, ?_⟩⟩
  rw [← (h.derived houtbox).1]
  exact verify_eq_true hsound hverify

/-- What an item that is put keeps, whether or not its answer comes back. -/
theorem putOutbox_keeps (hsound : Sound initial tables) (hseen : Seen tables item) {source : Source}
    (valid : validateSource item = some source) (random : source.version = some SUBMISSION_ID_VERSION)
    {outbox : Outbox} (derived : toOutbox rt item = some outbox)
    (committed : putOutbox outbox tables = some after) :
    Sound initial after ∧ Later initial tables after := by
  obtain ⟨key, id, row, hrandom⟩ := hseen.randomRow valid random
  obtain ⟨hkey, hitem⟩ := hrandom.derived derived
  unfold putOutbox at committed
  split_ifs at committed with hthere
  obtain rfl := Option.some.inj committed
  rw [Option.not_isSome_iff_eq_none, hkey] at hthere
  rw [hkey]
  exact hsound.put (hrandom.not_legacy hsound) hthere hitem

/-- What a migration keeps. -/
theorem migrate_keeps (hsound : Sound initial tables) (hseen : Seen tables item)
    {draws : List (List UInt8)} {migration : Migration}
    (planned : migrateSource rt item nowEpoch draws = some migration)
    (hlegacy : ¬ Legacy initial migration.newSubmissionId)
    (committed : migration.transact tables = some after) :
    Sound initial after ∧ Later initial tables after := by
  obtain ⟨key, row, hkey, hrow, -⟩ := hseen
  rw [(migrateSource_spec planned).1] at hkey
  rw [← AttributeValue.S.inj (Option.some.inj hkey)] at hrow
  exact hsound.migrated planned hrow hlegacy committed

theorem afterPut_ok {p : Pass} (outbox : Option Outbox) {rest : List Item} (hclean : p.clean = false)
    (hseen : ∀ item ∈ rest, Seen tables item) :
    RunOk rt nowEpoch tables (afterPut p outbox rest) := by
  cases outbox with
  | none => exact ⟨hseen, by simp [hclean]⟩
  | some outbox => exact ⟨hseen, by simp [hclean]⟩

/-- The item that a run goes on to verify. -/
theorem verifying_ok {p : Pass} {rest : List Item}
    (h : RunOk rt nowEpoch tables (.working p (item :: rest))) {source : Source}
    (valid : validateSource item = some source) (random : source.version = some SUBMISSION_ID_VERSION)
    {outbox : Outbox} (derived : toOutbox rt item = some outbox) :
    RunOk rt nowEpoch tables (.verifying p outbox rest) := by
  obtain ⟨hseen, hdone⟩ := h
  refine ⟨fun other hother => hseen other (List.mem_cons_of_mem _ hother), ?_⟩
  intro hclean other hother
  rcases hdone hclean other hother with hmem | hsettled
  · rcases List.mem_cons.mp hmem with rfl | hmem
    · obtain ⟨key, id, row, hrandom⟩ := (hseen _ List.mem_cons_self).randomRow valid random
      exact .inr (.inr ⟨key, id, row, hrandom, derived⟩)
    · exact .inl hmem
  · exact .inr (.inl hsettled)

/-- What one step of a run keeps of the tables and of the run. -/
theorem step_ok {Random : JsString → Prop} {run run' : Run}
    (fresh : ∀ id, Random id → ¬ Legacy initial id) (hsound : Sound initial tables)
    (hrun : RunOk rt nowEpoch tables run)
    (step : Step rt Random nowEpoch (tables, run) (after, run')) :
    Sound initial after ∧ Later initial tables after ∧ RunOk rt nowEpoch after run' := by
  cases step with
  | read key row found =>
    refine ⟨hsound, .refl _, ?_⟩
    intro item hitem
    rcases List.mem_append.mp hitem with hitem | hitem
    · exact hrun item hitem
    · obtain rfl := List.mem_singleton.mp hitem
      exact ⟨key, row, (keyOf_project row).trans (hsound.key key row found), found, fun _ => rfl⟩
  | scanned => exact ⟨hsound, .refl _, hrun, fun _ item hitem => .inl hitem⟩
  | migrate source valid legacy draws planned random committed =>
    obtain ⟨hseen, -⟩ := hrun
    obtain ⟨hafter, hlater⟩ :=
      migrate_keeps hsound (hseen _ List.mem_cons_self) planned (fresh _ random) committed
    exact ⟨hafter, hlater, afterPut_ok _ (Pass.clean_migratedOne _)
      fun item hitem => (hseen item (List.mem_cons_of_mem _ hitem)).later hlater⟩
  | migrateLost source valid legacy draws planned random committed =>
    obtain ⟨hseen, -⟩ := hrun
    obtain ⟨hafter, hlater⟩ :=
      migrate_keeps hsound (hseen _ List.mem_cons_self) planned (fresh _ random) committed
    exact ⟨hafter, hlater,
      fun item hitem => (hseen item (List.mem_cons_of_mem _ hitem)).later hlater, by simp⟩
  | migrateCancelled source valid legacy draws planned cancelled =>
    exact ⟨hsound, .refl _, fun item hitem => hrun.1 item (List.mem_cons_of_mem _ hitem), by simp⟩
  | skip source valid random other =>
    obtain ⟨hseen, hdone⟩ := hrun
    refine ⟨hsound, .refl _, fun item hitem => hseen item (List.mem_cons_of_mem _ hitem), ?_⟩
    intro hclean item hitem
    rcases hdone hclean item hitem with hmem | hsettled
    · rcases List.mem_cons.mp hmem with rfl | hmem
      · obtain ⟨key, id, row, hrandom⟩ := (hseen _ List.mem_cons_self).randomRow valid random
        refine .inr ⟨key, id, row, hrandom, fun heligible => ?_⟩
        rw [other] at heligible
        exact nomatch heligible
      · exact .inl hmem
    · exact .inr hsettled
  | put source valid random due derived committed =>
    obtain ⟨hseen, -⟩ := hrun
    obtain ⟨hafter, hlater⟩ :=
      putOutbox_keeps hsound (hseen _ List.mem_cons_self) valid random derived committed
    exact ⟨hafter, hlater,
      fun item hitem => (hseen item (List.mem_cons_of_mem _ hitem)).later hlater, by simp⟩
  | putLost source valid random due derived committed =>
    have hafter := putOutbox_keeps hsound (hrun.1 _ List.mem_cons_self) valid random derived committed
    exact ⟨hafter.1, hafter.2, verifying_ok (hrun.later hsound hafter.2) valid random derived⟩
  | putThere source valid random due derived there =>
    exact ⟨hsound, .refl _, verifying_ok hrun valid random derived⟩
  | verify equal =>
    obtain ⟨hseen, hdone⟩ := hrun
    refine ⟨hsound, .refl _, hseen, ?_⟩
    intro hclean item hitem
    rcases hdone hclean item hitem with hrest | hsettled | ⟨key, id, row, hrandom, houtbox⟩
    · exact .inl hrest
    · exact .inr hsettled
    · exact .inr (hrandom.settled hsound houtbox equal)
  | finish clean =>
    refine ⟨hsound, .refl _, ?_⟩
    intro item hitem
    exact (hrun.2 clean item hitem).resolve_left List.not_mem_nil
  | nextPass again more =>
    exact ⟨hsound, .refl _, fun item hitem => absurd hitem List.not_mem_nil⟩
  | fail going => exact ⟨hsound, .refl _, trivial⟩

end

-- ---------------------------------------------------------------------------
-- Worlds
-- ---------------------------------------------------------------------------

section
variable {ι : Type} [DecidableEq ι] {rt : Runtime} {Random : JsString → Prop} {nowEpoch : ι → Int}
  {initial : Tables} {world next : World ι}

/-- What holds of every world that is reached. -/
structure WorldOk (rt : Runtime) (nowEpoch : ι → Int) (initial : Tables) (world : World ι) : Prop where
  tables : Sound initial world.tables
  runs : ∀ i, RunOk rt (nowEpoch i) world.tables (world.runs i)

theorem next_ok (fresh : ∀ id, Random id → ¬ Legacy initial id) (h : WorldOk rt nowEpoch initial world)
    (step : World.Next rt Random nowEpoch world next) :
    WorldOk rt nowEpoch initial next ∧ Later initial world.tables next.tables := by
  cases step with
  | submitted settings request stored random committed =>
    obtain ⟨hafter, hlater⟩ := h.tables.submitted stored (fresh _ random) committed
    exact ⟨⟨hafter, fun i => (h.runs i).later h.tables hlater⟩, hlater⟩
  | ran i step =>
    obtain ⟨hafter, hlater, hrun⟩ := step_ok fresh h.tables (h.runs i) step
    refine ⟨⟨hafter, fun j => ?_⟩, hlater⟩
    by_cases hj : j = i
    · subst hj
      simpa using hrun
    · simpa [hj] using (h.runs j).later h.tables hlater

omit [DecidableEq ι] in
theorem start_ok (h : Admissible initial) : WorldOk rt nowEpoch initial (World.start ι initial) :=
  ⟨h.sound, fun _ _ hitem => absurd hitem List.not_mem_nil⟩

theorem reached_ok (fresh : ∀ id, Random id → ¬ Legacy initial id)
    (h : WorldOk rt nowEpoch initial world)
    (run : Relation.ReflTransGen (World.Next rt Random nowEpoch) world next) :
    WorldOk rt nowEpoch initial next ∧ Later initial world.tables next.tables := by
  induction run with
  | refl => exact ⟨h, .refl _⟩
  | tail _ step ih =>
    obtain ⟨hworld, hlater⟩ := ih
    obtain ⟨hnext, hstep⟩ := next_ok fresh hworld step
    exact ⟨hnext, hlater.trans hstep⟩

/-- What a run that is verified says of an item that its last scan saw: the random
id of the submission, its outbox item where one is due, and no item that has this
id under another key or that is one of the legacy id. -/
structure Verified (rt : Runtime) (initial : Tables) (nowEpoch : Int) (tables : Tables) (item : Item)
    (key id : JsString) (row : Item) : Prop extends RandomRow tables item key id row where
  due : eligible nowEpoch item = true → ∃ outbox, toOutbox rt item = some outbox ∧
    tables.outbox (outboxKey id) = some outbox.toDynamoItem
  unique : ∀ other found, tables.outbox other = some found → idOf found = some (.S id) →
    other = outboxKey id
  cleared : ∀ before old, initial.submissions key = some before → versionOf before = none →
    idOf before = some (.S old) → ∀ other found, tables.outbox other = some found →
    other ≠ outboxKey old ∧ idOf found ≠ some (.S old)

/-- The key of an item of the outbox is that of its id. -/
theorem OutboxRow.key_eq {key : JsString} {row : Item} (h : OutboxRow key row) {id : JsString}
    (hid : idOf row = some (.S id)) : key = outboxKey id := by
  obtain ⟨outbox, rfl, rfl, hkey, -⟩ := h
  have hsame : outbox.submission_id = id := AttributeValue.S.inj (Option.some.inj hid)
  rw [hkey, hsame]

theorem Settled.verified {tables : Tables} {now : Int} {item : Item} (h : Settled rt now tables item)
    (hsound : Sound initial tables) :
    ∃ key id row, Verified rt initial now tables item key id row := by
  obtain ⟨key, id, row, hrandom, hdue⟩ := h
  refine ⟨key, id, row, { hrandom with due := hdue, unique := ?_, cleared := ?_ }⟩
  · intro other found hfound hid
    exact (hsound.outbox other found hfound).key_eq hid
  · intro before old hbefore hversion hold other found hfound
    have hnone := hsound.cleared key before row old hbefore hversion hold hrandom.stored
      (by rw [hrandom.version]; exact Option.some_ne_none _)
    have hne : other ≠ outboxKey old := by
      rintro rfl
      rw [hnone] at hfound
      exact nomatch hfound
    exact ⟨hne, fun hid => hne ((hsound.outbox other found hfound).key_eq hid)⟩

end

/-- In whatever order handlers and runs take their steps, and wherever runs stop: an
item that the last scan of a verified run saw is that of a submission with a random
id, with the one outbox item that is due and none of the legacy id. A submission
that has a version keeps its row. -/
theorem backfill_verified {ι : Type} [DecidableEq ι] (rt : Runtime) {Random : JsString → Prop}
    {nowEpoch : ι → Int} {initial : Tables} (admissible : Admissible initial)
    (fresh : ∀ id, Random id → ¬ Legacy initial id) {world : World ι}
    (reached :
      Relation.ReflTransGen (World.Next rt Random nowEpoch) (World.start ι initial) world) :
    (∀ i pass items, world.runs i = .verified pass items → ∀ item ∈ items,
      ∃ key id row, Verified rt initial (nowEpoch i) world.tables item key id row) ∧
    ∀ later, Relation.ReflTransGen (World.Next rt Random nowEpoch) world later →
      ∀ key row, world.tables.submissions key = some row → versionOf row ≠ none →
        later.tables.submissions key = some row := by
  have hstart : WorldOk rt nowEpoch initial (World.start ι initial) := start_ok admissible
  obtain ⟨hworld, -⟩ := reached_ok fresh hstart reached
  constructor
  · intro i pass items hrun item hitem
    have hsettled := hworld.runs i
    rw [hrun] at hsettled
    exact (hsettled item hitem).verified hworld.tables
  · intro later run key row hrow hversion
    obtain ⟨-, hlater⟩ := reached_ok fresh hworld run
    obtain ⟨row', hrow', hsame⟩ := hlater.rows key row hrow
    rw [hrow', hsame hversion]

-- ---------------------------------------------------------------------------
-- Samples
-- ---------------------------------------------------------------------------

namespace Sample

def runtime : Runtime where
  nfkc text := text
  toLowerCase text := text
  sha256 bytes := bytes
  parseOther _ := none

/-- One backfill that runs alone. -/
def alone (tables : Tables) (run : Run) : World Unit := ⟨tables, fun _ => run⟩

theorem alone_run {Random : JsString → Prop} {now : Int} {before after : Tables × Run}
    (h : Relation.ReflTransGen (Step runtime Random now) before after) :
    Relation.ReflTransGen (World.Next runtime Random fun _ => now) (alone before.1 before.2)
      (alone after.1 after.2) := by
  refine h.lift (fun state => alone state.1 state.2) ?_
  intro state state' step
  have hrun : alone state'.1 state'.2 =
      ⟨state'.1, Function.update (alone state.1 state.2).runs () state'.2⟩ := by
    rw [Function.update_eq_const_of_subsingleton]
    rfl
  show World.Next runtime Random _ (alone state.1 state.2) (alone state'.1 state'.2)
  rw [hrun]
  exact .ran () step

def key : JsString := .ofText ("WAITLIST#".toList ++ List.replicate 64 '0')

def legacyId : JsString := .ofText ("wl_".toList ++ List.replicate 24 'a')

/-- What the source of entropy gives. -/
def randomBytes : List UInt8 := List.replicate 12 7

def newId : JsString := js "wl_" ++ hexText randomBytes

/-- A submission of 2025-08-06 without its id. -/
def fields (record_type : String) : Item :=
  [(js "submission_key", .S key), (js "created_at", .S (js "2025-08-06T17:06:40.123Z")),
    (js "offer", .S (js "business")), (js "retention_class", .S (js "waitlist_90d")),
    (js "expires_at_epoch", .N (js "1762276000")), (js "record_type", .S (js record_type))]

def outbox (submission_id : JsString) : Outbox where
  outbox_key := outboxKey submission_id
  record_type := js "waitlist_notification_outbox"
  submission_id := submission_id
  offer := js "business"
  source := js "pricing"
  created_at := js "2025-08-06T17:06:40.123Z"
  retention_class := js "waitlist_90d"
  contact_permission_status := js "asserted_unverified"
  email_verification_status := js "unverified"
  expires_at_epoch := 1762276000

/-- A submission that the handler made before there were random ids. -/
def legacyRow : Item := (js "submission_id", .S legacyId) :: fields "waitlist_submission"

/-- The submission, and the outbox item under its legacy id. -/
def legacyTables : Tables where
  submissions k := if k = key then some legacyRow else none
  outbox k := if k = outboxKey legacyId then some (outbox legacyId).toDynamoItem else none

def migration : Migration := ⟨key, some legacyId, newId, some (outbox newId)⟩

def migratedRow : Item := withOpaqueSubmissionId legacyRow newId

def migratedTables : Tables :=
  setRow (deleteOld (putNew legacyTables migration.outbox) migration.deletes) key migratedRow

theorem admissible_legacy : Admissible legacyTables where
  key k row h := by
    obtain ⟨rfl, rfl⟩ : k = key ∧ legacyRow = row := by simpa [legacyTables] using h
    decide
  apart k row id h hversion := by
    obtain ⟨rfl, rfl⟩ : k = key ∧ legacyRow = row := by simpa [legacyTables] using h
    exact absurd (by decide) hversion
  outbox k row h := by
    obtain ⟨rfl, rfl⟩ : k = outboxKey legacyId ∧ (outbox legacyId).toDynamoItem = row := by
      simpa [legacyTables] using h
    exact ⟨outbox legacyId, rfl, rfl, rfl, by decide⟩

theorem newId_fresh : ¬ Legacy legacyTables newId := by
  rintro ⟨k, row, hrow, -, hid⟩
  obtain ⟨rfl, rfl⟩ : k = key ∧ legacyRow = row := by simpa [legacyTables] using hrow
  exact absurd hid (by decide)

def source (submissionId : JsString) (version : Option JsString) : Source :=
  ⟨js "waitlist_submission", some submissionId, key, version⟩

/-- What the code makes of the items of the run below. -/
theorem legacy_reads :
    validateSource (project PRIVATE_PROJECTION legacyRow) = some (source legacyId none) ∧
      migrateSource runtime (project PRIVATE_PROJECTION legacyRow) 1754500000 [randomBytes] =
        some migration ∧
      validateSource (project PRIVATE_PROJECTION migratedRow) =
        some (source newId (some SUBMISSION_ID_VERSION)) ∧
      eligible 1754500000 (project PRIVATE_PROJECTION migratedRow) = true ∧
      toOutbox runtime (project PRIVATE_PROJECTION migratedRow) = some (outbox newId) ∧
      verify (outbox newId) migratedTables = true ∧ putOutbox (outbox newId) migratedTables = none := by
  decide +kernel

theorem migration_committed : migration.transact legacyTables = some migratedTables := by
  rfl

/-- A pass that migrates the submission, and one that finds it settled. -/
theorem migrated_run : Relation.ReflTransGen (Step runtime (· = newId) 1754500000)
    (legacyTables, .scanning 1 [])
    (migratedTables, .verified 2 [project PRIVATE_PROJECTION migratedRow]) := by
  obtain ⟨hlegacy, hplanned, hvalid, hdue, hderived, hverify, hthere⟩ := legacy_reads
  refine .head (.read key legacyRow rfl) (.head .scanned ?_)
  refine .head (.migrate _ hlegacy (by decide) _ hplanned rfl migration_committed) ?_
  refine .head (.verify hverify) (.head (.nextPass rfl (by decide)) ?_)
  refine .head (.read key migratedRow (setRow_self _ _)) (.head .scanned ?_)
  refine .head (.putThere _ hvalid rfl hdue hderived hthere) ?_
  exact .head (.verify hverify) (.single (.finish rfl))

/-- The submission gets a random id and the outbox item of it, and the one under the
legacy id is gone. -/
theorem legacy_verified :
    ∃ world : World Unit,
      Relation.ReflTransGen (World.Next runtime (· = newId) fun _ => 1754500000)
        (World.start Unit legacyTables) world ∧
      ∃ key id row, Verified runtime legacyTables 1754500000 world.tables
        (project PRIVATE_PROJECTION migratedRow) key id row := by
  have hrun := alone_run migrated_run
  have hfresh : ∀ id, id = newId → ¬ Legacy legacyTables id := fun id h => h ▸ newId_fresh
  exact ⟨_, hrun, (backfill_verified runtime admissible_legacy hfresh hrun).1 () 2 _ rfl _
    List.mem_cons_self⟩

/-- A smoke test, which has no outbox item. -/
def smokeRow : Item := withOpaqueSubmissionId (fields "smoke_test") newId

def smokeTables : Tables where
  submissions k := if k = key then some smokeRow else none
  outbox _ := none

theorem admissible_smoke : Admissible smokeTables where
  key k row h := by
    obtain ⟨rfl, rfl⟩ : k = key ∧ smokeRow = row := by simpa [smokeTables] using h
    decide
  apart k row id h hversion := by
    rintro _ ⟨k', row', h', hnone, -⟩
    obtain ⟨rfl, rfl⟩ : k' = key ∧ smokeRow = row' := by simpa [smokeTables] using h'
    exact absurd hnone (by decide)
  outbox k row h := nomatch h

theorem smoke_fresh (id : JsString) : ¬ Legacy smokeTables id := by
  rintro ⟨k, row, h, hnone, -⟩
  obtain ⟨rfl, rfl⟩ : k = key ∧ smokeRow = row := by simpa [smokeTables] using h
  exact absurd hnone (by decide)

theorem smoke_reads :
    validateSource (project PRIVATE_PROJECTION smokeRow) =
        some ⟨js "smoke_test", some newId, key, some SUBMISSION_ID_VERSION⟩ ∧
      eligible 1754500000 (project PRIVATE_PROJECTION smokeRow) = false := by
  decide +kernel

theorem smoke_run : Relation.ReflTransGen (Step runtime (fun _ => True) 1754500000)
    (smokeTables, .scanning 1 []) (smokeTables, .verified 1 [project PRIVATE_PROJECTION smokeRow]) := by
  obtain ⟨hvalid, hother⟩ := smoke_reads
  refine .head (.read key smokeRow rfl) (.head .scanned ?_)
  exact .head (.skip _ hvalid rfl hother) (.single (.finish rfl))

/-- A verified run, which saw a smoke test that expires later than it started. -/
theorem smoke_test_without_outbox :
    Admissible smokeTables ∧ (∀ id, ¬ Legacy smokeTables id) ∧
      Relation.ReflTransGen (World.Next runtime (fun _ => True) fun _ => 1754500000)
        (World.start Unit smokeTables)
        (alone smokeTables (.verified 1 [project PRIVATE_PROJECTION smokeRow])) ∧
      readInteger (project PRIVATE_PROJECTION smokeRow) "expires_at_epoch" = some 1762276000 ∧
      ∀ key, smokeTables.outbox key = none :=
  ⟨admissible_smoke, smoke_fresh, alone_run smoke_run, by decide +kernel, fun _ => rfl⟩

end Sample

end EsigSuite.Waitlist.Backfill
