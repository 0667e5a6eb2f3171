import EsigSuite.Lib.JsSort
import EsigSuite.Lib.Utf8
import EsigSuite.Worm.AuditRow

/-!
# The export of audit rows

`exportAuditRowsToWorm` of `esig-worm/src/audit-export.ts`, up to the upload. The
rows are given to any `sort` that keeps what the language promises.
-/

namespace EsigSuite.Worm

open Lib Json

structure ExportAuditRowsToWormOptions where
  tenantId : JsString
  keyPrefix : Option JsString := none
  /-- `from`: the time of the date, if it has one. -/
  start : Option (Option Int) := none
  /-- `to` -/
  stop : Option (Option Int) := none

/-- What is given to the store. -/
structure Upload where
  path : JsString
  bytes : List UInt8

def seqOf (row : ChainedAuditRow) : JsNumber := toNumber (lookup row.members (js "seq"))

/-- By seq, then by id. -/
def bySeq : Comparator ChainedAuditRow := fun a b =>
  let d := JsNumber.sub (seqOf a) (seqOf b)
  if d ≠ some (.finite 0) then d
  else if a.id < b.id then some (.finite (-1))
  else if b.id < a.id then some (.finite 1)
  else some (.finite 0)

section
variable (sort : Comparator ChainedAuditRow → List ChainedAuditRow → List ChainedAuditRow)
  (dateParse : Option Json → Option Int) (stamp : Int → JsString)

def parseCreatedAt (row : ChainedAuditRow) : Except String Int :=
  match dateParse (lookup row.members (js "created_at")) with
  | some ms => .ok ms
  | none => .error "unparseable created_at"

def keyTimestamp : Option Int → Except String JsString
  | some ms => .ok (stamp ms)
  | none => .error "invalid from/to date"

/-- The given date, or one of the times of the rows. -/
def bound (given : Option (Option Int)) (pick : Int → Int → Int) (rows : List ChainedAuditRow) :
    Except String (Option Int) :=
  match given with
  | some date => .ok date
  | none => do
    match ← rows.mapM (parseCreatedAt dateParse) with
    | [] => .ok none
    | ms :: more => .ok (some (more.foldl pick ms))

def ndjson (sorted : List ChainedAuditRow) : List Char :=
  ['\n'].intercalate (sorted.map serializeRow) ++ ['\n']

def exportAuditRowsToWorm (opts : ExportAuditRowsToWormOptions) (rows : List ChainedAuditRow) :
    Except String Upload := do
  if opts.tenantId = [] then .error "opts.tenantId is required"
  else if rows = [] then .error "rows is empty"
  else if rows.any fun row => !isString opts.tenantId (lookup row.members (js "tenant_id")) then
    .error "refusing to mix tenants in one compliance artifact"
  else
    let sorted := sort bySeq rows
    let start ← bound dateParse opts.start min sorted
    let stop ← bound dateParse opts.stop max sorted
    let startText ← keyTimestamp stamp start
    let stopText ← keyTimestamp stamp stop
    let path := opts.keyPrefix.getD (js "audit-exports/") ++ opts.tenantId ++ js "/" ++ startText ++
      js "__" ++ stopText ++ js ".ndjson"
    return ⟨path, Utf8.encode (ndjson sorted)⟩

end

-- ---------------------------------------------------------------------------
-- The comparator
-- ---------------------------------------------------------------------------

/-- Every seq is a number, and not an infinite one. -/
def Numbered (rows : List ChainedAuditRow) : Prop := ∀ row ∈ rows, ∃ x, seqOf row = some (.finite x)

theorem roundIfAny_onGrid {n : Option Nat} {x : ℚ}
    (h : n.map (fun n => Double.round (n : ℚ)) = some (.finite x)) : Double.OnGrid x := by
  obtain ⟨n, -, hround⟩ := Option.map_eq_some_iff.mp h
  exact Double.round_onGrid hround

theorem radixNumber_onGrid {base : Nat} {digits : List Char} {x : ℚ}
    (h : radixNumber base digits = some (.finite x)) : Double.OnGrid x := by
  unfold radixNumber at h
  split at h
  · cases h
  · exact roundIfAny_onGrid h

theorem decimalNumber_onGrid {text : List Char} {x : ℚ}
    (h : decimalNumber text = some (.finite x)) : Double.OnGrid x := by
  unfold decimalNumber at h
  dsimp only at h
  split at h
  · cases h
  split at h
  · cases h
  split at h
  · exact Double.round_onGrid (Option.some.inj h)
  · cases h

theorem numberOfText_onGrid {text : JsString} {x : ℚ} (h : numberOfText text = some (.finite x)) :
    Double.OnGrid x := by
  unfold numberOfText at h
  dsimp only at h
  split at h
  · cases h
    exact ⟨0, by simp⟩
  · split at h
    · exact radixNumber_onGrid h
    split at h
    · exact radixNumber_onGrid h
    split at h
    · exact radixNumber_onGrid h
    · exact decimalNumber_onGrid h
  · exact decimalNumber_onGrid h

theorem seqOf_onGrid {row : ChainedAuditRow} {x : ℚ} (h : seqOf row = some (.finite x)) :
    Double.OnGrid x := by
  have hplain := row.plain
  rw [Plain, plainMembers_iff] at hplain
  unfold seqOf at h
  cases hvalue : lookup row.members (js "seq") with
  | none =>
    rw [hvalue] at h
    cases h
  | some value =>
    have hmem := hplain.2 _ ((lookup_eq_some_iff hplain.1).mp hvalue)
    rw [hvalue] at h
    cases value with
    | null =>
      cases h
      exact ⟨0, by simp⟩
    | bool b =>
      have hx : (if b then 1 else 0 : ℚ) = x := Double.finite.inj (Option.some.inj h)
      have hone : Double.OnGrid 1 := by
        simpa using Double.onGrid_zpow 1 0 (by norm_num)
      cases b with
      | true => exact hx ▸ hone
      | false => exact hx ▸ ⟨0, by simp⟩
    | number d =>
      obtain rfl : d = .finite x := Option.some.inj h
      simp only [Plain] at hmem
      exact Double.round_onGrid hmem
    | string text => exact numberOfText_onGrid h
    | array items => exact numberOfText_onGrid h
    | object members =>
      have h : numberOfText (stringOf (.object members)) = some (.finite x) := h
      exact numberOfText_onGrid h

/-- First by the number, then by the id. -/
def Earlier (x y : ℚ) (i j : JsString) : Prop := x < y ∨ x = y ∧ i < j

theorem Earlier.trans {x y z : ℚ} {i j k : JsString} (hxy : Earlier x y i j) (hyz : Earlier y z j k) :
    Earlier x z i k := by
  rcases hxy with hxy | ⟨rfl, hij⟩
  · rcases hyz with hyz | ⟨rfl, -⟩
    · exact .inl (hxy.trans hyz)
    · exact .inl hxy
  · rcases hyz with hyz | ⟨rfl, hjk⟩
    · exact .inl hyz
    · exact .inr ⟨rfl, List.lt_trans hij hjk⟩

/-- What the comparator says of two rows that are numbered. -/
theorem bySeq_finite {a b : ChainedAuditRow} {x y : ℚ} (hx : seqOf a = some (.finite x))
    (hy : seqOf b = some (.finite y)) : (bySeq a b).isSome ∧
      (bySeq.Below a b ↔ Earlier x y a.id b.id) ∧ (bySeq.Tied a b ↔ x = y ∧ a.id = b.id) ∧
      (bySeq.Above a b ↔ Earlier y x b.id a.id) := by
  unfold Earlier
  obtain ⟨d, hd, hlt, heq, hgt⟩ := JsNumber.sub_finite (seqOf_onGrid hx) (seqOf_onGrid hy)
  rcases lt_trichotomy x y with hxy | hxy | hxy
  · have hneg := hlt hxy
    have hne : d ≠ .finite 0 := hneg.ne
    have hcmp : bySeq a b = some d := by simp [bySeq, hx, hy, hd, hne]
    simp [Comparator.Below, Comparator.Tied, Comparator.Above, hcmp, JsNumber.lt, hneg, hneg.ne,
      not_lt_of_gt hneg, hxy, hxy.ne, hxy.ne', not_lt_of_gt hxy]
  · have hcmp : bySeq a b = if a.id < b.id then some (.finite (-1))
        else if b.id < a.id then some (.finite 1) else some (.finite 0) := by
      simp [bySeq, hx, hy, hd, heq hxy]
    subst hxy
    by_cases hab : a.id < b.id
    · have hba : ¬ b.id < a.id := List.lt_asymm hab
      have hne : a.id ≠ b.id := fun h => List.lt_irrefl b.id (h ▸ hab)
      rw [if_pos hab] at hcmp
      simp [Comparator.Below, Comparator.Tied, Comparator.Above, hcmp, JsNumber.lt, hab, hba, hne]
    by_cases hba : b.id < a.id
    · have hne : a.id ≠ b.id := fun h => hab (h ▸ hba)
      rw [if_neg hab, if_pos hba] at hcmp
      simp [Comparator.Below, Comparator.Tied, Comparator.Above, hcmp, JsNumber.lt, hab, hba, hne]
    · have heq : a.id = b.id := List.le_antisymm (List.not_lt.mp hba) (List.not_lt.mp hab)
      rw [if_neg hab, if_neg hba] at hcmp
      simp [Comparator.Below, Comparator.Tied, Comparator.Above, hcmp, JsNumber.lt, hab, hba, heq]
  · have hpos := hgt hxy
    have hne : d ≠ .finite 0 := hpos.ne'
    have hcmp : bySeq a b = some d := by simp [bySeq, hx, hy, hd, hne]
    simp [Comparator.Below, Comparator.Tied, Comparator.Above, hcmp, JsNumber.lt, hpos, hpos.ne',
      not_lt_of_gt hpos, hxy, hxy.ne, hxy.ne', not_lt_of_gt hxy]

/-- The number, where there is one. -/
def seqNumber (row : ChainedAuditRow) : ℚ :=
  match seqOf row with
  | some (.finite x) => x
  | _ => 0

/-- The comparator is consistent exactly when every seq is a number. -/
theorem bySeq_consistent_iff {rows : List ChainedAuditRow} :
    bySeq.Consistent rows ↔ Numbered rows := by
  constructor
  · intro h row hrow
    have hself := h.number row hrow row hrow
    cases hseq : seqOf row with
    | none => simp [bySeq, hseq, JsNumber.sub, JsNumber.add] at hself
    | some d =>
      cases d with
      | finite x => exact ⟨x, rfl⟩
      | infinite negative =>
        cases negative <;>
          simp [bySeq, hseq, JsNumber.sub, JsNumber.add, JsNumber.neg, Double.neg] at hself
  · intro h
    have hnum : ∀ row ∈ rows, seqOf row = some (.finite (seqNumber row)) := fun row hrow => by
      obtain ⟨x, hx⟩ := h row hrow
      rw [seqNumber, hx]
    have hpair := fun a ha b hb => bySeq_finite (hnum a ha) (hnum b hb)
    constructor
    · exact fun a ha b hb => (hpair a ha b hb).1
    · exact fun a ha => (hpair a ha a ha).2.2.1.mpr ⟨rfl, rfl⟩
    · intro a ha b hb htied
      obtain ⟨hseq, hid⟩ := (hpair a ha b hb).2.2.1.mp htied
      exact (hpair b hb a ha).2.2.1.mpr ⟨hseq.symm, hid.symm⟩
    · intro a ha b hb c hc hab hbc
      obtain ⟨hseq, hid⟩ := (hpair a ha b hb).2.2.1.mp hab
      obtain ⟨hseq', hid'⟩ := (hpair b hb c hc).2.2.1.mp hbc
      exact (hpair a ha c hc).2.2.1.mpr ⟨hseq.trans hseq', hid.trans hid'⟩
    · intro a ha b hb c hc hab hbc
      exact (hpair a ha c hc).2.1.mpr
        (((hpair a ha b hb).2.1.mp hab).trans ((hpair b hb c hc).2.1.mp hbc))
    · intro a ha b hb c hc hab hbc
      exact (hpair a ha c hc).2.2.2.mpr
        (((hpair b hb c hc).2.2.2.mp hbc).trans ((hpair a ha b hb).2.2.2.mp hab))

theorem tied_iff {rows : List ChainedAuditRow} {a b : ChainedAuditRow} (h : Numbered rows)
    (ha : a ∈ rows) (hb : b ∈ rows) : bySeq.Tied a b ↔ seqOf a = seqOf b ∧ a.id = b.id := by
  obtain ⟨x, hx⟩ := h a ha
  obtain ⟨y, hy⟩ := h b hb
  rw [(bySeq_finite hx hy).2.2.1, hx, hy]
  simp

-- ---------------------------------------------------------------------------
-- What is written
-- ---------------------------------------------------------------------------

section
variable (dateParse : Option Json → Option Int)

/-- The date is given, or each row has one. -/
def Dated (given : Option (Option Int)) (rows : List ChainedAuditRow) : Prop :=
  match given with
  | some date => date.isSome
  | none => ∀ row ∈ rows, (dateParse (lookup row.members (js "created_at"))).isSome

/-- The checks in front of the upload. -/
structure Accepts (opts : ExportAuditRowsToWormOptions) (rows : List ChainedAuditRow) : Prop where
  tenantId : opts.tenantId ≠ []
  nonempty : rows ≠ []
  tenant : ∀ row ∈ rows, isString opts.tenantId (lookup row.members (js "tenant_id")) = true
  start : Dated dateParse opts.start rows
  stop : Dated dateParse opts.stop rows

variable (stamp : Int → JsString)

/-- The bytes that are written. -/
def written (sort : Comparator ChainedAuditRow → List ChainedAuditRow → List ChainedAuditRow)
    (opts : ExportAuditRowsToWormOptions) (rows : List ChainedAuditRow) : Option (List UInt8) :=
  (exportAuditRowsToWorm sort dateParse stamp opts rows).toOption.map (·.bytes)

/-- The lines of a file, each with its end. -/
def linesOf (bytes : List UInt8) : List (List Char) :=
  ((Utf8.decode bytes).splitOn '\n').dropLast

/-- The bytes do not depend on the order of the rows, and each line gives its row back. -/
structure Faithful (opts : ExportAuditRowsToWormOptions) (rows : List ChainedAuditRow) : Prop where
  order : ∀ sort, Sorting sort → ∀ given : List ChainedAuditRow, given.Perm rows →
    written dateParse stamp sort opts given = written dateParse stamp sort opts rows
  reads : ∀ sort, Sorting sort → ∃ bytes, written dateParse stamp sort opts rows = some bytes ∧
    List.Forall₂ Reads (linesOf bytes) (sort bySeq rows)

variable {dateParse} {stamp} {opts : ExportAuditRowsToWormOptions} {rows given : List ChainedAuditRow}

theorem Dated.perm {date : Option (Option Int)} (h : Dated dateParse date rows)
    (hperm : given.Perm rows) : Dated dateParse date given := by
  cases date with
  | some date => exact h
  | none => exact fun row hrow => h row (hperm.mem_iff.mp hrow)

theorem bound_ok {date : Option (Option Int)} (pick : Int → Int → Int) (h : Dated dateParse date rows)
    (hne : rows ≠ []) : ∃ ms, bound dateParse date pick rows = .ok (some ms) := by
  cases date with
  | some date =>
    obtain ⟨ms, rfl⟩ := Option.isSome_iff_exists.mp h
    exact ⟨ms, rfl⟩
  | none =>
    have htimes : ∀ more : List ChainedAuditRow, (∀ row ∈ more, row ∈ rows) →
        ∃ times, more.mapM (parseCreatedAt dateParse) = .ok times ∧ times.length = more.length := by
      intro more
      induction more with
      | nil => exact fun _ => ⟨[], rfl, rfl⟩
      | cons row more ih =>
        intro hmem
        obtain ⟨hrow, hmore⟩ := List.forall_mem_cons.mp hmem
        obtain ⟨ms, hms⟩ := Option.isSome_iff_exists.mp (h row hrow)
        obtain ⟨times, htimes, hlength⟩ := ih hmore
        refine ⟨ms :: times, ?_, by simp [hlength]⟩
        rw [List.mapM_cons, htimes, parseCreatedAt, hms]
        rfl
    obtain ⟨times, htimes, hlength⟩ := htimes rows fun _ h => h
    cases times with
    | nil => exact absurd (List.length_eq_zero_iff.mp hlength.symm) hne
    | cons ms more => exact ⟨more.foldl pick ms, by rw [bound, htimes]; rfl⟩

theorem Accepts.perm (h : Accepts dateParse opts rows) (hperm : given.Perm rows) :
    Accepts dateParse opts given where
  tenantId := h.tenantId
  nonempty hnil := h.nonempty (List.Perm.nil_eq (hnil ▸ hperm)).symm
  tenant row hrow := h.tenant row (hperm.mem_iff.mp hrow)
  start := h.start.perm hperm
  stop := h.stop.perm hperm

theorem Accepts.written (h : Accepts dateParse opts rows) {sort} (hsort : Sorting sort) :
    written dateParse stamp sort opts rows = some (Utf8.encode (ndjson (sort bySeq rows))) := by
  have hsorted := h.perm (hsort.perm bySeq rows)
  obtain ⟨start, hstart⟩ := bound_ok min hsorted.start hsorted.nonempty
  obtain ⟨stop, hstop⟩ := bound_ok max hsorted.stop hsorted.nonempty
  have htenant : ¬ rows.any (fun row =>
      !isString opts.tenantId (lookup row.members (js "tenant_id"))) = true := by
    simpa using h.tenant
  unfold Worm.written exportAuditRowsToWorm
  rw [if_neg h.tenantId, if_neg h.nonempty, if_neg htenant]
  dsimp only
  rw [hstart, hstop]
  rfl

theorem linesOf_ndjson {sorted : List ChainedAuditRow} (h : sorted ≠ []) :
    linesOf (Utf8.encode (ndjson sorted)) = sorted.map serializeRow := by
  have hlines : ∀ line ∈ sorted.map serializeRow, '\n' ∉ line := by
    intro line hline hmem
    obtain ⟨row, -, rfl⟩ := List.mem_map.mp hline
    exact absurd (stringify_printing _ _ hmem) (by decide)
  have hne : sorted.map serializeRow ≠ [] := by simpa using h
  rw [linesOf, Utf8.decode_encode, ndjson, List.splitOn_append_cons_self,
    List.splitOn_intercalate _ hlines hne]
  exact List.dropLast_concat

theorem forall₂_reads {sorted : List ChainedAuditRow} :
    List.Forall₂ Reads (sorted.map serializeRow) sorted ↔ ∀ row ∈ sorted, Kept row := by
  rw [List.forall₂_map_left_iff, List.forall₂_same]
  exact forall₂_congr fun row _ => serializeRow_reads_iff row

theorem reads_iff (h : Accepts dateParse opts rows) :
    (∀ sort, Sorting sort → ∃ bytes, written dateParse stamp sort opts rows = some bytes ∧
      List.Forall₂ Reads (linesOf bytes) (sort bySeq rows)) ↔ ∀ row ∈ rows, Kept row := by
  have hsorted : ∀ sort, Sorting sort → ((∃ bytes,
      written dateParse stamp sort opts rows = some bytes ∧
        List.Forall₂ Reads (linesOf bytes) (sort bySeq rows)) ↔ ∀ row ∈ rows, Kept row) := by
    intro sort hsort
    have hperm := hsort.perm bySeq rows
    have hreads := linesOf_ndjson (h.perm hperm).nonempty
    rw [h.written hsort]
    simp only [Option.some.injEq, exists_eq_left', hreads, forall₂_reads, hperm.mem_iff]
  constructor
  · exact fun hall => (hsorted _ lazySort_sorting).mp (hall _ lazySort_sorting)
  · exact fun hkept sort hsort => (hsorted sort hsort).mpr hkept

theorem order_iff (h : Accepts dateParse opts rows) :
    (∀ sort, Sorting sort → ∀ given : List ChainedAuditRow, given.Perm rows →
      written dateParse stamp sort opts given = written dateParse stamp sort opts rows) ↔
    (∀ a ∈ rows, ∀ b ∈ rows, serializeRow a = serializeRow b) ∨
      Numbered rows ∧ ∀ a ∈ rows, ∀ b ∈ rows, seqOf a = seqOf b → a.id = b.id →
        serializeRow a = serializeRow b := by
  have hties : (bySeq.Consistent rows ∧ ∀ a ∈ rows, ∀ b ∈ rows, bySeq.Tied a b →
        serializeRow a = serializeRow b) ↔
      Numbered rows ∧ ∀ a ∈ rows, ∀ b ∈ rows, seqOf a = seqOf b → a.id = b.id →
        serializeRow a = serializeRow b := by
    rw [bySeq_consistent_iff]
    refine and_congr_right fun hnumbered => ?_
    refine forall₂_congr fun a ha => forall₂_congr fun b hb => ?_
    rw [tied_iff hnumbered ha hb, and_imp]
  rw [← hties, ← Sorting.orderless_iff]
  refine forall₂_congr fun sort hsort => forall₂_congr fun given hperm => ?_
  rw [(h.perm hperm).written hsort, h.written hsort, Option.some.injEq]
  constructor
  · intro hbytes
    have hlines := congrArg linesOf hbytes
    rwa [linesOf_ndjson ((h.perm hperm).perm (hsort.perm bySeq given)).nonempty,
      linesOf_ndjson (h.perm (hsort.perm bySeq rows)).nonempty] at hlines
  · intro hlines
    rw [ndjson, ndjson, hlines]

/-- An export is the same for every order of the rows and gives each row back, exactly
when no column has an inherited name and rows of one seq and id are the same. -/
theorem exportAuditRowsToWorm_faithful_iff (h : Accepts dateParse opts rows) :
    Faithful dateParse stamp opts rows ↔ (∀ row ∈ rows, Kept row) ∧
      ((∀ a ∈ rows, ∀ b ∈ rows, Same (.object a.members) (.object b.members)) ∨
        Numbered rows ∧ ∀ a ∈ rows, ∀ b ∈ rows, seqOf a = seqOf b → a.id = b.id →
          Same (.object a.members) (.object b.members)) := by
  have hfaithful : Faithful dateParse stamp opts rows ↔ (∀ row ∈ rows, Kept row) ∧
      ((∀ a ∈ rows, ∀ b ∈ rows, serializeRow a = serializeRow b) ∨
        Numbered rows ∧ ∀ a ∈ rows, ∀ b ∈ rows, seqOf a = seqOf b → a.id = b.id →
          serializeRow a = serializeRow b) := by
    rw [← @reads_iff dateParse stamp opts rows h, ← @order_iff dateParse stamp opts rows h]
    exact ⟨fun h => ⟨h.reads, h.order⟩, fun h => ⟨h.2, h.1⟩⟩
  rw [hfaithful]
  refine and_congr_right fun hkept => ?_
  have hline : ∀ a ∈ rows, ∀ b ∈ rows, (serializeRow a = serializeRow b ↔
      Same (.object a.members) (.object b.members)) := fun a ha b hb =>
    serializeRow_eq_iff (hkept a ha) (hkept b hb)
  refine or_congr (forall₂_congr fun a ha => forall₂_congr fun b hb => hline a ha b hb)
    (and_congr_right fun _ => forall₂_congr fun a ha => forall₂_congr fun b hb => ?_)
  rw [hline a ha b hb]

end

-- ---------------------------------------------------------------------------
-- Sample rows
-- ---------------------------------------------------------------------------

/-- A row whose columns are strings. -/
def textRow (id : JsString) (columns : List (JsString × JsString))
    (h : (js "id" :: columns.map (·.1)).Nodup) : ChainedAuditRow where
  members := (js "id", .string id) :: columns.map fun column => (column.1, .string column.2)
  plain := by
    rw [Plain, plainMembers_iff]
    refine ⟨by simpa [Function.comp_def] using h, List.forall_mem_cons.mpr ⟨by simp [Plain], ?_⟩⟩
    intro m hm
    obtain ⟨column, -, rfl⟩ := List.mem_map.mp hm
    simp [Plain]
  id := id
  hasId := List.mem_cons_self

def sampleRow (id seq column : String) (h : (js "id" :: [js "seq", js column, js "created_at",
    js "tenant_id"]).Nodup) : ChainedAuditRow :=
  textRow (js id) [(js "seq", js seq), (js column, js "sent"),
    (js "created_at", js "1970-01-01T00:00:00.000Z"), (js "tenant_id", js "t")] h

def sampleRows : List ChainedAuditRow :=
  [sampleRow "b" "2" "action" (by decide), sampleRow "a" "1" "action" (by decide)]

/-- A column of a name that every object has. -/
def inheritedRows : List ChainedAuditRow := [sampleRow "a" "1" "constructor" (by decide)]

def sampleDate (value : Option Json) : Option Int :=
  if isString (js "1970-01-01T00:00:00.000Z") value then some 0 else none

theorem sample_accepts {rows : List ChainedAuditRow} (h : rows = sampleRows ∨ rows = inheritedRows) :
    Accepts sampleDate ⟨js "t", none, none, none⟩ rows := by
  rcases h with rfl | rfl
  all_goals
    constructor
    · decide
    · simp [sampleRows, inheritedRows]
    · decide
    · simp only [Dated]
      decide
    · simp only [Dated]
      decide

theorem exportAuditRowsToWorm_faithful_sample :
    Faithful sampleDate (fun _ => js "19700101T000000Z") ⟨js "t", none, none, none⟩ sampleRows := by
  refine (exportAuditRowsToWorm_faithful_iff (sample_accepts (.inl rfl))).mpr ⟨?_, .inr ⟨?_, ?_⟩⟩
  · have hkept : ∀ row ∈ sampleRows, ∀ m ∈ row.members, m.1 ∉ OBJECT_PROTOTYPE := by decide
    refine fun row hrow => ⟨hkept row hrow, fun m hm => ?_⟩
    simp only [sampleRows, List.mem_cons, List.not_mem_nil, or_false] at hrow
    rcases hrow with rfl | rfl <;>
      (simp only [sampleRow, textRow, List.map_cons, List.map_nil, List.mem_cons,
        List.not_mem_nil, or_false] at hm
       rcases hm with rfl | rfl | rfl | rfl | rfl <;> simp [Ordinary])
  · have hseq : ∀ row ∈ sampleRows, seqOf row = some (.finite 2) ∨ seqOf row = some (.finite 1) := by
      decide +kernel
    exact fun row hrow => (hseq row hrow).elim (fun h => ⟨2, h⟩) fun h => ⟨1, h⟩
  · intro a ha b hb _ hid
    have heq : a = b := by
      simp only [sampleRows, List.mem_cons, List.not_mem_nil, or_false] at ha hb
      rcases ha with rfl | rfl <;> rcases hb with rfl | rfl
      · rfl
      · exact absurd hid (by decide)
      · exact absurd hid (by decide)
      · rfl
    rw [heq]
    exact same_refl b.plain

/-- A column that the line does not have. -/
theorem exportAuditRowsToWorm_inherited : ¬ ∀ (dateParse : Option Json → Option Int)
    (stamp : Int → JsString) (opts : ExportAuditRowsToWormOptions) (rows : List ChainedAuditRow),
    Accepts dateParse opts rows → Faithful dateParse stamp opts rows := by
  intro h
  have haccepts := sample_accepts (.inr rfl)
  have hfaithful := h sampleDate (fun _ => js "19700101T000000Z") _ _ haccepts
  have hkept := (reads_iff haccepts).mp hfaithful.reads
  exact absurd (hkept _ List.mem_cons_self).columns (by decide)

end EsigSuite.Worm
