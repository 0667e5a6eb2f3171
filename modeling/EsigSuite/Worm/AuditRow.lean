import EsigSuite.Lib.JsonOrder
import EsigSuite.Lib.ToNumber

/-!
# The lines of an audit export

`canonicalize` and `serializeRow` of `esig-worm/src/audit-export.ts`.
`serializeRow_reads_iff`: the line gives the row back unless a column has the name
of a property that every object inherits.
-/

namespace EsigSuite.Worm

open Lib Json

-- ---------------------------------------------------------------------------
-- Object literals
-- ---------------------------------------------------------------------------

/-- The array index that a key spells. -/
def arrayIndex? (key : JsString) : Option Nat :=
  let n := Nat.ofDigitChars 10 (key.map fun unit => Char.ofNat unit.toNat) 0
  if JsString.ofText (Nat.toDigits 10 n) = key ∧ n < 2 ^ 32 - 1 then some n else none

/-- Array indices come first, in ascending order. -/
def enumerated (members : List (JsString × Json)) : List (JsString × Json) :=
  (members.filter fun m => (arrayIndex? m.1).isSome).mergeSort
    (fun a b => decide ((arrayIndex? a.1).getD 0 ≤ (arrayIndex? b.1).getD 0)) ++
    members.filter fun m => !(arrayIndex? m.1).isSome

def PROTO : JsString := js "__proto__"

/-- `__proto__` is a setter of every object. -/
def settable (key : JsString) : Bool := decide (key ≠ PROTO)

/-- Members assigned to an object literal. -/
def assigned (members : List (JsString × Json)) : List (JsString × Json) :=
  enumerated (members.filter fun m => settable m.1)

/-- The names that are `in` every object literal. -/
def OBJECT_PROTOTYPE : List JsString :=
  [js "constructor", js "__defineGetter__", js "__defineSetter__", js "hasOwnProperty",
    js "__lookupGetter__", js "__lookupSetter__", js "isPrototypeOf", js "propertyIsEnumerable",
    js "toString", js "valueOf", PROTO, js "toLocaleString"]

-- ---------------------------------------------------------------------------
-- Rows
-- ---------------------------------------------------------------------------

/-- Emission order for the well-known chain columns. -/
def ROW_FIELD_ORDER : List JsString :=
  [js "id", js "seq", js "prev_hash", js "row_hash", js "payload_canonical", js "action",
    js "actor_user_id", js "target_table", js "target_id", js "created_at", js "tenant_id"]

/-- The columns are JSON values. -/
structure ChainedAuditRow where
  members : List (JsString × Json)
  plain : (Json.object members).Plain
  id : JsString
  hasId : (js "id", .string id) ∈ members

mutual

/-- Deep-sort object keys. -/
def canonicalize : Json → Json
  | .array items => .array (canonicalizeItems items)
  | .object members => .object (assigned ((canonicalizeMembers members).mergeSort byKey))
  | value => value

def canonicalizeItems : List Json → List Json
  | [] => []
  | item :: items => canonicalize item :: canonicalizeItems items

def canonicalizeMembers : List (JsString × Json) → List (JsString × Json)
  | [] => []
  | (key, value) :: members => (key, canonicalize value) :: canonicalizeMembers members

end

/-- The well-known columns that the row has. -/
def chainFields (members : List (JsString × Json)) : List (JsString × Json) :=
  ROW_FIELD_ORDER.filterMap fun key => (lookup members key).map fun value => (key, canonicalize value)

/-- The other columns, unless their name is `in` the object. -/
def extraFields (members : List (JsString × Json)) : List (JsString × Json) :=
  ((members.mergeSort byKey).filter fun m =>
    decide (m.1 ∉ (chainFields members).map (·.1) ∧ m.1 ∉ OBJECT_PROTOTYPE)).map
      fun m => (m.1, canonicalize m.2)

def serializeRow (row : ChainedAuditRow) : List Char :=
  stringify (.object (enumerated (chainFields row.members ++ extraFields row.members)))

-- ---------------------------------------------------------------------------
-- What the line keeps
-- ---------------------------------------------------------------------------

mutual

/-- No object has a member that cannot be assigned. -/
def Ordinary : Json → Prop
  | .array items => OrdinaryItems items
  | .object members => (∀ m ∈ members, m.1 ≠ PROTO) ∧ OrdinaryMembers members
  | _ => True

def OrdinaryItems : List Json → Prop
  | [] => True
  | item :: items => Ordinary item ∧ OrdinaryItems items

def OrdinaryMembers : List (JsString × Json) → Prop
  | [] => True
  | (_, value) :: members => Ordinary value ∧ OrdinaryMembers members

end

/-- No column has a name that every object inherits. -/
structure Kept (row : ChainedAuditRow) : Prop where
  columns : ∀ m ∈ row.members, m.1 ∉ OBJECT_PROTOTYPE
  values : ∀ m ∈ row.members, Ordinary m.2

theorem enumerated_perm (members : List (JsString × Json)) : (enumerated members).Perm members :=
  ((List.mergeSort_perm _ _).append_right _).trans (List.filter_append_perm _ members)

theorem canonicalizeMembers_eq_map (members : List (JsString × Json)) :
    canonicalizeMembers members = members.map fun m => (m.1, canonicalize m.2) := by
  induction members with
  | nil => rfl
  | cons member members ih => rw [canonicalizeMembers, ih]; rfl

theorem assigned_perm (members : List (JsString × Json)) :
    (assigned ((canonicalizeMembers members).mergeSort byKey)).Perm
      ((members.filter fun m => settable m.1).map fun m => (m.1, canonicalize m.2)) := by
  refine (enumerated_perm _).trans (((List.mergeSort_perm _ byKey).filter _).trans ?_)
  rw [canonicalizeMembers_eq_map, List.filter_map]
  rfl

theorem ordinaryMembers_iff {members : List (JsString × Json)} :
    OrdinaryMembers members ↔ ∀ m ∈ members, Ordinary m.2 := by
  induction members with
  | nil => simp [OrdinaryMembers]
  | cons member members ih => simp [OrdinaryMembers, ih]

/-- Members among those of a plain object, with plain values. -/
theorem plain_of_perm {members kept : List (JsString × Json)} {p : JsString → Bool} {g : Json → Json}
    (h : (members.map (·.1)).Nodup) (hg : ∀ m ∈ members, (g m.2).Plain)
    (hkept : kept.Perm ((members.filter fun m => p m.1).map fun m => (m.1, g m.2))) :
    (Json.object kept).Plain := by
  rw [Plain, plainMembers_iff]
  constructor
  · rw [(hkept.map _).nodup_iff, List.map_map]
    exact h.sublist (List.filter_sublist.map _)
  · intro m hm
    obtain ⟨m', hm', rfl⟩ := List.mem_map.mp (hkept.mem_iff.mp hm)
    exact hg m' (List.mem_of_mem_filter hm')

mutual

theorem canonicalize_plain : ∀ {value : Json}, value.Plain → (canonicalize value).Plain
  | .null, h | .bool _, h | .string _, h | .number _, h => by simpa [canonicalize] using h
  | .array items, h => by
    rw [Plain] at h
    rw [canonicalize, Plain]
    exact canonicalizeItems_plain h
  | .object members, h => by
    rw [Plain] at h
    rw [canonicalize]
    exact plain_of_perm h.1 (canonicalizeMembers_plain h.2) (assigned_perm members)

theorem canonicalizeItems_plain : ∀ {items : List Json}, PlainItems items →
    PlainItems (canonicalizeItems items)
  | [], _ => by simp [canonicalizeItems, PlainItems]
  | item :: items, h => by
    rw [PlainItems] at h
    rw [canonicalizeItems, PlainItems]
    exact ⟨canonicalize_plain h.1, canonicalizeItems_plain h.2⟩

theorem canonicalizeMembers_plain : ∀ {members : List (JsString × Json)}, PlainMembers members →
    ∀ m ∈ members, (canonicalize m.2).Plain
  | [], _ => by simp
  | (key, value) :: members, h => by
    rw [PlainMembers] at h
    exact List.forall_mem_cons.mpr ⟨canonicalize_plain h.1, canonicalizeMembers_plain h.2⟩

end

mutual

theorem canonicalize_same_iff : ∀ {value : Json}, value.Plain →
    (Same (canonicalize value) value ↔ Ordinary value)
  | .null, _ | .bool _, _ | .string _, _ | .number _, _ => by simp [canonicalize, Same, Ordinary]
  | .array items, h => by
    rw [Plain] at h
    rw [canonicalize, Same, Ordinary]
    exact canonicalizeItems_same_iff h
  | .object members, h => by
    rw [Plain] at h
    have hkept := same_map_iff h.1 (assigned_perm members)
    rw [canonicalize, hkept, Ordinary, canonicalizeMembers_same_iff h.2]
    simp [settable]

theorem canonicalizeItems_same_iff : ∀ {items : List Json}, PlainItems items →
    (SameItems (canonicalizeItems items) items ↔ OrdinaryItems items)
  | [], _ => by simp [canonicalizeItems, SameItems, OrdinaryItems]
  | item :: items, h => by
    rw [PlainItems] at h
    rw [canonicalizeItems, SameItems, OrdinaryItems, canonicalize_same_iff h.1,
      canonicalizeItems_same_iff h.2]

theorem canonicalizeMembers_same_iff : ∀ {members : List (JsString × Json)}, PlainMembers members →
    ((∀ m ∈ members, Same (canonicalize m.2) m.2) ↔ OrdinaryMembers members)
  | [], _ => by simp [OrdinaryMembers]
  | (key, value) :: members, h => by
    rw [PlainMembers] at h
    rw [List.forall_mem_cons, OrdinaryMembers, canonicalize_same_iff h.1,
      canonicalizeMembers_same_iff h.2]

end

-- ---------------------------------------------------------------------------
-- The fields of a line
-- ---------------------------------------------------------------------------

theorem lookup_eq_some_iff {members : List (JsString × Json)} (h : (members.map (·.1)).Nodup) :
    lookup members key = some value ↔ (key, value) ∈ members := by
  unfold lookup
  constructor
  · intro hfind
    obtain ⟨m, hm, rfl⟩ := Option.map_eq_some_iff.mp hfind
    obtain rfl : m.1 = key := by simpa using List.find?_some hm
    exact List.mem_of_find?_eq_some hm
  · intro hmem
    cases hfind : members.find? (·.1 == key) with
    | none => exact absurd (List.find?_eq_none.mp hfind _ hmem) (by simp)
    | some m =>
      have hkey : m.1 = key := by simpa using List.find?_some hfind
      have heq := List.inj_on_of_nodup_map h (List.mem_of_find?_eq_some hfind) hmem hkey
      rw [heq]
      rfl

section
variable {members : List (JsString × Json)} (h : (members.map (·.1)).Nodup)
include h

theorem mem_chainFields {m : JsString × Json} : m ∈ chainFields members ↔
    m.1 ∈ ROW_FIELD_ORDER ∧ ∃ value, (m.1, value) ∈ members ∧ canonicalize value = m.2 := by
  rw [chainFields, List.mem_filterMap]
  constructor
  · rintro ⟨key, hkey, hfield⟩
    obtain ⟨value, hvalue, rfl⟩ := Option.map_eq_some_iff.mp hfield
    exact ⟨hkey, value, (lookup_eq_some_iff h).mp hvalue, rfl⟩
  · rintro ⟨hkey, value, hvalue, heq⟩
    refine ⟨m.1, hkey, ?_⟩
    rw [(lookup_eq_some_iff h).mpr hvalue, Option.map_some]
    exact congrArg some (Prod.ext rfl heq)

theorem mem_chainKeys {key : JsString} : key ∈ (chainFields members).map (·.1) ↔
    key ∈ ROW_FIELD_ORDER ∧ key ∈ members.map (·.1) := by
  constructor
  · intro hkey
    obtain ⟨m, hm, rfl⟩ := List.mem_map.mp hkey
    obtain ⟨horder, value, hvalue, -⟩ := (mem_chainFields h).mp hm
    exact ⟨horder, List.mem_map.mpr ⟨_, hvalue, rfl⟩⟩
  · rintro ⟨horder, hkey⟩
    obtain ⟨m, hm, rfl⟩ := List.mem_map.mp hkey
    exact List.mem_map.mpr ⟨(m.1, canonicalize m.2), (mem_chainFields h).mpr ⟨horder, m.2, hm, rfl⟩, rfl⟩

theorem mem_extraFields {m : JsString × Json} : m ∈ extraFields members ↔
    (m.1 ∉ ROW_FIELD_ORDER ∧ m.1 ∉ OBJECT_PROTOTYPE) ∧
      ∃ value, (m.1, value) ∈ members ∧ canonicalize value = m.2 := by
  simp only [extraFields, List.mem_map, List.mem_filter, List.mem_mergeSort, mem_chainKeys h,
    decide_eq_true_eq]
  constructor
  · rintro ⟨m', ⟨hm', hnot, hproto⟩, rfl⟩
    have hkey : m'.1 ∈ members.map (·.1) := List.mem_map.mpr ⟨_, hm', rfl⟩
    exact ⟨⟨fun horder => hnot ⟨horder, List.mem_map.mp hkey⟩, hproto⟩, m'.2, hm', rfl⟩
  · rintro ⟨⟨horder, hproto⟩, value, hvalue, heq⟩
    exact ⟨(m.1, value), ⟨hvalue, fun hkey => horder hkey.1, hproto⟩, Prod.ext rfl heq⟩

/-- The fields are the columns whose name is not inherited. -/
theorem fields_perm : (chainFields members ++ extraFields members).Perm
    ((members.filter fun m => decide (m.1 ∉ OBJECT_PROTOTYPE)).map fun m => (m.1, canonicalize m.2)) := by
  have hapart : ∀ key ∈ ROW_FIELD_ORDER, key ∉ OBJECT_PROTOTYPE := by decide
  have hchain : ((chainFields members).map (·.1)).Nodup := by
    have hsub : ((chainFields members).map (·.1)).Sublist ROW_FIELD_ORDER := by
      unfold chainFields
      generalize ROW_FIELD_ORDER = order
      induction order with
      | nil => exact List.Sublist.refl _
      | cons key order ih =>
        rw [List.filterMap_cons]
        cases lookup members key with
        | none => exact ih.cons _
        | some value => exact ih.cons_cons _
    exact List.Nodup.sublist hsub (by decide)
  have hextra : ((extraFields members).map (·.1)).Nodup := by
    rw [extraFields, List.map_map]
    refine List.Nodup.sublist (List.filter_sublist.map _) ?_
    exact ((List.mergeSort_perm members byKey).map _).nodup_iff.mpr h
  have hleft : (chainFields members ++ extraFields members).Nodup := by
    refine List.nodup_append.mpr ⟨hchain.of_map, hextra.of_map, ?_⟩
    rintro m hm m' hm' rfl
    exact ((mem_extraFields h).mp hm').1.1 ((mem_chainFields h).mp hm).1
  have hright : ((members.filter fun m => decide (m.1 ∉ OBJECT_PROTOTYPE)).map
      fun m => (m.1, canonicalize m.2)).Nodup := by
    refine List.Nodup.of_map (·.1) ?_
    rw [List.map_map]
    exact h.sublist (List.filter_sublist.map _)
  refine (List.perm_ext_iff_of_nodup hleft hright).mpr fun m => ?_
  rw [List.mem_append, mem_chainFields h, mem_extraFields h]
  simp only [List.mem_map, List.mem_filter, decide_eq_true_eq]
  constructor
  · rintro (⟨horder, value, hvalue, heq⟩ | ⟨⟨-, hproto⟩, value, hvalue, heq⟩)
    · exact ⟨(m.1, value), ⟨hvalue, hapart _ horder⟩, Prod.ext rfl heq⟩
    · exact ⟨(m.1, value), ⟨hvalue, hproto⟩, Prod.ext rfl heq⟩
  · rintro ⟨m', ⟨hm', hproto⟩, rfl⟩
    by_cases horder : m'.1 ∈ ROW_FIELD_ORDER
    · exact .inl ⟨horder, m'.2, hm', rfl⟩
    · exact .inr ⟨⟨horder, hproto⟩, m'.2, hm', rfl⟩

end

/-- The object of a line. -/
def lineObject (row : ChainedAuditRow) : Json :=
  .object (enumerated (chainFields row.members ++ extraFields row.members))

/-- Whether a column's name is not inherited. -/
def ownName (key : JsString) : Bool := decide (key ∉ OBJECT_PROTOTYPE)

theorem lineObject_perm (row : ChainedAuditRow) :
    (enumerated (chainFields row.members ++ extraFields row.members)).Perm
      ((row.members.filter fun m => ownName m.1).map fun m => (m.1, canonicalize m.2)) := by
  have hplain := row.plain
  rw [Plain] at hplain
  exact (enumerated_perm _).trans (fields_perm hplain.1)

theorem lineObject_plain (row : ChainedAuditRow) : (lineObject row).Plain := by
  have hplain := row.plain
  rw [Plain] at hplain
  exact plain_of_perm hplain.1 (canonicalizeMembers_plain hplain.2) (lineObject_perm row)

theorem lineObject_same_iff (row : ChainedAuditRow) :
    Same (lineObject row) (.object row.members) ↔ Kept row := by
  have hplain := row.plain
  rw [Plain] at hplain
  have hvalues : (∀ m ∈ row.members, Same (canonicalize m.2) m.2) ↔
      ∀ m ∈ row.members, Ordinary m.2 := by
    rw [canonicalizeMembers_same_iff hplain.2, ordinaryMembers_iff]
  rw [lineObject, same_map_iff hplain.1 (lineObject_perm row), hvalues]
  constructor
  · rintro ⟨hcolumns, hvalues⟩
    exact ⟨fun m hm => by simpa [ownName] using hcolumns m hm, hvalues⟩
  · rintro ⟨hcolumns, hvalues⟩
    exact ⟨fun m hm => by simpa [ownName] using hcolumns m hm, hvalues⟩

/-- A line that gives its row back, but for the order of keys. -/
def Reads (line : List Char) (row : ChainedAuditRow) : Prop :=
  ∃ value, parse line = some value ∧ Same value (.object row.members)

theorem serializeRow_reads_iff (row : ChainedAuditRow) : Reads (serializeRow row) row ↔ Kept row := by
  have hparse : parse (serializeRow row) = some (lineObject row) :=
    parse_stringify (lineObject_plain row)
  rw [← lineObject_same_iff, Reads, hparse]
  simp

-- ---------------------------------------------------------------------------
-- Rows that are the same
-- ---------------------------------------------------------------------------

mutual

/-- The order of keys is gone. -/
theorem canonicalize_congr : ∀ {value other : Json}, value.Plain → other.Plain → Same value other →
    canonicalize value = canonicalize other
  | .array items, other, hvalue, hother, h => by
    cases other with
    | array others =>
      rw [Plain] at hvalue hother
      rw [Same] at h
      rw [canonicalize, canonicalize, canonicalizeItems_congr hvalue hother h]
    | _ => simp [Same] at h
  | .object members, other, hvalue, hother, h => by
    cases other with
    | object others =>
      rw [Plain] at hvalue hother
      rw [Same] at h
      have hkeys : ((canonicalizeMembers members).map (·.1)).Nodup := by
        simpa [canonicalizeMembers_eq_map, Function.comp_def] using hvalue.1
      have hperm : (canonicalizeMembers members).Perm (canonicalizeMembers others) :=
        (perm_iff_subset hkeys).mpr ⟨by simp [canonicalizeMembers_eq_map, h.1],
          canonicalizeMembers_congr hvalue.2 (plainMembers_iff.mp hother.2) h.2⟩
      rw [canonicalize, canonicalize, (mergeSort_eq_iff hkeys).mpr hperm]
    | _ => simp [Same] at h
  | .null, other, _, _, h | .bool _, other, _, _, h | .number _, other, _, _, h
  | .string _, other, _, _, h => by
    cases other <;> simp_all [Same]

theorem canonicalizeItems_congr : ∀ {items others : List Json}, PlainItems items →
    PlainItems others → SameItems items others → canonicalizeItems items = canonicalizeItems others
  | [], [], _, _, _ => rfl
  | [], _ :: _, _, _, h | _ :: _, [], _, _, h => by simp [SameItems] at h
  | item :: items, other :: others, hitems, hothers, h => by
    rw [PlainItems] at hitems hothers
    rw [SameItems] at h
    rw [canonicalizeItems, canonicalizeItems, canonicalize_congr hitems.1 hothers.1 h.1,
      canonicalizeItems_congr hitems.2 hothers.2 h.2]

theorem canonicalizeMembers_congr : ∀ {members others : List (JsString × Json)},
    PlainMembers members → (∀ m ∈ others, m.2.Plain) → SameMembers members others →
    ∀ m ∈ canonicalizeMembers members, m ∈ canonicalizeMembers others
  | [], _, _, _, _ => by simp [canonicalizeMembers]
  | (key, value) :: members, others, hmembers, hothers, h => by
    rw [PlainMembers] at hmembers
    rw [SameMembers] at h
    obtain ⟨⟨other, hother, hsame⟩, hmore⟩ := h
    rw [canonicalizeMembers]
    refine List.forall_mem_cons.mpr ⟨?_, canonicalizeMembers_congr hmembers.2 hothers hmore⟩
    rw [canonicalize_congr hmembers.1 (hothers _ hother) hsame, canonicalizeMembers_eq_map]
    exact List.mem_map.mpr ⟨_, hother, rfl⟩

end

/-- The well-known columns, read after the values are sorted. -/
theorem chainFields_eq (members : List (JsString × Json)) : chainFields members =
    ROW_FIELD_ORDER.filterMap fun key =>
      (lookup (canonicalizeMembers members) key).map fun value => (key, value) := by
  unfold chainFields
  congr 1
  funext key
  simp only [lookup, canonicalizeMembers_eq_map, List.find?_map, Option.map_map, Function.comp_def]

theorem extraFields_eq (members : List (JsString × Json)) : extraFields members =
    ((canonicalizeMembers members).mergeSort byKey).filter fun m =>
      decide (m.1 ∉ (chainFields members).map (·.1) ∧ m.1 ∉ OBJECT_PROTOTYPE) := by
  have hsorted : (canonicalizeMembers members).mergeSort byKey =
      (members.mergeSort byKey).map fun m => (m.1, canonicalize m.2) := by
    rw [canonicalizeMembers_eq_map]
    exact (List.map_mergeSort (r := byKey) (s := byKey)
      (f := fun m : JsString × Json => (m.1, canonicalize m.2)) fun _ _ _ _ => rfl).symm
  rw [extraFields, hsorted, List.filter_map]
  rfl

/-- Rows that are the same are written the same. -/
theorem serializeRow_congr {row other : ChainedAuditRow}
    (h : Same (.object row.members) (.object other.members)) : serializeRow row = serializeRow other := by
  have hrow := row.plain
  have hother := other.plain
  rw [Plain] at hrow hother
  rw [Same] at h
  have hkeys : ((canonicalizeMembers row.members).map (·.1)).Nodup := by
    simpa [canonicalizeMembers_eq_map, Function.comp_def] using hrow.1
  have hkeys' : ((canonicalizeMembers other.members).map (·.1)).Nodup := by
    simpa [canonicalizeMembers_eq_map, Function.comp_def] using hother.1
  have hperm : (canonicalizeMembers row.members).Perm (canonicalizeMembers other.members) :=
    (perm_iff_subset hkeys).mpr ⟨by simp [canonicalizeMembers_eq_map, h.1],
      canonicalizeMembers_congr hrow.2 (plainMembers_iff.mp hother.2) h.2⟩
  have hlookup : ∀ key, lookup (canonicalizeMembers row.members) key =
      lookup (canonicalizeMembers other.members) key := fun key => by
    refine Option.ext fun value => ?_
    rw [lookup_eq_some_iff hkeys, lookup_eq_some_iff hkeys', hperm.mem_iff]
  have hchain : chainFields row.members = chainFields other.members := by
    rw [chainFields_eq, chainFields_eq]
    simp only [hlookup]
  rw [serializeRow, serializeRow, extraFields_eq, extraFields_eq, hchain,
    (mergeSort_eq_iff hkeys).mpr hperm]

/-- For rows that come back, one line is one row. -/
theorem serializeRow_eq_iff {row other : ChainedAuditRow} (hrow : Kept row) (hother : Kept other) :
    serializeRow row = serializeRow other ↔ Same (.object row.members) (.object other.members) := by
  refine ⟨fun h => ?_, serializeRow_congr⟩
  have hobjects : lineObject row = lineObject other := by
    refine Option.some.inj ?_
    rw [← parse_stringify (lineObject_plain row), ← parse_stringify (lineObject_plain other)]
    exact congrArg parse h
  have hfirst := (lineObject_same_iff row).mpr hrow
  have hsecond := (lineObject_same_iff other).mpr hother
  rw [← sortKeys_eq_iff (lineObject_plain _) row.plain] at hfirst
  rw [← sortKeys_eq_iff (lineObject_plain _) other.plain] at hsecond
  exact (sortKeys_eq_iff row.plain other.plain).mp (hfirst.symm.trans (hobjects ▸ hsecond))

end EsigSuite.Worm
