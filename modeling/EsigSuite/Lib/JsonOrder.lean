import EsigSuite.Lib.Json
import Mathlib.Data.List.Perm.Subperm
import Mathlib.Data.List.Nodup

/-!
# JSON up to the order of keys

Two values are the same when they differ at most in the order in which objects
name their members. `sortKeys_eq_iff`: sorting by key decides it.
`stringify_inj`: a text has one value, also where objects name a key twice.
-/

namespace Lib.Json

mutual

/-- Equal but for the order of members. -/
def Same : Json → Json → Prop
  | .array items, .array others => SameItems items others
  | .object members, .object others =>
    members.length = others.length ∧ SameMembers members others
  | value, other => value = other

def SameItems : List Json → List Json → Prop
  | [], [] => True
  | item :: items, other :: others => Same item other ∧ SameItems items others
  | _, _ => False

/-- Every member has a member of the same key among the others. -/
def SameMembers : List (JsString × Json) → List (JsString × Json) → Prop
  | [], _ => True
  | (key, value) :: members, others =>
    (∃ other, (key, other) ∈ others ∧ Same value other) ∧ SameMembers members others

end

-- ---------------------------------------------------------------------------
-- Sorting
-- ---------------------------------------------------------------------------

/-- The order of `sort()` on the keys: by UTF-16 code units. -/
def byKey {β : Type} (a b : JsString × β) : Bool := !(b.1.lex a.1)

mutual

/-- The members of every object sorted by key. -/
def sortKeys : Json → Json
  | .array items => .array (sortItems items)
  | .object members => .object ((sortMembers members).mergeSort byKey)
  | value => value

def sortItems : List Json → List Json
  | [] => []
  | item :: items => sortKeys item :: sortItems items

def sortMembers : List (JsString × Json) → List (JsString × Json)
  | [] => []
  | (key, value) :: members => (key, sortKeys value) :: sortMembers members

end

theorem byKey_le {a b : JsString × β} : byKey a b = true ↔ a.1 ≤ b.1 := by
  simp [byKey]

theorem byKey_trans (a b c : JsString × β) (hab : byKey a b = true) (hbc : byKey b c = true) :
    byKey a c = true := by
  rw [byKey_le] at *
  exact List.le_trans hab hbc

theorem byKey_total (a b : JsString × β) : (byKey a b || byKey b a) = true := by
  rw [Bool.or_eq_true, byKey_le, byKey_le]
  exact List.le_total a.1 b.1

theorem byKey_antisymm {a b : JsString × β} (hab : byKey a b = true) (hba : byKey b a = true) :
    a.1 = b.1 := by
  rw [byKey_le] at *
  exact List.le_antisymm hab hba

/-- A sorted object tells its members. -/
theorem mergeSort_eq_iff {xs ys : List (JsString × β)} (h : (xs.map (·.1)).Nodup) :
    xs.mergeSort byKey = ys.mergeSort byKey ↔ xs.Perm ys := by
  constructor
  · intro heq
    exact (List.mergeSort_perm xs byKey).symm.trans (heq ▸ List.mergeSort_perm ys byKey)
  · intro hperm
    have hsorted := (List.mergeSort_perm xs byKey).trans
      (hperm.trans (List.mergeSort_perm ys byKey).symm)
    refine hsorted.eq_of_pairwise ?_ (List.pairwise_mergeSort byKey_trans byKey_total xs)
      (List.pairwise_mergeSort byKey_trans byKey_total ys)
    intro a b ha hb hab hba
    have hb' : b ∈ xs := hperm.mem_iff.mpr (List.mem_mergeSort.mp hb)
    exact List.inj_on_of_nodup_map h (List.mem_mergeSort.mp ha) hb' (byKey_antisymm hab hba)

theorem sortMembers_eq_map (members : List (JsString × Json)) :
    sortMembers members = members.map fun m => (m.1, sortKeys m.2) := by
  induction members with
  | nil => rfl
  | cons member members ih => rw [sortMembers, ih]; rfl

theorem sortMembers_mergeSort (members : List (JsString × Json)) :
    (sortMembers members).mergeSort byKey =
      (members.mergeSort byKey).map fun m => (m.1, sortKeys m.2) := by
  rw [sortMembers_eq_map]
  exact (List.map_mergeSort (r := byKey) (s := byKey)
    (f := fun m : JsString × Json => (m.1, sortKeys m.2)) fun _ _ _ _ => rfl).symm

@[simp] theorem sortMembers_keys (members : List (JsString × Json)) :
    (sortMembers members).map (·.1) = members.map (·.1) := by
  simp [sortMembers_eq_map, Function.comp_def]

@[simp] theorem length_sortMembers (members : List (JsString × Json)) :
    (sortMembers members).length = members.length := by
  simp [sortMembers_eq_map]

theorem mem_sortMembers {members : List (JsString × Json)} :
    (key, sorted) ∈ sortMembers members ↔ ∃ value, (key, value) ∈ members ∧ sortKeys value = sorted := by
  simp [sortMembers_eq_map]

theorem plainMembers_iff {members : List (JsString × Json)} :
    PlainMembers members ↔ ∀ m ∈ members, m.2.Plain := by
  induction members with
  | nil => simp [PlainMembers]
  | cons member members ih => simp [PlainMembers, ih]

@[simp] theorem plainMembers_append {members others : List (JsString × Json)} :
    PlainMembers (members ++ others) ↔ PlainMembers members ∧ PlainMembers others := by
  simp only [plainMembers_iff, List.forall_mem_append]

theorem sameMembers_iff {members others : List (JsString × Json)} :
    SameMembers members others ↔
      ∀ m ∈ members, ∃ other, (m.1, other) ∈ others ∧ Same m.2 other := by
  induction members with
  | nil => simp [SameMembers]
  | cons member members ih => simp [SameMembers, ih]

/-- Lists that name no key twice hold the same members when they are of one
length and every member of the one is among the other. -/
theorem perm_iff_subset {xs ys : List (JsString × β)} (h : (xs.map (·.1)).Nodup) :
    xs.Perm ys ↔ xs.length = ys.length ∧ ∀ x ∈ xs, x ∈ ys := by
  constructor
  · intro hperm
    exact ⟨hperm.length_eq, fun x hx => hperm.mem_iff.mp hx⟩
  · rintro ⟨hlength, hsubset⟩
    exact (List.subperm_of_subset h.of_map hsubset).perm_of_length_le hlength.ge

mutual

theorem sortKeys_eq_iff : ∀ {value other : Json}, value.Plain → other.Plain →
    (sortKeys value = sortKeys other ↔ Same value other)
  | .array items, other, hvalue, hother => by
    cases other with
    | array others =>
      rw [Plain] at hvalue hother
      simpa [sortKeys, Same] using sortItems_eq_iff hvalue hother
    | _ => simp [sortKeys, Same]
  | .object members, other, hvalue, hother => by
    cases other with
    | object others =>
      rw [Plain] at hvalue hother
      have hkeys : ((sortMembers members).map (·.1)).Nodup := by simpa using hvalue.1
      rw [sortKeys, sortKeys, Same, Json.object.injEq, mergeSort_eq_iff hkeys,
        perm_iff_subset hkeys, length_sortMembers, length_sortMembers,
        sortMembers_mem_iff hvalue.2 (plainMembers_iff.mp hother.2)]
    | _ => simp [sortKeys, Same]
  | .null, other, _, _ | .bool _, other, _, _ | .number _, other, _, _ | .string _, other, _, _ => by
    cases other <;> simp [sortKeys, Same]

theorem sortItems_eq_iff : ∀ {items others : List Json}, PlainItems items → PlainItems others →
    (sortItems items = sortItems others ↔ SameItems items others)
  | [], [], _, _ | [], _ :: _, _, _ | _ :: _, [], _, _ => by simp [sortItems, SameItems]
  | item :: items, other :: others, hitems, hothers => by
    rw [PlainItems] at hitems hothers
    rw [sortItems, sortItems, SameItems, List.cons.injEq, sortKeys_eq_iff hitems.1 hothers.1,
      sortItems_eq_iff hitems.2 hothers.2]

theorem sortMembers_mem_iff : ∀ {members others : List (JsString × Json)}, PlainMembers members →
    (∀ m ∈ others, m.2.Plain) →
    ((∀ m ∈ sortMembers members, m ∈ sortMembers others) ↔ SameMembers members others)
  | [], _, _, _ => by simp [sortMembers, SameMembers]
  | (key, value) :: members, others, hmembers, hothers => by
    rw [PlainMembers] at hmembers
    have hvalue : (key, sortKeys value) ∈ sortMembers others ↔
        ∃ other, (key, other) ∈ others ∧ Same value other := by
      rw [mem_sortMembers]
      refine exists_congr fun other => and_congr_right fun hmem => ?_
      rw [eq_comm, sortKeys_eq_iff hmembers.1 (hothers _ hmem)]
    rw [sortMembers, List.forall_mem_cons, hvalue, sortMembers_mem_iff hmembers.2 hothers,
      SameMembers]

end

theorem same_refl (h : Plain value) : Same value value := (sortKeys_eq_iff h h).mp rfl

/-- Members with their values changed, and some left out. -/
theorem same_map_iff {members kept : List (JsString × Json)} {p : JsString → Bool} {g : Json → Json}
    (h : (members.map (·.1)).Nodup)
    (hkept : kept.Perm ((members.filter fun m => p m.1).map fun m => (m.1, g m.2))) :
    Same (.object kept) (.object members) ↔
      (∀ m ∈ members, p m.1 = true) ∧ ∀ m ∈ members, Same (g m.2) m.2 := by
  have hlength : kept.length = members.length ↔ ∀ m ∈ members, p m.1 = true := by
    rw [hkept.length_eq, List.length_map, List.length_filter_eq_length_iff]
  rw [Same, sameMembers_iff, hlength]
  refine and_congr_right fun hall => ?_
  rw [List.filter_eq_self.mpr hall] at hkept
  have hmem : ∀ m, m ∈ kept ↔ ∃ v, (m.1, v) ∈ members ∧ g v = m.2 := by
    rintro ⟨key, value⟩
    simp [hkept.mem_iff]
  constructor
  · intro hsame m hm
    obtain ⟨other, hother, hvalue⟩ := hsame (m.1, g m.2) ((hmem _).mpr ⟨m.2, hm, rfl⟩)
    have heq : other = m.2 := congrArg (·.2) (List.inj_on_of_nodup_map h hother hm rfl)
    rw [heq] at hvalue
    exact hvalue
  · intro hsame m hm
    obtain ⟨value, hvalue, heq⟩ := (hmem m).mp hm
    exact ⟨value, hvalue, heq ▸ hsame _ hvalue⟩

-- ---------------------------------------------------------------------------
-- A text has one value
-- ---------------------------------------------------------------------------

mutual

/-- Every number is a double. -/
def Doubles : Json → Prop
  | .null | .bool _ | .string _ => True
  | .number (.finite x) => Double.Exact x
  | .number (.infinite _) => False
  | .array items => DoublesItems items
  | .object members => DoublesMembers members

def DoublesItems : List Json → Prop
  | [] => True
  | item :: items => Doubles item ∧ DoublesItems items

def DoublesMembers : List (JsString × Json) → Prop
  | [] => True
  | (_, value) :: members => Doubles value ∧ DoublesMembers members

end

inductive Kind
  | null
  | bool (value : Bool)
  | number
  | string
  | array
  | object

def kind : Json → Kind
  | .null => .null
  | .bool b => .bool b
  | .number _ => .number
  | .string _ => .string
  | .array _ => .array
  | .object _ => .object

/-- The kind of the values that start with a character. -/
def kindAt? (c : Char) : Option Kind :=
  if c = 'n' then some .null
  else if c = 't' then some (.bool true)
  else if c = 'f' then some (.bool false)
  else if c = '"' then some .string
  else if c = '[' then some .array
  else if c = '\x7b' then some .object
  else if c = '-' ∨ c.isDigit = true then some .number
  else none

theorem kindAt?_stringify (h : Doubles value) :
    ∃ c text, stringify value = c :: text ∧ kindAt? c = some value.kind := by
  match value with
  | .null | .bool true | .bool false | .string _ | .array _ | .object _ =>
    simp [stringify, stringText, kindAt?, kind]
  | .number (.infinite _) => exact absurd h (by simp [Doubles])
  | .number (.finite x) =>
    rw [Doubles] at h
    obtain ⟨c, text, htext, hc⟩ := numeral_head (Double.numeral_valid h)
    refine ⟨c, text, (by rw [stringify]; exact htext), ?_⟩
    have hne : ∀ d : Char, d.isDigit = false → d ≠ '-' → c ≠ d := by
      rintro d hd hminus rfl
      exact hc.elim hminus fun hc => absurd hc (by simp [hd])
    simp [kindAt?, kind, hne 'n' rfl (by decide), hne 't' rfl (by decide), hne 'f' rfl (by decide),
      hne '"' rfl (by decide), hne '[' rfl (by decide), hne '\x7b' rfl (by decide), hc]

theorem kind_eq (hvalue : Doubles value) (hother : Doubles other)
    (h : stringify value ++ rest = stringify other ++ rest') : value.kind = other.kind := by
  obtain ⟨c, text, htext, hc⟩ := kindAt?_stringify hvalue
  obtain ⟨d, text', htext', hd⟩ := kindAt?_stringify hother
  rw [htext, htext', List.cons_append, List.cons_append] at h
  rw [(List.cons.inj h).1, hd] at hc
  exact (Option.some.inj hc).symm

theorem stringify_ne (h : Doubles value) (hc : kindAt? c = none) :
    stringify value ++ rest ≠ c :: rest' := by
  obtain ⟨d, text, htext, hd⟩ := kindAt?_stringify h
  rw [htext, List.cons_append]
  intro heq
  rw [(List.cons.inj heq).1, hc] at hd
  cases hd

theorem stringText_inj (h : stringText s ++ rest = stringText t ++ rest') :
    s = t ∧ rest = rest' := by
  simp only [stringText, List.cons_append, List.append_assoc, List.nil_append,
    List.cons.injEq, true_and] at h
  have hread := readString_quote s rest
  rw [h, readString_quote] at hread
  simpa [eq_comm] using hread

theorem numberText_inj {x y : ℚ} (hx : Double.Exact x) (hy : Double.Exact y)
    (hrest : EndsNumber rest) (hrest' : EndsNumber rest')
    (h : Double.text (.finite x) ++ rest = Double.text (.finite y) ++ rest') :
    x = y ∧ rest = rest' := by
  have hread := readNumber_text hx hrest
  rw [h, readNumber_text hy hrest'] at hread
  simpa [eq_comm] using hread

mutual

theorem stringify_append_inj : ∀ {value other : Json} {rest rest' : List Char}, Doubles value →
    Doubles other → EndsNumber rest → EndsNumber rest' →
      stringify value ++ rest = stringify other ++ rest' → value = other ∧ rest = rest'
  | .array items, other, rest, rest', hvalue, hother, _, _, h => by
    have hkind := kind_eq hvalue hother h
    cases other with
    | array others =>
      rw [Doubles] at hvalue hother
      rw [stringify, stringify, List.cons_append, List.cons_append] at h
      simpa using itemsText_inj hvalue hother (List.cons.inj h).2
    | _ => cases hkind
  | .object members, other, rest, rest', hvalue, hother, _, _, h => by
    have hkind := kind_eq hvalue hother h
    cases other with
    | object others =>
      rw [Doubles] at hvalue hother
      rw [stringify, stringify, List.cons_append, List.cons_append] at h
      simpa using membersText_inj hvalue hother (List.cons.inj h).2
    | _ => cases hkind
  | .string s, other, rest, rest', hvalue, hother, _, _, h => by
    have hkind := kind_eq hvalue hother h
    cases other with
    | string t => simpa using stringText_inj h
    | _ => cases hkind
  | .number (.infinite _), _, _, _, hvalue, _, _, _, _ => absurd hvalue (by simp [Doubles])
  | .number (.finite x), other, rest, rest', hvalue, hother, hrest, hrest', h => by
    have hkind := kind_eq hvalue hother h
    match other with
    | .number (.finite y) =>
      rw [Doubles] at hvalue hother
      rw [stringify, stringify] at h
      simpa using numberText_inj hvalue hother hrest hrest' h
    | .number (.infinite _) => exact absurd hother (by simp [Doubles])
    | .null | .bool _ | .string _ | .array _ | .object _ => cases hkind
  | .null, other, _, _, hvalue, hother, _, _, h => by
    have hkind := kind_eq hvalue hother h
    cases other with
    | null => simpa using h
    | _ => cases hkind
  | .bool b, other, _, _, hvalue, hother, _, _, h => by
    have hkind := kind_eq hvalue hother h
    cases other with
    | bool c =>
      obtain rfl : b = c := by simpa [kind] using hkind
      simpa using h
    | _ => cases hkind

theorem itemsText_inj : ∀ {items others : List Json} {rest rest' : List Char}, DoublesItems items →
    DoublesItems others → itemsText items ++ rest = itemsText others ++ rest' →
      items = others ∧ rest = rest'
  | [], [], _, _, _, _, h => by simpa [itemsText] using h
  | [], other :: others, rest, _, _, hothers, h => by
    rw [DoublesItems] at hothers
    rw [itemsText, itemsText, List.append_assoc] at h
    exact absurd h.symm (stringify_ne hothers.1 (by decide))
  | item :: items, [], _, rest', hitems, _, h => by
    rw [DoublesItems] at hitems
    rw [itemsText, itemsText, List.append_assoc] at h
    exact absurd h (stringify_ne hitems.1 (by decide))
  | item :: items, other :: others, rest, rest', hitems, hothers, h => by
    rw [DoublesItems] at hitems hothers
    rw [itemsText, itemsText, List.append_assoc, List.append_assoc] at h
    obtain ⟨rfl, hmore⟩ := stringify_append_inj hitems.1 hothers.1 (moreItems_ends items rest)
      (moreItems_ends others rest') h
    obtain ⟨rfl, rfl⟩ := moreItems_inj hitems.2 hothers.2 hmore
    exact ⟨rfl, rfl⟩

theorem moreItems_inj : ∀ {items others : List Json} {rest rest' : List Char}, DoublesItems items →
    DoublesItems others → moreItems items ++ rest = moreItems others ++ rest' →
      items = others ∧ rest = rest'
  | [], [], _, _, _, _, h => by simpa [moreItems] using h
  | [], _ :: _, _, _, _, _, h | _ :: _, [], _, _, _, _, h => by simp [moreItems] at h
  | item :: items, other :: others, rest, rest', hitems, hothers, h => by
    rw [DoublesItems] at hitems hothers
    simp only [moreItems, List.cons_append, List.append_assoc, List.cons.injEq, true_and] at h
    obtain ⟨rfl, hmore⟩ := stringify_append_inj hitems.1 hothers.1 (moreItems_ends items rest)
      (moreItems_ends others rest') h
    obtain ⟨rfl, rfl⟩ := moreItems_inj hitems.2 hothers.2 hmore
    exact ⟨rfl, rfl⟩

theorem membersText_inj : ∀ {members others : List (JsString × Json)} {rest rest' : List Char},
    DoublesMembers members → DoublesMembers others →
      membersText members ++ rest = membersText others ++ rest' → members = others ∧ rest = rest'
  | [], [], _, _, _, _, h => by simpa [membersText] using h
  | [], _ :: _, _, _, _, _, h | _ :: _, [], _, _, _, _, h => by
    simp [membersText, stringText] at h
  | (key, value) :: members, (key', other) :: others, rest, rest', hmembers, hothers, h => by
    rw [DoublesMembers] at hmembers hothers
    simp only [membersText, List.append_assoc, List.cons_append] at h
    obtain ⟨rfl, hvalue⟩ := stringText_inj h
    obtain ⟨rfl, hmore⟩ := stringify_append_inj hmembers.1 hothers.1
      (moreMembers_ends members rest) (moreMembers_ends others rest') (List.cons.inj hvalue).2
    obtain ⟨rfl, rfl⟩ := moreMembers_inj hmembers.2 hothers.2 hmore
    exact ⟨rfl, rfl⟩

theorem moreMembers_inj : ∀ {members others : List (JsString × Json)} {rest rest' : List Char},
    DoublesMembers members → DoublesMembers others →
      moreMembers members ++ rest = moreMembers others ++ rest' → members = others ∧ rest = rest'
  | [], [], _, _, _, _, h => by simpa [moreMembers] using h
  | [], _ :: _, _, _, _, _, h | _ :: _, [], _, _, _, _, h => by simp [moreMembers] at h
  | (key, value) :: members, (key', other) :: others, rest, rest', hmembers, hothers, h => by
    rw [DoublesMembers] at hmembers hothers
    simp only [moreMembers, List.append_assoc, List.cons_append, List.cons.injEq, true_and] at h
    obtain ⟨rfl, hvalue⟩ := stringText_inj h
    obtain ⟨rfl, hmore⟩ := stringify_append_inj hmembers.1 hothers.1
      (moreMembers_ends members rest) (moreMembers_ends others rest') (List.cons.inj hvalue).2
    obtain ⟨rfl, rfl⟩ := moreMembers_inj hmembers.2 hothers.2 hmore
    exact ⟨rfl, rfl⟩

end

/-- No two values have one text. -/
theorem stringify_inj (hvalue : Doubles value) (hother : Doubles other)
    (h : stringify value = stringify other) : value = other := by
  have hnil : EndsNumber [] := by simp [EndsNumber]
  exact (stringify_append_inj hvalue hother hnil hnil (by rw [h])).1

theorem doublesMembers_iff {members : List (JsString × Json)} :
    DoublesMembers members ↔ ∀ m ∈ members, m.2.Doubles := by
  induction members with
  | nil => simp [DoublesMembers]
  | cons member members ih => simp [DoublesMembers, ih]

mutual

theorem sortKeys_doubles : ∀ {value : Json}, value.Plain → (sortKeys value).Doubles
  | .null, _ | .bool _, _ | .string _, _ => by simp [sortKeys, Doubles]
  | .number (.infinite _), h => absurd h (by simp [Plain])
  | .number (.finite x), h => by simpa [sortKeys, Doubles, Plain] using h
  | .array items, h => by
    rw [Plain] at h
    rw [sortKeys, Doubles]
    exact sortItems_doubles h
  | .object members, h => by
    rw [Plain] at h
    rw [sortKeys, Doubles, doublesMembers_iff]
    intro m hm
    exact sortMembers_doubles h.2 m (List.mem_mergeSort.mp hm)

theorem sortItems_doubles : ∀ {items : List Json}, PlainItems items →
    DoublesItems (sortItems items)
  | [], _ => by simp [sortItems, DoublesItems]
  | item :: items, h => by
    rw [PlainItems] at h
    rw [sortItems, DoublesItems]
    exact ⟨sortKeys_doubles h.1, sortItems_doubles h.2⟩

theorem sortMembers_doubles : ∀ {members : List (JsString × Json)}, PlainMembers members →
    ∀ m ∈ sortMembers members, m.2.Doubles
  | [], _ => by simp [sortMembers]
  | (key, value) :: members, h => by
    rw [PlainMembers] at h
    rw [sortMembers]
    exact List.forall_mem_cons.mpr ⟨sortKeys_doubles h.1, sortMembers_doubles h.2⟩

end

def memberText (member : JsString × Json) : List Char :=
  stringText member.1 ++ ':' :: stringify member.2

theorem moreItems_intercalate (text : List Char) (items : List Json) :
    List.intercalate [','] (text :: items.map stringify) ++ [']'] = text ++ moreItems items := by
  induction items generalizing text with
  | nil => simp [moreItems]
  | cons item items ih =>
    rw [List.map_cons, List.intercalate_cons_cons, List.append_assoc, List.append_assoc, ih,
      moreItems]
    rfl

theorem itemsText_intercalate (items : List Json) :
    List.intercalate [','] (items.map stringify) ++ [']'] = itemsText items := by
  cases items with
  | nil => rfl
  | cons item items => rw [List.map_cons, moreItems_intercalate, itemsText]

theorem moreMembers_intercalate (text : List Char) (members : List (JsString × Json)) :
    List.intercalate [','] (text :: members.map memberText) ++ ['}'] =
      text ++ moreMembers members := by
  induction members generalizing text with
  | nil => simp [moreMembers]
  | cons member members ih =>
    rw [List.map_cons, List.intercalate_cons_cons, List.append_assoc, List.append_assoc, ih]
    simp [moreMembers, memberText]

theorem membersText_intercalate (members : List (JsString × Json)) :
    List.intercalate [','] (members.map memberText) ++ ['}'] = membersText members := by
  cases members with
  | nil => rfl
  | cons member members =>
    rw [List.map_cons, moreMembers_intercalate]
    simp [membersText, memberText]

-- ---------------------------------------------------------------------------
-- A text is one line
-- ---------------------------------------------------------------------------

/-- No control characters, so no line break. -/
def Printing (text : List Char) : Prop := ∀ c ∈ text, 32 ≤ c.toNat

theorem printing_append {a b : List Char} : Printing (a ++ b) ↔ Printing a ∧ Printing b :=
  List.forall_mem_append

theorem printing_cons {c : Char} {text : List Char} :
    Printing (c :: text) ↔ 32 ≤ c.toNat ∧ Printing text := List.forall_mem_cons

theorem hexChar_printing (n : Nat) : 32 ≤ (hexChar n).toNat := by
  have h : ∀ m < 16, 32 ≤ (Nat.digitChar m).toNat := by decide
  exact h _ (Nat.mod_lt _ (by decide))

theorem quoteUnit_printing (unit : UInt16) : Printing (quoteUnit unit) := by
  unfold quoteUnit
  split_ifs with h8 h9 h10 h12 h13 h34 h92 hescaped
  iterate 7 exact List.forall_iff_forall_mem.mp (by decide)
  · simp only [unicodeEscape, printing_cons]
    exact ⟨by decide, by decide, hexChar_printing _, hexChar_printing _, hexChar_printing _,
      hexChar_printing _, List.forall_mem_nil _⟩
  · rw [printing_cons, toNat_ofNat (plainUnit_valid hescaped)]
    have h32 : ¬ unit < 32 := fun h => hescaped (.inl h)
    exact ⟨by simpa [UInt16.lt_iff_toNat_lt] using h32, List.forall_mem_nil _⟩

theorem quote_printing (s : JsString) : Printing (quote s) := by
  fun_induction quote s with
  | case1 => exact List.forall_mem_nil _
  | case2 unit => exact quoteUnit_printing unit
  | case3 unit next rest h ih =>
    obtain ⟨hvalid, -⟩ := pair_valid h
    rw [printing_cons, toNat_ofNat hvalid]
    exact ⟨by omega, ih⟩
  | case4 unit next rest h ih => exact printing_append.mpr ⟨quoteUnit_printing unit, ih⟩

theorem stringText_printing (s : JsString) : Printing (stringText s) := by
  rw [stringText, printing_cons, printing_append]
  exact ⟨by decide, quote_printing s, List.forall_iff_forall_mem.mp (by decide)⟩

theorem numberText_printing (x : Double) : Printing x.text := by
  intro c hc
  have h := Double.text_chars x c hc
  simp only [Double.isNumberChar, Char.isAlphanum] at h
  delta Char.isAlpha Char.isUpper Char.isLower at h
  simp only [Char.isDigit, Bool.or_eq_true, Bool.and_eq_true, decide_eq_true_eq, beq_iff_eq] at h
  have hle : ∀ d : Char, d ≤ c → d.toNat ≤ c.toNat := fun d hd => hd
  rcases h with (((((⟨h, -⟩ | ⟨h, -⟩) | ⟨h, -⟩) | rfl) | rfl) | rfl)
  · exact Nat.le_trans (by decide) (hle 'A' h)
  · exact Nat.le_trans (by decide) (hle 'a' h)
  · exact Nat.le_trans (by decide) (hle '0' h)
  · decide
  · decide
  · decide

mutual

theorem stringify_printing : ∀ value : Json, Printing (stringify value)
  | .null | .bool true | .bool false | .number (.infinite _) => by
    rw [stringify]
    exact List.forall_iff_forall_mem.mp (by decide)
  | .number (.finite x) => by
    rw [stringify]
    exact numberText_printing _
  | .string s => by
    rw [stringify]
    exact stringText_printing s
  | .array items => by
    rw [stringify, printing_cons]
    exact ⟨by decide, itemsText_printing items⟩
  | .object members => by
    rw [stringify, printing_cons]
    exact ⟨by decide, membersText_printing members⟩

theorem itemsText_printing : ∀ items : List Json, Printing (itemsText items)
  | [] => by
    rw [itemsText]
    exact List.forall_iff_forall_mem.mp (by decide)
  | item :: items => by
    rw [itemsText, printing_append]
    exact ⟨stringify_printing item, moreItems_printing items⟩

theorem moreItems_printing : ∀ items : List Json, Printing (moreItems items)
  | [] => by
    rw [moreItems]
    exact List.forall_iff_forall_mem.mp (by decide)
  | item :: items => by
    rw [moreItems, printing_cons, printing_append]
    exact ⟨by decide, stringify_printing item, moreItems_printing items⟩

theorem membersText_printing : ∀ members : List (JsString × Json), Printing (membersText members)
  | [] => by
    rw [membersText]
    exact List.forall_iff_forall_mem.mp (by decide)
  | (key, value) :: members => by
    rw [membersText, printing_append, printing_cons, printing_append]
    exact ⟨stringText_printing key, by decide, stringify_printing value, moreMembers_printing members⟩

theorem moreMembers_printing : ∀ members : List (JsString × Json), Printing (moreMembers members)
  | [] => by
    rw [moreMembers]
    exact List.forall_iff_forall_mem.mp (by decide)
  | (key, value) :: members => by
    rw [moreMembers, printing_cons, printing_append, printing_cons, printing_append]
    exact ⟨by decide, stringText_printing key, by decide, stringify_printing value,
      moreMembers_printing members⟩

end

end Lib.Json
