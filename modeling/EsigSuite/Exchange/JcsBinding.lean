import EsigSuite.Exchange.Jcs
import EsigSuite.Lib.JsonOrder

/-!
# What canonical bytes bind

`jcs` writes a lone surrogate as it is and `TextEncoder` makes it U+FFFD, so the
bytes are those of the value with well-formed strings, its members in the order
of the keys as they were.
-/

namespace EsigSuite.Exchange

open Lib

mutual

/-- The value with every string and key well formed. -/
def wellFormed : Json → Json
  | .string s => .string (toWellFormed s)
  | .array items => .array (wellFormedItems items)
  | .object members => .object (wellFormedMembers members)
  | value => value

def wellFormedItems : List Json → List Json
  | [] => []
  | item :: items => wellFormed item :: wellFormedItems items

def wellFormedMembers : List (JsString × Json) → List (JsString × Json)
  | [] => []
  | (key, value) :: members => (toWellFormed key, wellFormed value) :: wellFormedMembers members

end

/-- Alike once every lone surrogate is U+FFFD, member by member in the order of
the keys. -/
def Alike (value other : Json) : Prop :=
  wellFormed (Json.sortKeys value) = wellFormed (Json.sortKeys other)

-- ---------------------------------------------------------------------------
-- Strings
-- ---------------------------------------------------------------------------

/-- The escapes are those of `JSON.stringify`. -/
theorem jcsUnit_spells {unit : UInt16} (h : Json.isHigh unit = false)
    (h' : Json.isLow unit = false) : Spells (jcsUnit unit) (Json.quoteUnit unit) := by
  unfold jcsUnit Json.quoteUnit
  by_cases hlow : unit < 0x20
  · by_cases hescape : unit = 8 ∨ unit = 9 ∨ unit = 10 ∨ unit = 12 ∨ unit = 13
    · rcases hescape with rfl | rfl | rfl | rfl | rfl <;> exact spells_ofText _
    · simp only [not_or] at hescape
      have hquote : unit ≠ 34 := by rintro rfl; revert hlow; decide
      have hslash : unit ≠ 92 := by rintro rfl; revert hlow; decide
      simp only [hescape, hquote, hslash, hlow, if_false, if_true, true_or]
      exact spells_ofText _
  · have hne : ∀ c : UInt16, c < 0x20 → unit ≠ c := by
      rintro c hc rfl
      exact hlow hc
    by_cases hquote : unit = 34
    · subst hquote
      exact spells_ofText _
    by_cases hslash : unit = 92
    · subst hslash
      exact spells_ofText _
    simp only [hne 8 (by decide), hne 9 (by decide), hne 10 (by decide), hne 12 (by decide),
      hne 13 (by decide), hquote, hslash, hlow, h, h', if_false, Bool.false_eq_true, or_self]
    exact spells_unit h h'

theorem jcsUnit_surrogate {unit : UInt16} (h : (Json.isHigh unit || Json.isLow unit) = true) :
    jcsUnit unit = [unit] := by
  have hne : ∀ c : UInt16, (Json.isHigh c || Json.isLow c) = false → unit ≠ c := by
    rintro c hc rfl
    rw [hc] at h
    cases h
  have hlow : ¬ unit < 0x20 := by
    intro hlt
    simp only [Json.isHigh, Json.isLow, Bool.or_eq_true, Bool.and_eq_true, decide_eq_true_eq,
      UInt16.le_iff_toNat_le] at h
    rw [UInt16.lt_iff_toNat_lt] at hlt
    change unit.toNat < 32 at hlt
    rcases h with ⟨h, -⟩ | ⟨h, -⟩
    · change 0xD800 ≤ unit.toNat at h
      omega
    · change 0xDC00 ≤ unit.toNat at h
      omega
  simp [jcsUnit, hne _ (show (Json.isHigh 0x22 || Json.isLow 0x22) = false by decide),
    hne _ (show (Json.isHigh 0x5c || Json.isLow 0x5c) = false by decide),
    hne _ (show (Json.isHigh 0x08 || Json.isLow 0x08) = false by decide),
    hne _ (show (Json.isHigh 0x0c || Json.isLow 0x0c) = false by decide),
    hne _ (show (Json.isHigh 0x0a || Json.isLow 0x0a) = false by decide),
    hne _ (show (Json.isHigh 0x0d || Json.isLow 0x0d) = false by decide),
    hne _ (show (Json.isHigh 0x09 || Json.isLow 0x09) = false by decide), hlow]

theorem unicodeEscape_head (unit : UInt16) :
    ∃ rest, JsString.ofText (Json.unicodeEscape unit) = 92 :: rest := by
  have hslash : utf16 '\\' = [92] := by decide
  rw [Json.unicodeEscape, JsString.ofText, List.flatMap_cons, hslash]
  exact ⟨_, List.singleton_append⟩

/-- What is written of a unit starts with it or with a backslash. -/
theorem jcsUnit_head (unit : UInt16) : ∃ c rest, jcsUnit unit = c :: rest ∧
    (Json.isLow c = true → Json.isLow unit = true) := by
  have hslash : Json.isLow 92 = true → Json.isLow unit = true := fun h => absurd h (by decide)
  unfold jcsUnit
  split_ifs
  iterate 7 exact ⟨92, _, rfl, hslash⟩
  · obtain ⟨rest, hrest⟩ := unicodeEscape_head unit
    exact ⟨92, rest, hrest, hslash⟩
  · exact ⟨unit, [], rfl, id⟩

theorem wellFormedUnit_not_high (unit : UInt16) : Json.isHigh (wellFormedUnit unit) = false := by
  unfold wellFormedUnit
  split
  · decide
  next h =>
    simp only [Bool.or_eq_true, not_or, Bool.not_eq_true] at h
    exact h.1

theorem jcsUnit_alone {unit : UInt16} {rest : JsString}
    (h : ∀ next ∈ rest.head?, (Json.isHigh unit && Json.isLow next) = false) :
    scalars (jcsUnit unit ++ rest) = Json.quoteUnit (wellFormedUnit unit) ++ scalars rest := by
  by_cases hsurrogate : (Json.isHigh unit || Json.isLow unit) = true
  · rw [jcsUnit_surrogate hsurrogate, List.singleton_append, scalars_cons h, if_pos hsurrogate,
      wellFormedUnit, if_pos hsurrogate]
    rfl
  · have hunit := hsurrogate
    simp only [Bool.or_eq_true, not_or, Bool.not_eq_true] at hunit
    rw [wellFormedUnit, if_neg hsurrogate]
    exact jcsUnit_spells hunit.1 hunit.2 rest

theorem quote_cons {unit : UInt16} (h : Json.isHigh unit = false) (s : JsString) :
    Json.quote (unit :: s) = Json.quoteUnit unit ++ Json.quote s := by
  cases s with
  | nil => simp [Json.quote]
  | cons next s => rw [Json.quote, if_neg (by simp [h])]

theorem jcsUnits_quote (s rest : JsString) :
    scalars (s.flatMap jcsUnit ++ 34 :: rest) =
      Json.quote (toWellFormed s) ++ '"' :: scalars rest := by
  have hend : scalars (34 :: rest) = '"' :: scalars rest :=
    @spells_unit 34 (by decide) (by decide) rest
  fun_induction toWellFormed s with
  | case1 => exact hend
  | case2 unit =>
    rw [List.flatMap_singleton, jcsUnit_alone (by simp [show Json.isLow 34 = false by decide]),
      hend, Json.quote]
  | case3 unit next s hpair ih =>
    have hpair' := hpair
    rw [Bool.and_eq_true] at hpair'
    rw [List.flatMap_cons, List.flatMap_cons, jcsUnit_surrogate (by simp [hpair'.1]),
      jcsUnit_surrogate (by simp [hpair'.2]), List.append_assoc, List.append_assoc,
      List.singleton_append, List.singleton_append, scalars, if_pos hpair, ih, Json.quote,
      if_pos hpair, List.cons_append]
  | case4 unit next s hpair ih =>
    obtain ⟨c, tail, hhead, hlow⟩ := jcsUnit_head next
    have hfirst : ∀ d ∈ ((next :: s).flatMap jcsUnit ++ 34 :: rest).head?,
        (Json.isHigh unit && Json.isLow d) = false := by
      rw [List.flatMap_cons, hhead]
      intro d hd
      obtain rfl : c = d := by simpa using hd
      rw [Bool.and_eq_false_iff]
      by_contra hboth
      simp only [not_or, Bool.not_eq_false] at hboth
      exact hpair (by rw [hboth.1, hlow hboth.2]; rfl)
    rw [List.flatMap_cons, List.append_assoc, jcsUnit_alone hfirst, ih,
      quote_cons (wellFormedUnit_not_high unit), List.append_assoc]

theorem jcsString_spells (s : JsString) :
    Spells (jcsString s) (Json.stringText (toWellFormed s)) := by
  intro rest
  have hquote := @spells_unit 34 (by decide) (by decide)
    (s.flatMap jcsUnit ++ 34 :: rest)
  have hunits := jcsUnits_quote s rest
  change scalars ((34 :: s.flatMap jcsUnit ++ [34]) ++ rest) = _
  rw [List.append_assoc, List.cons_append]
  refine hquote.trans ?_
  have hchar : Char.ofNat (UInt16.toNat 34) = '"' := by decide
  rw [hunits, hchar]
  simp [Json.stringText]

theorem jcsNumber_spells (x : ℚ) : Spells (jcsNumber x) (Double.text (.finite x)) := by
  unfold jcsNumber
  split
  next h =>
    subst h
    exact spells_ofText _
  next h =>
    exact spells_ofText _

-- ---------------------------------------------------------------------------
-- Values
-- ---------------------------------------------------------------------------

theorem joined_spells {texts : List JsString} {pieces : List (List Char)}
    (h : List.Forall₂ Spells texts pieces) :
    Spells (joined texts) (List.intercalate [','] pieces) := by
  have hcomma : Spells (js ",") [','] := spells_ofText _
  unfold joined
  induction h with
  | nil => exact spells_nil
  | @cons text piece texts pieces htext hrest ih =>
    cases hrest with
    | nil => simpa using htext
    | cons hnext hrest =>
      rw [List.intercalate_cons_cons, List.intercalate_cons_cons, List.append_assoc,
        List.append_assoc]
      exact htext.append (hcomma.append ih)

theorem wellFormedItems_eq_map (items : List Json) :
    wellFormedItems items = items.map wellFormed := by
  induction items with
  | nil => rfl
  | cons item items ih => rw [wellFormedItems, ih]; rfl

theorem wellFormedMembers_eq_map (members : List (JsString × Json)) :
    wellFormedMembers members = members.map fun m => (toWellFormed m.1, wellFormed m.2) := by
  induction members with
  | nil => rfl
  | cons member members ih => rw [wellFormedMembers, ih]; rfl

/-- The value whose text is written. -/
def spelled (value : Json) : Json := wellFormed (Json.sortKeys value)

def spelledMember (member : JsString × Json) : JsString × Json :=
  (toWellFormed member.1, spelled member.2)

def serialized (member : JsString × Json) : JsString × Except JsString JsString :=
  (member.1, jcsSerialize (.ofJson member.2))

theorem jcsMembers_ofMembers (members : List (JsString × Json)) :
    jcsMembers (JsValue.ofMembers members) = members.map serialized := by
  induction members with
  | nil => rfl
  | cons member members ih =>
    obtain ⟨key, value⟩ := member
    rw [JsValue.ofMembers, jcsMembers, if_pos (JsValue.defined_ofJson value), ih]
    rfl

theorem spelled_object (members : List (JsString × Json)) :
    spelled (.object members) = .object ((members.mergeSort Json.byKey).map spelledMember) := by
  rw [spelled, Json.sortKeys, wellFormed, wellFormedMembers_eq_map, Json.sortMembers_mergeSort,
    List.map_map]
  rfl

/-- The canonical text of a value, as characters. -/
def Written (value : Json) : Prop :=
  ∃ text, jcsSerialize (.ofJson value) = .ok text ∧ Spells text (spelled value).stringify

theorem jcsMember_spells {members : List (JsString × Json)} (h : ∀ m ∈ members, Written m.2) :
    ∃ texts, (members.map serialized).mapM jcsMember = .ok texts ∧
      List.Forall₂ Spells texts ((members.map spelledMember).map Json.memberText) := by
  induction members with
  | nil => exact ⟨[], rfl, .nil⟩
  | cons member members ih =>
    obtain ⟨⟨text, htext, hspells⟩, hrest⟩ := List.forall_mem_cons.mp h
    obtain ⟨texts, htexts, hall⟩ := ih hrest
    have hcolon : Spells (js ":") [':'] := spells_ofText _
    refine ⟨(jcsString member.1 ++ js ":" ++ text) :: texts, ?_, .cons ?_ hall⟩
    · rw [List.map_cons, List.mapM_cons, htexts, serialized, jcsMember, htext]
      rfl
    · have hmember := ((jcsString_spells member.1).append hcolon).append hspells
      simpa [Json.memberText, spelledMember] using hmember

mutual

theorem jcsSerialize_written : ∀ {value : Json}, value.Plain → Written value
  | .null, _ => ⟨_, rfl, spells_ofText _⟩
  | .bool true, _ => ⟨_, rfl, spells_ofText _⟩
  | .bool false, _ => ⟨_, rfl, spells_ofText _⟩
  | .number (.infinite _), h => absurd h (by simp [Json.Plain])
  | .number (.finite x), _ => by
    refine ⟨jcsNumber x, by simp [JsValue.ofJson, jcsSerialize], ?_⟩
    simpa [spelled, Json.sortKeys, wellFormed, Json.stringify] using jcsNumber_spells x
  | .string s, _ => by
    refine ⟨jcsString s, by simp [JsValue.ofJson, jcsSerialize], ?_⟩
    simpa [spelled, Json.sortKeys, wellFormed, Json.stringify] using jcsString_spells s
  | .array items, h => by
    rw [Json.Plain] at h
    obtain ⟨texts, htexts, hall⟩ := jcsItems_written h
    have hopen : Spells (js "[") ['['] := spells_ofText _
    have hclose : Spells (js "]") [']'] := spells_ofText _
    refine ⟨js "[" ++ joined texts ++ js "]", ?_, ?_⟩
    · rw [JsValue.ofJson, jcsSerialize, htexts]
      rfl
    · have hspells := (hopen.append (joined_spells hall)).append hclose
      rwa [List.append_assoc ['['], Json.itemsText_intercalate] at hspells
  | .object members, h => by
    rw [Json.Plain] at h
    have hwritten : ∀ m ∈ members.mergeSort Json.byKey, Written m.2 := fun m hm =>
      jcsMembers_written h.2 m (List.mem_mergeSort.mp hm)
    obtain ⟨texts, htexts, hall⟩ := jcsMember_spells hwritten
    have hsort : (members.map serialized).mergeSort keyLe =
        (members.mergeSort Json.byKey).map serialized :=
      (List.map_mergeSort (r := Json.byKey) (s := keyLe) (f := serialized)
        fun _ _ _ _ => rfl).symm
    have hopen : Spells (js "\x7b") ['{'] := spells_ofText _
    have hclose : Spells (js "\x7d") ['}'] := spells_ofText _
    refine ⟨js "\x7b" ++ joined texts ++ js "\x7d", ?_, ?_⟩
    · rw [JsValue.ofJson, jcsSerialize, jcsMembers_ofMembers, hsort, htexts]
      rfl
    · have hspells := (hopen.append (joined_spells hall)).append hclose
      rw [spelled_object, Json.stringify]
      rwa [List.append_assoc ['{'], Json.membersText_intercalate] at hspells

theorem jcsItems_written : ∀ {items : List Json}, Json.PlainItems items →
    ∃ texts, (jcsItems (JsValue.ofItems items)).mapM id = .ok texts ∧
      List.Forall₂ Spells texts ((wellFormedItems (Json.sortItems items)).map Json.stringify)
  | [], _ => ⟨[], rfl, .nil⟩
  | item :: items, h => by
    rw [Json.PlainItems] at h
    obtain ⟨text, htext, hspells⟩ := jcsSerialize_written h.1
    obtain ⟨texts, htexts, hall⟩ := jcsItems_written h.2
    refine ⟨text :: texts, ?_, .cons hspells hall⟩
    rw [JsValue.ofItems, jcsItems, List.mapM_cons, htexts, id, htext]
    rfl

theorem jcsMembers_written : ∀ {members : List (JsString × Json)}, Json.PlainMembers members →
    ∀ m ∈ members, Written m.2
  | [], _ => by simp
  | (key, value) :: members, h => by
    rw [Json.PlainMembers] at h
    exact List.forall_mem_cons.mpr ⟨jcsSerialize_written h.1, jcsMembers_written h.2⟩

end

theorem jcsBytes_written (h : value.Plain) :
    jcsBytes (.ofJson value) = .ok (Utf8.encode (spelled value).stringify) := by
  obtain ⟨text, htext, hspells⟩ := jcsSerialize_written h
  rw [jcsBytes, jcs, htext, ← hspells.scalars_eq]
  rfl

-- ---------------------------------------------------------------------------
-- One value for the bytes
-- ---------------------------------------------------------------------------

mutual

theorem wellFormed_doubles : ∀ {value : Json}, value.Doubles → (wellFormed value).Doubles
  | .null, _ | .bool _, _ | .string _, _ => by simp [wellFormed, Json.Doubles]
  | .number _, h => by simpa [wellFormed] using h
  | .array items, h => by
    rw [Json.Doubles] at h
    rw [wellFormed, Json.Doubles]
    exact wellFormedItems_doubles h
  | .object members, h => by
    rw [Json.Doubles] at h
    rw [wellFormed, Json.Doubles]
    exact wellFormedMembers_doubles h

theorem wellFormedItems_doubles : ∀ {items : List Json}, Json.DoublesItems items →
    Json.DoublesItems (wellFormedItems items)
  | [], _ => by simp [wellFormedItems, Json.DoublesItems]
  | item :: items, h => by
    rw [Json.DoublesItems] at h
    rw [wellFormedItems, Json.DoublesItems]
    exact ⟨wellFormed_doubles h.1, wellFormedItems_doubles h.2⟩

theorem wellFormedMembers_doubles : ∀ {members : List (JsString × Json)},
    Json.DoublesMembers members → Json.DoublesMembers (wellFormedMembers members)
  | [], _ => by simp [wellFormedMembers, Json.DoublesMembers]
  | (key, value) :: members, h => by
    rw [Json.DoublesMembers] at h
    rw [wellFormedMembers, Json.DoublesMembers]
    exact ⟨wellFormed_doubles h.1, wellFormedMembers_doubles h.2⟩

end

theorem jcsBytes_eq_iff (hvalue : value.Plain) (hother : other.Plain) :
    jcsBytes (.ofJson value) = jcsBytes (.ofJson other) ↔ Alike value other := by
  rw [jcsBytes_written hvalue, jcsBytes_written hother, Except.ok.injEq, Utf8.encode_inj]
  refine ⟨Json.stringify_inj ?_ ?_, congrArg _⟩
  · exact wellFormed_doubles (Json.sortKeys_doubles hvalue)
  · exact wellFormed_doubles (Json.sortKeys_doubles hother)

mutual

theorem wellFormed_sortKeys : ∀ {value : Json}, wellFormed value = value → spelled value =
    Json.sortKeys value
  | .null, _ | .bool _, _ | .number _, _ => rfl
  | .string s, h => h
  | .array items, h => by
    rw [wellFormed, Json.array.injEq] at h
    rw [spelled, Json.sortKeys, wellFormed, wellFormedItems_sortItems h]
  | .object members, h => by
    rw [wellFormed, Json.object.injEq] at h
    have hmembers : ∀ m ∈ members.mergeSort Json.byKey,
        spelledMember m = (m.1, Json.sortKeys m.2) := fun m hm =>
      wellFormedMembers_sortMembers h m (List.mem_mergeSort.mp hm)
    rw [spelled_object, List.map_congr_left hmembers, Json.sortKeys, Json.sortMembers_mergeSort]

theorem wellFormedItems_sortItems : ∀ {items : List Json}, wellFormedItems items = items →
    wellFormedItems (Json.sortItems items) = Json.sortItems items
  | [], _ => rfl
  | item :: items, h => by
    rw [wellFormedItems, List.cons.injEq] at h
    have hitem := wellFormed_sortKeys h.1
    rw [spelled] at hitem
    rw [Json.sortItems, wellFormedItems, hitem, wellFormedItems_sortItems h.2]

theorem wellFormedMembers_sortMembers : ∀ {members : List (JsString × Json)},
    wellFormedMembers members = members →
      ∀ m ∈ members, spelledMember m = (m.1, Json.sortKeys m.2)
  | [], _ => by simp
  | (key, value) :: members, h => by
    rw [wellFormedMembers, List.cons.injEq, Prod.mk.injEq] at h
    obtain ⟨⟨hkey, hvalue⟩, hrest⟩ := h
    refine List.forall_mem_cons.mpr ⟨?_, wellFormedMembers_sortMembers hrest⟩
    rw [spelledMember, hkey, wellFormed_sortKeys hvalue]

end

/-- Without lone surrogates the bytes bind one value. -/
theorem jcsBytes_inj_of_wellFormed (hvalue : value.Plain) (hother : other.Plain)
    (h : wellFormed value = value) (h' : wellFormed other = other) :
    jcsBytes (.ofJson value) = jcsBytes (.ofJson other) ↔ Json.Same value other := by
  have halike : Alike value other ↔ spelled value = spelled other := Iff.rfl
  rw [jcsBytes_eq_iff hvalue hother, halike, wellFormed_sortKeys h, wellFormed_sortKeys h',
    Json.sortKeys_eq_iff hvalue hother]

/-- Only a lone surrogate lets two values have one text. -/
theorem jcsBytes_binds_iff (hvalue : value.Plain) (hother : other.Plain) :
    (jcsBytes (.ofJson value) = jcsBytes (.ofJson other) → Json.Same value other) ↔
      (Alike value other → Json.Same value other) := by
  rw [jcsBytes_eq_iff hvalue hother]

theorem jcsBytes_binds_iff_sample :
    (jcsBytes (.ofJson (.string (js "a"))) = jcsBytes (.ofJson (.string (js "b"))) →
      Json.Same (.string (js "a")) (.string (js "b"))) ∧
    ¬ (jcsBytes (.ofJson (.string [0xD800])) = jcsBytes (.ofJson (.string [0xFFFD])) →
      Json.Same (.string [0xD800]) (.string [0xFFFD])) := by
  have hab : wellFormed (.string (js "a")) ≠ wellFormed (.string (js "b")) := by
    simp only [wellFormed, ne_eq, Json.string.injEq]
    decide
  have hlone : wellFormed (.string [0xD800]) = wellFormed (.string [0xFFFD]) := by
    simp only [wellFormed, Json.string.injEq]
    decide
  constructor
  · refine (jcsBytes_binds_iff (by simp [Json.Plain]) (by simp [Json.Plain])).mpr fun h => ?_
    exact absurd h hab
  · intro h
    have hsame := (jcsBytes_binds_iff (by simp [Json.Plain]) (by simp [Json.Plain])).mp h hlone
    simp [Json.Same] at hsame

theorem jcsBytes_lone_surrogate :
    ¬ ∀ value other : Json, value.Plain → other.Plain →
      jcsBytes (.ofJson value) = jcsBytes (.ofJson other) → Json.Same value other := by
  intro h
  have hbytes : jcsBytes (.ofJson (.string [0xD800])) = jcsBytes (.ofJson (.string [0xFFFD])) := by
    refine (jcsBytes_eq_iff (by simp [Json.Plain]) (by simp [Json.Plain])).mpr ?_
    simp only [Alike, Json.sortKeys, wellFormed, Json.string.injEq]
    decide
  have hsame := h _ _ (by simp [Json.Plain]) (by simp [Json.Plain]) hbytes
  simp [Json.Same] at hsame

end EsigSuite.Exchange
