import EsigSuite.Lib.Json
import EsigSuite.Lib.Utf8

/-!
# Values of JavaScript that are written as JSON

Beside the values of JSON there is `undefined`, which `JSON.stringify` leaves
out of an object. `parse_stringify`: what is written of a value comes back.
-/

namespace Lib

inductive JsValue
  | undefined
  | null
  | bool (value : Bool)
  | number (value : Double)
  | string (value : JsString)
  | array (items : List JsValue)
  | object (members : List (JsString × JsValue))

namespace JsValue

def defined : JsValue → Bool
  | .undefined => false
  | _ => true

/-- `value ?? other` -/
def orElse (value other : JsValue) : JsValue :=
  match value with
  | .undefined | .null => other
  | value => value

mutual

/-- What `JSON.stringify` writes of a value that is not `undefined`. In a list
`undefined` is null. -/
def toJson : JsValue → Json
  | .undefined | .null | .number (.infinite _) => .null
  | .bool b => .bool b
  | .number (.finite x) => .number (.finite x)
  | .string s => .string s
  | .array items => .array (itemsJson items)
  | .object members => .object (membersJson members)

def itemsJson : List JsValue → List Json
  | [] => []
  | item :: items => item.toJson :: itemsJson items

def membersJson : List (JsString × JsValue) → List (JsString × Json)
  | [] => []
  | (key, value) :: members =>
    if value.defined then (key, value.toJson) :: membersJson members else membersJson members

end

mutual

def ofJson : Json → JsValue
  | .null => .null
  | .bool b => .bool b
  | .number x => .number x
  | .string s => .string s
  | .array items => .array (ofItems items)
  | .object members => .object (ofMembers members)

def ofItems : List Json → List JsValue
  | [] => []
  | item :: items => ofJson item :: ofItems items

def ofMembers : List (JsString × Json) → List (JsString × JsValue)
  | [] => []
  | (key, value) :: members => (key, ofJson value) :: ofMembers members

end

mutual

/-- A value of JSON, but that a member of an object may be `undefined`. -/
def Proper : JsValue → Prop
  | .undefined | .null | .bool _ | .string _ => True
  | .number (.finite x) => Double.Exact x
  | .number (.infinite _) => False
  | .array items => ProperItems items
  | .object members => (members.map (·.1)).Nodup ∧ ProperMembers members

def ProperItems : List JsValue → Prop
  | [] => True
  | item :: items => (item.defined = true ∧ Proper item) ∧ ProperItems items

def ProperMembers : List (JsString × JsValue) → Prop
  | [] => True
  | (_, value) :: members => Proper value ∧ ProperMembers members

end

/-- `JSON.stringify` -/
def stringify (value : JsValue) : Option (List Char) :=
  if value.defined then some (Json.stringify value.toJson) else none

@[simp] theorem defined_ofJson (j : Json) : (ofJson j).defined = true := by
  cases j <;> simp [ofJson, defined]

theorem membersJson_keys (members : List (JsString × JsValue)) :
    ((membersJson members).map (·.1)).Sublist (members.map (·.1)) := by
  induction members with
  | nil => exact .slnil
  | cons member members ih =>
    obtain ⟨key, value⟩ := member
    rw [membersJson]
    split
    · exact ih.cons₂ key
    · exact ih.cons key

mutual

theorem toJson_plain : ∀ {value : JsValue}, value.Proper → value.toJson.Plain
  | .undefined, _ | .null, _ | .bool _, _ | .string _, _ => by simp [toJson, Json.Plain]
  | .number (.infinite _), h => absurd h (by simp [Proper])
  | .number (.finite x), h => by simpa [toJson, Json.Plain, Proper] using h
  | .array items, h => by
    rw [Proper] at h
    rw [toJson, Json.Plain]
    exact itemsJson_plain h
  | .object members, h => by
    rw [Proper] at h
    rw [toJson, Json.Plain]
    exact ⟨h.1.sublist (membersJson_keys members), membersJson_plain h.2⟩

theorem itemsJson_plain : ∀ {items : List JsValue}, ProperItems items →
    Json.PlainItems (itemsJson items)
  | [], _ => by simp [itemsJson, Json.PlainItems]
  | item :: items, h => by
    rw [ProperItems] at h
    rw [itemsJson, Json.PlainItems]
    exact ⟨toJson_plain h.1.2, itemsJson_plain h.2⟩

theorem membersJson_plain : ∀ {members : List (JsString × JsValue)}, ProperMembers members →
    Json.PlainMembers (membersJson members)
  | [], _ => by simp [membersJson, Json.PlainMembers]
  | (key, value) :: members, h => by
    rw [ProperMembers] at h
    rw [membersJson]
    split
    · rw [Json.PlainMembers]
      exact ⟨toJson_plain h.1, membersJson_plain h.2⟩
    · exact membersJson_plain h.2

end

/-- What was written comes back. -/
theorem parse_stringify {value : JsValue} (h : value.Proper) {text : List Char}
    (htext : value.stringify = some text) : Json.parse text = some value.toJson := by
  unfold stringify at htext
  split at htext
  · rw [← Option.some.inj htext, Json.parse_stringify (toJson_plain h)]
  · cases htext

end JsValue

-- ---------------------------------------------------------------------------
-- UTF-8 of strings
-- ---------------------------------------------------------------------------

/-- The characters of a string, U+FFFD for a lone surrogate. -/
def scalars : JsString → List Char
  | [] => []
  | [unit] => [if Json.isHigh unit || Json.isLow unit then '\uFFFD' else Char.ofNat unit.toNat]
  | unit :: next :: rest =>
    if Json.isHigh unit && Json.isLow next then
      Char.ofNat (0x10000 + (unit.toNat - 0xD800) * 0x400 + (next.toNat - 0xDC00)) :: scalars rest
    else
      (if Json.isHigh unit || Json.isLow unit then '\uFFFD' else Char.ofNat unit.toNat) ::
        scalars (next :: rest)

/-- `new TextEncoder().encode(text)` -/
def textEncode (text : JsString) : List UInt8 := Utf8.encode (scalars text)

/-- U+FFFD for a surrogate. -/
def wellFormedUnit (unit : UInt16) : UInt16 :=
  if Json.isHigh unit || Json.isLow unit then 0xFFFD else unit

/-- `text.toWellFormed()` -/
def toWellFormed : JsString → JsString
  | [] => []
  | [unit] => [wellFormedUnit unit]
  | unit :: next :: rest =>
    if Json.isHigh unit && Json.isLow next then unit :: next :: toWellFormed rest
    else wellFormedUnit unit :: toWellFormed (next :: rest)

/-- The characters of a piece of a string, whatever follows. -/
def Spells (text : JsString) (chars : List Char) : Prop :=
  ∀ rest, scalars (text ++ rest) = chars ++ scalars rest

theorem Spells.append (h : Spells text chars) (h' : Spells text' chars') :
    Spells (text ++ text') (chars ++ chars') := by
  intro rest
  rw [List.append_assoc, h, h', List.append_assoc]

theorem Spells.scalars_eq (h : Spells text chars) : scalars text = chars := by
  have heq := h []
  simpa [scalars] using heq

theorem spells_nil : Spells [] [] := fun _ => rfl

theorem scalars_cons {unit : UInt16} {rest : JsString}
    (h : ∀ next ∈ rest.head?, (Json.isHigh unit && Json.isLow next) = false) :
    scalars (unit :: rest) =
      (if Json.isHigh unit || Json.isLow unit then '\uFFFD' else Char.ofNat unit.toNat) ::
        scalars rest := by
  cases rest with
  | nil => rfl
  | cons next rest =>
    have hpair := h next rfl
    rw [scalars, if_neg (by simpa using hpair)]

theorem spells_unit {unit : UInt16} (h : Json.isHigh unit = false) (h' : Json.isLow unit = false) :
    Spells [unit] [Char.ofNat unit.toNat] := by
  intro rest
  rw [List.singleton_append, scalars_cons (by simp [h])]
  simp [h, h']

theorem isHigh_iff {unit : UInt16} :
    Json.isHigh unit = true ↔ 0xD800 ≤ unit.toNat ∧ unit.toNat ≤ 0xDBFF := by
  simp only [Json.isHigh, Bool.and_eq_true, decide_eq_true_eq, UInt16.le_iff_toNat_le]
  rfl

theorem isLow_iff {unit : UInt16} :
    Json.isLow unit = true ↔ 0xDC00 ≤ unit.toNat ∧ unit.toNat ≤ 0xDFFF := by
  simp only [Json.isLow, Bool.and_eq_true, decide_eq_true_eq, UInt16.le_iff_toNat_le]
  rfl

/-- One character: a unit that is no surrogate, or a pair. -/
theorem spells_utf16 (c : Char) : Spells (utf16 c) [c] := by
  by_cases h : c.toNat < 0x10000
  · have hunit : (UInt16.ofNat c.toNat).toNat = c.toNat := by
      rw [UInt16.toNat_ofNat']
      omega
    have hvalid : c.toNat < 0xD800 ∨ 0xDFFF < c.toNat ∧ c.toNat < 0x110000 := c.valid
    have hhigh : Json.isHigh (UInt16.ofNat c.toNat) = false := by
      rw [Bool.eq_false_iff, ne_eq, isHigh_iff, hunit]
      omega
    have hlow : Json.isLow (UInt16.ofNat c.toNat) = false := by
      rw [Bool.eq_false_iff, ne_eq, isLow_iff, hunit]
      omega
    have hspells := spells_unit hhigh hlow
    rwa [hunit, Char.ofNat_toNat, ← utf16_small h] at hspells
  · intro rest
    have hlt : c.toNat < 0x110000 := by
      have hvalid : c.toNat < 0xD800 ∨ 0xDFFF < c.toNat ∧ c.toNat < 0x110000 := c.valid
      omega
    have hhigh : (UInt16.ofNat (0xD800 + (c.toNat - 0x10000) / 0x400)).toNat =
        0xD800 + (c.toNat - 0x10000) / 0x400 := by
      rw [UInt16.toNat_ofNat']
      omega
    have hlow : (UInt16.ofNat (0xDC00 + (c.toNat - 0x10000) % 0x400)).toNat =
        0xDC00 + (c.toNat - 0x10000) % 0x400 := by
      rw [UInt16.toNat_ofNat']
      omega
    have hpair : (Json.isHigh (UInt16.ofNat (0xD800 + (c.toNat - 0x10000) / 0x400)) &&
        Json.isLow (UInt16.ofNat (0xDC00 + (c.toNat - 0x10000) % 0x400))) = true := by
      rw [Bool.and_eq_true, isHigh_iff, isLow_iff, hhigh, hlow]
      omega
    have hvalue : 0x10000 + (0xD800 + (c.toNat - 0x10000) / 0x400 - 0xD800) * 0x400 +
        (0xDC00 + (c.toNat - 0x10000) % 0x400 - 0xDC00) = c.toNat := by omega
    rw [utf16_pair h, List.cons_append, List.singleton_append, scalars, if_pos hpair, hhigh, hlow,
      hvalue, Char.ofNat_toNat]
    rfl

theorem spells_ofText (chars : List Char) : Spells (JsString.ofText chars) chars := by
  induction chars with
  | nil => exact spells_nil
  | cons c chars ih =>
    rw [JsString.ofText, List.flatMap_cons]
    exact (spells_utf16 c).append ih

@[simp] theorem scalars_js (s : String) : scalars (js s) = s.toList :=
  (spells_ofText s.toList).scalars_eq

@[simp] theorem js_inj {s t : String} : js s = js t ↔ s = t := by
  refine ⟨fun h => ?_, congrArg js⟩
  have htext := congrArg scalars h
  rwa [scalars_js, scalars_js, String.toList_inj] at htext

end Lib
