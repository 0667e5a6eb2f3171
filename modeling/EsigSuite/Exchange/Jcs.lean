import EsigSuite.Lib.FirstOk
import EsigSuite.Lib.JsValue

/-!
# Canonical JSON

`jcs` of `esig-uaid-exch/src/index.ts`. A value that went through its JSON text
is written in the same way.
-/

namespace EsigSuite.Exchange

open Lib

abbrev Bytes := List UInt8

/-- The order of `sort()` on strings. -/
def keyLe {β : Type} (a b : JsString × β) : Bool := !(b.1.lex a.1)

def jcsUnit (c : UInt16) : JsString :=
  if c = 0x22 then js "\\\""
  else if c = 0x5c then js "\\\\"
  else if c = 0x08 then js "\\b"
  else if c = 0x0c then js "\\f"
  else if c = 0x0a then js "\\n"
  else if c = 0x0d then js "\\r"
  else if c = 0x09 then js "\\t"
  else if c < 0x20 then JsString.ofText (Json.unicodeEscape c)
  else [c]

def jcsString (s : JsString) : JsString := js "\"" ++ s.flatMap jcsUnit ++ js "\""

def jcsNumber (n : ℚ) : JsString :=
  if n = 0 then js "0" else JsString.ofText (Double.text (.finite n))

def joined (texts : List JsString) : JsString := List.intercalate (js ",") texts

def jcsMember (member : JsString × Except JsString JsString) : Except JsString JsString := do
  return jcsString member.1 ++ js ":" ++ (← member.2)

mutual

/-- What it throws is the message of the error. -/
def jcsSerialize : JsValue → Except JsString JsString
  | .undefined => .error (js "JCS: unsupported value type: undefined")
  | .null => .ok (js "null")
  | .bool b => .ok (js (if b then "true" else "false"))
  | .number (.infinite _) => .error (js "JCS: non-finite numbers are not permitted")
  | .number (.finite x) => .ok (jcsNumber x)
  | .string s => .ok (jcsString s)
  | .array items => do
    return js "[" ++ joined (← (jcsItems items).mapM id) ++ js "]"
  | .object members => do
    return js "\x7b" ++ joined (← ((jcsMembers members).mergeSort keyLe).mapM jcsMember) ++ js "\x7d"

def jcsItems : List JsValue → List (Except JsString JsString)
  | [] => []
  | item :: items => jcsSerialize item :: jcsItems items

/-- The members that are not `undefined`. -/
def jcsMembers : List (JsString × JsValue) → List (JsString × Except JsString JsString)
  | [] => []
  | (key, value) :: members =>
    if value.defined then (key, jcsSerialize value) :: jcsMembers members else jcsMembers members

end

def jcs (value : JsValue) : Except JsString JsString := jcsSerialize value

def jcsBytes (value : JsValue) : Except JsString Bytes := do return textEncode (← jcs value)

-- ---------------------------------------------------------------------------
-- Through JSON
-- ---------------------------------------------------------------------------

mutual

/-- A value of JSON has a canonical text. -/
theorem jcsSerialize_ok : ∀ {value : JsValue}, value.Proper → value.defined = true →
    ∃ text, jcsSerialize value = .ok text
  | .undefined, _, h => absurd h (by simp [JsValue.defined])
  | .number (.infinite _), h, _ => absurd h (by simp [JsValue.Proper])
  | .null, _, _ | .bool _, _, _ | .string _, _, _ | .number (.finite _), _, _ => by
    simp [jcsSerialize]
  | .array items, h, _ => by
    rw [JsValue.Proper] at h
    obtain ⟨texts, htexts⟩ : ∃ texts, (jcsItems items).mapM id = .ok texts := mapM_ok (jcsItems_ok h)
    exact ⟨_, by rw [jcsSerialize, htexts]; rfl⟩
  | .object members, h, _ => by
    rw [JsValue.Proper] at h
    have hok : ∀ m ∈ (jcsMembers members).mergeSort keyLe, ∃ t, jcsMember m = .ok t := by
      intro m hm
      obtain ⟨t, ht⟩ := jcsMembers_ok h.2 m (List.mem_mergeSort.mp hm)
      exact ⟨_, by rw [jcsMember, ht]; rfl⟩
    obtain ⟨texts, htexts⟩ := mapM_ok hok
    exact ⟨_, by rw [jcsSerialize, htexts]; rfl⟩

theorem jcsItems_ok : ∀ {items : List JsValue}, JsValue.ProperItems items →
    ∀ r ∈ jcsItems items, ∃ t, id r = .ok t
  | [], _ => by simp [jcsItems]
  | item :: items, h => by
    rw [JsValue.ProperItems] at h
    rw [jcsItems]
    exact List.forall_mem_cons.mpr ⟨jcsSerialize_ok h.1.2 h.1.1, jcsItems_ok h.2⟩

theorem jcsMembers_ok : ∀ {members : List (JsString × JsValue)}, JsValue.ProperMembers members →
    ∀ m ∈ jcsMembers members, ∃ t, m.2 = .ok t
  | [], _ => by simp [jcsMembers]
  | (key, value) :: members, h => by
    rw [JsValue.ProperMembers] at h
    rw [jcsMembers]
    split
    next hdefined =>
      exact List.forall_mem_cons.mpr ⟨jcsSerialize_ok h.1 hdefined, jcsMembers_ok h.2⟩
    next => exact jcsMembers_ok h.2

end

mutual

theorem jcsSerialize_toJson : ∀ {value : JsValue}, value.Proper → value.defined = true →
    jcsSerialize (.ofJson value.toJson) = jcsSerialize value
  | .undefined, _, h => absurd h (by simp [JsValue.defined])
  | .number (.infinite _), h, _ => absurd h (by simp [JsValue.Proper])
  | .null, _, _ | .bool _, _, _ | .string _, _, _ | .number (.finite _), _, _ => by
    simp [JsValue.toJson, JsValue.ofJson]
  | .array items, h, _ => by
    rw [JsValue.Proper] at h
    simp only [JsValue.toJson, JsValue.ofJson, jcsSerialize, jcsItems_toJson h]
  | .object members, h, _ => by
    rw [JsValue.Proper] at h
    simp only [JsValue.toJson, JsValue.ofJson, jcsSerialize, jcsMembers_toJson h.2]

theorem jcsItems_toJson : ∀ {items : List JsValue}, JsValue.ProperItems items →
    jcsItems (JsValue.ofItems (JsValue.itemsJson items)) = jcsItems items
  | [], _ => rfl
  | item :: items, h => by
    rw [JsValue.ProperItems] at h
    simp only [JsValue.itemsJson, JsValue.ofItems, jcsItems, jcsSerialize_toJson h.1.2 h.1.1,
      jcsItems_toJson h.2]

theorem jcsMembers_toJson : ∀ {members : List (JsString × JsValue)},
    JsValue.ProperMembers members →
      jcsMembers (JsValue.ofMembers (JsValue.membersJson members)) = jcsMembers members
  | [], _ => rfl
  | (key, value) :: members, h => by
    rw [JsValue.ProperMembers] at h
    rw [JsValue.membersJson, jcsMembers]
    split
    next hdefined =>
      simp only [JsValue.ofMembers, jcsMembers, JsValue.defined_ofJson, if_true,
        jcsSerialize_toJson h.1 hdefined, jcsMembers_toJson h.2]
    next => exact jcsMembers_toJson h.2

end

/-- What is signed is the same after `JSON.stringify` and `JSON.parse`. -/
theorem jcsBytes_toJson {value : JsValue} (h : value.Proper) (hdefined : value.defined = true) :
    jcsBytes (.ofJson value.toJson) = jcsBytes value := by
  unfold jcsBytes jcs
  rw [jcsSerialize_toJson h hdefined]

theorem jcsBytes_ok {value : JsValue} (h : value.Proper) (hdefined : value.defined = true) :
    ∃ bytes, jcsBytes value = .ok bytes := by
  obtain ⟨text, htext⟩ := jcsSerialize_ok h hdefined
  exact ⟨textEncode text, by rw [jcsBytes, jcs, htext]; rfl⟩

end EsigSuite.Exchange
