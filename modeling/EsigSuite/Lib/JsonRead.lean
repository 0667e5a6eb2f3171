import EsigSuite.Lib.Base64
import EsigSuite.Lib.JsValue

/-!
# Reading JSON values

Property reads of JavaScript on what `JSON.parse` gives, and the base64 text of
a buffer.
-/

namespace EsigSuite

open Lib

/-- `toString("base64")` -/
def b64 (bytes : List UInt8) : JsString := (Base64.encode bytes).map UInt8.toUInt16

/-- `Buffer.from(text, "base64")` -/
def fromBase64 (text : JsString) : List UInt8 := Base64.decode (text.map UInt16.toNat)

theorem fromBase64_b64 (bytes : List UInt8) : fromBase64 (b64 bytes) = bytes := by
  have hcodes : ((Base64.encode bytes).map UInt8.toUInt16).map UInt16.toNat =
      (Base64.encode bytes).map (·.toNat) := by simp
  rw [fromBase64, b64, hcodes, Base64.decode_encode]

-- ---------------------------------------------------------------------------
-- Property reads
-- ---------------------------------------------------------------------------

def lookup (members : List (JsString × Json)) (key : JsString) : Option Json :=
  (members.find? (·.1 == key)).map (·.2)

/-- `value.key` on a value that is neither null nor undefined. -/
def member (value : Json) (key : String) : Option Json :=
  match value with
  | .object members => lookup members (js key)
  | _ => none

/-- `value.key`, which throws on null and undefined. -/
def property (value : Option Json) (key : String) : Except String (Option Json) :=
  match value with
  | none | some .null => .error "TypeError"
  | some value => .ok (member value key)

def textMember (key value : String) : JsString × Json := (js key, .string (js value))

/-- A string, U+FFFD for a lone surrogate. -/
def textOf : Option Json → Option String
  | some (.string text) => some (String.ofList (scalars text))
  | _ => none

def isString (text : JsString) : Option Json → Bool
  | some (.string s) => s == text
  | _ => false

def isNumber (n : ℚ) : Option Json → Bool
  | some (.number (.finite x)) => x == n
  | _ => false

def truthy : Option Json → Bool
  | none | some .null => false
  | some (.bool b) => b
  | some (.number x) => x != .finite 0
  | some (.string s) => s != []
  | some (.array _) | some (.object _) => true

mutual

/-- `String(value)`. Null and undefined are empty in a list. -/
def stringOf : Json → JsString
  | .null => js "null"
  | .bool b => js (if b then "true" else "false")
  | .number x => JsString.ofText x.text
  | .string s => s
  | .array items => joinItems items
  | .object _ => js "[object Object]"

def joinItems : List Json → JsString
  | [] => []
  | .null :: rest => joinMore rest
  | item :: rest => stringOf item ++ joinMore rest

def joinMore : List Json → JsString
  | [] => []
  | .null :: rest => js "," ++ joinMore rest
  | item :: rest => js "," ++ (stringOf item ++ joinMore rest)

end

/-- `${value}` -/
def templateOf : Option Json → JsString
  | none => js "undefined"
  | some value => stringOf value

@[simp] theorem lookup_nil (key : JsString) : lookup [] key = none := rfl

@[simp] theorem lookup_cons (k : JsString) (value : Json) (members : List (JsString × Json))
    (key : JsString) :
    lookup ((k, value) :: members) key = if k = key then some value else lookup members key := by
  unfold lookup
  by_cases h : k = key
  · simp [List.find?, h]
  · have hne : (k == key) = false := by simpa using h
    simp [List.find?, h, hne]

@[simp] theorem lookup_textMember (key value : String) (rest : List (JsString × Json)) (k : String) :
    lookup (textMember key value :: rest) (js k) =
      if key = k then some (.string (js value)) else lookup rest (js k) := by
  simp [textMember]

@[simp] theorem textOf_js (text : String) : textOf (some (.string (js text))) = some text := by
  simp [textOf]

theorem isString_js (text other : String) :
    isString (js text) (some (.string (js other))) = (other == text) := by
  rw [Bool.eq_iff_iff]
  simp [isString]

end EsigSuite
