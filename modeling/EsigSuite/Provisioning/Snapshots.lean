import EsigSuite.Lib.JsRegex
import EsigSuite.Lib.JsonOrder
import EsigSuite.Lib.JsonRead
import EsigSuite.Provisioning.Driver

/-!
# The text of a snapshot

`snapshotResource` and `decodeSnapshot` of `providers/driver.ts`: a snapshot is
JSON in base64url, of at most 512 characters.
-/

namespace EsigSuite.Provisioning

open Lib

def MAX_OPAQUE_ID_LENGTH : Nat := 512

def ProviderStatus.text : ProviderStatus → String
  | .provisioning => "provisioning"
  | .ready => "ready"
  | .suspended => "suspended"
  | .disabled => "disabled"

namespace ProviderSnapshot

variable (snapshot : ProviderSnapshot)

def members : List (JsString × Json) :=
  let common : List (JsString × Json) :=
    [(js "v", .number (.finite 1)), (js "g", .number (.finite snapshot.generation))]
  match snapshot.identity with
  | .shared credentialId =>
    common ++ [textMember "m" "s", textMember "c" credentialId, textMember "s" snapshot.status.text]
  | .dedicated projectRef stackId =>
    common ++ [textMember "m" "d", textMember "p" projectRef, textMember "k" stackId,
      textMember "s" snapshot.status.text]

/-- `Buffer.from(JSON.stringify(snapshot), "utf8").toString("base64url")` -/
def opaqueId : String :=
  String.ofList ((Base64.encodeUrl (Utf8.encode (Json.object snapshot.members).stringify)).map
    fun code => Char.ofNat code.toNat)

end ProviderSnapshot

/-- `opaqueId` of `snapshotResource`, if it may be that long. -/
def encodeOpaqueId (snapshot : ProviderSnapshot) : Option String :=
  if snapshot.opaqueId = "" ∨ MAX_OPAQUE_ID_LENGTH < snapshot.opaqueId.length then none
  else some snapshot.opaqueId

/-- `[A-Za-z0-9_-]` -/
def isBase64UrlChar (c : Char) : Bool := c.isAlphanum || c == '_' || c == '-'

def generationOf : Option Json → Option Nat
  | some (.number (.finite x)) =>
    if x.den = 1 ∧ x.num.natAbs < 2 ^ 53 ∧ 0 ≤ x.num then some x.num.toNat else none
  | _ => none

def statusNamed (text : String) : Option ProviderStatus :=
  [.provisioning, .ready, .suspended, .disabled].find? (·.text == text)

/-- A string that is not empty. -/
def nonEmptyText (value : Option Json) : Option String := (textOf value).filter (· ≠ "")

/-- The snapshot that a parsed text is. -/
def snapshotOf (value : Json) : Option ProviderSnapshot :=
  if !isNumber 1 (member value "v") then none
  else do
    let generation ← generationOf (member value "g")
    let status ← (textOf (member value "s")).bind statusNamed
    let identity ←
      if isString (js "s") (member value "m") then
        (nonEmptyText (member value "c")).map .shared
      else if isString (js "d") (member value "m") then do
        let projectRef ← nonEmptyText (member value "p")
        let stackId ← nonEmptyText (member value "k")
        some (.dedicated projectRef stackId)
      else none
    some ⟨generation, identity, status⟩

def decodeOpaqueId (opaqueId : String) : Option ProviderSnapshot :=
  if opaqueId = "" ∨ MAX_OPAQUE_ID_LENGTH < opaqueId.length ∨
      !opaqueId.toList.all isBase64UrlChar then none
  else (Json.parse (Utf8.decode (Base64.decode (opaqueId.toList.map Char.toNat)))).bind snapshotOf

-- ---------------------------------------------------------------------------
-- A snapshot comes back from its text
-- ---------------------------------------------------------------------------

theorem members_plain {snapshot : ProviderSnapshot}
    (h : validGeneration snapshot.generation = true) : (Json.object snapshot.members).Plain := by
  have hgeneration : Double.Exact snapshot.generation :=
    Double.exact_nat (by simpa [validGeneration] using h)
  have hversion : Double.Exact 1 := by simpa using Double.exact_nat (n := 1) (by decide)
  unfold ProviderSnapshot.members
  cases snapshot.identity <;>
    simp [Json.Plain, Json.PlainMembers, textMember, hgeneration, hversion]

theorem nonEmptyText_js {text : String} (h : text ≠ "") :
    nonEmptyText (some (.string (js text))) = some text := by
  simp [nonEmptyText, h]

theorem generationOf_nat {generation : Nat} (h : validGeneration generation = true) :
    generationOf (some (.number (.finite generation))) = some generation := by
  have hlt : generation < 2 ^ 53 := by simpa [validGeneration] using h
  have hnum : (generation : ℚ).num = generation := Rat.num_natCast generation
  simp only [generationOf]
  rw [if_pos ⟨Rat.den_natCast generation, by rw [hnum]; simpa using hlt, by rw [hnum]; omega⟩, hnum]
  rfl

theorem snapshotOf_members {snapshot : ProviderSnapshot}
    (h : validGeneration snapshot.generation = true) (hid : snapshot.identity.nonEmpty = true) :
    snapshotOf (.object snapshot.members) = some snapshot := by
  obtain ⟨generation, identity, status⟩ := snapshot
  have hstatus : statusNamed status.text = some status := by cases status <;> rfl
  cases identity with
  | shared credentialId =>
    have hid : credentialId ≠ "" := by simpa [SnapshotIdentity.nonEmpty] using hid
    simp [snapshotOf, ProviderSnapshot.members, member, isNumber, isString_js, generationOf_nat h,
      hstatus, nonEmptyText_js hid]
  | dedicated projectRef stackId =>
    have hid : projectRef ≠ "" ∧ stackId ≠ "" := by simpa [SnapshotIdentity.nonEmpty] using hid
    simp [snapshotOf, ProviderSnapshot.members, member, isNumber, isString_js, generationOf_nat h,
      hstatus, nonEmptyText_js hid.1, nonEmptyText_js hid.2]

theorem urlDigit_char (d : Fin 64) : (Char.ofNat (Base64.urlDigit d).toNat).toNat =
    (Base64.urlDigit d).toNat ∧ isBase64UrlChar (Char.ofNat (Base64.urlDigit d).toNat) = true := by
  revert d
  decide

theorem decodeOpaqueId_encodeOpaqueId {snapshot : ProviderSnapshot} {text : String}
    (h : validGeneration snapshot.generation = true) (hid : snapshot.identity.nonEmpty = true)
    (htext : encodeOpaqueId snapshot = some text) : decodeOpaqueId text = some snapshot := by
  unfold encodeOpaqueId at htext
  split at htext
  · cases htext
  rename_i hlength
  obtain rfl := Option.some.inj htext
  obtain ⟨hempty, hlength⟩ := not_or.mp hlength
  have hchars : snapshot.opaqueId.toList.all isBase64UrlChar = true := by
    simp only [ProviderSnapshot.opaqueId, String.toList_ofList, Base64.encodeUrl, List.map_map,
      List.all_map, List.all_eq_true]
    exact fun d _ => (urlDigit_char d).2
  have hcodes (data : List UInt8) :
      ((Base64.encodeUrl data).map fun code => Char.ofNat code.toNat).map Char.toNat =
        (Base64.encodeUrl data).map (·.toNat) := by
    simp only [Base64.encodeUrl, List.map_map]
    exact List.map_congr_left fun d _ => (urlDigit_char d).1
  unfold decodeOpaqueId
  rw [if_neg (by simp [hempty, hlength, hchars])]
  rw [ProviderSnapshot.opaqueId, String.toList_ofList, hcodes, Base64.decode_encodeUrl,
    Utf8.decode_encode, Json.parse_stringify (members_plain h)]
  exact snapshotOf_members h hid

/-- The codec of the driver. -/
def snapshotCodec : SnapshotCodec where
  encode := encodeOpaqueId
  decode := decodeOpaqueId
  decode_encode := decodeOpaqueId_encodeOpaqueId

end EsigSuite.Provisioning
