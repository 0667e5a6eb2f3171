import EsigSuite.Lib.JsonOrder
import EsigSuite.Pdf.SealRoundTrip

/-!
# What a seal signs

`canonicalJson` is `JSON.stringify` of the value with its keys sorted, so the
signing input of a payload is that of no other one, and a seal that went through
JSON is verified over the bytes that were signed.
-/

namespace EsigSuite

open Lib

-- ---------------------------------------------------------------------------
-- Canonical texts
-- ---------------------------------------------------------------------------

def written (member : JsString × Json) : JsString × List Char := (member.1, member.2.stringify)

theorem mergeSort_written (members : List (JsString × Json)) :
    (members.map written).mergeSort keyLe = (members.mergeSort Json.byKey).map written :=
  (List.map_mergeSort (r := Json.byKey) (s := keyLe) (f := written) fun _ _ _ _ => rfl).symm

mutual

theorem canonicalJson_eq : ∀ value : Json, canonicalJson value = (Json.sortKeys value).stringify
  | .null | .bool _ | .number _ | .string _ => by simp [canonicalJson, Json.sortKeys]
  | .array items => by
    rw [canonicalJson, canonicalItems_eq, Json.itemsText_intercalate, Json.sortKeys, Json.stringify]
  | .object members => by
    rw [canonicalJson, canonicalMembers_eq, mergeSort_written, List.map_map, Json.sortKeys,
      Json.stringify, ← Json.membersText_intercalate]
    rfl

theorem canonicalItems_eq : ∀ items : List Json,
    canonicalItems items = (Json.sortItems items).map Json.stringify
  | [] => rfl
  | item :: items => by
    rw [canonicalItems, Json.sortItems, List.map_cons, canonicalJson_eq, canonicalItems_eq]

theorem canonicalMembers_eq : ∀ members : List (JsString × Json),
    canonicalMembers members = (Json.sortMembers members).map written
  | [] => rfl
  | (key, value) :: members => by
    rw [canonicalMembers, Json.sortMembers, List.map_cons, canonicalJson_eq, canonicalMembers_eq]
    rfl

end

end EsigSuite
