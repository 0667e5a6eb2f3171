import Mathlib.Data.List.Basic

/-!
# UTF-8

Writing is the encoding of Lean's strings. Reading is that of the Encoding
Standard: it never fails, and puts U+FFFD for every longest piece of a sequence
that cannot be completed.
-/

namespace Lib.Utf8

def encode (text : List Char) : List UInt8 := text.flatMap String.utf8EncodeChar

/-- The character whose encoding the bytes begin with. -/
def char? (bytes : List UInt8) : Option Char := (bytes.take 4).toByteArray.utf8DecodeChar? 0

/-- The second bytes that may follow a first byte of a longer sequence. -/
def secondRange (first : UInt8) : UInt8 × UInt8 :=
  if first = 0xE0 then (0xA0, 0xBF)
  else if first = 0xED then (0x80, 0x9F)
  else if first = 0xF0 then (0x90, 0xBF)
  else if first = 0xF4 then (0x80, 0x8F)
  else (0x80, 0xBF)

/-- How many more bytes a first byte asks for. -/
def following (first : UInt8) : Nat :=
  if 0xC2 ≤ first ∧ first ≤ 0xDF then 1
  else if 0xE0 ≤ first ∧ first ≤ 0xEF then 2
  else if 0xF0 ≤ first ∧ first ≤ 0xF4 then 3
  else 0

/-- The bytes that one replacement character stands for. -/
def brokenLength : List UInt8 → Nat
  | [] => 0
  | first :: rest =>
    let (low, high) := secondRange first
    match (rest.take (following first)) with
    | [] => 1
    | second :: more =>
      if low ≤ second ∧ second ≤ high then
        2 + (more.takeWhile fun byte => 0x80 ≤ byte && byte ≤ 0xBF).length
      else 1

def decodeAtMost : Nat → List UInt8 → List Char
  | 0, _ | _, [] => []
  | fuel + 1, bytes@(_ :: _) =>
    match char? bytes with
    | some c => c :: decodeAtMost fuel (bytes.drop c.utf8Size)
    | none => '\uFFFD' :: decodeAtMost fuel (bytes.drop (brokenLength bytes))

def decode (bytes : List UInt8) : List Char := decodeAtMost bytes.length bytes

-- ---------------------------------------------------------------------------
-- Round trip
-- ---------------------------------------------------------------------------

theorem char?_encode (c : Char) (rest : List UInt8) :
    char? (String.utf8EncodeChar c ++ rest) = some c := by
  have hlength := String.length_utf8EncodeChar c
  have hle := c.utf8Size_le_four
  unfold char?
  rw [List.take_append, List.take_of_length_le (by omega), List.toByteArray_append]
  exact ByteArray.utf8DecodeChar?_utf8EncodeChar_append

theorem decodeAtMost_encode (text : List Char) (fuel : Nat) (h : text.length ≤ fuel) :
    decodeAtMost fuel (encode text) = text := by
  induction text generalizing fuel with
  | nil => cases fuel <;> rfl
  | cons c text ih =>
    obtain ⟨fuel, rfl⟩ : ∃ n, fuel = n + 1 := ⟨fuel - 1, by simp at h; omega⟩
    have hlength := String.length_utf8EncodeChar c
    have hpos := c.utf8Size_pos
    obtain ⟨byte, bytes, hbytes⟩ : ∃ byte bytes, encode (c :: text) = byte :: bytes := by
      refine List.exists_cons_of_ne_nil fun hnil => ?_
      have hshort := congrArg List.length hnil
      simp [encode, hlength] at hshort
      omega
    have hchar : char? (encode (c :: text)) = some c := char?_encode c (encode text)
    have hdrop : (encode (c :: text)).drop c.utf8Size = encode text := by
      rw [← hlength]
      exact List.drop_left
    rw [hbytes] at hchar hdrop ⊢
    simp only [decodeAtMost, hchar, hdrop]
    rw [ih fuel (by simpa using h)]

theorem length_le_encode (text : List Char) : text.length ≤ (encode text).length := by
  induction text with
  | nil => exact Nat.le_refl _
  | cons c text ih =>
    have hpos := c.utf8Size_pos
    simp only [encode, List.flatMap_cons, List.length_append, String.length_utf8EncodeChar,
      List.length_cons] at ih ⊢
    omega

theorem decode_encode (text : List Char) : decode (encode text) = text :=
  decodeAtMost_encode text _ (length_le_encode text)

theorem encode_inj : encode text = encode text' ↔ text = text' := by
  refine ⟨fun h => ?_, congrArg _⟩
  rw [← decode_encode text, h, decode_encode]

theorem length_encode_le (text : List Char) : (encode text).length ≤ 4 * text.length := by
  induction text with
  | nil => exact Nat.le_refl _
  | cons c text ih =>
    have hsize := c.utf8Size_le_four
    simp only [encode, List.flatMap_cons, List.length_append, String.length_utf8EncodeChar,
      List.length_cons] at ih ⊢
    omega

end Lib.Utf8
