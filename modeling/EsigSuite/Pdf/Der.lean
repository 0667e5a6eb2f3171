import EsigSuite.Lib.Radix
import EsigSuite.Pdf.Asn1

/-!
# DER

The encoding of ASN.1 values in definite lengths, and a reader for it that
looks for an encoded value in every BIT STRING, as node-forge does.
`decode_encode`: an encoded value is read back, its integers shortened and its
BIT STRINGs opened.
-/

namespace EsigSuite.Asn1

def BOOLEAN : Nat := 1
def BITSTRING : Nat := 3
def UTF8 : Nat := 12
def UTCTIME : Nat := 23

end EsigSuite.Asn1

namespace EsigSuite.Der

open Lib

-- ---------------------------------------------------------------------------
-- Writing
-- ---------------------------------------------------------------------------

def bigEndian (n : Nat) : Bytes := (Radix.digits 256 n).map UInt8.ofNat

/-- The short form up to 127, then the number of octets and the octets. -/
def lengthOctets (n : Nat) : Bytes :=
  if n < 128 then [UInt8.ofNat n]
  else UInt8.ofNat (128 + (bigEndian n).length) :: bigEndian n

def tlv (identifier : UInt8) (contents : Bytes) : Bytes :=
  identifier :: (lengthOctets contents.length ++ contents)

def identifier (tagClass type : Nat) (constructed : Bool) : UInt8 :=
  UInt8.ofNat (tagClass + (if constructed then 32 else 0) + type)

/-- An INTEGER drops a leading octet that its sign does not need. -/
def octets (type : Nat) (value : Bytes) : Bytes :=
  match value with
  | lead :: next :: rest =>
    if type = Asn1.INTEGER ∧ ((lead = 0 ∧ next < 128) ∨ (lead = 255 ∧ 128 ≤ next)) then next :: rest
    else value
  | _ => value

mutual
def encode : Asn1 → Bytes
  | .primitive c t v => tlv (identifier c t false) (octets t v)
  | .constructed c t cs => tlv (identifier c t true) (encodeAll cs)
def encodeAll : List Asn1 → Bytes
  | [] => []
  | node :: cs => encode node ++ encodeAll cs
end

theorem encode_tlv : (node : Asn1) → ∃ id contents, encode node = tlv id contents
  | .primitive c t v => ⟨identifier c t false, octets t v, by rw [encode]⟩
  | .constructed c t cs => ⟨identifier c t true, encodeAll cs, by rw [encode]⟩

/-- A class, and a tag that fits the identifier octet. -/
def Tagged (tagClass type : Nat) : Prop :=
  (tagClass = 0 ∨ tagClass = 64 ∨ tagClass = 128 ∨ tagClass = 192) ∧ type < 31

mutual
def WellFormed : Asn1 → Prop
  | .primitive c t _ => Tagged c t
  | .constructed c t cs => Tagged c t ∧ AllWellFormed cs
def AllWellFormed : List Asn1 → Prop
  | [] => True
  | node :: cs => WellFormed node ∧ AllWellFormed cs
end

instance (tagClass type : Nat) : Decidable (Tagged tagClass type) :=
  inferInstanceAs (Decidable (_ ∧ _))

mutual
def decideWellFormed : (node : Asn1) → Decidable (WellFormed node)
  | .primitive c t _ => inferInstanceAs (Decidable (Tagged c t))
  | .constructed c t cs =>
    have := decideAllWellFormed cs
    inferInstanceAs (Decidable (Tagged c t ∧ AllWellFormed cs))
def decideAllWellFormed : (cs : List Asn1) → Decidable (AllWellFormed cs)
  | [] => .isTrue trivial
  | node :: cs =>
    have := decideWellFormed node
    have := decideAllWellFormed cs
    inferInstanceAs (Decidable (WellFormed node ∧ AllWellFormed cs))
end

instance (node : Asn1) : Decidable (WellFormed node) := decideWellFormed node

-- ---------------------------------------------------------------------------
-- Reading
-- ---------------------------------------------------------------------------

/-- What is read for the contents of a primitive value. `composed` is the value
encoded behind the first octet, if there is one. -/
def primitiveValue (c t : Nat) (contents : Bytes) (composed : Option Asn1) : Asn1 :=
  match composed with
  | some node =>
    if c = Asn1.UNIVERSAL ∧ t = Asn1.BITSTRING ∧ contents.head? = some 0 then .constructed c t [node]
    else .primitive c t contents
  | none => .primitive c t contents

section
variable (composed : Bytes → Option Asn1)

mutual
/-- An encoded value as it is read back. -/
def decoded : Asn1 → Asn1
  | .primitive c t v => primitiveValue c t (octets t v) (composed ((octets t v).drop 1))
  | .constructed c t cs => .constructed c t (decodedAll cs)
def decodedAll : List Asn1 → List Asn1
  | [] => []
  | node :: cs => decoded node :: decodedAll cs
end

end

def cut (first : UInt8) (length : Nat) (rest : Bytes) : Option (UInt8 × Bytes × Bytes) :=
  if rest.length < length then none else some (first, rest.take length, rest.drop length)

/-- The identifier and the contents of the first value, and what follows it. -/
def split : Bytes → Option (UInt8 × Bytes × Bytes)
  | first :: l0 :: rest =>
    if l0 < 128 then cut first l0.toNat rest
    else
      let n := l0.toNat - 128
      if n = 0 ∨ rest.length < n then none
      else cut first (Radix.value 256 ((rest.take n).map UInt8.toNat)) (rest.drop n)
  | _ => none

theorem cut_length {first id : UInt8} {n : Nat} {rest contents more : Bytes}
    (h : cut first n rest = some (id, contents, more)) :
    contents.length ≤ rest.length ∧ more.length ≤ rest.length := by
  unfold cut at h
  split at h
  · cases h
  · cases h
    simp

theorem split_length {bytes contents more : Bytes} {id : UInt8}
    (h : split bytes = some (id, contents, more)) :
    contents.length < bytes.length ∧ more.length < bytes.length := by
  unfold split at h
  split at h
  next first l0 rest =>
    simp only [List.length_cons]
    split at h
    · have := cut_length h
      omega
    · dsimp only at h
      split at h
      · cases h
      · have := cut_length h
        simp only [List.length_drop] at this
        omega
  · cases h

def single : Option (List Asn1) → Option Asn1
  | some [node] => if node.tagClass = 0 ∨ node.tagClass = 128 then some node else none
  | _ => none

def decodeAll (bytes : Bytes) : Option (List Asn1) :=
  if bytes = [] then some []
  else
    match h : split bytes with
    | none => none
    | some (id, contents, rest) =>
      let c := id.toNat / 64 * 64
      let t := id.toNat % 32
      let node :=
        if id.toNat / 32 % 2 = 1 then (decodeAll contents).map (Asn1.constructed c t)
        else some (primitiveValue c t contents (single (decodeAll (contents.drop 1))))
      node.bind fun node => (decodeAll rest).map (node :: ·)
termination_by bytes.length
decreasing_by
  all_goals
    have := split_length h
    have := (List.drop_sublist 1 contents).length_le
    omega

/-- The value of universal or context-specific class that the bytes encode. -/
def composed (bytes : Bytes) : Option Asn1 := single (decodeAll bytes)

def decode (bytes : Bytes) : Except String Asn1 :=
  match decodeAll bytes with
  | some [node] => .ok node
  | _ => .error "Unparsed DER bytes"

-- ---------------------------------------------------------------------------
-- Lengths
-- ---------------------------------------------------------------------------

theorem value_bigEndian (n : Nat) : Radix.value 256 ((bigEndian n).map UInt8.toNat) = n := by
  have hdigits : (bigEndian n).map UInt8.toNat = Radix.digits 256 n := by
    rw [bigEndian, List.map_map]
    refine (List.map_congr_left fun d hd => ?_).trans (List.map_id _)
    exact Nat.mod_eq_of_lt (Radix.digits_lt (by omega) hd)
  rw [hdigits, Radix.value_digits]

theorem length_bigEndian_le {n k : Nat} (h : n < 256 ^ k) : (bigEndian n).length ≤ k := by
  rw [bigEndian, List.length_map, Radix.digits, List.length_reverse,
    Nat.digits_length_le_iff (by omega)]
  exact h

theorem length_bigEndian {n : Nat} (h : n < 2 ^ 31) : (bigEndian n).length ≤ 4 :=
  length_bigEndian_le (by omega)

theorem bigEndian_ne_nil {n : Nat} (h : 0 < n) : bigEndian n ≠ [] := by
  intro hnil
  have := value_bigEndian n
  rw [hnil] at this
  exact absurd this (by simpa [Radix.value] using h.ne)

/-- The octet in front of a length in the long form. -/
theorem long_form {n : Nat} (hlarge : 128 ≤ n) (h : n < 2 ^ 31) :
    (UInt8.ofNat (128 + (bigEndian n).length)).toNat = 128 + (bigEndian n).length ∧
      0 < (bigEndian n).length ∧ (bigEndian n).length ≤ 4 := by
  have hle := length_bigEndian h
  have hpos := List.length_pos_iff.mpr (bigEndian_ne_nil (n := n) (by omega))
  exact ⟨Nat.mod_eq_of_lt (by omega), hpos, hle⟩

theorem cut_append (first : UInt8) (contents rest : Bytes) :
    cut first contents.length (contents ++ rest) = some (first, contents, rest) := by
  rw [cut, if_neg (by simp), List.take_left, List.drop_left]

theorem split_tlv (id : UInt8) {contents : Bytes} (h : contents.length < 2 ^ 31) (rest : Bytes) :
    split (tlv id contents ++ rest) = some (id, contents, rest) := by
  by_cases hshort : contents.length < 128
  · have htoNat : (UInt8.ofNat contents.length).toNat = contents.length :=
      Nat.mod_eq_of_lt (by omega)
    rw [tlv, lengthOctets, if_pos hshort]
    simp only [split, List.cons_append, List.nil_append]
    rw [if_pos (UInt8.lt_iff_toNat_lt.mpr (by rw [htoNat]; exact hshort)), htoNat, cut_append]
  · obtain ⟨htoNat, hpos, hle⟩ := long_form (by omega) h
    rw [tlv, lengthOctets, if_neg hshort]
    simp only [split, List.cons_append, List.append_assoc]
    have hlong : ¬ UInt8.ofNat (128 + (bigEndian contents.length).length) < 128 := by
      rw [UInt8.lt_iff_toNat_lt, htoNat]
      simp
    rw [if_neg hlong, htoNat, Nat.add_sub_cancel_left, if_neg (by rw [List.length_append]; omega), List.take_left, List.drop_left, value_bigEndian, cut_append]

-- ---------------------------------------------------------------------------
-- What reading back keeps
-- ---------------------------------------------------------------------------

section
variable {composed : Bytes → Option Asn1}

theorem decodedAll_eq (cs : List Asn1) : decodedAll composed cs = cs.map (decoded composed) := by
  induction cs with
  | nil => rw [decodedAll, List.map_nil]
  | cons node cs ih => rw [decodedAll, ih, List.map_cons]

theorem primitiveValue_tag (c t : Nat) (contents : Bytes) (inner : Option Asn1) :
    (primitiveValue c t contents inner).tagClass = c ∧
      (primitiveValue c t contents inner).type = t := by
  unfold primitiveValue
  split
  · split <;> exact ⟨rfl, rfl⟩
  · exact ⟨rfl, rfl⟩

@[simp] theorem tagClass_decoded (node : Asn1) : (decoded composed node).tagClass = node.tagClass := by
  cases node with
  | primitive c t v => rw [decoded, (primitiveValue_tag ..).1]; rfl
  | constructed c t cs => rw [decoded]; rfl

@[simp] theorem type_decoded (node : Asn1) : (decoded composed node).type = node.type := by
  cases node with
  | primitive c t v => rw [decoded, (primitiveValue_tag ..).2]; rfl
  | constructed c t cs => rw [decoded]; rfl

/-- Only a BIT STRING is opened. -/
theorem decoded_primitive {c t : Nat} (value : Bytes)
    (hbits : c ≠ Asn1.UNIVERSAL ∨ t ≠ Asn1.BITSTRING) :
    decoded composed (.primitive c t value) = .primitive c t (octets t value) := by
  rw [decoded]
  unfold primitiveValue
  split
  · exact if_neg fun h => hbits.elim (fun hc => hc h.1) fun ht => ht h.2.1
  · rfl

theorem octets_eq {t : Nat} (h : t ≠ Asn1.INTEGER) (value : Bytes) : octets t value = value := by
  unfold octets
  split
  · exact if_neg fun hlead => h hlead.1
  · rfl

theorem children?_decoded {node : Asn1}
    (hbits : node.tagClass ≠ Asn1.UNIVERSAL ∨ node.type ≠ Asn1.BITSTRING) :
    (decoded composed node).children? = node.children?.map (List.map (decoded composed)) := by
  cases node with
  | primitive c t v =>
    have hread : decoded composed (.primitive c t v) = .primitive c t (octets t v) :=
      decoded_primitive v hbits
    rw [hread]
    rfl
  | constructed c t cs => rw [decoded, decodedAll_eq]; rfl

theorem decoded_constructed (c t : Nat) (cs : List Asn1) :
    decoded composed (.constructed c t cs) = .constructed c t (cs.map (decoded composed)) := by
  rw [decoded, decodedAll_eq]

/-- An array is read back as an array. -/
theorem children?_decoded_some {node : Asn1} {cs : List Asn1} (h : node.children? = some cs) :
    (decoded composed node).children? = some (cs.map (decoded composed)) := by
  cases node with
  | primitive c t v => cases h
  | constructed c t children =>
    cases h
    rw [decoded_constructed]
    rfl

theorem string?_decoded {node : Asn1} (hbits : node.type ≠ Asn1.BITSTRING)
    (hinteger : node.type ≠ Asn1.INTEGER) : (decoded composed node).string? = node.string? := by
  cases node with
  | primitive c t v =>
    have hread : decoded composed (.primitive c t v) = .primitive c t (octets t v) :=
      decoded_primitive v (.inr hbits)
    have hvalue : octets t v = v := octets_eq hinteger v
    rw [hread, hvalue]
  | constructed c t cs => rw [decoded]; rfl

end

-- ---------------------------------------------------------------------------
-- Values are read back
-- ---------------------------------------------------------------------------

theorem identifier_parts {c t : Nat} (h : Tagged c t) (constructed : Bool) :
    (identifier c t constructed).toNat / 64 * 64 = c ∧ (identifier c t constructed).toNat % 32 = t ∧
      (identifier c t constructed).toNat / 32 % 2 = if constructed then 1 else 0 := by
  obtain ⟨hclass, htype⟩ := h
  have htoNat : (identifier c t constructed).toNat = c + (if constructed then 32 else 0) + t := by
    refine Nat.mod_eq_of_lt ?_
    split <;> omega
  rw [htoNat]
  cases constructed <;> simp <;> omega

theorem decodeAll_nil : decodeAll [] = some [] := by rw [decodeAll, if_pos rfl]

theorem length_tlv (id : UInt8) (contents : Bytes) : contents.length < (tlv id contents).length := by
  simp only [tlv, List.length_cons, List.length_append]
  omega

theorem decodeAll_tlv (id : UInt8) {contents : Bytes} (h : contents.length < 2 ^ 31)
    (rest : Bytes) :
    decodeAll (tlv id contents ++ rest) =
      (if id.toNat / 32 % 2 = 1 then
        (decodeAll contents).map (Asn1.constructed (id.toNat / 64 * 64) (id.toNat % 32))
      else some (primitiveValue (id.toNat / 64 * 64) (id.toNat % 32) contents
        (composed (contents.drop 1)))).bind fun node => (decodeAll rest).map (node :: ·) := by
  rw [decodeAll, if_neg (by simp [tlv])]
  split
  next hnone => rw [split_tlv id h] at hnone; cases hnone
  next hsome =>
    rw [split_tlv id h] at hsome
    cases hsome
    rfl

mutual
theorem decodeAll_encode : (node : Asn1) → WellFormed node → (encode node).length < 2 ^ 31 →
    (rest : Bytes) →
      decodeAll (encode node ++ rest) = (decodeAll rest).map (decoded composed node :: ·)
  | .primitive c t v, hwf, hlt, rest => by
    obtain ⟨hclass, htype, hbit⟩ := identifier_parts hwf false
    have hlength := length_tlv (identifier c t false) (octets t v)
    rw [encode] at hlt ⊢
    rw [decodeAll_tlv _ (by omega), hclass, htype, hbit, decoded]
    rfl
  | .constructed c t cs, hwf, hlt, rest => by
    obtain ⟨hclass, htype, hbit⟩ := identifier_parts hwf.1 true
    have hlength := length_tlv (identifier c t true) (encodeAll cs)
    rw [encode] at hlt ⊢
    rw [decodeAll_tlv _ (by omega), hclass, htype, hbit,
      decodeAll_encodeAll cs hwf.2 (by omega), decoded]
    rfl
theorem decodeAll_encodeAll : (cs : List Asn1) → AllWellFormed cs →
    (encodeAll cs).length < 2 ^ 31 →
      decodeAll (encodeAll cs) = some (decodedAll composed cs)
  | [], _, _ => by rw [encodeAll, decodeAll_nil, decodedAll]
  | node :: cs, hwf, hlt => by
    rw [encodeAll, List.length_append] at hlt
    rw [encodeAll, decodeAll_encode node hwf.1 (by omega), decodeAll_encodeAll cs hwf.2 (by omega),
      decodedAll]
    rfl
end

theorem decode_encode {node : Asn1} (hwf : WellFormed node) (hlt : (encode node).length < 2 ^ 31) :
    decode (encode node) = .ok (decoded composed node) := by
  have h := decodeAll_encode node hwf hlt []
  rw [List.append_nil, decodeAll_nil] at h
  rw [decode, h]
  rfl

end EsigSuite.Der
