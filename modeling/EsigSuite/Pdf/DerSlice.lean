import EsigSuite.Pdf.Coverage
import EsigSuite.Pdf.Der
import EsigSuite.Pdf.Hole

/-!
# The padding of the hole

`derTotalLength` reads the length of a SEQUENCE in every form that DER has for
one below `2 ^ 32`. So the slice of `verifyPdfStructure` ends with the DER, be
its own last octets zero or not.
-/

namespace EsigSuite

open Lib

/-- The octet in front of up to four length octets. -/
theorem long_first {k : Nat} (h : k ≤ 4) : ¬ UInt8.ofNat (128 + k) < 0x80 ∧
    (UInt8.ofNat (128 + k) &&& 0x7f).toNat = k := by
  have hall : ∀ k ≤ 4, ¬ UInt8.ofNat (128 + k) < 0x80 ∧
      (UInt8.ofNat (128 + k) &&& 0x7f).toNat = k := by decide
  exact hall k h

theorem derTotalLength_tlv {contents : Bytes} (h : (Der.tlv 0x30 contents).length < 2 ^ 32) :
    derTotalLength (Der.tlv 0x30 contents) = some (Der.tlv 0x30 contents).length := by
  have hcontents : contents.length < 2 ^ 32 := (Der.length_tlv 0x30 contents).trans h
  by_cases hshort : contents.length < 128
  · have hoctets : Der.lengthOctets contents.length = [UInt8.ofNat contents.length] := if_pos hshort
    have hfirst : (UInt8.ofNat contents.length).toNat = contents.length :=
      Nat.mod_eq_of_lt (by omega)
    have hlt : UInt8.ofNat contents.length < 0x80 := by
      rw [UInt8.lt_iff_toNat_lt, hfirst]
      exact hshort
    rw [Der.tlv, hoctets]
    simp only [List.cons_append, List.nil_append, derTotalLength, ne_eq, not_true_eq_false, if_false,
      if_pos hlt, hfirst, List.length_cons, Nat.add_comm, Nat.add_left_comm]
  · have hcount : (Der.bigEndian contents.length).length ≤ 4 :=
      Der.length_bigEndian_le (by omega)
    have hpos : 0 < (Der.bigEndian contents.length).length :=
      List.length_pos_iff.mpr (Der.bigEndian_ne_nil (by omega))
    have hoctets : Der.lengthOctets contents.length =
        UInt8.ofNat (128 + (Der.bigEndian contents.length).length) ::
          Der.bigEndian contents.length := if_neg hshort
    obtain ⟨hlong, hlow⟩ := long_first hcount
    have hvalue : (Der.bigEndian contents.length).foldl (fun v b => v * 256 + b.toNat) 0 =
        contents.length := by
      rw [← List.foldl_map (f := UInt8.toNat) (g := fun v d => v * 256 + d)]
      exact Der.value_bigEndian _
    have hroom : ¬ ((Der.bigEndian contents.length).length = 0 ∨
        (Der.bigEndian contents.length).length > 4 ∨
          (Der.bigEndian contents.length ++ contents).length <
            (Der.bigEndian contents.length).length) := by
      rw [List.length_append]
      omega
    rw [Der.tlv, hoctets]
    rw [List.cons_append, derTotalLength, if_neg (not_not.mpr rfl), if_neg hlong]
    simp only [hlow]
    rw [if_neg hroom, List.take_left, hvalue]
    simp only [List.length_cons, List.length_append]
    congr 1
    omega

/-- The slice is the SEQUENCE that was embedded, whatever the amount of zero
digits after it. -/
theorem locatePkcs7_sequence {signed : Buffer} {r : ByteRange} {contents : Bytes} {padding : Nat}
    (hrange : matchByteRange signed.bytes = some r) (hfills : r.fills signed.length)
    (hlength : (Der.tlv 0x30 contents).length < 2 ^ 32)
    (hhole : r.digits signed.bytes =
      bytesToHex (Der.tlv 0x30 contents) ++ List.replicate padding 0) :
    locatePkcs7 signed = .ok ⟨r, r.hole - .ofNat 2, Der.tlv 0x30 contents⟩ := by
  have hslice : r.pkcs7Der? signed.bytes = some (Der.tlv 0x30 contents) :=
    pkcs7Der?_eq_some.mpr ⟨derTotalLength_tlv hlength, hhole ▸ List.prefix_append _ _⟩
  exact locatePkcs7_eq_ok.mpr ⟨r, _, hrange, hfills, hslice, rfl⟩

/-- `/ByteRange [0 22 36 1]<300205000000>%` -/
def paddedPdf : Buffer :=
  ⟨[47, 66, 121, 116, 101, 82, 97, 110, 103, 101, 32, 91, 48, 32, 50, 50, 32, 51, 54, 32, 49, 93,
    60, 51, 48, 48, 50, 48, 53, 48, 48, 48, 48, 48, 48, 62, 37], by decide⟩

/-- The DER ends in a zero of its own. -/
theorem locatePkcs7_padded : locatePkcs7 paddedPdf =
    .ok ⟨⟨.int 0, .int 22, .int 36, .int 1⟩, .int 12, [0x30, 2, 5, 0]⟩ :=
  @locatePkcs7_sequence paddedPdf ⟨.int 0, .int 22, .int 36, .int 1⟩ [5, 0] 4
    (by decide) (by decide) (by decide) (by decide)

end EsigSuite
