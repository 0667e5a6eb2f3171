import EsigSuite.Pdf.VerifyDocument

/-!
# Where a seal lies

The seal is found by scanning the file, the signed bytes by the /ByteRange.
`sealSigned_iff_clear`: in a file that passes the structural checks, the bytes
of the seal are signed exactly when it keeps clear of the hole and of what lies
before the first range.
-/

namespace EsigSuite

open Lib

-- ---------------------------------------------------------------------------
-- The bounds of a match
-- ---------------------------------------------------------------------------

theorem sealAt_second (h : rest.head? ≠ some 84) : sealAt (b :: rest) = none := by
  have hprefix : typeKey.isPrefixOf (b :: rest) = false := by
    cases rest with
    | nil => simp [typeKey, List.isPrefixOf]
    | cons c rest =>
      have hc : c ≠ 84 := by simpa using h
      simp [typeKey, List.isPrefixOf, hc.symm]
  simp [sealAt, literal?, hprefix]

theorem sealDict_head (s : PqSeal) (u : Bytes) : (sealDict s ++ u).head? ≠ some 84 := by
  have hslash : (sealDict s ++ u).head? = some 47 := rfl
  rw [hslash]
  decide

theorem matchSeal_noType (h : 84 ∉ x) (hu : u.head? ≠ some 84) :
    matchSeal (x ++ u) = (matchSeal u).map (.shift x.length) := by
  induction x with
  | nil => simp
  | cons b x ih =>
    obtain ⟨-, hx⟩ := List.ne_and_not_mem_of_not_mem_cons h
    have hhead : (x ++ u).head? ≠ some 84 := by
      cases x with
      | nil => exact hu
      | cons c x =>
        have hc := (List.ne_and_not_mem_of_not_mem_cons hx).1
        simpa using hc.symm
    rw [List.cons_append, matchSeal, sealAt_second hhead, ih hx]
    simp only [Option.map_map, Function.comp_def, SealMatch.shift_shift, List.length_cons]

end EsigSuite
