import EsigSuite.Pdf.SealCoverage

/-!
# What the verifier reads of the hole

Of the bytes between the two signed ranges `verifyPdfStructure` reads the
hexadecimal digits of one DER structure, from the digits strictly inside; the
verdict is the same whatever else is there.
-/

namespace EsigSuite

open Lib

/-- The bytes between the signed ranges. -/
def ByteRange.excluded (r : ByteRange) (bytes : Bytes) : Bytes := slice bytes (r.a + r.b) r.c

/-- The digits strictly inside the hole. -/
def ByteRange.digits (r : ByteRange) (bytes : Bytes) : List (Fin 16) :=
  hexDigits (slice bytes (r.a + r.b + .ofNat 1) (r.c - .ofNat 1))

/-- `<`, hexadecimal digits, `>`. -/
def IsHexString (text : Bytes) : Prop :=
  ∃ inner, text = 60 :: (inner ++ [62]) ∧ ∀ c ∈ inner, (hexDigit? c).isSome = true

-- ---------------------------------------------------------------------------
-- Bytes and digits
-- ---------------------------------------------------------------------------

theorem hexByte_digits (high low : Fin 16) :
    [Fin.ofNat 16 ((hexByte high low).toNat / 16), Fin.ofNat 16 (hexByte high low).toNat] =
      [high, low] := by
  revert high low
  decide

theorem bytesToHex_fromHex (h : digits.length % 2 = 0) : bytesToHex (fromHex digits) = digits := by
  induction digits using fromHex.induct with
  | case1 high low rest ih =>
    have hrest : rest.length % 2 = 0 := by
      simp only [List.length_cons] at h
      omega
    rw [fromHex, bytesToHex, List.flatMap_cons, hexByte_digits]
    exact congrArg (high :: low :: ·) (ih hrest)
  | case2 digits hdigits =>
    rcases digits with _ | ⟨high, _ | ⟨low, rest⟩⟩
    · rfl
    · simp at h
    · exact absurd rfl (hdigits high low rest)

theorem fromHex_take (digits : List (Fin 16)) (n : Nat) :
    (fromHex digits).take n = fromHex (digits.take (2 * n)) := by
  induction digits using fromHex.induct generalizing n with
  | case1 high low rest ih =>
    cases n with
    | zero => rfl
    | succ n =>
      rw [fromHex, List.take_succ_cons, ih, Nat.mul_succ, List.take_succ_cons, List.take_succ_cons,
        fromHex]
  | case2 digits hdigits =>
    rcases digits with _ | ⟨high, _ | ⟨low, rest⟩⟩
    · simp [fromHex]
    · cases n with
      | zero => rfl
      | succ n => rw [Nat.mul_succ, List.take_succ_cons]; rfl
    · exact absurd rfl (hdigits high low rest)

/-- The header says the same when more follows. -/
theorem derTotalLength_append (h : derTotalLength der = some n) (rest : Bytes) :
    derTotalLength (der ++ rest) = some n := by
  match der, h with
  | tag :: l0 :: body, h =>
    simp only [derTotalLength, List.cons_append] at h ⊢
    split_ifs at h ⊢ with h1 h2 h3 h4
    · exact h
    · rw [List.length_append] at h3
      omega
    · rw [List.take_append_of_le_length (by omega)]
      exact h

/-- The header is part of what it measures. -/
theorem derTotalLength_take (h : derTotalLength buf = some n) (hn : n ≤ buf.length) :
    derTotalLength (buf.take n) = some n := by
  match buf, h with
  | tag :: l0 :: body, h =>
    simp only [derTotalLength] at h
    split_ifs at h with h1 h2 h3
    · obtain rfl := Option.some.inj h
      rw [Nat.add_comm, List.take_succ_cons, List.take_succ_cons]
      simp only [derTotalLength, if_neg h1, if_pos h2, Nat.add_comm]
    · have hn' := Option.some.inj h
      generalize hk : (l0 &&& 0x7f).toNat = k at h3 hn' h
      obtain ⟨m, rfl⟩ : ∃ m, n = k + m + 2 := ⟨n - k - 2, by omega⟩
      have hlength : k ≤ (body.take (k + m)).length := by
        rw [List.length_take]
        omega
      have htake : (body.take (k + m)).take k = body.take k := by
        rw [List.take_take, Nat.min_eq_left (by omega)]
      rw [List.take_succ_cons, List.take_succ_cons]
      simp only [derTotalLength, if_neg h1, if_neg h2, hk, htake]
      rw [if_neg (by omega)]
      exact h

/-- The DER of a hole, by its digits. -/
theorem pkcs7Der?_eq_some {r : ByteRange} : r.pkcs7Der? bytes = some der ↔
    derTotalLength der = some der.length ∧ bytesToHex der <+: r.digits bytes := by
  have heven : (bytesToHex der).length % 2 = 0 := by
    rw [length_bytesToHex]
    omega
  change ((derTotalLength (fromHex (r.digits bytes))).filter
    (· ≤ (fromHex (r.digits bytes)).length)).map (fromHex (r.digits bytes)).take = some der ↔ _
  generalize r.digits bytes = digits
  constructor
  · intro h
    obtain ⟨n, hn, rfl⟩ := Option.map_eq_some_iff.mp h
    obtain ⟨hn, hle⟩ := Option.filter_eq_some_iff.mp hn
    have hle : n ≤ (fromHex digits).length := by simpa using hle
    have hlength : ((fromHex digits).take n).length = n := by
      rw [List.length_take]
      omega
    refine ⟨by rw [hlength, derTotalLength_take hn hle], ?_⟩
    rw [length_fromHex] at hle
    rw [fromHex_take, bytesToHex_fromHex (by rw [List.length_take]; omega)]
    exact List.take_prefix _ _
  · rintro ⟨hn, rest, rfl⟩
    have hfrom : fromHex (bytesToHex der ++ rest) = der ++ fromHex rest := by
      rw [fromHex_append heven, fromHex_bytesToHex]
    rw [hfrom, derTotalLength_append hn, Option.filter_some, if_pos (by simp), Option.map_some,
      List.take_left]

-- ---------------------------------------------------------------------------
-- What does not matter
-- ---------------------------------------------------------------------------

/-- The verdict reads the signed ranges, the file size and the DER. -/
theorem verifyPkcs7_congr (h : l.byteRange.covered pdf'.bytes = l.byteRange.covered pdf.bytes) :
    verifyPkcs7 forge pdf' l = verifyPkcs7 forge pdf l := by
  unfold verifyPkcs7
  rw [h]

/-- An accepted file has a DER structure in the digits of its hole, and nothing else
of the hole matters. -/
theorem hole_ignored (h : (verifyPdfStructure forge pdf).ok = true) :
    ∃ r der, matchByteRange pdf.bytes = some r ∧ derTotalLength der = some der.length ∧
      bytesToHex der <+: r.digits pdf.bytes ∧
      verifyPdfStructure forge pdf = verifyPkcs7 forge pdf ⟨r, r.hole - .ofNat 2, der⟩ ∧
      ∀ pdf' : Buffer, pdf'.length = pdf.length → matchByteRange pdf'.bytes = some r →
        r.covered pdf'.bytes = r.covered pdf.bytes → bytesToHex der <+: r.digits pdf'.bytes →
          verifyPdfStructure forge pdf' = verifyPdfStructure forge pdf := by
  obtain ⟨l, hl, -⟩ := verifyPdfStructure_ok.mp h
  obtain ⟨r, der, hm, hfills, hder, rfl⟩ := locatePkcs7_eq_ok.mp hl
  obtain ⟨hlength, hdigits⟩ := pkcs7Der?_eq_some.mp hder
  have hpdf : verifyPdfStructure forge pdf = verifyPkcs7 forge pdf ⟨r, r.hole - .ofNat 2, der⟩ := by
    rw [verifyPdfStructure, hl]
  refine ⟨r, der, hm, hlength, hdigits, hpdf, ?_⟩
  intro pdf' hsize hm' hcovered hdigits'
  have hl' : locatePkcs7 pdf' = .ok ⟨r, r.hole - .ofNat 2, der⟩ :=
    locatePkcs7_eq_ok.mpr ⟨r, der, hm', hsize ▸ hfills,
      pkcs7Der?_eq_some.mpr ⟨hlength, hdigits'⟩, rfl⟩
  rw [hpdf, verifyPdfStructure, hl']
  exact verifyPkcs7_congr hcovered

-- ---------------------------------------------------------------------------
-- A hole that holds a text
-- ---------------------------------------------------------------------------

namespace HoleSample

/-- The signature, followed by so many of a byte. -/
def filled (c : UInt8) : Buffer where
  bytes := signedWith (List.replicate 400000 c)
  length_lt := by
    rw [length_signed List.length_replicate]
    norm_num

theorem filled_ok (c : UInt8) : (verifyPdfStructure host.forge (filled c)).ok = true :=
  classical_ok List.length_replicate rfl

theorem filled_excluded (c : UInt8) : ranges.excluded (filled c).bytes =
    [60] ++ cmsDigits ++ List.replicate 400000 c ++ [62] := by
  have hfiller : (List.replicate 400000 c).length = 400000 := List.length_replicate
  have hlength := length_signed hfiller
  have hstart : ranges.a + ranges.b = .int (45 : Nat) := by decide +kernel
  have hstop : ranges.c = .int (401143 : Nat) := rfl
  have hbefore : before.length = 45 := by decide +kernel
  have hsplit : signedWith (List.replicate 400000 c) =
      (before ++ ([60] ++ cmsDigits ++ List.replicate 400000 c ++ [62])) ++ Sample.after := by
    simp only [signedWith, List.append_assoc]
  have hsize : (before ++ ([60] ++ cmsDigits ++ List.replicate 400000 c ++ [62])).length =
      401143 := by
    simp only [List.length_append, hbefore, cmsDigits_length, hfiller, List.length_singleton]
  change slice (signedWith (List.replicate 400000 c)) (ranges.a + ranges.b) ranges.c = _
  rw [slice, hstart, hstop, hlength, Number.offset_int _ (by decide),
    Number.offset_int _ (by decide), hsplit, List.take_left' hsize, List.drop_left' hbefore]

end HoleSample

theorem hole_text_accepted :
    ¬ ∀ (forge : Forge) (pdf : Buffer) (r : ByteRange), (verifyPdfStructure forge pdf).ok = true →
      matchByteRange pdf.bytes = some r → IsHexString (r.excluded pdf.bytes) := by
  intro h
  obtain ⟨inner, hinner, hdigits⟩ := h HoleSample.host.forge (HoleSample.filled 32)
    HoleSample.ranges (HoleSample.filled_ok 32) (HoleSample.matchByteRange_signed _)
  rw [HoleSample.filled_excluded, List.append_assoc [60]] at hinner
  have hrest := List.append_cancel_right (List.cons.inj hinner).2
  have hspace : (32 : UInt8) ∈ List.replicate 400000 32 :=
    List.mem_replicate.mpr ⟨by norm_num, rfl⟩
  have hmem : 32 ∈ inner := by
    rw [← hrest]
    exact List.mem_append_right HoleSample.cmsDigits hspace
  exact absurd (hdigits 32 hmem) (by decide)

theorem hole_ignored_sample :
    verifyPdfStructure HoleSample.host.forge (HoleSample.filled 32) =
      verifyPdfStructure HoleSample.host.forge (HoleSample.filled 48) := by
  have hlength : ∀ c, (HoleSample.filled c).length = 401152 := fun c =>
    HoleSample.length_signed List.length_replicate
  have hrange : ∀ c, matchByteRange (HoleSample.filled c).bytes = some HoleSample.ranges := fun c =>
    HoleSample.matchByteRange_signed _
  have hcovered : ∀ c, HoleSample.ranges.covered (HoleSample.filled c).bytes =
      HoleSample.before ++ Sample.after := fun c => HoleSample.covered_signed List.length_replicate
  have hder : ∀ c, HoleSample.ranges.pkcs7Der? (HoleSample.filled c).bytes =
      some HoleSample.cms := fun c => HoleSample.pkcs7Der_signed List.length_replicate
  obtain ⟨r, der, hm, hlen, hdigits, -, hsame⟩ := hole_ignored (HoleSample.filled_ok 48)
  obtain rfl : HoleSample.ranges = r := Option.some.inj ((hrange 48).symm.trans hm)
  obtain rfl : HoleSample.cms = der :=
    Option.some.inj ((hder 48).symm.trans (pkcs7Der?_eq_some.mpr ⟨hlen, hdigits⟩))
  refine hsame (HoleSample.filled 32) ?_ (hrange 32) ?_ ?_
  · rw [hlength, hlength]
  · rw [hcovered, hcovered]
  · exact (pkcs7Der?_eq_some.mp (hder 32)).2

end EsigSuite
