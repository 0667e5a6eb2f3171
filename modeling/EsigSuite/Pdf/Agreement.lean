import EsigSuite.Pdf.Coverage

/-!
# The portable verifier and its browser port

Both verifiers read the same /ByteRange and, from the same hole, the same
PKCS#7 blob. They part only at the range checks of the browser.
-/

namespace EsigSuite

open Lib

-- ---------------------------------------------------------------------------
-- The range checks of the browser
-- ---------------------------------------------------------------------------

namespace Browser

theorem inBounds_int {n length : Nat} (hlen : length < 2 ^ 53) (h : n ≤ length) :
    inBounds length (.int n) = true := by
  have hn : (n : Int).natAbs < 2 ^ 53 := by omega
  simp only [inBounds, Number.isSafeInteger, hn, Number.ofNat_small hlen, Number.lt]
  simpa using h

theorem not_lt_zero {n : Number} (h : n.Nonneg) : n.lt (.int 0) = false := by
  cases n with
  | int n => exact decide_eq_false (not_lt.mpr h)
  | inf s => exact h
  | nan => rfl

theorem rangeFailure_tiles {b c d length : Nat} (hlen : length < 2 ^ 53) (hlt : b + 2 < c)
    (hsum : c + d = length) : rangeFailure length ⟨.int 0, .int b, .int c, .int d⟩ = none := by
  have hall : [Number.int 0, .int b, .int c, .int d].all (inBounds length) = true := by
    simp only [List.all_cons, List.all_nil, Bool.and_true, Bool.and_eq_true]
    exact ⟨inBounds_int (n := 0) hlen (Nat.zero_le _), inBounds_int hlen (by omega),
      inBounds_int hlen (by omega), inBounds_int hlen (by omega)⟩
  have hb : Number.int 0 + Number.int b = .int b := by
    rw [Number.int_add_int, Number.round_small (by omega), Int.zero_add]
  have hd : Number.int c + Number.int d = .int length := by
    rw [Number.int_add_int, Number.round_small (by omega), ← hsum, Int.natCast_add]
  have hbc : (Number.int b).lt (.int c) = true := by
    simp only [Number.lt, decide_eq_true_eq]; omega
  simp only [rangeFailure, hall, hb, hd, hbc, Number.ofNat_small hlen, not_true_eq_false, ne_eq,
    ↓reduceIte]

/-- On ranges that fill the file around a DER blob, the checks come down to
where the two ranges start. -/
theorem rangeFailure_eq_none_iff {pdf : Buffer} (hm : matchByteRange pdf.bytes = some r)
    (hsize : r.fills pdf.length) (hder : r.pkcs7Der? pdf.bytes = some der) :
    rangeFailure pdf.length r = none ↔ r.a = .int 0 ∧ r.c ≠ .int 0 := by
  constructor
  · intro h
    obtain ⟨ha, hb, -, -⟩ := matchByteRange_nonneg hm
    unfold rangeFailure at h
    split at h
    · cases h
    split at h
    · cases h
    next hstart =>
      split at h
      · cases h
      next hlt =>
        refine ⟨not_not.mp hstart, fun hc => hlt ?_⟩
        rw [hc, not_lt_zero (Number.add_nonneg ha hb)]
        exact Bool.false_ne_true
  · rintro ⟨ha, hc⟩
    obtain ⟨b, c, d, rfl, hlt, hsum⟩ := ranges_of_start hm hsize hder ha hc
    exact rangeFailure_tiles pdf.length_lt hlt hsum

/-- The browser enters its `try` block where the portable verifier does, less
the files its range checks turn away. -/
theorem locatePkcs7_eq_ok : locatePkcs7 signed = .ok l ↔
    EsigSuite.locatePkcs7 signed = .ok l ∧ rangeFailure signed.length l.byteRange = none := by
  unfold locatePkcs7 EsigSuite.locatePkcs7
  simp only [pkcs7Der?_eq]
  cases matchByteRange signed.bytes with
  | none => simp only [reduceCtorEq, false_and]
  | some r =>
    dsimp only
    cases hr : rangeFailure signed.length r with
    | some failure =>
      simp only [reduceCtorEq, false_iff, not_and]
      intro h
      split at h
      · cases h
      · split at h <;> cases h
        rw [hr]
        exact Option.some_ne_none _
    | none =>
      dsimp only
      by_cases hsize : r.fills signed.length
      · simp only [hsize, not_true_eq_false, ↓reduceIte]
        cases r.pkcs7Der? signed.bytes with
        | none => simp only [reduceCtorEq, false_and]
        | some der =>
          constructor
          · rintro ⟨⟩
            exact ⟨rfl, hr⟩
          · exact And.left
      · simp only [hsize, not_false_eq_true, ↓reduceIte, reduceCtorEq, false_and]

theorem locatePkcs7_error (h : locatePkcs7 signed = .error result) : result.ok = false := by
  unfold locatePkcs7 at h
  split at h
  · cases h; rfl
  split at h
  · cases h; rfl
  split at h
  · cases h; rfl
  dsimp only at h
  split at h <;> cases h
  rfl

theorem verifyPkcs7_byteRange : (verifyPkcs7 forge signed l).byteRange = some l.byteRange := by
  unfold verifyPkcs7
  split <;> rfl

theorem verifyPdfSignature_byteRange (h : locatePkcs7 pdf = .ok l) :
    (verifyPdfSignature forge pdf).byteRange = some l.byteRange := by
  rw [verifyPdfSignature, h, verifyPkcs7_byteRange]

/-- The browser accepts what the portable verifier accepts and its own range
checks let through. -/
theorem verifyPdfSignature_ok : (verifyPdfSignature forge pdf).ok = true ↔
    ∃ l, EsigSuite.locatePkcs7 pdf = .ok l ∧ rangeFailure pdf.length l.byteRange = none ∧
      (EsigSuite.verifyPkcs7 forge pdf l).ok = true := by
  cases hl : locatePkcs7 pdf with
  | error result =>
    simp only [verifyPdfSignature, hl, locatePkcs7_error hl, Bool.false_eq_true, false_iff,
      not_exists]
    rintro l ⟨hcore, hr, -⟩
    rw [locatePkcs7_eq_ok.mpr ⟨hcore, hr⟩] at hl
    cases hl
  | ok l =>
    obtain ⟨hcore, hr⟩ := locatePkcs7_eq_ok.mp hl
    simp only [verifyPdfSignature, hl, verifyPkcs7_ok, hcore]
    constructor
    · intro h
      exact ⟨l, rfl, hr, h⟩
    · rintro ⟨_, ⟨⟩, -, h⟩
      exact h

end Browser

-- ---------------------------------------------------------------------------
-- Agreement
-- ---------------------------------------------------------------------------

/-- Both accept the file or neither does, and where both accept it they have
hashed the same bytes. -/
def Agree (forge : Forge) (pdf : Buffer) : Prop :=
  ((verifyPdfStructure forge pdf).ok = true ↔
      (Browser.verifyPdfSignature forge pdf).ok = true) ∧
    ((verifyPdfStructure forge pdf).ok = true → (Browser.verifyPdfSignature forge pdf).ok = true →
      ∃ r r', (verifyPdfStructure forge pdf).byteRange = some r ∧
        (Browser.verifyPdfSignature forge pdf).byteRange = some r' ∧
        r.covered pdf.bytes = r'.covered pdf.bytes)

/-- A parser that finds one signer in any blob. -/
def acceptAll : Forge where
  fromDer _ := .ok (.constructed 0 16 [.constructed 128 0 [.constructed 0 16 [.constructed 0 17 [
    .constructed 0 16 [
      .constructed 128 0 [.constructed 0 16 [.primitive 0 6 [], .constructed 0 17 [
        .primitive 0 4 [0]]]],
      .primitive 0 4 [0]]]]]])
  toDer _ := .ok []
  derToOid _ := .ok OID_MESSAGE_DIGEST
  certificates _ := .ok [⟨none, none, fun _ _ => .ok true⟩]
  sha256 _ := [0]

theorem acceptAll_ok : (verifyPkcs7 acceptAll pdf l).ok = true := rfl

theorem agree_of_start
    (hstart : ∀ r der, matchByteRange pdf.bytes = some r → r.fills pdf.length →
      r.pkcs7Der? pdf.bytes = some der → r.a = .int 0 ∧ r.c ≠ .int 0) : Agree forge pdf := by
  have hiff : (verifyPdfStructure forge pdf).ok = true ↔
      (Browser.verifyPdfSignature forge pdf).ok = true := by
    rw [verifyPdfStructure_ok, Browser.verifyPdfSignature_ok]
    constructor
    · rintro ⟨l, hl, hok⟩
      obtain ⟨r, der, hm, hsize, hder, rfl⟩ := locatePkcs7_eq_ok.mp hl
      have hr := (Browser.rangeFailure_eq_none_iff hm hsize hder).mpr (hstart r der hm hsize hder)
      exact ⟨_, hl, hr, hok⟩
    · rintro ⟨l, hl, -, hok⟩
      exact ⟨l, hl, hok⟩
  refine ⟨hiff, fun hcore hbrowser => ?_⟩
  obtain ⟨l, hl, -⟩ := verifyPdfStructure_ok.mp hcore
  obtain ⟨l', hl', hr, -⟩ := Browser.verifyPdfSignature_ok.mp hbrowser
  obtain rfl : l = l' := by rw [hl] at hl'; exact Except.ok.inj hl'
  exact ⟨l.byteRange, l.byteRange, verifyPdfStructure_byteRange hl,
    Browser.verifyPdfSignature_byteRange (Browser.locatePkcs7_eq_ok.mpr ⟨hl, hr⟩), rfl⟩

/-- Under every PKCS#7 and SHA-256 oracle the two verifiers agree on a file
exactly when its /ByteRange, if it passes the portable checks, starts the first
range at 0 and the second elsewhere. -/
theorem agree_iff (pdf : Buffer) : (∀ forge, Agree forge pdf) ↔
    ∀ r der, matchByteRange pdf.bytes = some r → r.fills pdf.length →
      r.pkcs7Der? pdf.bytes = some der → r.a = .int 0 ∧ r.c ≠ .int 0 := by
  constructor
  · intro hagree r der hm hsize hder
    have hl := locatePkcs7_eq_ok.mpr ⟨r, der, hm, hsize, hder, rfl⟩
    have hcore := verifyPdfStructure_ok.mpr ⟨_, hl, acceptAll_ok⟩
    obtain ⟨l, hl', hr, -⟩ := Browser.verifyPdfSignature_ok.mp ((hagree acceptAll).1.mp hcore)
    rw [hl] at hl'
    cases hl'
    exact (Browser.rangeFailure_eq_none_iff hm hsize hder).mp hr
  · intro hstart forge
    exact agree_of_start hstart

/-- The browser refuses the file signed from its second byte on. -/
theorem sample_disagree : ¬ Agree Sample.forge Sample.pdf := by
  rintro ⟨hiff, -⟩
  obtain ⟨l, hl, hr, -⟩ := Browser.verifyPdfSignature_ok.mp (hiff.mp Sample.accepted)
  obtain ⟨r, der, hm, hsize, hder, rfl⟩ := locatePkcs7_eq_ok.mp hl
  obtain ⟨ha, -⟩ := (Browser.rangeFailure_eq_none_iff hm hsize hder).mp hr
  rw [Sample.byteRange] at hm
  cases hm
  simp at ha

end EsigSuite
