import EsigSuite.Pdf.VerifyPdf

/-!
# The browser port of the verifier

`verifyPdfSignature` of `site/verify/verify-browser.js`. It works on
`Uint8Array`s with helpers of its own, and checks the /ByteRange before the
range equation of the portable verifier.
-/

namespace EsigSuite.Browser

open Lib

-- ---------------------------------------------------------------------------
-- Byte helpers
-- ---------------------------------------------------------------------------

/-- `hexToU8`: the array has `hex.length / 2` entries, rounded down. -/
def hexToU8 (hex : List (Fin 16)) : Bytes :=
  (List.range (hex.length / 2)).map fun i =>
    hexByte (hex.getD (i * 2) 0) (hex.getD (i * 2 + 1) 0)

/-- `constantTimeEqual`: the differences of all positions, or-ed together. -/
def constantTimeEqual (a b : Bytes) : Bool :=
  if a.length ≠ b.length then false
  else ((a.zip b).foldl (fun diff p => diff ||| (p.1 ^^^ p.2)) (0 : UInt8)) == 0

/-- `claimed` passes through `bytesToHex` and back. -/
def sameDigest (recomputed messageDigest : Bytes) : Bool :=
  constantTimeEqual recomputed (hexToU8 (bytesToHex messageDigest))

def verifySignerCrypto : Forge → Asn1 → Certificate → Bytes → SignerCrypto :=
  verifySignerCryptoWith sameDigest

-- ---------------------------------------------------------------------------
-- The verifier
-- ---------------------------------------------------------------------------

structure BrowserResult extends VerifyResult where
  timestampForged : Bool := false
  timestampVerified : Option Bool := none

/-- `Number.isSafeInteger(n) && n >= 0 && n <= length`. -/
def inBounds (length : Nat) (n : Number) : Bool :=
  n.isSafeInteger && !n.lt (.int 0) && !(Number.ofNat length).lt n

/-- Canonical coverage of a detached signature, checked before any crypto. -/
def rangeFailure (length : Nat) (r : ByteRange) : Option Failure :=
  if ¬ [r.a, r.b, r.c, r.d].all (inBounds length) then some .outOfBounds
  else if r.a ≠ .int 0 then some (.startOffset r.a)
  else if ¬ (r.a + r.b).lt r.c then some .overlap
  else if r.c + r.d ≠ .ofNat length then some (.endOfFile (r.c + r.d) length)
  else none

def pkcs7Der? (r : ByteRange) (bytes : Bytes) : Option Bytes :=
  let contentsRegion := slice bytes (r.a + r.b + .ofNat 1) (r.c - .ofNat 1)
  let contentsBytes := hexToU8 (hexDigits contentsRegion)
  ((derTotalLength contentsBytes).filter (· ≤ contentsBytes.length)).map contentsBytes.take

def locatePkcs7 (signed : Buffer) : Except VerifyResult Located :=
  match matchByteRange signed.bytes with
  | none => .error { failures := [.noByteRange] }
  | some r =>
    match rangeFailure signed.length r with
    | some failure => .error { byteRange := some r, failures := [failure] }
    | none =>
      if ¬ r.fills signed.length then
        .error { byteRange := some r, failures := [.fileSize (r.b + r.d) r.hole signed.length] }
      else
        let budget := r.hole - .ofNat 2
        match pkcs7Der? r signed.bytes with
        | none =>
          .error
            { byteRange := some r, pkcs7BudgetSize := some budget, failures := [.malformedDer] }
        | some pkcs7Der => .ok ⟨r, budget, pkcs7Der⟩

def verifyPkcs7 (forge : Forge) (signed : Buffer) (l : Located) : BrowserResult :=
  let result : BrowserResult :=
    { byteRange := some l.byteRange, pkcs7BudgetSize := some l.budget,
      pkcs7ActualSize := some l.pkcs7Der.length }
  match parsePkcs7 forge l.pkcs7Der with
  | .error e => { result with failures := [.parseError e] }
  | .ok (_, []) => { result with failures := [.noCertificates] }
  | .ok (root, signerCert :: _) =>
    let crypto := verifySignerCrypto forge root signerCert (l.byteRange.covered signed.bytes)
    let ts := inspectTimestamp forge root
    let tsFailures := if ts.present then bindingFailures forge ts else []
    let failures := crypto.failures ++ tsFailures
    -- An unbound timestamp is not shown, so its claimed time is not exposed.
    let shown := ts.present && tsFailures.isEmpty
    { result with
      ok := failures.isEmpty
      signerCommonName := signerCert.commonName
      signerOrganization := signerCert.organization
      digestValid := some crypto.digestValid
      signatureValid := some crypto.signatureValid
      timestampForged := !tsFailures.isEmpty
      timestamped := shown
      timestampVerified := if shown then some false else none
      timestampTime := if shown then ts.genTime else none
      tsaCommonName := if shown then ts.tsaCommonName else none
      failures }

def verifyPdfSignature (forge : Forge) (signed : Buffer) : BrowserResult :=
  match locatePkcs7 signed with
  | .error result => { result with }
  | .ok l => verifyPkcs7 forge signed l

-- ---------------------------------------------------------------------------
-- The helpers agree with the portable ones
-- ---------------------------------------------------------------------------

theorem hexToU8_eq (hex : List (Fin 16)) : hexToU8 hex = fromHex hex := by
  induction hex using fromHex.induct with
  | case1 high low rest ih =>
    have hlen : (high :: low :: rest).length / 2 = rest.length / 2 + 1 := by
      simp only [List.length_cons]; omega
    rw [hexToU8, hlen, List.range_succ_eq_map, List.map_cons, List.map_map, fromHex, ← ih]
    refine congrArg₂ _ rfl (List.map_congr_left fun i _ => ?_)
    have hi : (i + 1) * 2 = i * 2 + 2 := by omega
    simp [Nat.succ_eq_add_one, hi]
  | case2 hex h =>
    rcases hex with _ | ⟨high, _ | ⟨low, rest⟩⟩
    · rfl
    · simp [hexToU8, fromHex]
    · exact absurd rfl (h high low rest)

theorem pkcs7Der?_eq (r : ByteRange) (bytes : Bytes) : pkcs7Der? r bytes = r.pkcs7Der? bytes := by
  simp only [pkcs7Der?, ByteRange.pkcs7Der?, hexToU8_eq]

theorem or_xor_eq_zero (d x y : UInt8) : d ||| (x ^^^ y) = 0 ↔ d = 0 ∧ x = y := by
  simp only [UInt8.or_eq_zero_iff, UInt8.xor_eq_zero_iff]

theorem foldl_diff_eq_zero (a b : Bytes) (h : a.length = b.length) (d : UInt8) :
    (a.zip b).foldl (fun diff p => diff ||| (p.1 ^^^ p.2)) d = 0 ↔ d = 0 ∧ a = b := by
  induction a generalizing b d with
  | nil => cases b <;> simp_all
  | cons x a ih =>
    cases b with
    | nil => simp at h
    | cons y b =>
      simp only [List.zip_cons_cons, List.foldl_cons, List.cons.injEq]
      rw [ih b (by simpa using h), or_xor_eq_zero, and_assoc]

theorem constantTimeEqual_eq (a b : Bytes) : constantTimeEqual a b = (a.length == b.length && a == b) := by
  unfold constantTimeEqual
  split
  next h => simp [h]
  next h =>
    rw [not_not] at h
    rw [Bool.eq_iff_iff]
    simp [foldl_diff_eq_zero a b h, h]

theorem sameDigest_eq : sameDigest = EsigSuite.sameDigest := by
  funext recomputed claimed
  rw [sameDigest, hexToU8_eq, fromHex_bytesToHex, constantTimeEqual_eq, EsigSuite.sameDigest]

theorem verifySignerCrypto_eq : verifySignerCrypto = EsigSuite.verifySignerCrypto := by
  rw [verifySignerCrypto, sameDigest_eq, EsigSuite.verifySignerCrypto]

theorem verifyPkcs7_ok (forge : Forge) (signed : Buffer) (l : Located) :
    (verifyPkcs7 forge signed l).ok = (EsigSuite.verifyPkcs7 forge signed l).ok := by
  unfold verifyPkcs7 EsigSuite.verifyPkcs7
  split
  next e h => simp only [h]
  next h => simp only [h]
  next h => simp only [h, verifySignerCrypto_eq]

end EsigSuite.Browser
