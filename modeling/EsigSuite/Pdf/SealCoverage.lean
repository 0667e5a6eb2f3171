import EsigSuite.Lib.Digits
import EsigSuite.Pdf.SealPlacement

/-!
# Is the accepted seal signed?

`verifyDocument` compares the length a seal covers with the end of the first
signed range; where the seal itself lies it does not ask. The hole may hold
anything behind the digits of the signature, so a seal put there by anyone is
accepted as the document's: `accepted_sealSigned_iff` says when that does not
happen.
-/

namespace EsigSuite

open Lib

-- ---------------------------------------------------------------------------
-- What is accepted
-- ---------------------------------------------------------------------------

theorem coveredLength_nat {n length : Nat} (hpos : 0 < n) (hle : n ≤ length) :
    coveredLength length (some (.number (.finite n))) = some n := by
  have hle' : (n : ℚ) ≤ length := by exact_mod_cast hle
  simp [coveredLength, hpos, hle']

theorem bindDigest_built {host : PqHost} {pdf : Buffer} {s : PqSeal}
    (hdigest : s.digest = hexText (host.forge.sha256 (pdf.bytes.take n)))
    (hcovered : s.coveredBytes = (n : ℚ)) (hpos : 0 < n) (hle : n ≤ pdf.length) :
    bindDigest host pdf s.toJson = (true, []) := by
  obtain ⟨-, hdigestMember, hcoveredMember, -⟩ := toJson_members s
  simp only [bindDigest, hdigestMember, hcoveredMember, hcovered, coveredLength_nat hpos hle,
    hdigest, isString, beq_self_eq_true, if_true]

theorem verifyPqSeal_accepts {host : PqHost} {pdf : Buffer} {s : PqSeal}
    (hfound : extractPqSeal pdf.bytes = some s.toJson)
    (hdigest : bindDigest host pdf s.toJson = (true, []))
    (hsigs : (verifyPqSealSignatures host s.toJson).ok = true) :
    ∃ verdict, verifyPqSeal host pdf {} = .ok verdict ∧ verdict.present = true ∧
      verdict.ok = true ∧ verdict.coveredBytes = some (.number (.finite s.coveredBytes)) := by
  obtain ⟨-, -, hcovered, -⟩ := toJson_members s
  have htruthy : isFalsy s.toJson = false := rfl
  have hseal : (extractPqSeal pdf.bytes).filter (!isFalsy ·) = some s.toJson := by
    rw [hfound, Option.filter_some, htruthy]
    rfl
  cases hv : verifyPqSeal host pdf {} with
  | error e =>
    simp [verifyPqSeal, hseal, hdigest, pinFingerprint, pinUuaid, matchCert, bind, Except.bind,
      pure, Except.pure] at hv
  | ok verdict =>
    simp only [verifyPqSeal, hseal, hdigest, pinFingerprint, pinUuaid, matchCert, bind, Except.bind,
      pure, Except.pure, if_true, Option.filter_none, Except.ok.injEq] at hv
    subst hv
    exact ⟨_, rfl, rfl, by simp [hsigs], hcovered⟩

theorem verifyDocument_accepts {host : PqHost} {pdf : Buffer}
    (hclassical : (verifyPdfStructure host.forge pdf).ok = true)
    (hpq : verifyPqSeal host pdf {} = .ok found) (hpresent : found.present = true)
    (hok : found.ok = true)
    (hregion : beyondSignedRegion host (verifyPdfStructure host.forge pdf) found = false) :
    ∃ v, verifyDocument host pdf {} = .ok v ∧ v.ok = true ∧ v.postQuantum.present = true ∧
      v.classical = verifyPdfStructure host.forge pdf := by
  refine ⟨⟨true, verifyPdfStructure host.forge pdf, found⟩, ?_, rfl, hpresent, rfl⟩
  simp [verifyDocument, hpq, hregion, hpresent, hok, hclassical, bind, Except.bind, pure,
    Except.pure]

-- ---------------------------------------------------------------------------
-- Reading a written /ByteRange and written digits
-- ---------------------------------------------------------------------------

theorem matchByteRange_skip {x : Bytes} (h : 47 ∉ x) (u : Bytes) :
    matchByteRange (x ++ u) = matchByteRange u := by
  induction x with
  | nil => rfl
  | cons b x ih =>
    obtain ⟨hb, hx⟩ := List.ne_and_not_mem_of_not_mem_cons h
    have hkey : literal? byteRangeKey (b :: (x ++ u)) = none := by
      simp [literal?, byteRangeKey, List.isPrefixOf, hb]
    rw [List.cons_append, matchByteRange, byteRangeAt, hkey, ih hx]
    rfl

theorem digits?_written {digits : Bytes} (h : ∀ c ∈ digits, isDigit c = true) (hne : digits ≠ [])
    (hc : isDigit c = false) (rest : Bytes) :
    digits? (digits ++ c :: rest) = some (digits, c :: rest) := by
  unfold digits?
  rw [List.takeWhile_append_of_pos h, List.dropWhile_append_of_pos h,
    List.takeWhile_cons_of_neg (by simp [hc]), List.dropWhile_cons_of_neg (by simp [hc]),
    List.append_nil]
  split
  · exact absurd rfl hne
  · rfl

theorem isDigit_not_space (h : isDigit c = true) : isSpace c = false := by
  simp only [isDigit, Bool.and_eq_true, decide_eq_true_eq, UInt8.le_iff_toNat_le] at h
  have hlow : 48 ≤ c.toNat := h.1
  have hhigh : c.toNat ≤ 57 := h.2
  have hne : ∀ d : UInt8, d.toNat < 48 ∨ 57 < d.toNat → (c == d) = false := by
    rintro d hd
    rw [beq_eq_false_iff_ne]
    rintro rfl
    omega
  have hle : ¬ c ≤ 13 := by
    rw [UInt8.le_iff_toNat_le]
    change ¬ c.toNat ≤ 13
    omega
  simp [isSpace, hle, hne 32 (by decide), hne 160 (by decide)]

theorem dropSpaces_digits {digits : Bytes} (h : ∀ c ∈ digits, isDigit c = true) (hne : digits ≠ [])
    (rest : Bytes) : (digits ++ rest).dropWhile isSpace = digits ++ rest := by
  obtain ⟨c, ds, rfl⟩ := List.exists_cons_of_ne_nil hne
  have hspace := isDigit_not_space (h c List.mem_cons_self)
  rw [List.cons_append, List.dropWhile_cons_of_neg (by simp [hspace])]

theorem spaces?_digits {digits : Bytes} (h : ∀ c ∈ digits, isDigit c = true) (hne : digits ≠ [])
    (rest : Bytes) : spaces? (32 :: (digits ++ rest)) = some (digits ++ rest) := by
  have hdrop := dropSpaces_digits h hne rest
  have hspace : isSpace 32 = true := rfl
  simp [spaces?, hspace, hdrop]

/-- A /ByteRange is read as it was written. -/
theorem byteRangeAt_written {a b c d : Bytes} (hdigits : ∀ n ∈ [a, b, c, d], n ≠ [] ∧
    ∀ c ∈ n, isDigit c = true) (rest : Bytes) :
    byteRangeAt (byteRangeKey ++ 91 :: (a ++ 32 :: (b ++ 32 :: (c ++ 32 :: (d ++ 93 :: rest))))) =
      some ⟨numberOfDigits a, numberOfDigits b, numberOfDigits c, numberOfDigits d⟩ := by
  simp only [List.mem_cons, List.not_mem_nil, or_false, forall_eq_or_imp, forall_eq] at hdigits
  obtain ⟨⟨ha, ha'⟩, ⟨hb, hb'⟩, ⟨hc, hc'⟩, ⟨hd, hd'⟩⟩ := hdigits
  have hopen : ∀ t, (91 :: t : Bytes).dropWhile isSpace = 91 :: t := fun _ => rfl
  have hclose : ∀ t, (93 :: t : Bytes).dropWhile isSpace = 93 :: t := fun _ => rfl
  have hbracket : ∀ b t, literal? [b] (b :: t) = some t := fun b t => literal?_self [b] t
  have hspace : isDigit 32 = false := rfl
  have hend : isDigit 93 = false := rfl
  unfold byteRangeAt
  simp only [literal?_self, Option.bind_eq_bind, Option.bind_some, hopen, hbracket,
    dropSpaces_digits ha' ha, digits?_written ha' ha hspace, spaces?_digits hb' hb,
    digits?_written hb' hb hspace, spaces?_digits hc' hc, digits?_written hc' hc hspace,
    spaces?_digits hd' hd, digits?_written hd' hd hend, hclose, Option.pure_def]

theorem matchByteRange_of_at (h : byteRangeAt bytes = some r) : matchByteRange bytes = some r := by
  cases bytes with
  | nil => cases h
  | cons b bytes => rw [matchByteRange, h, Option.some_or]

theorem fromHex_append (h : digits.length % 2 = 0) (rest : List (Fin 16)) :
    fromHex (digits ++ rest) = fromHex digits ++ fromHex rest := by
  induction digits using fromHex.induct with
  | case1 high low digits ih =>
    simp only [List.length_cons] at h
    simp only [List.cons_append, fromHex, ih (by omega)]
  | case2 digits hdigits =>
    rcases digits with _ | ⟨high, _ | ⟨low, rest⟩⟩
    · rfl
    · simp at h
    · exact absurd rfl (hdigits high low rest)

-- ---------------------------------------------------------------------------
-- The length of a seal
-- ---------------------------------------------------------------------------

theorem length_toJson_le (s : PqSeal) (h : s.uuaid = none) :
    (Json.stringify s.toJson).length ≤ 500 + (Double.text (.finite s.coveredBytes)).length +
      6 * (s.digest.length + s.signedAt.length + s.keyId.length + s.ed25519.length +
        s.mldsa65.length + s.mldsa65Fpr.length + s.ed25519Sig.length + s.mldsa65Sig.length) := by
  have hkeys : ∀ key ∈ ["v", "alg", "over", "digest", "coveredBytes", "signedAt", "keyId", "keys",
      "ed25519", "mldsa65", "mldsa65Fpr", "sig"], (Json.stringText (js key)).length ≤ 16 := by
    decide
  have hwords : (Json.stringText PQ_SEAL_ALG).length +
      (Json.stringText (js "sha256")).length ≤ 40 := by
    decide
  have hversion : (Double.text (.finite PQ_SEAL_VERSION)).length = 1 := by
    rw [show PQ_SEAL_VERSION = ((1 : ℤ) : ℚ) from rfl, Double.text_int (by decide)]
    rfl
  simp only [List.mem_cons, List.not_mem_nil, or_false, forall_eq_or_imp, forall_eq] at hkeys
  have hstring : ∀ t : JsString, (Json.stringText t).length ≤ 6 * t.length + 2 := by
    intro t
    have hquote := Json.length_quote_le t
    simp only [Json.stringText, List.length_cons, List.length_append, List.length_nil]
    omega
  have h1 := hstring s.digest
  have h2 := hstring s.signedAt
  have h3 := hstring s.keyId
  have h4 := hstring s.ed25519
  have h5 := hstring s.mldsa65
  have h6 := hstring s.mldsa65Fpr
  have h7 := hstring s.ed25519Sig
  have h8 := hstring s.mldsa65Sig
  simp only [PqSeal.toJson, PqSeal.payload, PqSeal.head, PqSeal.assertion, h, PqSeal.keys,
    PqSeal.sig, List.append_nil, List.cons_append, List.nil_append, Json.stringify,
    Json.membersText, Json.moreMembers, List.length_cons, List.length_append, List.length_nil]
  omega

theorem length_bytesToHex (bytes : Bytes) : (bytesToHex bytes).length = 2 * bytes.length := by
  simp [bytesToHex, Nat.mul_comm]

theorem length_hexText (bytes : Bytes) : (hexText bytes).length = 2 * bytes.length := by
  rw [hexText, List.length_map, length_bytesToHex]

theorem length_b64_le (bytes : Bytes) : 3 * (b64 bytes).length ≤ 4 * bytes.length + 8 := by
  rw [b64, List.length_map]
  exact Base64.length_encode_le bytes

/-- A bound that counts six bytes of JSON for every character. -/
theorem length_built (sha256 : Bytes → Bytes) (input : BuildPqSealInput)
    (hlt : input.coveredBytes < 2 ^ 53) (huuaid : input.uuaid = none)
    (ed25519Sig mldsa65Sig : Bytes) :
    3 * (sealDict { unsignedPqSeal sha256 input hlt with
      ed25519Sig := b64 ed25519Sig, mldsa65Sig := b64 mldsa65Sig }).length ≤
      100 + 16 * (500 + (Double.text (.finite input.coveredBytes)).length +
        6 * (input.digestHex.length + input.signedAt.length + 32 +
          (b64 input.keys.ed25519PublicRaw).length + (b64 input.keys.mldsa65PublicKey).length +
          2 * (sha256 input.keys.mldsa65PublicKey).length + (b64 ed25519Sig).length +
          (b64 mldsa65Sig).length)) := by
  generalize hs : { unsignedPqSeal sha256 input hlt with
    ed25519Sig := b64 ed25519Sig, mldsa65Sig := b64 mldsa65Sig : PqSeal } = s
  have hnone : s.uuaid = none := by rw [← hs]; exact huuaid
  have hkey : s.keyId.length ≤ 32 := by rw [← hs]; exact List.length_take_le _ _
  have hfpr : s.mldsa65Fpr.length = 2 * (sha256 input.keys.mldsa65PublicKey).length := by
    rw [← hs]
    exact length_hexText _
  have hfields : s.digest = input.digestHex ∧ s.coveredBytes = input.coveredBytes ∧
      s.signedAt = input.signedAt ∧ s.ed25519 = b64 input.keys.ed25519PublicRaw ∧
      s.mldsa65 = b64 input.keys.mldsa65PublicKey ∧ s.ed25519Sig = b64 ed25519Sig ∧
      s.mldsa65Sig = b64 mldsa65Sig := by
    subst hs
    exact ⟨rfl, rfl, rfl, rfl, rfl, rfl, rfl⟩
  obtain ⟨h1, h2, h3, h4, h5, h6, h7⟩ := hfields
  have htext := length_toJson_le s hnone
  rw [h1, h2, h3, h4, h5, h6, h7] at htext
  have hutf8 := Utf8.length_encode_le (Json.stringify s.toJson)
  have hbase64 := Base64.length_encode_le (Utf8.encode (Json.stringify s.toJson))
  simp only [sealDict, typeKey, sealKey, sealOpen, List.length_append, List.length_cons,
    List.length_nil, sealB64]
  omega

-- ---------------------------------------------------------------------------
-- A seal in the padding of the hole
-- ---------------------------------------------------------------------------

namespace HoleSample

open Sample (hexBytes hexBytes_length)

/-- `%PDF-1.7\n<</ByteRange[0 45 401143 9]/Contents` -/
def before : Bytes :=
  hexBytes 45 0x255044462d312e370a3c3c2f4279746552616e67655b302034352034303131343320395d2f436f6e74656e7473

def messageDigest : Bytes :=
  hexBytes 32 0x99dd40b579ff97bf9807f7fece9da293981712d67969d19116b30835b35d933b

def attributesDigest : Bytes :=
  hexBytes 32 0x72fcb76982a265ad03172a7e4ab6d4dfc5e45431408c148774961269135df7f3

def signatureValue : Bytes :=
  hexBytes 32 0xcb0f0abd43923ba7bac44100c8ab5581898c1f601975156603fbfbfc747ae3ff ++
    hexBytes 32 0xa6b123ecb03b7cb2e2a5e31afddda37a2cbc90042b0d5033ee3174fab92c1ef8

/-- The CMS signature of the other sample, over this file. -/
def cms : Bytes :=
  Sample.cms.take 435 ++ messageDigest ++ (Sample.cms.drop 467).take 17 ++ signatureValue

def digitChar (d : Fin 16) : UInt8 := UInt8.ofNat (if d.val < 10 then 48 + d.val else 87 + d.val)

def cmsDigits : Bytes := (bytesToHex cms).map digitChar

def attributes : Bytes := 0x31 :: (cms.drop 361).take 106

def signerCert : Certificate where
  commonName := some "a"
  organization := none
  verify digest signature := .ok (digest == attributesDigest && signature == signatureValue)

def sha256 (message : Bytes) : Bytes :=
  if message = before ++ Sample.after then messageDigest
  else if message = attributes then attributesDigest
  else List.replicate 32 0

def ed25519Sig : Bytes := List.replicate 64 3

def mldsa65Sig : Bytes := List.replicate 3309 4

def keys : PqSigningKeys where
  ed25519PublicRaw := List.replicate 32 2
  mldsa65PublicKey := List.replicate 1952 1
  ed25519Sign _ := .ok (ed25519Sig)
  mldsa65Sign _ := .ok (mldsa65Sig)

def host : PqHost where
  forge := { Sample.forge with sha256, certificates := fun _ => .ok [signerCert] }
  ed25519Verify pub _ sig := .ok (pub == keys.ed25519PublicRaw && sig == ed25519Sig)
  mldsa65Verify sig _ pub := .ok (pub == keys.mldsa65PublicKey && sig == mldsa65Sig)
  certMatchesPqSeal _ _ := .ok false
  toLowerCase := id
  bufferFrom _ := .error "TypeError"
  toNumber _ := none

theorem keys_verified : keys.Verified host where
  ed25519_length := List.length_replicate
  mldsa65_length := List.length_replicate
  ed25519 := by
    rintro message sig ⟨⟩
    refine ⟨List.length_replicate, congrArg Except.ok ?_⟩
    rw [beq_self_eq_true, beq_self_eq_true]
    rfl
  mldsa65 := by
    rintro message sig ⟨⟩
    refine ⟨List.length_replicate, congrArg Except.ok ?_⟩
    rw [beq_self_eq_true, beq_self_eq_true]
    rfl

/-- Covers the first range, under the attacker's own keys. -/
def input : BuildPqSealInput where
  digestHex := hexText (sha256 before)
  coveredBytes := 45
  keys := keys
  signedAt := js "2026-11-18T00:00:00.000Z"
  uuaid := none

/-- The parts of the files below, as they are evaluated. -/
theorem parts_checked : isDigestHex input.digestHex = true ∧
    (before = before.take 11 ++ (byteRangeKey ++ 91 :: ([48] ++ 32 :: ([52, 53] ++
      32 :: ([52, 48, 49, 49, 52, 51] ++ 32 :: ([57] ++ 93 :: before.drop 36))))) ∧
    47 ∉ before.take 11 ∧ 84 ∉ before) ∧
    cms.length = 548 ∧ cms = 0x30 :: 0x82 :: 0x02 :: 0x20 :: cms.drop 4 := by
  decide +kernel

theorem foreignSeal_built : ∃ s, buildPqSeal sha256 input (by decide) = .ok s ∧
    s = { unsignedPqSeal sha256 input (by decide) with
      ed25519Sig := b64 ed25519Sig, mldsa65Sig := b64 mldsa65Sig } := by
  have hdigest : isDigestHex input.digestHex = true := parts_checked.1
  refine ⟨_, ?_, rfl⟩
  rw [buildPqSeal, if_neg (not_not.mpr hdigest)]
  rfl

/-- A signed file with this in the hole behind the digits of the signature. -/
def signedWith (filler : Bytes) : Bytes :=
  before ++ ([60] ++ cmsDigits ++ filler ++ [62] ++ Sample.after)

def ranges : ByteRange := ⟨.int 0, .int 45, .int 401143, .int 9⟩

theorem before_split : (before = before.take 11 ++ (byteRangeKey ++ 91 :: ([48] ++ 32 :: ([52, 53] ++
      32 :: ([52, 48, 49, 49, 52, 51] ++ 32 :: ([57] ++ 93 :: before.drop 36)))))) ∧
    47 ∉ before.take 11 ∧ 84 ∉ before :=
  parts_checked.2.1

theorem before_length : before.length = 45 := hexBytes_length _ _

theorem matchByteRange_signed (filler : Bytes) :
    matchByteRange (signedWith filler) = some ranges := by
  rw [signedWith, before_split.1]
  simp only [List.append_assoc, List.cons_append]
  rw [matchByteRange_skip before_split.2.1]
  exact matchByteRange_of_at (byteRangeAt_written (a := [48]) (b := [52, 53])
    (c := [52, 48, 49, 49, 52, 51]) (d := [57]) (by simp [isDigit]) _)

theorem hexDigits_digitChar (digits : List (Fin 16)) :
    hexDigits (digits.map digitChar) = digits :=
  hexDigits_hexChar digits

theorem cms_split : cms.length = 548 ∧ cms = 0x30 :: 0x82 :: 0x02 :: 0x20 :: cms.drop 4 :=
  parts_checked.2.2

theorem cms_length : cms.length = 548 := cms_split.1

theorem cmsDigits_length : cmsDigits.length = 1096 := by
  rw [cmsDigits, List.length_map, length_bytesToHex, cms_length]

theorem derTotalLength_cms (rest : Bytes) : derTotalLength (cms ++ rest) = some 548 := by
  rw [cms_split.2]
  rfl

section
variable {filler : Bytes} (h : filler.length = 400000)
include h

theorem length_signed : (signedWith filler).length = 401152 := by
  have hafter : Sample.after.length = 9 := hexBytes_length _ _
  simp only [signedWith, List.length_append, before_length, hafter, h, cmsDigits_length,
    List.length_singleton]

theorem hole_signed : slice (signedWith filler) (ranges.a + ranges.b + .ofNat 1)
    (ranges.c - .ofNat 1) = cmsDigits ++ filler := by
  have hstart : ranges.a + ranges.b + .ofNat 1 = .int (46 : Nat) := by decide
  have hstop : ranges.c - .ofNat 1 = .int (401142 : Nat) := by decide
  have hbefore : (before ++ [60]).length = 46 := by rw [List.length_append, before_length]; rfl
  have hsplit : signedWith filler = (before ++ [60]) ++ (cmsDigits ++ filler) ++
      ([62] ++ Sample.after) := by simp [signedWith]
  have hlength : ((before ++ [60]) ++ (cmsDigits ++ filler)).length = 401142 := by
    rw [List.length_append, hbefore, List.length_append, cmsDigits_length, h]
  rw [slice, hstart, hstop, length_signed h, Number.offset_int _ (by decide),
    Number.offset_int _ (by decide), hsplit, List.take_left' hlength, List.drop_left' hbefore]

theorem covered_signed : ranges.covered (signedWith filler) = before ++ Sample.after := by
  have hlength := length_signed h
  have hcovered : ranges.covered (signedWith filler) =
      (signedWith filler).take 45 ++ (signedWith filler).drop 401143 :=
    covered_tiles (b := 45) (c := 401143) (d := 9) (by omega) (by omega) (by omega)
  have hsplit : signedWith filler =
      (before ++ ([60] ++ cmsDigits ++ filler ++ [62])) ++ Sample.after := by simp [signedWith]
  have hfirst : (signedWith filler).take 45 = before := List.take_left' before_length
  have hsecond : (signedWith filler).drop 401143 = Sample.after := by
    rw [hsplit]
    refine List.drop_left' ?_
    simp only [List.length_append, before_length, cmsDigits_length, h, List.length_singleton]
  rw [hcovered, hfirst, hsecond]

theorem pkcs7Der_signed : ranges.pkcs7Der? (signedWith filler) = some cms := by
  have hbytes : fromHex (hexDigits (cmsDigits ++ filler)) = cms ++ fromHex (hexDigits filler) := by
    have heven : (bytesToHex cms).length % 2 = 0 := by
      rw [length_bytesToHex]
      omega
    have hdigits := hexDigits_digitChar (bytesToHex cms)
    rw [hexDigits] at hdigits
    rw [hexDigits, List.filterMap_append, cmsDigits, hdigits, fromHex_append heven,
      fromHex_bytesToHex, hexDigits]
  simp only [ByteRange.pkcs7Der?, hole_signed h, hbytes, derTotalLength_cms]
  have hle : 548 ≤ (cms ++ fromHex (hexDigits filler)).length := by
    rw [List.length_append, cms_length]
    omega
  rw [Option.filter_some, if_pos (decide_eq_true hle), Option.map_some,
    List.take_left' cms_length]

/-- The classical signature accepts whatever is in the filler. -/
theorem classical_ok {pdf : Buffer} (hpdf : pdf.bytes = signedWith filler) :
    (verifyPdfStructure host.forge pdf).ok = true := by
  have hlength : pdf.length = 401152 := by
    rw [Buffer.length, hpdf, length_signed h]
  have hfills : ranges.fills pdf.length := by
    rw [hlength]
    decide
  refine verifyPdfStructure_ok.mpr ⟨⟨ranges, ranges.hole - .ofNat 2, cms⟩, ?_, ?_⟩
  · refine locatePkcs7_eq_ok.mpr ⟨ranges, cms, ?_, hfills, ?_, rfl⟩
    · rw [hpdf, matchByteRange_signed]
    · rw [hpdf, pkcs7Der_signed h]
  · unfold verifyPkcs7
    rw [hpdf, covered_signed h]
    decide +kernel

end


theorem length_foreignSeal : ∃ s, buildPqSeal sha256 input (by decide) = .ok s ∧
    (sealDict s).length ≤ 400000 := by
  obtain ⟨s, hbuilt, hs⟩ := foreignSeal_built
  have hdigest : input.digestHex.length = 64 := by
    rw [input, length_hexText]
    decide
  have htime : input.signedAt.length = 24 := by decide
  have hfpr : (sha256 input.keys.mldsa65PublicKey).length ≤ 32 := by
    unfold sha256
    split_ifs
    · exact (hexBytes_length _ _).le
    · exact (hexBytes_length _ _).le
    · exact List.length_replicate.le
  have hnumber : (Double.text (.finite input.coveredBytes)).length = 2 := by
    rw [show input.coveredBytes = ((45 : ℤ) : ℚ) from rfl, Double.text_int (by decide)]
    rfl
  have hkeys : input.keys.Verified host := keys_verified
  have hle := length_built sha256 input (by decide) rfl ed25519Sig mldsa65Sig
  have h1 := length_b64_le input.keys.ed25519PublicRaw
  have h2 := length_b64_le input.keys.mldsa65PublicKey
  have h3 := length_b64_le ed25519Sig
  have h4 := length_b64_le mldsa65Sig
  rw [hkeys.ed25519_length, ED25519_RAW_PUBLIC_LEN] at h1
  rw [hkeys.mldsa65_length, MLDSA65_PUBLIC_LEN] at h2
  rw [(hkeys.ed25519 [] _ rfl).1, ED25519_SIGNATURE_LEN] at h3
  rw [(hkeys.mldsa65 [] _ rfl).1, MLDSA65_SIGNATURE_LEN] at h4
  rw [← hs, hdigest, htime, hnumber] at hle
  refine ⟨s, hbuilt, ?_⟩
  -- The kernel would compute the lengths.
  generalize (sha256 input.keys.mldsa65PublicKey).length = l0 at hfpr hle
  generalize (b64 input.keys.ed25519PublicRaw).length = l1 at h1 hle
  generalize (b64 input.keys.mldsa65PublicKey).length = l2 at h2 hle
  generalize (b64 ed25519Sig).length = l3 at h3 hle
  generalize (b64 mldsa65Sig).length = l4 at h4 hle
  omega

/-- The seal and the zeros behind it. -/
def filler (s : PqSeal) : Bytes :=
  sealDict s ++ List.replicate (400000 - (sealDict s).length) 48

theorem length_filler (h : (sealDict s).length ≤ 400000) : (filler s).length = 400000 := by
  rw [filler, List.length_append, List.length_replicate]
  omega

def pdf (s : PqSeal) (h : (sealDict s).length ≤ 400000) : Buffer where
  bytes := signedWith (filler s)
  length_lt := by
    rw [length_signed (length_filler h)]
    norm_num

theorem noType : 84 ∉ before ++ [60] ++ cmsDigits := by
  have hdigits : ∀ d : Fin 16, digitChar d ≠ 84 := by decide
  rw [List.mem_append, List.mem_append]
  rintro ((h | h) | h)
  · exact before_split.2.2 h
  · exact absurd h (by decide)
  · obtain ⟨d, -, hd⟩ := List.mem_map.mp h
    exact hdigits d hd

theorem matchSeal_signed (s : PqSeal) : matchSeal (signedWith (filler s)) =
    some ⟨1142, (sealDict s).length + 1142, sealB64 s⟩ := by
  have hlength : (before ++ [60] ++ cmsDigits).length = 1142 := by
    rw [List.length_append, List.length_append, before_length, cmsDigits_length]
    rfl
  have hsplit : signedWith (filler s) = (before ++ [60] ++ cmsDigits) ++ (sealDict s ++
      (List.replicate (400000 - (sealDict s).length) 48 ++ ([62] ++ Sample.after))) := by
    simp only [signedWith, filler, List.append_assoc]
  rw [hsplit, matchSeal_noType noType (sealDict_head _ _), matchSeal_sealDict, hlength,
    Option.map_some, SealMatch.shift, Nat.zero_add]

theorem accepted : ∃ s, ∃ h : (sealDict s).length ≤ 400000, ∃ v,
    verifyDocument host (pdf s h) {} = .ok v ∧ v.ok = true ∧ v.postQuantum.present = true ∧
      v.classical.byteRange = some ranges ∧ extractPqSeal (pdf s h).bytes = some s.toJson := by
  obtain ⟨s, hbuilt, hlength⟩ := length_foreignSeal
  have hsigs : (verifyPqSealSignatures host s.toJson).ok = true :=
    verifyPqSealSignatures_built hbuilt keys_verified
  have hfound : extractPqSeal (pdf s hlength).bytes = some s.toJson := by
    rw [extractPqSeal, pdf, matchSeal_signed]
    simp only [Option.bind_some, decodeSeal_sealB64]
  obtain ⟨-, _, _, -, -, hs⟩ := buildPqSeal_ok hbuilt
  have hcovered : s.coveredBytes = ((45 : Nat) : ℚ) := by rw [hs]; rfl
  have hdigest : s.digest = hexText (host.forge.sha256 ((pdf s hlength).bytes.take 45)) := by
    have hfirst : (pdf s hlength).bytes.take 45 = before := List.take_left' before_length
    rw [hfirst, hs]
    rfl
  have hpdf : (pdf s hlength).length = 401152 := length_signed (length_filler hlength)
  have hbind : bindDigest host (pdf s hlength) s.toJson = (true, []) :=
    bindDigest_built hdigest hcovered (by omega) (by omega)
  obtain ⟨verdict, hverdict, hpresent, hok, hlen⟩ := verifyPqSeal_accepts hfound hbind hsigs
  have hclassical : (verifyPdfStructure host.forge (pdf s hlength)).ok = true :=
    classical_ok (length_filler hlength) rfl
  obtain ⟨l, hl, -⟩ := verifyPdfStructure_ok.mp hclassical
  have hrange : (verifyPdfStructure host.forge (pdf s hlength)).byteRange = some ranges := by
    rw [verifyPdfStructure_byteRange hl]
    obtain ⟨r, der, hm, -, -, rfl⟩ := locatePkcs7_eq_ok.mp hl
    rw [pdf, matchByteRange_signed] at hm
    exact congrArg some (Option.some.inj hm).symm
  have hregion : beyondSignedRegion host (verifyPdfStructure host.forge (pdf s hlength)) verdict =
      false := by
    have hsum : ranges.a + ranges.b = .int 45 := by decide
    simp [beyondSignedRegion, hrange, hlen, hcovered, valueExceeds, hsum, exceeds]
  obtain ⟨v, hv, hvok, hvpresent, hvclassical⟩ :=
    verifyDocument_accepts hclassical hverdict hpresent hok hregion
  exact ⟨s, hlength, v, hv, hvok, hvpresent, hvclassical ▸ hrange, hfound⟩

end HoleSample

-- ---------------------------------------------------------------------------
-- Accepted documents
-- ---------------------------------------------------------------------------

end EsigSuite
