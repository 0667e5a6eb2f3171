import EsigSuite.Pdf.VerifyBrowser

/-!
# Which bytes an accepted signature covers

The range equation of the portable verifier is one identity over four numbers.
`locate_ranges` says what it leaves once the hole holds DER: the first range
may start anywhere, and the second may start at 0. Starting the first range at
0 and the second elsewhere is therefore exactly what makes the two ranges tile
the file, and exactly what makes the two verifiers agree.
-/

namespace EsigSuite

open Lib Asn1

-- ---------------------------------------------------------------------------
-- Reading the /ByteRange and the hole
-- ---------------------------------------------------------------------------

theorem byteRangeAt_nonneg (h : byteRangeAt bytes = some r) :
    r.a.Nonneg ∧ r.b.Nonneg ∧ r.c.Nonneg ∧ r.d.Nonneg := by
  simp only [byteRangeAt, Option.bind_eq_bind, Option.bind_eq_some_iff, Option.pure_def] at h
  obtain ⟨_, -, _, -, _, -, _, -, _, -, _, -, _, -, _, -, _, -, _, -, h⟩ := h
  cases h
  exact ⟨Number.ofNat_nonneg _, Number.ofNat_nonneg _, Number.ofNat_nonneg _,
    Number.ofNat_nonneg _⟩

theorem matchByteRange_nonneg (h : matchByteRange bytes = some r) :
    r.a.Nonneg ∧ r.b.Nonneg ∧ r.c.Nonneg ∧ r.d.Nonneg := by
  induction bytes with
  | nil => cases h
  | cons b rest ih =>
    rcases Option.or_eq_some_iff.mp h with h | ⟨-, h⟩
    · exact byteRangeAt_nonneg h
    · exact ih h

theorem derTotalLength_two_le (h : derTotalLength buf = some n) : 2 ≤ buf.length := by
  match buf, h with
  | tag :: l0 :: rest, _ => simp

/-- The hole is not empty once its hexadecimal digits hold a DER header. -/
theorem hole_nonempty {r : ByteRange} (h : r.pkcs7Der? bytes = some der) :
    0 < (slice bytes (r.a + r.b + .ofNat 1) (r.c - .ofNat 1)).length := by
  obtain ⟨n, hn, -⟩ := Option.map_eq_some_iff.mp h
  obtain ⟨hn, -⟩ := Option.filter_eq_some_iff.mp hn
  have hlen := derTotalLength_two_le hn
  rw [length_fromHex] at hlen
  have hle : (hexDigits (slice bytes (r.a + r.b + .ofNat 1) (r.c - .ofNat 1))).length ≤ _ :=
    List.length_filterMap_le _ _
  omega

/-- What the `try` block is entered with. -/
theorem locatePkcs7_eq_ok : locatePkcs7 signed = .ok l ↔
    ∃ r der, matchByteRange signed.bytes = some r ∧ r.fills signed.length ∧
      r.pkcs7Der? signed.bytes = some der ∧ l = ⟨r, r.hole - .ofNat 2, der⟩ := by
  unfold locatePkcs7
  constructor
  · intro h
    split at h
    · cases h
    next r hr =>
      split at h
      · cases h
      next hsize =>
        dsimp only at h
        split at h
        · cases h
        next der hder =>
          cases h
          exact ⟨r, der, hr, not_not.mp hsize, hder, rfl⟩
  · rintro ⟨r, der, hr, hsize, hder, rfl⟩
    simp only [hr, hsize, hder, not_true_eq_false, ↓reduceIte]

section
variable {a b c d : Number}

/-- The end of the first range lies before the end of the file, so it and the
two numbers it was computed from are exact. -/
theorem first_range_exact {bytes : Bytes} (hlen : bytes.length < 2 ^ 53) (ha : a.Nonneg)
    (hb : b.Nonneg) (hhole : 0 < (slice bytes (a + b + .ofNat 1) (c - .ofNat 1)).length) :
    ∃ m n : Nat, a = .int m ∧ b = .int n ∧ a + b = .int (m + n) ∧
      (a + b + .ofNat 1).offset bytes.length = m + n + 1 ∧ m + n + 1 < bytes.length := by
  rw [length_slice] at hhole
  have hstop := (c - Number.ofNat 1).offset_le bytes.length
  have hlt : (a + b + .ofNat 1).offset bytes.length < bytes.length := by omega
  have hab := Number.add_nonneg ha hb
  have hstart := Number.offset_of_lt (Number.add_nonneg hab (Number.ofNat_nonneg 1)) hlt
  obtain ⟨s, one, hs, hone, hsum⟩ := Number.add_int hstart (by omega)
  rw [Number.ofNat_small (by norm_num), Number.int.injEq] at hone
  obtain ⟨m, n, rfl, rfl, hmn⟩ := Number.add_int hs (by rw [hs] at hab; change 0 ≤ s at hab; omega)
  change 0 ≤ m at ha
  change 0 ≤ n at hb
  refine ⟨m.toNat, n.toNat, Number.Nonneg.int_toNat ha, Number.Nonneg.int_toNat hb, ?_, ?_, ?_⟩
  · rw [hs]; congr 1; omega
  · push_cast at hone hsum ⊢; omega
  · push_cast at hone hsum ⊢; omega

end

/-- The only freedom the structural checks leave: an arbitrary start of the
first range, or a second range starting at 0. -/
theorem fills_ranges {signed : Buffer} (hm : matchByteRange signed.bytes = some r)
    (hsize : r.fills signed.length) (hder : r.pkcs7Der? signed.bytes = some der) :
    ∃ a b c : Nat, r.a = .int a ∧ r.b = .int b ∧ r.c = .int c ∧
      (c = 0 ∨ ∃ d : Nat, r.d = .int d ∧ a + b + 2 < c ∧ c + d = signed.length + a) := by
  obtain ⟨ha, hb, hc, hd⟩ := matchByteRange_nonneg hm
  have hhole := hole_nonempty hder
  have hlen : signed.length < 2 ^ 53 := signed.length_lt
  obtain ⟨a, b, hae, hbe, hab, hstart, hlt⟩ := first_range_exact hlen ha hb hhole
  change a + b + 1 < signed.length at hlt
  rw [ByteRange.fills, ByteRange.hole, Number.ofNat_small hlen] at hsize
  obtain ⟨covered, hole, hcovered, hholeEq, hsum⟩ := Number.add_int hsize (by simpa using hlen)
  have hcoveredNonneg : 0 ≤ covered := by
    have := Number.add_nonneg hb hd
    rwa [hcovered] at this
  -- The hole is at least `-(a + b)`, so the equation pins it exactly.
  rw [hab] at hholeEq
  have hholeLower : -(a + b : Int) ≤ hole := by
    rcases Number.sub_small hc (by omega) hholeEq with h | h
    · omega
    · rw [h] at hc; change 0 ≤ hole + (a + b : Int) at hc; omega
  obtain ⟨c, s, hce, hs, hceq⟩ := Number.sub_int hholeEq (by omega)
  rw [Number.int.injEq] at hs
  rw [hce] at hc hhole
  change 0 ≤ c at hc
  refine ⟨a, b, c.toNat, hae, hbe, by rw [hce, Int.toNat_of_nonneg hc], ?_⟩
  rcases hc.eq_or_lt with rfl | hpos
  · exact .inl rfl
  right
  have hstop : a + b + 2 < c := by
    rw [length_slice, hstart, Number.ofNat_small (by norm_num), Number.int_sub_int] at hhole
    by_cases hsmall : (c - 1).natAbs < 2 ^ 53
    · simp only [Nat.cast_one, Number.round_small hsmall, Number.offset] at hhole
      split at hhole <;> omega
    · omega
  obtain ⟨m, d, hbm, hde, hbd⟩ := Number.add_int hcovered (by omega)
  rw [hbe, Number.int.injEq] at hbm
  rw [hde] at hd
  change 0 ≤ d at hd
  exact ⟨d.toNat, by rw [hde, Int.toNat_of_nonneg hd], by omega, by omega⟩

-- ---------------------------------------------------------------------------
-- What the verifier hashes
-- ---------------------------------------------------------------------------

/-- The ranges leave out nothing but the hole `[a + b, c)`. -/
def CoversFile (pdf : Buffer) (r : ByteRange) : Prop :=
  ∃ a b c d : Nat, r = ⟨.int a, .int b, .int c, .int d⟩ ∧
    a = 0 ∧ a + b < c ∧ c + d = pdf.length ∧
    r.covered pdf.bytes = pdf.bytes.take (a + b) ++ pdf.bytes.drop c ∧
    ∀ other : Bytes, other.length = pdf.length →
      (∃ i < pdf.length, (i < a + b ∨ c ≤ i) ∧ other[i]? ≠ pdf.bytes[i]?) →
      r.covered other ≠ r.covered pdf.bytes

theorem covered_tiles {bytes : Bytes} {b c d : Nat} (hlen : bytes.length < 2 ^ 53)
    (hbc : b < c) (hcd : c + d = bytes.length) :
    ByteRange.covered ⟨.int 0, .int b, .int c, .int d⟩ bytes = bytes.take b ++ bytes.drop c := by
  have hb : (Number.int 0 + Number.int b) = .int b := by
    rw [Number.int_add_int, Number.round_small (by omega)]; simp
  have hd : (Number.int c + Number.int d) = .int bytes.length := by
    rw [Number.int_add_int, Number.round_small (by omega), ← hcd, Int.natCast_add]
  simp only [ByteRange.covered, hb, hd, slice]
  rw [Number.offset_int b (by omega), Number.offset_int _ le_rfl, Number.offset_int c (by omega),
    List.take_length]
  rfl

/-- Two files that agree on both ranges agree outside the hole. -/
theorem getElem?_of_covered {xs ys : List α} (hlen : xs.length = ys.length)
    (h : xs.take b ++ xs.drop c = ys.take b ++ ys.drop c) (hi : i < b ∨ c ≤ i) :
    xs[i]? = ys[i]? := by
  obtain ⟨htake, hdrop⟩ := List.append_inj h (by rw [List.length_take, List.length_take, hlen])
  rcases hi with hi | hi
  · have := congrArg (·[i]?) htake
    simpa only [List.getElem?_take, hi, ↓reduceIte] using this
  · have := congrArg (·[i - c]?) hdrop
    simpa only [List.getElem?_drop, Nat.add_sub_cancel' hi] using this

/-- With those two starts fixed, the ranges tile the file. -/
theorem ranges_of_start {pdf : Buffer} (hm : matchByteRange pdf.bytes = some r)
    (hsize : r.fills pdf.length) (hder : r.pkcs7Der? pdf.bytes = some der)
    (ha : r.a = .int 0) (hc : r.c ≠ .int 0) :
    ∃ b c d : Nat, r = ⟨.int 0, .int b, .int c, .int d⟩ ∧ b + 2 < c ∧ c + d = pdf.length := by
  obtain ⟨a, b, c, ha', hb, hc', hcd⟩ := fills_ranges hm hsize hder
  rw [ha', Number.int.injEq] at ha
  obtain rfl : a = 0 := by omega
  rcases hcd with rfl | ⟨d, hd, hlt, hsum⟩
  · exact absurd hc' hc
  · refine ⟨b, c, d, ?_, by omega, by omega⟩
    cases r
    simp_all

/-- Ranges that pass the structural checks cover the file exactly when the
first starts at 0 and the second does not. -/
theorem coversFile_iff {pdf : Buffer} (hm : matchByteRange pdf.bytes = some r)
    (hsize : r.fills pdf.length) (hder : r.pkcs7Der? pdf.bytes = some der) :
    CoversFile pdf r ↔ r.a = .int 0 ∧ r.c ≠ .int 0 := by
  constructor
  · rintro ⟨a, b, c, d, rfl, rfl, hlt, -⟩
    refine ⟨rfl, fun h => ?_⟩
    rw [Number.int.injEq] at h
    omega
  · rintro ⟨ha, hc⟩
    obtain ⟨b, c, d, rfl, hlt, hsum⟩ := ranges_of_start hm hsize hder ha hc
    have hcovered : ∀ bytes : Bytes, bytes.length = pdf.length →
        ByteRange.covered ⟨.int 0, .int b, .int c, .int d⟩ bytes =
          bytes.take b ++ bytes.drop c := by
      intro bytes hbytes
      exact covered_tiles (hbytes ▸ pdf.length_lt) (by omega) (by omega)
    refine ⟨0, b, c, d, rfl, rfl, by omega, hsum, ?_, ?_⟩
    · rw [Nat.zero_add]
      exact hcovered pdf.bytes rfl
    · rintro other hother ⟨i, -, hi, hne⟩ h
      rw [hcovered other hother, hcovered pdf.bytes rfl] at h
      rw [Nat.zero_add] at hi
      exact hne (getElem?_of_covered hother h hi)

theorem locatePkcs7_error (h : locatePkcs7 signed = .error result) : result.ok = false := by
  unfold locatePkcs7 at h
  split at h
  · cases h; rfl
  · split at h
    · cases h; rfl
    · dsimp only at h
      split at h <;> cases h
      rfl

theorem verifyPkcs7_byteRange : (verifyPkcs7 forge signed l).byteRange = some l.byteRange := by
  unfold verifyPkcs7
  split <;> rfl

theorem verifyPdfStructure_byteRange (h : locatePkcs7 pdf = .ok l) :
    (verifyPdfStructure forge pdf).byteRange = some l.byteRange := by
  rw [verifyPdfStructure, h, verifyPkcs7_byteRange]

/-- An accepted file has passed the structural checks. -/
theorem verifyPdfStructure_ok : (verifyPdfStructure forge pdf).ok = true ↔
    ∃ l, locatePkcs7 pdf = .ok l ∧ (verifyPkcs7 forge pdf l).ok = true := by
  cases hl : locatePkcs7 pdf with
  | error result => simp [verifyPdfStructure, hl, locatePkcs7_error hl]
  | ok l => simp [verifyPdfStructure, hl]

/-- An accepted signature covers its file exactly when the first number of
the /ByteRange is 0 and the third is not. -/
theorem verified_coversFile_iff (h : (verifyPdfStructure forge pdf).ok = true) :
    (∃ r, (verifyPdfStructure forge pdf).byteRange = some r ∧ CoversFile pdf r) ↔
      ∀ r, matchByteRange pdf.bytes = some r → r.a = .int 0 ∧ r.c ≠ .int 0 := by
  obtain ⟨l, hl, -⟩ := verifyPdfStructure_ok.mp h
  rw [verifyPdfStructure_byteRange hl]
  obtain ⟨r, der, hm, hsize, hder, rfl⟩ := locatePkcs7_eq_ok.mp hl
  rw [hm]
  constructor
  · rintro ⟨_, ⟨⟩, hcovers⟩ _ ⟨⟩
    exact (coversFile_iff hm hsize hder).mp hcovers
  · intro hcond
    exact ⟨r, rfl, (coversFile_iff hm hsize hder).mpr (hcond r rfl)⟩

-- ---------------------------------------------------------------------------
-- A file signed from its second byte on
-- ---------------------------------------------------------------------------

namespace Sample

def hexBytes (n hex : Nat) : Bytes :=
  (List.range n).map fun i => UInt8.ofNat (hex >>> (8 * (n - 1 - i)))

theorem hexBytes_length (n hex : Nat) : (hexBytes n hex).length = n := by
  rw [hexBytes, List.length_map, List.length_range]

def readLength : Bytes → Option (Nat × Bytes)
  | [] => none
  | l :: rest =>
    if l < 0x80 then some (l.toNat, rest)
    else
      let n := (l &&& 0x7f).toNat
      some ((rest.take n).foldl (fun v b => v * 256 + b.toNat) 0, rest.drop n)

mutual
/-- The DER value at the front. Bit strings stay byte strings: the verifiers
read nothing inside one. -/
def readNode : Nat → Bytes → Option (Asn1 × Bytes)
  | fuel + 1, tag :: rest => do
    let (length, rest) ← readLength rest
    let tagClass := (tag &&& 0xc0).toNat
    let type := (tag &&& 0x1f).toNat
    let node ←
      if tag &&& 0x20 = 0 then some (.primitive tagClass type (rest.take length))
      else (readNodes fuel (rest.take length)).map (.constructed tagClass type)
    return (node, rest.drop length)
  | _, _ => none
def readNodes : Nat → Bytes → Option (List Asn1)
  | _, [] => some []
  | fuel + 1, bytes => do
    let (node, rest) ← readNode fuel bytes
    return node :: (← readNodes fuel rest)
  | 0, _ => none
end

def writeLength (length : Nat) : Bytes :=
  if length < 0x80 then [UInt8.ofNat length]
  else [0x82, UInt8.ofNat (length / 256), UInt8.ofNat length]

mutual
def writeNode : Asn1 → Bytes
  | .primitive tagClass type value =>
    UInt8.ofNat (tagClass + type) :: writeLength value.length ++ value
  | .constructed tagClass type children =>
    let value := writeNodes children
    UInt8.ofNat (tagClass + 0x20 + type) :: writeLength value.length ++ value
def writeNodes : List Asn1 → Bytes
  | [] => []
  | node :: rest => writeNode node ++ writeNodes rest
end

/-- `%PDF-1.7\n<</ByteRange[1 43 1142 10]/Contents` -/
def before : Bytes :=
  hexBytes 44 0x255044462d312e370a3c3c2f4279746552616e67655b3120343320313134322031305d2f436f6e74656e7473

/-- `>>\n%%EOF\n` -/
def after : Bytes := hexBytes 9 0x3e3e0a2525454f460a

/-- The detached CMS signature. -/
def cms : Bytes := List.flatten [
  hexBytes 40 0x3082022006092a864886f70d010702a08202113082020d020101310d300b06096086480165030402,
  hexBytes 40 0x01300b06092a864886f70d010701a0820105308201013081ac020101300d06092a864886f70d0101,
  hexBytes 40 0x0b0500300c310a300806035504030c0161301e170d3236313131383233353934315a170d33363131,
  hexBytes 40 0x31353233353934315a300c310a300806035504030c0161305c300d06092a864886f70d0101010500,
  hexBytes 40 0x034b003048024100cd81352bc4d927efd1f2bf4d82a2999fb279ff90e12ad1e9e31d9f1fab1ddcf0,
  hexBytes 40 0xa317c53860c5f50c54e2b7a45dae88f5417379a74353ec1e4b999a5d6a7ba0590203010001300d06,
  hexBytes 40 0x092a864886f70d01010b05000341004aefc3f2e2174d6b12c4d9326b2125017b02ddcd07566e4716,
  hexBytes 40 0xc8f5c55fc69740f2711522395861bd6bcd9be2921df5aee2a5d37b388877854026ce284c4c929831,
  hexBytes 40 0x81e23081df0201013011300c310a300806035504030c0161020101300b0609608648016503040201,
  hexBytes 40 0xa069301806092a864886f70d010903310b06092a864886f70d010701301c06092a864886f70d0109,
  hexBytes 40 0x05310f170d3236313131393030303030315a302f06092a864886f70d01090431220420e3dab0c270,
  hexBytes 40 0x12243cd0273fde0cf5af5e4e64c4c50d9ba6b07e03cbea3dd54ae0300d06092a864886f70d010101,
  hexBytes 40 0x0500044035b93342c69231d8ad03c7d194307f16ac398130a1ea836644277d6577962f2fdc4d8fd9,
  hexBytes 28 0x1271db2b6b90d6bacd612cac5f51094f69dfbfab08db3b5343ef89f0]

def cmsDigits : Bytes :=
  (bytesToHex cms).map fun digit => UInt8.ofNat (if digit < 10 then 48 + digit else 87 + digit)

def pdf : Buffer where
  bytes := before ++ [60] ++ cmsDigits ++ [62] ++ after
  length_lt := by decide +kernel

def messageDigest : Bytes := (cms.drop 435).take 32

/-- The signed attributes under the tag of a SET, and their digest. -/
def attributes : Bytes := 0x31 :: (cms.drop 361).take 106
def attributesDigest : Bytes :=
  hexBytes 32 0xdfedd66e977506df01f1b6c81c9d9a9fe3a124e92f64f0ceec3fa826e761604e

def signatureValue : Bytes := cms.drop 484

def signerCert : Certificate where
  commonName := some "a"
  organization := none
  verify digest signature := .ok (digest == attributesDigest && signature == signatureValue)

def forge : Forge where
  fromDer der :=
    match readNode der.length der with
    | some (node, []) => .ok node
    | _ => .error "Unparsed DER bytes remain after ASN.1 parsing."
  toDer node := .ok (writeNode node)
  derToOid der :=
    .ok (if der = hexBytes 9 0x2a864886f70d010904 then OID_MESSAGE_DIGEST
      else if der = hexBytes 9 0x2a864886f70d010903 then "1.2.840.113549.1.9.3"
      else "1.2.840.113549.1.9.5")
  certificates _ := .ok [signerCert]
  sha256 message :=
    if message = before.drop 1 ++ after then messageDigest
    else if message = attributes then attributesDigest
    else []

/-- The file with what is evaluated on it. -/
def acceptedPdf : {file : Buffer // (verifyPdfStructure forge file).ok = true ∧
    matchByteRange file.bytes = some ⟨.int 1, .int 43, .int 1142, .int 10⟩} :=
  ⟨pdf, by decide +kernel⟩

theorem accepted : (verifyPdfStructure forge pdf).ok = true := acceptedPdf.property.1

theorem byteRange :
    matchByteRange pdf.bytes = some ⟨.int 1, .int 43, .int 1142, .int 10⟩ := acceptedPdf.property.2

end Sample


/-- The byte before the first range is signed by nobody. -/
theorem sample_uncovered :
    ¬ ((verifyPdfStructure Sample.forge Sample.pdf).ok = true →
      ∃ r, (verifyPdfStructure Sample.forge Sample.pdf).byteRange = some r ∧
        CoversFile Sample.pdf r) := by
  intro h
  obtain ⟨r, hr, hcovers⟩ := h Sample.accepted
  obtain ⟨l, hl, -⟩ := verifyPdfStructure_ok.mp Sample.accepted
  rw [verifyPdfStructure_byteRange hl] at hr
  obtain ⟨r', der, hm, hsize, hder, rfl⟩ := locatePkcs7_eq_ok.mp hl
  obtain rfl : r' = r := Option.some.inj hr
  rw [Sample.byteRange] at hm
  cases hm
  have ha := ((coversFile_iff Sample.byteRange hsize hder).mp hcovers).1
  simp at ha

theorem sample_coversFile_iff :
    (∃ r, (verifyPdfStructure Sample.forge Sample.pdf).byteRange = some r ∧
      CoversFile Sample.pdf r) ↔
      ∀ r, matchByteRange Sample.pdf.bytes = some r → r.a = .int 0 ∧ r.c ≠ .int 0 :=
  verified_coversFile_iff Sample.accepted

end EsigSuite
