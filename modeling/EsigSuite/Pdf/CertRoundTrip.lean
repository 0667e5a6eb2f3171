import EsigSuite.Lib.FirstOk
import EsigSuite.Pdf.ReadTlv

/-!
# What a written certificate reads back as

`parseMlDsaCertificate_readsBack_iff`: a certificate is read back as it was
issued exactly when its times are before 2050 and node-forge does not take the
public key for an encoded value. The parser reads every time as a UTCTime, and
the key from a tree in which BIT STRINGs have been opened.
-/

namespace EsigSuite.PqCert

open Lib

-- ---------------------------------------------------------------------------
-- node-forge and ML-DSA
-- ---------------------------------------------------------------------------

/-- The limit of the engine on strings, which hold the bytes of node-forge. -/
def MAX_STRING_LENGTH : Nat := 0x1fffffe8

def engineString (text : Bytes) : Except String Bytes :=
  if text.length ≤ MAX_STRING_LENGTH then .ok text else .error "Invalid string length"

def twoDigits (n : Nat) : Bytes := [UInt8.ofNat (48 + n / 10), UInt8.ofNat (48 + n % 10)]

/-- `MMDDhhmmssZ` -/
def monthToSecond (t : Int) : Bytes :=
  let fields := UtcTime.Fields.ofMillis t
  twoDigits fields.date.month ++ twoDigits fields.date.day ++ twoDigits fields.hour ++
    twoDigits fields.minute ++ twoDigits fields.second ++ [90]

def utcTimeText (t : Int) : Bytes := twoDigits (UtcTime.year t % 100).toNat ++ monthToSecond t

def generalizedTimeText (t : Int) : Bytes :=
  twoDigits (UtcTime.year t / 100).toNat ++ utcTimeText t

def certificateOids : List String :=
  [ID_ML_DSA_65, OID_COMMON_NAME, OID_ORG_NAME, OID_BASIC_CONSTRAINTS, OID_KEY_USAGE]

/-- What node-forge is documented to do. `composed` is the value that `fromDer`
finds in a BIT STRING, which it looks for by default. `utcTimeToDate` reads six
fields of two digits, and a time zone if a sign follows them. -/
structure X509Forge.Documented (forge : X509Forge) (composed : Bytes → Option Asn1) : Prop where
  toDer : ∀ node, Der.WellFormed node → forge.toDer node = engineString (Der.encode node)
  fromDer : ∀ node, Der.WellFormed node → (Der.encode node).length ≤ MAX_STRING_LENGTH →
    forge.fromDer (Der.encode node) = .ok (Der.decoded composed node)
  derToOid : ∀ oid ∈ certificateOids, forge.derToOid (forge.oidToDer oid) = .ok oid
  decodeUtf8 : ∀ text : JsString, text.all isPrintable →
    forge.decodeUtf8 (forge.encodeUtf8 text) = .ok text
  dateToUtcTime : ∀ t, 1950 ≤ UtcTime.year t → UtcTime.year t < 2050 →
    forge.dateToUtcTime (some t) = utcTimeText t
  dateToGeneralizedTime : ∀ t, 2050 ≤ UtcTime.year t → UtcTime.year t ≤ 9999 →
    forge.dateToGeneralizedTime (some t) = generalizedTimeText t
  utcTimeToDate : ∀ yy month day hour minute second : Nat, ∀ rest : Bytes,
    (∀ n ∈ [yy, month, day, hour, minute, second], n < 100) →
      rest.head? ≠ some 43 → rest.head? ≠ some 45 →
        forge.utcTimeToDate (twoDigits yy ++ twoDigits month ++ twoDigits day ++ twoDigits hour ++
          twoDigits minute ++ twoDigits second ++ rest) =
            some (UtcTime.ofTwoDigits yy month day hour minute second)

/-- The signatures of a key pair have one length and verify under its public key. -/
def KeyPair (verify : Bytes → Bytes → Bytes → Except String Bool) (keys : PqSigningKeys) : Prop :=
  ∀ message signature, keys.mldsa65Sign message = .ok signature →
    signature.length = MLDSA65_SIGNATURE_LEN ∧
      verify signature message keys.mldsa65PublicKey = .ok true

-- ---------------------------------------------------------------------------
-- The round trip
-- ---------------------------------------------------------------------------

/-- A date in the years that a certificate can name. -/
def InYears (d : Option Int) : Prop :=
  ∃ t, d = some t ∧ 1950 ≤ UtcTime.year t ∧ UtcTime.year t ≤ 9999

def Before2050 (d : Option Int) : Prop := ∀ t ∈ d, UtcTime.year t < 2050

/-- The fields of an issued certificate are read back, and it verifies at every
whole second of its window. -/
structure ReadsBack (forge : X509Forge) (verify : Bytes → Bytes → Bytes → Except String Bool)
    (opts : IssueMlDsaCertOptions) (issued : MlDsaCertificate) (given : SignerCert) : Prop where
  parsed : ∃ p, parseMlDsaCertificate forge given = .ok p ∧
    p.subjectCommonName = commonName opts.subjectName ∧
    p.publicKey = opts.keys.mldsa65PublicKey ∧
    p.notBefore = issued.notBefore.map UtcTime.toSecond ∧
    p.notAfter = issued.notAfter.map UtcTime.toSecond
  verifies : ∀ second : Int, timeLe issued.notBefore (some (1000 * second)) →
    timeLe (some (1000 * second)) issued.notAfter →
      (verifyMlDsaCertificate forge verify given (some (1000 * second))).ok = true

-- ---------------------------------------------------------------------------
-- PEM
-- ---------------------------------------------------------------------------

theorem b64_text {c : UInt16} {der : Bytes} (h : c ∈ b64 der) :
    c ≠ 45 ∧ isWhiteUnit c = false := by
  obtain ⟨code, hcode, rfl⟩ := List.mem_map.mp h
  have hall : ∀ n : Fin 256, Base64.isText (.ofFin n) = true →
      (UInt8.ofFin n).toUInt16 ≠ 45 ∧ isWhiteUnit (UInt8.ofFin n).toUInt16 = false := by
    decide +kernel
  exact hall code.toFin (Base64.isText_encode der code hcode)

theorem pemToDer_derToPem (der : Bytes) : pemToDer (derToPem der) = der := by
  have hbody : 45 ∉ js "\n" ++ List.intercalate (js "\n") (wrap 64 (b64 der)) := by
    intro h
    rcases List.mem_append.mp h with h | h
    · revert h
      decide
    rcases mem_intercalate_or h with h | h
    · revert h
      decide
    · rw [flatten_wrap] at h
      exact (b64_text h).1 rfl
  have hwhite : (b64 der).filter (fun c => !isWhiteUnit c) = b64 der :=
    List.filter_eq_self.mpr fun c hc => by simp [(b64_text hc).2]
  have htext : derToPem der = js "-----BEGIN CERTIFICATE-----" ++
      ((js "\n" ++ List.intercalate (js "\n") (wrap 64 (b64 der))) ++
        js "\n-----END CERTIFICATE-----\n") := by
    have hbegin : js "-----BEGIN CERTIFICATE-----\n" =
        js "-----BEGIN CERTIFICATE-----" ++ js "\n" := by decide
    rw [derToPem, hbegin]
    simp only [List.append_assoc]
  have hend : (dropMarkers 0 (js "\n-----END CERTIFICATE-----\n")).filter
      (fun c => !isWhiteUnit c) = [] := by decide
  have hnewline : (js "\n").filter (fun c => !isWhiteUnit c) = [] := by decide
  rw [pemToDer, htext, dropMarkers_begin, dropMarkers_append hbody, List.filter_append,
    List.filter_append, hend, hnewline, filter_intercalate hnewline, flatten_wrap, hwhite,
    List.nil_append, List.append_nil, fromBase64_b64]

-- ---------------------------------------------------------------------------
-- Times
-- ---------------------------------------------------------------------------

/-- The value of `timeNode`. -/
def timeText (forge : X509Forge) (d : Option Int) : Bytes :=
  if d.any (UtcTime.year · < 2050) then forge.dateToUtcTime d else forge.dateToGeneralizedTime d

section
variable {forge : X509Forge} {composed : Bytes → Option Asn1}

theorem digit_ne_sign {n : Nat} (h : n < 10) :
    UInt8.ofNat (48 + n) ≠ 43 ∧ UInt8.ofNat (48 + n) ≠ 45 := by
  have hall : ∀ n < 10, UInt8.ofNat (48 + n) ≠ 43 ∧ UInt8.ofNat (48 + n) ≠ 45 := by decide
  exact hall n h

/-- A UTCTime is read to the second. -/
theorem utcTimeToDate_utcTime (hforge : forge.Documented composed) {t : Int}
    (h : 1950 ≤ UtcTime.year t ∧ UtcTime.year t < 2050) :
    forge.utcTimeToDate (utcTimeText t) = some (UtcTime.toSecond t) := by
  obtain ⟨hmonth, hday⟩ := UtcTime.Fields.valid t
  obtain ⟨hhour, hminute, hsecond⟩ := UtcTime.Fields.clock t
  have hread := hforge.utcTimeToDate (UtcTime.year t % 100).toNat
    (UtcTime.Fields.ofMillis t).date.month (UtcTime.Fields.ofMillis t).date.day
    (UtcTime.Fields.ofMillis t).hour (UtcTime.Fields.ofMillis t).minute
    (UtcTime.Fields.ofMillis t).second [90]
    (by simp only [List.forall_mem_cons, List.not_mem_nil, false_implies, implies_true, and_true]
        omega) (by decide) (by decide)
  rw [UtcTime.ofTwoDigits, UtcTime.century_year h, UtcTime.makeTime_ofMillis] at hread
  rw [← hread, utcTimeText, monthToSecond]
  simp only [List.append_assoc]

/-- A GeneralizedTime is read as an earlier time. -/
theorem utcTimeToDate_generalizedTime (hforge : forge.Documented composed) {t : Int}
    (h : 2050 ≤ UtcTime.year t ∧ UtcTime.year t ≤ 9999) :
    ∃ s < UtcTime.toSecond t, forge.utcTimeToDate (generalizedTimeText t) = some s := by
  obtain ⟨hmonth, hday⟩ := UtcTime.Fields.valid t
  obtain ⟨hhour, hminute, hsecond⟩ := UtcTime.Fields.clock t
  have hsign : UInt8.ofNat (48 + (UtcTime.Fields.ofMillis t).second / 10) ≠ 43 ∧
      UInt8.ofNat (48 + (UtcTime.Fields.ofMillis t).second / 10) ≠ 45 := digit_ne_sign (by omega)
  refine ⟨_, UtcTime.ofTwoDigits_lt h hmonth.2 hday.2 (hhour.le.trans (by decide))
    (Nat.le_of_lt_succ hminute), ?_⟩
  have hread := hforge.utcTimeToDate (UtcTime.year t / 100).toNat (UtcTime.year t % 100).toNat
    (UtcTime.Fields.ofMillis t).date.month (UtcTime.Fields.ofMillis t).date.day
    (UtcTime.Fields.ofMillis t).hour (UtcTime.Fields.ofMillis t).minute
    (twoDigits (UtcTime.Fields.ofMillis t).second ++ [90])
    (by simp only [List.forall_mem_cons, List.not_mem_nil, false_implies, implies_true, and_true]
        omega) (by simpa [twoDigits] using hsign.1) (by simpa [twoDigits] using hsign.2)
  rw [← hread, generalizedTimeText, utcTimeText, monthToSecond]
  simp only [List.append_assoc]

/-- A time of a certificate comes back to the second exactly before 2050. -/
theorem utcTimeToDate_timeText_iff (hforge : forge.Documented composed) {d : Option Int}
    (hd : InYears d) :
    forge.utcTimeToDate (timeText forge d) = d.map UtcTime.toSecond ↔ Before2050 d := by
  obtain ⟨t, rfl, hlow, hhigh⟩ := hd
  by_cases hbefore : UtcTime.year t < 2050
  · have htext : timeText forge (some t) = utcTimeText t := by
      rw [timeText, Option.any_some, decide_eq_true hbefore, if_pos rfl,
        hforge.dateToUtcTime t hlow hbefore]
    rw [htext, utcTimeToDate_utcTime hforge ⟨hlow, hbefore⟩]
    exact iff_of_true rfl fun t' ht' => Option.some.inj ht' ▸ hbefore
  · have htext : timeText forge (some t) = generalizedTimeText t := by
      rw [timeText, Option.any_some, decide_eq_false hbefore, if_neg Bool.false_ne_true,
        hforge.dateToGeneralizedTime t (by omega) hhigh]
    obtain ⟨s, hs, hread⟩ := utcTimeToDate_generalizedTime hforge ⟨not_lt.mp hbefore, hhigh⟩
    rw [htext, hread]
    exact iff_of_false (fun h => hs.ne (Option.some.inj h)) fun h => hbefore (h t rfl)

-- ---------------------------------------------------------------------------
-- Trees
-- ---------------------------------------------------------------------------

theorem decoded_other {t : Nat} (c : Nat) (value : Bytes) (hinteger : t ≠ Asn1.INTEGER)
    (hbits : t ≠ Asn1.BITSTRING) :
    Der.decoded composed (.primitive c t value) = .primitive c t value := by
  rw [Der.decoded_primitive value (.inr hbits), Der.octets_eq hinteger]

theorem decoded_oidNode (oid : String) :
    Der.decoded composed (oidNode forge oid) = oidNode forge oid :=
  decoded_other _ _ (by decide) (by decide)

theorem decoded_mlDsaAlgId : Der.decoded composed (mlDsaAlgId forge) = mlDsaAlgId forge := by
  simp only [mlDsaAlgId, sequence, Der.decoded, Der.decodedAll, decoded_oidNode]

theorem decoded_nameNode (commonName org : JsString) :
    Der.decoded composed (nameNode forge commonName org) = nameNode forge commonName org := by
  have hutf8 : ∀ value, Der.decoded composed (utf8Node forge value) = utf8Node forge value :=
    fun value => decoded_other _ _ (by decide) (by decide)
  simp only [nameNode, rdn, sequence, Der.decoded, Der.decodedAll, decoded_oidNode, hutf8]

theorem decoded_timeNode (d : Option Int) :
    Der.decoded composed (timeNode forge d) = timeNode forge d := by
  unfold timeNode
  split
  · exact decoded_other _ _ (by decide) (by decide)
  · exact decoded_other _ _ (by decide) (by decide)

theorem text_timeNode (d : Option Int) : text (timeNode forge d) = .ok (timeText forge d) := by
  unfold timeNode timeText
  split <;> rfl

theorem octets_bitString (contents : Bytes) : Der.octets Asn1.BITSTRING contents = contents :=
  Der.octets_eq (by decide) contents

theorem rawBits_bitString (bytes : Bytes) :
    rawBits (Der.decoded composed (bitStringNode bytes)) =
      .ok (if composed bytes = none then bytes else []) := by
  rw [bitStringNode, Der.decoded, octets_bitString, List.drop_succ_cons, List.drop_zero]
  cases hcomposed : composed bytes with
  | none => rfl
  | some node => rfl

theorem extractCommonName_nameNode (hforge : forge.Documented composed) {name : JsString}
    (hname : name.all isPrintable) (org : JsString) :
    extractCommonName forge (nameNode forge name org) = .ok name := by
  have hoid : forge.derToOid (forge.oidToDer OID_COMMON_NAME) = .ok OID_COMMON_NAME :=
    hforge.derToOid OID_COMMON_NAME (by decide)
  have hfirst : commonNameOf forge (items (rdn forge OID_COMMON_NAME name)) = .ok (some name) := by
    simp only [rdn, sequence, items, List.map_cons, List.map_nil, commonNameOf, item,
      List.getElem?_cons_zero, List.getElem?_cons_succ, bind, Except.bind, oidNode, utf8Node, text,
      Asn1.string?, hoid, if_true, decodeValue, hforge.decodeUtf8 name hname]
    rfl
  change (commonNameOf forge (items (rdn forge OID_COMMON_NAME name))).bind _ = _
  rw [hfirst]
  rfl

/-- The fields that are read of a certificate, with the key that node-forge left. -/
def readFields (forge : X509Forge) (composed : Bytes → Option Asn1) (subjectName : JsString)
    (notBefore notAfter : Option Int) (pub : Bytes) : TreeFields where
  subjectCommonName := commonName subjectName
  notBefore := forge.utcTimeToDate (timeText forge notBefore)
  notAfter := forge.utcTimeToDate (timeText forge notAfter)
  publicKey := if composed pub = none then pub else []
  signatureAlgOid := ID_ML_DSA_65

theorem readTree_certNode (hforge : forge.Documented composed) (serial : Bytes)
    {subjectName : JsString} (hname : subjectName.all isPrintable) (notBefore notAfter : Option Int)
    (pub : Bytes) (extensions : List Asn1) (signature : Bytes) :
    readTree forge (Der.decoded composed (certNode forge
      (tbsNode forge serial subjectName notBefore notAfter pub extensions) signature)) =
        .ok (readFields forge composed subjectName notBefore notAfter pub) := by
  have hid : forge.derToOid (forge.oidToDer ID_ML_DSA_65) = .ok ID_ML_DSA_65 :=
    hforge.derToOid ID_ML_DSA_65 (by decide)
  have hprintable : (commonName subjectName).all isPrintable := by
    rw [commonName, List.all_append, List.all_append, hname]
    decide
  simp only [certNode, tbsNode, spkiNode, sequence, Der.decoded, Der.decodedAll, decoded_nameNode,
    decoded_mlDsaAlgId, decoded_timeNode]
  simp only [readTree, item, items, List.map_cons, List.map_nil, List.getElem?_cons_zero,
    List.getElem?_cons_succ, bind, Except.bind, text_timeNode,
    extractCommonName_nameNode hforge hprintable, rawBits_bitString]
  simp only [mlDsaAlgId, sequence, items, List.map_cons, List.map_nil, List.getElem?_cons_zero,
    oidNode, text, Asn1.string?, hid]
  rfl

-- ---------------------------------------------------------------------------
-- Issued certificates
-- ---------------------------------------------------------------------------

theorem extensionNode_wellFormed {oid : String} {critical : Bool} {value node : Asn1}
    (h : extensionNode forge oid critical value = .ok node) : Der.WellFormed node := by
  obtain ⟨der, -, h⟩ := bind_eq_ok.mp h
  cases h
  cases critical <;> simp [sequence, oidNode, Der.WellFormed, Der.AllWellFormed, Der.Tagged,
    Asn1.UNIVERSAL, Asn1.SEQUENCE, Asn1.OID, Asn1.BOOLEAN, Asn1.OCTETSTRING]

theorem extensionNodes_wellFormed {extensions : List Asn1}
    (h : extensionNodes forge = .ok extensions) : Der.AllWellFormed extensions := by
  obtain ⟨basicConstraints, hbasic, h⟩ := bind_eq_ok.mp h
  obtain ⟨keyUsage, husage, h⟩ := bind_eq_ok.mp h
  cases h
  exact ⟨extensionNode_wellFormed hbasic, extensionNode_wellFormed husage, trivial⟩

theorem tbsNode_wellFormed (forge : X509Forge) (serial : Bytes) (subjectName : JsString)
    (notBefore notAfter : Option Int) (pub : Bytes) {extensions : List Asn1}
    (h : Der.AllWellFormed extensions) :
    Der.WellFormed (tbsNode forge serial subjectName notBefore notAfter pub extensions) := by
  have htime : ∀ d, Der.WellFormed (timeNode forge d) := fun d => by
    unfold timeNode
    split <;> simp [Der.WellFormed, Der.Tagged, Asn1.UNIVERSAL, Asn1.UTCTIME, Asn1.GENERALIZEDTIME]
  simp [tbsNode, spkiNode, nameNode, rdn, mlDsaAlgId, oidNode, utf8Node, bitStringNode, sequence,
    Der.WellFormed, Der.AllWellFormed, Der.Tagged, Asn1.UNIVERSAL, Asn1.CONTEXT_SPECIFIC,
    Asn1.SEQUENCE, Asn1.SET, Asn1.INTEGER, Asn1.OID, Asn1.UTF8, Asn1.BITSTRING, htime, h]

theorem certNode_wellFormed (forge : X509Forge) {tbs : Asn1} (h : Der.WellFormed tbs) (signature : Bytes) :
    Der.WellFormed (certNode forge tbs signature) := by
  simp [certNode, mlDsaAlgId, oidNode, bitStringNode, sequence, Der.WellFormed, Der.AllWellFormed,
    Der.Tagged, Asn1.UNIVERSAL, Asn1.SEQUENCE, Asn1.OID, Asn1.BITSTRING, h]

/-- What a certificate was written from. -/
structure IssuedFrom (forge : X509Forge) (opts : IssueMlDsaCertOptions) (issued : MlDsaCertificate)
    (tbs : Asn1) (signature : Bytes) : Prop where
  tree : ∃ serial extensions, Der.AllWellFormed extensions ∧
    tbs = tbsNode forge serial opts.subjectName issued.notBefore issued.notAfter
      opts.keys.mldsa65PublicKey extensions
  name : opts.subjectName.all isPrintable
  pub : opts.keys.mldsa65PublicKey.length = MLDSA65_PUBLIC_LEN
  signed : ∃ tbsDer, forge.toDer tbs = .ok tbsDer ∧ opts.keys.mldsa65Sign tbsDer = .ok signature
  der : forge.toDer (certNode forge tbs signature) = .ok issued.certDer
  pem : issued.certPem = derToPem issued.certDer

theorem issue_from {random : Bytes} {now : Int} {opts : IssueMlDsaCertOptions}
    {issued : MlDsaCertificate} (h : issueMlDsaCertificate forge random now opts = .ok issued) :
    ∃ tbs signature, IssuedFrom forge opts issued tbs signature := by
  unfold issueMlDsaCertificate at h
  dsimp only at h
  split at h
  · cases h
  next hname =>
    split at h
    · cases h
    next hpub =>
      obtain ⟨extensions, hextensions, h⟩ := bind_eq_ok.mp h
      obtain ⟨tbsDer, htbs, h⟩ := bind_eq_ok.mp h
      obtain ⟨signature, hsign, h⟩ := bind_eq_ok.mp h
      obtain ⟨certDer, hder, h⟩ := bind_eq_ok.mp h
      cases h
      rw [not_or, not_not] at hname
      exact ⟨_, signature, ⟨⟨_, extensions, extensionNodes_wellFormed (mapError_eq_ok.mp hextensions), rfl⟩,
        hname.2, not_not.mp hpub, ⟨tbsDer, mapError_eq_ok.mp htbs, mapError_eq_ok.mp hsign⟩, mapError_eq_ok.mp hder,
        rfl⟩⟩

theorem toDer_ok (hforge : forge.Documented composed) {node : Asn1} {der : Bytes}
    (hwf : Der.WellFormed node) (h : forge.toDer node = .ok der) :
    der = Der.encode node ∧ der.length ≤ MAX_STRING_LENGTH := by
  rw [hforge.toDer node hwf, engineString] at h
  split at h
  next hle =>
    cases h
    exact ⟨rfl, hle⟩
  · cases h

theorem signedParts_certNode {tbs : Asn1} {signature : Bytes}
    (h : (Der.encode (certNode forge tbs signature)).length < 2 ^ 31) :
    signedParts (Der.encode (certNode forge tbs signature)) =
      .ok (Der.encode tbs, signature) := by
  obtain ⟨id, contents, htbs⟩ := Der.encode_tlv tbs
  have hencode : Der.encode (certNode forge tbs signature) =
      Der.tlv (Der.identifier Asn1.UNIVERSAL Asn1.SEQUENCE true)
        (Der.tlv id contents ++
          Der.tlv (Der.identifier Asn1.UNIVERSAL Asn1.SEQUENCE true)
            (Der.encodeAll [oidNode forge ID_ML_DSA_65]) ++
          Der.tlv (Der.identifier Asn1.UNIVERSAL Asn1.BITSTRING false) (0 :: signature)) := by
    simp only [certNode, mlDsaAlgId, sequence, bitStringNode, Der.encode, Der.encodeAll, htbs,
      octets_bitString, List.append_nil, List.append_assoc]
  rw [hencode] at h ⊢
  rw [signedParts_tlv _ _ _ _ _ _ _ _ h, htbs]

/-- The certificate as a text or as bytes. -/
def MlDsaCertificate.Given (issued : MlDsaCertificate) (given : SignerCert) : Prop :=
  given = .pem issued.certPem ∨ given = .der issued.certDer

theorem parse_issued (hforge : forge.Documented composed) {opts : IssueMlDsaCertOptions}
    {issued : MlDsaCertificate} {tbs : Asn1} {signature : Bytes}
    (h : IssuedFrom forge opts issued tbs signature) {given : SignerCert}
    (hgiven : issued.Given given) :
    ∃ p, parseMlDsaCertificate forge given = .ok p ∧
      opts.keys.mldsa65Sign p.tbsDer = .ok p.signature ∧
      p.toTreeFields = readFields forge composed opts.subjectName issued.notBefore issued.notAfter
        opts.keys.mldsa65PublicKey := by
  obtain ⟨serial, extensions, hextensions, rfl⟩ := h.tree
  obtain ⟨tbsDer, htbs, hsign⟩ := h.signed
  have hwf := tbsNode_wellFormed forge serial opts.subjectName issued.notBefore
    issued.notAfter opts.keys.mldsa65PublicKey hextensions
  have hcert := certNode_wellFormed forge hwf signature
  obtain ⟨hder, hle⟩ := toDer_ok hforge hcert h.der
  obtain ⟨rfl, -⟩ := toDer_ok hforge hwf htbs
  have hbytes : certBytes given = issued.certDer := by
    rcases hgiven with rfl | rfl
    · rw [certBytes, h.pem, pemToDer_derToPem]
    · rfl
  rw [hder] at hle
  have hparts := signedParts_certNode (hle.trans_lt (by decide))
  have hfrom := hforge.fromDer _ hcert hle
  have htree := readTree_certNode hforge serial h.name issued.notBefore issued.notAfter
    opts.keys.mldsa65PublicKey extensions signature
  generalize readFields forge composed opts.subjectName issued.notBefore issued.notAfter
    opts.keys.mldsa65PublicKey = fields at htree ⊢
  refine ⟨{ fields with
    publicKeyFingerprint := hexText (forge.sha256 fields.publicKey), tbsDer := _, signature },
    ?_, hsign, rfl⟩
  rw [parseMlDsaCertificate, hbytes, hder]
  simp only [hparts, hfrom, htree, bind, Except.bind, pure, Except.pure]
  rfl

-- ---------------------------------------------------------------------------
-- When a certificate reads back
-- ---------------------------------------------------------------------------

theorem timeLe_toSecond_left {d : Option Int} {second : Int}
    (h : timeLe d (some (1000 * second)) = true) :
    timeLe (d.map UtcTime.toSecond) (some (1000 * second)) = true := by
  cases d with
  | none => exact h
  | some t =>
    simp only [timeLe, Option.map_some, decide_eq_true_eq, UtcTime.toSecond] at h ⊢
    omega

theorem timeLe_toSecond_right {d : Option Int} {second : Int}
    (h : timeLe (some (1000 * second)) d = true) :
    timeLe (some (1000 * second)) (d.map UtcTime.toSecond) = true := by
  cases d with
  | none => exact h
  | some t =>
    simp only [timeLe, Option.map_some, decide_eq_true_eq, UtcTime.toSecond] at h ⊢
    omega

/-- Where the key and the times are read as they were, the certificate verifies. -/
theorem verdictOf_ok {verify : Bytes → Bytes → Bytes → Except String Bool} {keys : PqSigningKeys}
    (hkeys : KeyPair verify keys) (hpub : keys.mldsa65PublicKey.length = MLDSA65_PUBLIC_LEN)
    {p : ParsedMlDsaCertificate} (hsign : keys.mldsa65Sign p.tbsDer = .ok p.signature)
    (hkey : p.publicKey = keys.mldsa65PublicKey) (halg : p.signatureAlgOid = ID_ML_DSA_65)
    {now : Option Int} (hfrom : timeLe p.notBefore now = true)
    (hto : timeLe now p.notAfter = true) : (verdictOf verify p now).ok = true := by
  obtain ⟨hlength, hverify⟩ := hkeys _ _ hsign
  have hself : selfSignature verify p = true := by
    rw [selfSignature, hkey, if_pos ⟨hpub, hlength⟩, hverify]
  simp only [verdictOf, hself, halg, hfrom, hto, decide_true, Bool.and_self]

theorem parseMlDsaCertificate_readsBack_iff (hforge : forge.Documented composed)
    {verify : Bytes → Bytes → Bytes → Except String Bool} {random : Bytes} {now : Int}
    {opts : IssueMlDsaCertOptions} {issued : MlDsaCertificate} (hkeys : KeyPair verify opts.keys)
    (hissue : issueMlDsaCertificate forge random now opts = .ok issued)
    (hbefore : InYears issued.notBefore) (hafter : InYears issued.notAfter) {given : SignerCert}
    (hgiven : issued.Given given) :
    ReadsBack forge verify opts issued given ↔
      Before2050 issued.notBefore ∧ Before2050 issued.notAfter ∧
        composed opts.keys.mldsa65PublicKey = none := by
  obtain ⟨tbs, signature, hfrom⟩ := issue_from hissue
  obtain ⟨p, hparse, hsign, hfields⟩ := parse_issued hforge hfrom hgiven
  have hpublicKey : p.publicKey = if composed opts.keys.mldsa65PublicKey = none then
      opts.keys.mldsa65PublicKey else [] := congrArg TreeFields.publicKey hfields
  have hnotBefore : p.notBefore = forge.utcTimeToDate (timeText forge issued.notBefore) :=
    congrArg TreeFields.notBefore hfields
  have hnotAfter : p.notAfter = forge.utcTimeToDate (timeText forge issued.notAfter) :=
    congrArg TreeFields.notAfter hfields
  rw [← utcTimeToDate_timeText_iff hforge hbefore, ← utcTimeToDate_timeText_iff hforge hafter,
    ← hnotBefore, ← hnotAfter]
  constructor
  · rintro ⟨⟨q, hq, -, hkey, hqBefore, hqAfter⟩, -⟩
    obtain rfl : p = q := Except.ok.inj (hparse.symm.trans hq)
    refine ⟨hqBefore, hqAfter, ?_⟩
    by_contra hcomposed
    rw [hpublicKey, if_neg hcomposed] at hkey
    have hempty := hfrom.pub
    rw [← hkey] at hempty
    exact absurd hempty (by decide)
  · rintro ⟨hpBefore, hpAfter, hcomposed⟩
    rw [if_pos hcomposed] at hpublicKey
    refine ⟨⟨p, hparse, congrArg TreeFields.subjectCommonName hfields, hpublicKey, hpBefore,
      hpAfter⟩, fun second hlow hhigh => ?_⟩
    rw [verifyMlDsaCertificate, hparse]
    exact verdictOf_ok hkeys hfrom.pub hsign hpublicKey
      (congrArg TreeFields.signatureAlgOid hfields)
      (by rw [hpBefore]; exact timeLe_toSecond_left hlow)
      (by rw [hpAfter]; exact timeLe_toSecond_right hhigh)

end

-- ---------------------------------------------------------------------------
-- A node-forge that reads what it writes
-- ---------------------------------------------------------------------------

def oidTable : List (String × Bytes) :=
  [(ID_ML_DSA_65, [0x60, 0x86, 0x48, 0x01, 0x65, 0x03, 0x04, 0x03, 0x12]),
    (OID_COMMON_NAME, [0x55, 0x04, 0x03]), (OID_ORG_NAME, [0x55, 0x04, 0x0a]),
    (OID_BASIC_CONSTRAINTS, [0x55, 0x1d, 0x13]), (OID_KEY_USAGE, [0x55, 0x1d, 0x0f])]

def number (high low : UInt8) : Nat := 10 * (high.toNat - 48) + (low.toNat - 48)

def readUtcTime : Bytes → Option Int
  | y :: y' :: mo :: mo' :: d :: d' :: h :: h' :: mi :: mi' :: s :: s' :: _ =>
    some (UtcTime.ofTwoDigits (number y y') (number mo mo') (number d d') (number h h')
      (number mi mi') (number s s'))
  | _ => none

def sampleForge : X509Forge where
  fromDer := Der.decode
  toDer node := engineString (Der.encode node)
  derToOid der :=
    match oidTable.find? (·.2 == der) with
    | some (oid, _) => .ok oid
    | none => .error "unknown OID"
  certificates _ := .error "no PKCS#7"
  sha256 _ := List.replicate 32 0
  oidToDer oid := ((oidTable.find? (·.1 == oid)).map (·.2)).getD []
  encodeUtf8 text := text.map UInt16.toUInt8
  decodeUtf8 bytes := .ok (bytes.map UInt8.toUInt16)
  dateToUtcTime d := (d.map utcTimeText).getD []
  dateToGeneralizedTime d := (d.map generalizedTimeText).getD []
  utcTimeToDate := readUtcTime

theorem sampleForge_documented : sampleForge.Documented Der.composed where
  toDer _ _ := rfl
  fromDer node hwf hle := Der.decode_encode hwf (hle.trans_lt (by decide))
  derToOid := by decide
  decodeUtf8 text htext := by
    have hround : ∀ c ∈ text, c.toUInt8.toUInt16 = c := fun c hc => by
      have hprintable := List.all_eq_true.mp htext c hc
      simp only [isPrintable, Bool.and_eq_true, decide_eq_true_eq, UInt16.le_iff_toNat_le]
        at hprintable
      apply UInt16.toNat_inj.mp
      rw [UInt8.toNat_toUInt16, UInt16.toNat_toUInt8]
      have hmax : (0x7e : UInt16).toNat = 126 := rfl
      omega
    change Except.ok ((text.map UInt16.toUInt8).map UInt8.toUInt16) = .ok text
    rw [List.map_map]
    exact congrArg Except.ok ((List.map_congr_left hround).trans (List.map_id' _))
  dateToUtcTime _ _ _ := rfl
  dateToGeneralizedTime _ _ _ := rfl
  utcTimeToDate yy month day hour minute second rest hfields _ _ := by
    have hnumber : ∀ n < 100, number (.ofNat (48 + n / 10)) (.ofNat (48 + n % 10)) = n := by decide
    simp only [List.forall_mem_cons, List.not_mem_nil, false_implies, implies_true, and_true]
      at hfields
    obtain ⟨hy, hmo, hd, hh, hmi, hs⟩ := hfields
    change some (UtcTime.ofTwoDigits (number _ _) (number _ _) (number _ _) (number _ _)
      (number _ _) (number _ _)) = _
    rw [hnumber yy hy, hnumber month hmo, hnumber day hd, hnumber hour hh, hnumber minute hmi,
      hnumber second hs]

def sampleVerify (signature _message _publicKey : Bytes) : Except String Bool :=
  .ok (signature == List.replicate 3309 7)

def sampleOptions (notBefore : Int) : IssueMlDsaCertOptions where
  keys := {
    ed25519PublicRaw := []
    mldsa65PublicKey := List.replicate 1952 0
    ed25519Sign := fun _ => .ok []
    mldsa65Sign := fun _ => .ok (List.replicate 3309 7) }
  subjectName := js "Ada"
  notBefore := some (some notBefore)

theorem sampleKeys (notBefore : Int) : KeyPair sampleVerify (sampleOptions notBefore).keys := by
  intro message signature h
  cases h
  exact ⟨List.length_replicate, congrArg Except.ok (beq_self_eq_true _)⟩

def sampleIssue (notBefore : Int) : Except JsString MlDsaCertificate :=
  issueMlDsaCertificate sampleForge (List.replicate 16 0) 0 (sampleOptions notBefore)

theorem issued_dates {x : Except JsString MlDsaCertificate} {notBefore notAfter : Option Int}
    (h : x.toOption.map (fun issued => (issued.notBefore, issued.notAfter)) =
      some (notBefore, notAfter)) :
    ∃ issued, x = .ok issued ∧ issued.notBefore = notBefore ∧ issued.notAfter = notAfter := by
  cases x with
  | error e => cases h
  | ok issued =>
    cases h
    exact ⟨issued, rfl, rfl, rfl⟩

/-- The dates of two certificates. -/
theorem sample_dates :
    (sampleIssue 0).toOption.map (fun issued => (issued.notBefore, issued.notAfter)) =
        some (some 0, some 31536000000) ∧
      (sampleIssue 2524608000000).toOption.map (fun issued => (issued.notBefore, issued.notAfter)) =
        some (some 2524608000000, some 2556144000000) := by
  decide +kernel

theorem sample_1970 : ∃ issued, sampleIssue 0 = .ok issued ∧ issued.notBefore = some 0 ∧
    issued.notAfter = some 31536000000 := issued_dates sample_dates.1

theorem sample_2050 : ∃ issued, sampleIssue 2524608000000 = .ok issued ∧
    issued.notBefore = some 2524608000000 ∧ issued.notAfter = some 2556144000000 :=
  issued_dates sample_dates.2

/-- Zeros encode many empty values, not one. -/
theorem composed_zeros (rest : Bytes) : Der.composed (0 :: 0 :: 0 :: 0 :: rest) = none := by
  have hempty : Der.tlv 0 [] = [0, 0] := rfl
  have hbytes : 0 :: 0 :: 0 :: 0 :: rest = Der.tlv 0 [] ++ (Der.tlv 0 [] ++ rest) := by
    rw [hempty]
    rfl
  rw [Der.composed, hbytes, Der.decodeAll_tlv _ (by decide), Der.decodeAll_tlv _ (by decide)]
  cases Der.decodeAll rest <;> rfl

theorem parseMlDsaCertificate_readsBack_1970 : ∃ issued, sampleIssue 0 = .ok issued ∧
    ReadsBack sampleForge sampleVerify (sampleOptions 0) issued (.pem issued.certPem) := by
  obtain ⟨issued, hissue, hbefore, hafter⟩ := sample_1970
  refine ⟨issued, hissue, (parseMlDsaCertificate_readsBack_iff sampleForge_documented
    (sampleKeys 0) hissue ?_ ?_ (.inl rfl)).mpr ⟨?_, ?_, composed_zeros _⟩⟩
  · exact ⟨0, hbefore, by decide +kernel, by decide +kernel⟩
  · exact ⟨31536000000, hafter, by decide +kernel, by decide +kernel⟩
  · rw [hbefore]
    intro t ht
    cases ht
    decide +kernel
  · rw [hafter]
    intro t ht
    cases ht
    decide +kernel

theorem parseMlDsaCertificate_2050 : ∃ issued, sampleIssue 2524608000000 = .ok issued ∧
    InYears issued.notBefore ∧ InYears issued.notAfter ∧
      ¬ ReadsBack sampleForge sampleVerify (sampleOptions 2524608000000) issued
        (.pem issued.certPem) := by
  obtain ⟨issued, hissue, hbefore, hafter⟩ := sample_2050
  have hyears : InYears issued.notBefore := ⟨_, hbefore, by decide +kernel, by decide +kernel⟩
  refine ⟨issued, hissue, hyears, ⟨_, hafter, by decide +kernel, by decide +kernel⟩, ?_⟩
  rintro ⟨⟨q, hq, -, -, hqBefore, -⟩, -⟩
  obtain ⟨tbs, signature, hfrom⟩ := issue_from hissue
  obtain ⟨p, hparse, -, hfields⟩ := parse_issued sampleForge_documented hfrom (.inl rfl)
  obtain rfl : p = q := Except.ok.inj (hparse.symm.trans hq)
  have hread := (congrArg TreeFields.notBefore hfields).symm.trans hqBefore
  have hyear := (utcTimeToDate_timeText_iff sampleForge_documented hyears).mp hread _ hbefore
  revert hyear
  decide +kernel

end EsigSuite.PqCert
