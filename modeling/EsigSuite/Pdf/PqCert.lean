import EsigSuite.Lib.JsNumber
import EsigSuite.Lib.JsRegex
import EsigSuite.Lib.Number
import EsigSuite.Lib.Pem
import EsigSuite.Lib.UtcTime
import EsigSuite.Pdf.Der
import EsigSuite.Pdf.PqSeal

/-!
# ML-DSA certificates

`esig-core/src/pq-cert.ts`: a certificate is built as a tree of node-forge and
written by it. It is read twice: the signed bytes and the signature by a reader
of the source, the other fields from the tree that node-forge gives back.
-/

namespace EsigSuite.PqCert

open Lib

def ID_ML_DSA_65 : String := "2.16.840.1.101.3.4.3.18"
def OID_COMMON_NAME : String := "2.5.4.3"
def OID_ORG_NAME : String := "2.5.4.10"
def OID_BASIC_CONSTRAINTS : String := "2.5.29.19"
def OID_KEY_USAGE : String := "2.5.29.15"
def DEFAULT_VALIDITY_DAYS : JsNumber := some (.finite 365)

/-- What certificates take from node-forge. A date is its time, if it is valid;
texts of node-forge are binary strings. -/
structure X509Forge extends Forge where
  oidToDer : String → Bytes
  encodeUtf8 : JsString → Bytes
  decodeUtf8 : Bytes → Except String JsString
  dateToUtcTime : Option Int → Bytes
  dateToGeneralizedTime : Option Int → Bytes
  utcTimeToDate : Bytes → Option Int

def typeError : Except String α := .error "TypeError"

-- ---------------------------------------------------------------------------
-- Nodes
-- ---------------------------------------------------------------------------

section
variable (forge : X509Forge)

def sequence (children : List Asn1) : Asn1 := .constructed Asn1.UNIVERSAL Asn1.SEQUENCE children

def oidNode (oid : String) : Asn1 := .primitive Asn1.UNIVERSAL Asn1.OID (forge.oidToDer oid)

def mlDsaAlgId : Asn1 := sequence [oidNode forge ID_ML_DSA_65]

def bitStringNode (bytes : Bytes) : Asn1 := .primitive Asn1.UNIVERSAL Asn1.BITSTRING (0 :: bytes)

def utf8Node (value : JsString) : Asn1 :=
  .primitive Asn1.UNIVERSAL Asn1.UTF8 (forge.encodeUtf8 value)

def rdn (oid : String) (value : JsString) : Asn1 :=
  .constructed Asn1.UNIVERSAL Asn1.SET [sequence [oidNode forge oid, utf8Node forge value]]

def nameNode (commonName org : JsString) : Asn1 :=
  sequence [rdn forge OID_COMMON_NAME commonName, rdn forge OID_ORG_NAME org]

def spkiNode (pub : Bytes) : Asn1 := sequence [mlDsaAlgId forge, bitStringNode pub]

/-- An invalid date has no year below 2050. -/
def timeNode (d : Option Int) : Asn1 :=
  if d.any (UtcTime.year · < 2050) then
    .primitive Asn1.UNIVERSAL Asn1.UTCTIME (forge.dateToUtcTime d)
  else .primitive Asn1.UNIVERSAL Asn1.GENERALIZEDTIME (forge.dateToGeneralizedTime d)

def extensionNode (oid : String) (critical : Bool) (value : Asn1) : Except String Asn1 := do
  let der ← forge.toDer value
  return sequence ([oidNode forge oid] ++
    (if critical then [.primitive Asn1.UNIVERSAL Asn1.BOOLEAN [0xff]] else []) ++
    [.primitive Asn1.UNIVERSAL Asn1.OCTETSTRING der])

-- ---------------------------------------------------------------------------
-- Issuing
-- ---------------------------------------------------------------------------

structure IssueMlDsaCertOptions where
  keys : PqSigningKeys
  subjectName : JsString
  validityDays : Option JsNumber := none
  serial : Option Bytes := none
  notBefore : Option (Option Int) := none

structure MlDsaCertificate where
  certPem : JsString
  certDer : Bytes
  fingerprint : JsString
  publicKeyFingerprint : JsString
  notBefore : Option Int
  notAfter : Option Int

def isPrintable (c : UInt16) : Bool := 0x20 ≤ c && c ≤ 0x7e

/-- 16 random octets with the top bit cleared and the next one set. -/
def randomSerial : Bytes → Bytes
  | [] => []
  | b :: rest => ((b &&& 0x7f) ||| 0x40) :: rest

/-- `new Date(time)` -/
def newDate : JsNumber → Option Int
  | some (.finite x) => if |x| ≤ 8640000000000000 then some (if 0 ≤ x then ⌊x⌋ else ⌈x⌉) else none
  | _ => none

def getTime (d : Option Int) : JsNumber := d.map fun t => .finite t

def notAfterOf (notBefore : Option Int) (validityDays : JsNumber) : Option Int :=
  newDate ((getTime notBefore).add (validityDays.mul (some (.finite 86400000))))

def commonName (subjectName : JsString) : JsString := js "E-sig PQ (" ++ subjectName ++ js ")"

def tbsNode (serial : Bytes) (subjectName : JsString) (notBefore notAfter : Option Int)
    (pub : Bytes) (extensions : List Asn1) : Asn1 :=
  let name := nameNode forge (commonName subjectName) subjectName
  sequence
    [.constructed Asn1.CONTEXT_SPECIFIC 0 [.primitive Asn1.UNIVERSAL Asn1.INTEGER [2]],
      .primitive Asn1.UNIVERSAL Asn1.INTEGER serial, mlDsaAlgId forge, name,
      sequence [timeNode forge notBefore, timeNode forge notAfter], name, spkiNode forge pub,
      .constructed Asn1.CONTEXT_SPECIFIC 3 [sequence extensions]]

def certNode (tbs : Asn1) (signature : Bytes) : Asn1 :=
  sequence [tbs, mlDsaAlgId forge, bitStringNode signature]

def derToPem (der : Bytes) : JsString :=
  js "-----BEGIN CERTIFICATE-----\n" ++ List.intercalate (js "\n") (wrap 64 (b64 der)) ++
    js "\n-----END CERTIFICATE-----\n"

/-- Basic constraints without members, and the first two key usages. -/
def extensionNodes : Except String (List Asn1) := do
  let basicConstraints ← extensionNode forge OID_BASIC_CONSTRAINTS true (sequence [])
  let keyUsage ← extensionNode forge OID_KEY_USAGE true
    (.primitive Asn1.UNIVERSAL Asn1.BITSTRING [0x06, 0xc0])
  return [basicConstraints, keyUsage]

/-- `random` is the draw for the serial and `now` the clock. -/
def issueMlDsaCertificate (random : Bytes) (now : Int) (opts : IssueMlDsaCertOptions) :
    Except JsString MlDsaCertificate := do
  let pub := opts.keys.mldsa65PublicKey
  if opts.subjectName = [] ∨ ¬ opts.subjectName.all isPrintable then
    throw (js "subjectName \"" ++ opts.subjectName ++ js "\" contains non-ASCII characters")
  if pub.length ≠ MLDSA65_PUBLIC_LEN then
    throw (js s!"ML-DSA-65 public key must be {MLDSA65_PUBLIC_LEN} bytes, got {pub.length}")
  let serial := opts.serial.getD (randomSerial random)
  let notBefore := opts.notBefore.getD (some now)
  let notAfter := notAfterOf notBefore (opts.validityDays.getD DEFAULT_VALIDITY_DAYS)
  let extensions ← (extensionNodes forge).mapError js
  let tbs := tbsNode forge serial opts.subjectName notBefore notAfter pub extensions
  let tbsDer ← (forge.toDer tbs).mapError js
  let signature ← (opts.keys.mldsa65Sign tbsDer).mapError js
  let certDer ← (forge.toDer (certNode forge tbs signature)).mapError js
  return {
    certPem := derToPem certDer
    certDer
    fingerprint := hexText (forge.sha256 certDer)
    publicKeyFingerprint := hexText (forge.sha256 pub)
    notBefore
    notAfter }

end

-- ---------------------------------------------------------------------------
-- The reader of the source
-- ---------------------------------------------------------------------------

def pemToDer (pem : JsString) : Bytes :=
  fromBase64 ((dropMarkers 0 pem).filter fun c => !isWhiteUnit c)

/-- `der[i]`, undefined outside the buffer. -/
def byteAt (der : Bytes) : Number → Option UInt8
  | .int n => if 0 ≤ n then der[n.toNat]? else none
  | _ => none

structure Tlv where
  tag : Option UInt8
  start : Number
  contentStart : Number
  stop : Number
  deriving DecidableEq

/-- `(len << 8) | b` -/
def shiftIn (len : Int) (b : Option UInt8) : Int :=
  (len * 256 + (b.getD 0).toNat).bmod (2 ^ 32)

def closeTlv (der : Bytes) (offset contentStart len : Number) : Except String Tlv :=
  if (Number.ofNat der.length).lt (contentStart + len) then .error "DER: length exceeds buffer"
  else .ok ⟨byteAt der offset, offset, contentStart, contentStart + len⟩

def readTlv (der : Bytes) (offset : Number) : Except String Tlv :=
  if (offset + .int 1).ge (.ofNat der.length) then .error "DER: truncated TLV"
  else
    let i := offset + .int 1 + .int 1
    match byteAt der (offset + .int 1) with
    -- an undefined length is in no long form, and its sum is not a number
    | none => closeTlv der offset i .nan
    | some len =>
      if len &&& 0x80 ≠ 0 then
        let n := (len &&& 0x7f).toNat
        if n = 0 ∨ n > 4 then .error "DER: unsupported length encoding"
        else
          let len := (List.range n).foldl
            (fun len k => shiftIn len (byteAt der (i + .int k))) 0
          closeTlv der offset (i + .int n) (.int len)
      else closeTlv der offset i (.int len.toNat)

-- ---------------------------------------------------------------------------
-- Reading the tree
-- ---------------------------------------------------------------------------

/-- The elements of `value`. Those of a string are characters and no nodes. -/
def items : Asn1 → List (Option Asn1)
  | .constructed _ _ cs => cs.map some
  | .primitive _ _ value => value.map fun _ => none

/-- `value[i]` where its own value is read next. -/
def item (node : Asn1) (i : Nat) : Except String Asn1 :=
  match (items node)[i]? with
  | some (some child) => .ok child
  | _ => typeError

/-- A value handed to a function that takes a binary string. -/
def text (node : Asn1) : Except String Bytes :=
  match node.string? with
  | some value => .ok value
  | none => typeError

section
variable (forge : X509Forge)

/-- The text of an array is that of its elements. -/
def decodeValue : Asn1 → Except String JsString
  | .primitive _ _ value => forge.decodeUtf8 value
  | .constructed _ _ cs => .ok (List.intercalate (js ",") (cs.map fun _ => js "[object Object]"))

def commonNameOf : List (Option Asn1) → Except String (Option JsString)
  | [] => .ok none
  | none :: _ => typeError
  | some atv :: rest => do
    if (← forge.derToOid (← text (← item atv 0))) = OID_COMMON_NAME then
      return some (← decodeValue forge (← item atv 1))
    else commonNameOf rest

def commonNameIn : List (Option Asn1) → Except String JsString
  | [] => .ok []
  | none :: _ => typeError
  | some rdn :: rest => do
    match ← commonNameOf forge (items rdn) with
    | some name => return name
    | none => commonNameIn rest

def extractCommonName (nameNode : Asn1) : Except String JsString :=
  commonNameIn forge (items nameNode)

/-- `binToU8(value.slice(1))`. The rest of an array has no `charCodeAt`. -/
def rawBits : Asn1 → Except String Bytes
  | .primitive _ _ value => .ok (value.drop 1)
  | .constructed _ _ cs => if cs.length ≤ 1 then .ok [] else typeError

/-- What is taken from the tree. -/
structure TreeFields where
  subjectCommonName : JsString
  notBefore : Option Int
  notAfter : Option Int
  publicKey : Bytes
  signatureAlgOid : String

def readTree (parsed : Asn1) : Except String TreeFields := do
  let tbs ← item parsed 0
  let validity ← item tbs 4
  let notBefore := forge.utcTimeToDate (← text (← item validity 0))
  let notAfter := forge.utcTimeToDate (← text (← item validity 1))
  let subjectCommonName ← extractCommonName forge (← item tbs 5)
  let spki ← item tbs 6
  let signatureAlgOid ← forge.derToOid (← text (← item (← item spki 0) 0))
  let publicKey ← rawBits (← item spki 1)
  return { subjectCommonName, notBefore, notAfter, publicKey, signatureAlgOid }

structure ParsedMlDsaCertificate extends TreeFields where
  publicKeyFingerprint : JsString
  tbsDer : Bytes
  signature : Bytes

def certBytes : SignerCert → Bytes
  | .pem text => pemToDer text
  | .der bytes => bytes

/-- The signed bytes and the signature. -/
def signedParts (der : Bytes) : Except String (Bytes × Bytes) := do
  let outer ← readTlv der (.int 0)
  let tbs ← readTlv der outer.contentStart
  let sigAlg ← readTlv der tbs.stop
  let sigVal ← readTlv der sigAlg.stop
  return (slice der tbs.start tbs.stop, slice der (sigVal.contentStart + .int 1) sigVal.stop)

def parseMlDsaCertificate (cert : SignerCert) : Except String ParsedMlDsaCertificate := do
  let der := certBytes cert
  let (tbsDer, signature) ← signedParts der
  let fields ← readTree forge (← forge.fromDer der)
  return { fields with
    publicKeyFingerprint := hexText (forge.sha256 fields.publicKey), tbsDer, signature }

-- ---------------------------------------------------------------------------
-- Verification
-- ---------------------------------------------------------------------------

structure MlDsaCertVerdict where
  ok : Bool := false
  algOk : Bool := false
  selfSignatureOk : Bool := false
  timeValid : Bool := false
  failures : List String

/-- `<=` on the times of two dates. -/
def timeLe : Option Int → Option Int → Bool
  | some s, some t => s ≤ t
  | _, _ => false

variable (verify : Bytes → Bytes → Bytes → Except String Bool)

/-- A verification that throws is a failed one. -/
def selfSignature (p : ParsedMlDsaCertificate) : Bool :=
  if p.publicKey.length = MLDSA65_PUBLIC_LEN ∧ p.signature.length = MLDSA65_SIGNATURE_LEN then
    match verify p.signature p.tbsDer p.publicKey with
    | .ok valid => valid
    | .error _ => false
  else false

def verdictOf (p : ParsedMlDsaCertificate) (now : Option Int) : MlDsaCertVerdict :=
  let algOk := p.signatureAlgOid = ID_ML_DSA_65
  let selfSignatureOk := selfSignature verify p
  let timeValid := timeLe p.notBefore now && timeLe now p.notAfter
  { ok := algOk && selfSignatureOk && timeValid
    algOk, selfSignatureOk, timeValid
    failures :=
      (if algOk then [] else [s!"unexpected signature algorithm {p.signatureAlgOid}"]) ++
        (if selfSignatureOk then [] else ["ML-DSA-65 self-signature invalid"]) ++
        (if timeValid then [] else ["certificate is outside its validity window"]) }

def verifyMlDsaCertificate (cert : SignerCert) (now : Option Int) : MlDsaCertVerdict :=
  match parseMlDsaCertificate forge cert with
  | .ok p => verdictOf verify p now
  | .error message => { failures := [s!"certificate parse error: {message}"] }

end

end EsigSuite.PqCert
