import EsigSuite.Lib.Number
import EsigSuite.Pdf.Timestamp

/-!
# The portable PDF verifier

`verifyPdfStructure` of `esig-core/src/verify-pdf.ts`. The steps before the
`try` block, which find the signed ranges and the DER in the hole, are
`locatePkcs7`; the block itself is `verifyPkcs7`. Offsets are JavaScript
numbers, so the range equation is binary64 arithmetic on whatever the digits
of the /ByteRange denote, and the slices clamp.
-/

namespace EsigSuite

open Lib Asn1

/-- OID id-messageDigest (PKCS#9 signed attribute). -/
def OID_MESSAGE_DIGEST : String := "1.2.840.113549.1.9.4"

-- ---------------------------------------------------------------------------
-- /\/ByteRange\s*\[\s*(\d+)\s+(\d+)\s+(\d+)\s+(\d+)\s*\]/
-- ---------------------------------------------------------------------------

/-- `\s` on a Latin-1 character. -/
def isSpace (c : UInt8) : Bool := (9 ≤ c && c ≤ 13) || c == 32 || c == 160

def isDigit (c : UInt8) : Bool := 48 ≤ c && c ≤ 57

/-- The characters of `/ByteRange`. -/
def byteRangeKey : Bytes := [47, 66, 121, 116, 101, 82, 97, 110, 103, 101]

def literal? (lit bytes : Bytes) : Option Bytes :=
  if lit.isPrefixOf bytes then some (bytes.drop lit.length) else none

def spaces? (bytes : Bytes) : Option Bytes :=
  if (bytes.head?.map isSpace).getD false then some (bytes.dropWhile isSpace) else none

/-- `(\d+)` with what follows. The class is disjoint from everything that may
come next, so the greedy match is the only one. -/
def digits? (bytes : Bytes) : Option (Bytes × Bytes) :=
  match bytes.takeWhile isDigit with
  | [] => none
  | ds => some (ds, bytes.dropWhile isDigit)

structure ByteRange where
  a : Number
  b : Number
  c : Number
  d : Number
  deriving DecidableEq, Repr

/-- `Number(text)` on a string of decimal digits. -/
def numberOfDigits (digits : Bytes) : Number :=
  .ofNat (digits.foldl (fun n c => 10 * n + (c.toNat - 48)) 0)

/-- The expression anchored at the first byte. -/
def byteRangeAt (bytes : Bytes) : Option ByteRange := do
  let rest ← literal? byteRangeKey bytes
  let rest ← literal? [91] (rest.dropWhile isSpace)
  let (a, rest) ← digits? (rest.dropWhile isSpace)
  let (b, rest) ← digits? (← spaces? rest)
  let (c, rest) ← digits? (← spaces? rest)
  let (d, rest) ← digits? (← spaces? rest)
  let _ ← literal? [93] (rest.dropWhile isSpace)
  return ⟨numberOfDigits a, numberOfDigits b, numberOfDigits c, numberOfDigits d⟩

/-- The leftmost match in the file. -/
def matchByteRange : Bytes → Option ByteRange
  | [] => none
  | b :: rest => (byteRangeAt (b :: rest)).or (matchByteRange rest)

-- ---------------------------------------------------------------------------
-- Results
-- ---------------------------------------------------------------------------

inductive Failure
  | noByteRange
  | fileSize (covered hole : Number) (length : Nat)
  | outOfBounds
  | startOffset (a : Number)
  | overlap
  | endOfFile (reached : Number) (length : Nat)
  | malformedDer
  | noCertificates
  | parseError (message : String)
  | noSignerInfo
  | noSignedAttributes
  | noMessageDigest
  | digestMismatch
  | noSignatureValue
  | signatureMismatch
  | signatureThrew (message : String)
  | cryptoError (message : String)
  | timestampMismatch
  | timestampUnreadable

/-- The text pushed onto `failures`, given `String(n)` for numbers. -/
def Failure.text (string : Number → String) : Failure → String
  | .noByteRange => "no /ByteRange dictionary found"
  | .fileSize covered hole length =>
    "byte ranges (" ++ string covered ++ ") + hole (" ++ string hole ++ ") != file size (" ++
      toString length ++ ")"
  | .outOfBounds => "/ByteRange values are not safe in-bounds integers"
  | .startOffset a =>
    "/ByteRange starts at offset " ++ string a ++ ", not 0 — unsigned prefix is attacker-mutable"
  | .overlap => "/ByteRange regions overlap or are unordered"
  | .endOfFile reached length =>
    "/ByteRange does not extend to end of file (" ++ string reached ++ " != " ++
      toString length ++ ")"
  | .malformedDer => "/Contents does not hold a well-formed DER structure"
  | .noCertificates => "PKCS#7 has no embedded certificates"
  | .parseError message => "PKCS#7 parse error: " ++ message
  | .noSignerInfo => "could not locate SignerInfo for cryptographic verification"
  | .noSignedAttributes => "SignerInfo has no signed attributes (cannot verify)"
  | .noMessageDigest => "messageDigest signed attribute missing"
  | .digestMismatch =>
    "document digest does not match messageDigest attribute — content altered after signing"
  | .noSignatureValue => "SignerInfo signature value missing"
  | .signatureMismatch => "signature does not verify against the signer certificate"
  | .signatureThrew message => "signature verification threw: " ++ message
  | .cryptoError message => "cryptographic verification error: " ++ message
  | .timestampMismatch => "timestamp messageImprint does not match signature value"
  | .timestampUnreadable => "timestamp present but messageImprint could not be read"

structure VerifyResult where
  ok : Bool := false
  byteRange : Option ByteRange := none
  pkcs7ActualSize : Option Nat := none
  pkcs7BudgetSize : Option Number := none
  signerCommonName : Option String := none
  signerOrganization : Option String := none
  digestValid : Option Bool := none
  signatureValid : Option Bool := none
  timestamped : Bool := false
  timestampTime : Option Bytes := none
  tsaCommonName : Option Bytes := none
  failures : List Failure := []

-- ---------------------------------------------------------------------------
-- The SignerInfo
-- ---------------------------------------------------------------------------

/-- SignedData: the first child of the last constructed context-specific node. -/
def signedDataOf (contentInfo : Asn1) : Option Asn1 := do
  let children ← contentInfo.children?
  children.foldl (fun found child =>
    match child.tagClass == CONTEXT_SPECIFIC, child.children? with
    | true, some cs => cs.head?
    | _, _ => found) none

/-- signerInfos is the last UNIVERSAL SET (the first is digestAlgorithms). -/
def firstSignerInfo (contentInfo : Asn1) : Option Asn1 := do
  let children ← (← signedDataOf contentInfo).children?
  let signerInfos ← children.foldl (fun found child =>
    if child.tagClass = UNIVERSAL ∧ child.type = SET then child.children?.or found else found) none
  signerInfos.head?

/-- The last child that is the `[n]` context node. -/
def contextNode (n : Nat) (children : List Asn1) : Option Asn1 :=
  children.foldl (fun found child =>
    if child.tagClass = CONTEXT_SPECIFIC ∧ child.type = n then some child else found) none

/-- encryptedDigest: the last UNIVERSAL OCTET STRING held as bytes. -/
def signatureValueOf (children : List Asn1) : Option Bytes :=
  children.foldl (fun found child =>
    if child.tagClass = UNIVERSAL ∧ child.type = OCTETSTRING then child.string?.or found
    else found) none

/-- The values of the first attribute with this OID, as `SET OF` children. -/
def attributeValues (forge : Forge) (oid : String) : List Asn1 → Option Asn1
  | [] => none
  | attr :: rest =>
    match attr.children? with
    | some (oidNode :: set :: _) =>
      if oidNode.type ≠ OID ∨ safeOid forge oidNode ≠ oid then attributeValues forge oid rest
      else some set
    | _ => attributeValues forge oid rest

/-- `extractSignedAttrValue`. -/
def extractSignedAttrValue (forge : Forge) (signedAttrs : List Asn1) (oid : String) :
    Option Bytes := do
  (← (← (← attributeValues forge oid signedAttrs).children?).head?).string?

structure SignerCrypto where
  digestValid : Bool
  signatureValid : Bool
  failures : List Failure

/-- The RSA half: the signature over DER(signedAttrs as SET OF). The encoder
sits inside the outer `try`, the verification in one of its own. -/
def checkSignature (forge : Forge) (signerCert : Certificate) (signedAttrs : List Asn1) :
    Option Bytes → Bool × List Failure
  | none | some [] => (false, [.noSignatureValue])
  | some signatureValue =>
    match forge.toDer (.constructed UNIVERSAL SET signedAttrs) with
    | .error e => (false, [.cryptoError e])
    | .ok setDer =>
      match signerCert.verify (forge.sha256 setDer) signatureValue with
      | .ok true => (true, [])
      | .ok false => (false, [.signatureMismatch])
      | .error e => (false, [.signatureThrew e])

/-- `verifySignerCrypto`, with the comparison of the recomputed and the
claimed digest that each verifier brings. -/
def verifySignerCryptoWith (sameDigest : Bytes → Bytes → Bool) (forge : Forge)
    (contentInfo : Asn1) (signerCert : Certificate) (coveredContent : Bytes) : SignerCrypto :=
  match firstSignerInfo contentInfo with
  | none => ⟨false, false, [.noSignerInfo]⟩
  | some signerInfo =>
    let children := signerInfo.children?.getD []
    match (contextNode 0 children).bind Asn1.children? with
    | none => ⟨false, false, [.noSignedAttributes]⟩
    | some signedAttrs =>
      let (digestValid, digestFailures) :=
        match extractSignedAttrValue forge signedAttrs OID_MESSAGE_DIGEST with
        | none | some [] => (false, [.noMessageDigest])
        | some messageDigest =>
          if sameDigest (forge.sha256 coveredContent) messageDigest then (true, [])
          else (false, [.digestMismatch])
      let (signatureValid, signatureFailures) :=
        checkSignature forge signerCert signedAttrs (signatureValueOf children)
      ⟨digestValid, signatureValid, digestFailures ++ signatureFailures⟩

/-- The length test before `timingSafeEqual`. -/
def sameDigest (recomputed claimed : Bytes) : Bool :=
  recomputed.length == claimed.length && recomputed == claimed

def verifySignerCrypto : Forge → Asn1 → Certificate → Bytes → SignerCrypto :=
  verifySignerCryptoWith sameDigest

-- ---------------------------------------------------------------------------
-- The embedded time stamp
-- ---------------------------------------------------------------------------

structure TimestampInspection where
  present : Bool := false
  sigValueHex : Option (List (Fin 16)) := none
  messageImprintHashHex : Option (List (Fin 16)) := none
  /-- The raw genTime; the source reformats it to ISO 8601 for display. -/
  genTime : Option Bytes := none
  tsaCommonName : Option Bytes := none

/-- The token of the first id-aa-timeStampToken attribute that has one. -/
def timestampToken (forge : Forge) : List Asn1 → Option Asn1
  | [] => none
  | attr :: rest =>
    match attr.children? with
    | some (oidNode :: set :: _) =>
      if oidNode.type ≠ OID ∨ safeOid forge oidNode ≠ OID_TIMESTAMP_TOKEN then
        timestampToken forge rest
      else (set.children?.bind (·.head?)).or (timestampToken forge rest)
    | _ => timestampToken forge rest

def inspectTimestamp (forge : Forge) (contentInfo : Asn1) : TimestampInspection :=
  match (firstSignerInfo contentInfo).bind Asn1.children? with
  | none => {}
  | some siChildren =>
    let sigValueHex := (signatureValueOf siChildren).map bytesToHex
    match ((contextNode 1 siChildren).bind Asn1.children?).bind (timestampToken forge) with
    | none => { sigValueHex }
    | some token =>
      let info := parseTstInfo forge token
      { present := true, sigValueHex, messageImprintHashHex := info.messageImprintHashHex,
        genTime := info.genTime, tsaCommonName := info.tsaCommonName }

/-- `sha256Hex`. -/
def sha256Hex (forge : Forge) (hex : List (Fin 16)) : List (Fin 16) :=
  bytesToHex (forge.sha256 (fromHex hex))

/-- §2.4.2 binding: the message imprint is the digest of the signature value.
An empty hex string counts as missing. -/
def bindingFailures (forge : Forge) (ts : TimestampInspection) : List Failure :=
  let sigValueHex := ts.sigValueHex.getD []
  let imprint := ts.messageImprintHashHex.getD []
  if sigValueHex ≠ [] ∧ imprint ≠ [] then
    if sha256Hex forge sigValueHex ≠ imprint then [.timestampMismatch] else []
  else if imprint = [] then [.timestampUnreadable]
  else []

-- ---------------------------------------------------------------------------
-- The verifier
-- ---------------------------------------------------------------------------

/-- Total encoded length of the DER SEQUENCE at byte 0. -/
def derTotalLength (buf : Bytes) : Option Nat :=
  match buf with
  | tag :: l0 :: rest =>
    if tag ≠ 0x30 then none
    else if l0 < 0x80 then some (2 + l0.toNat)
    else
      let n := (l0 &&& 0x7f).toNat
      if n = 0 ∨ n > 4 ∨ rest.length < n then none
      else some (2 + n + (rest.take n).foldl (fun v b => v * 256 + b.toNat) 0)
  | _ => none

/-- The signed byte sequence: the two ranges, each clamped to the file. -/
def ByteRange.covered (r : ByteRange) (bytes : Bytes) : Bytes :=
  slice bytes r.a (r.a + r.b) ++ slice bytes r.c (r.c + r.d)

/-- `c - (a + b)`. -/
def ByteRange.hole (r : ByteRange) : Number := r.c - (r.a + r.b)

/-- The range equation: both ranges and the hole add up to the file size. -/
def ByteRange.fills (r : ByteRange) (length : Nat) : Prop :=
  r.b + r.d + r.hole = .ofNat length

instance (r : ByteRange) (length : Nat) : Decidable (r.fills length) :=
  inferInstanceAs (Decidable (_ = _))

/-- The DER between the delimiters of the hole, zero padding cut off. -/
def ByteRange.pkcs7Der? (r : ByteRange) (bytes : Bytes) : Option Bytes :=
  let contentsRegion := slice bytes (r.a + r.b + .ofNat 1) (r.c - .ofNat 1)
  let contentsBytes := fromHex (hexDigits contentsRegion)
  ((derTotalLength contentsBytes).filter (· ≤ contentsBytes.length)).map contentsBytes.take

structure Located where
  byteRange : ByteRange
  budget : Number
  pkcs7Der : Bytes

/-- Everything before the `try` block. -/
def locatePkcs7 (signed : Buffer) : Except VerifyResult Located :=
  match matchByteRange signed.bytes with
  | none => .error { failures := [.noByteRange] }
  | some r =>
    if ¬ r.fills signed.length then
      .error { byteRange := some r, failures := [.fileSize (r.b + r.d) r.hole signed.length] }
    else
      let budget := r.hole - .ofNat 2
      match r.pkcs7Der? signed.bytes with
      | none =>
        .error { byteRange := some r, pkcs7BudgetSize := some budget, failures := [.malformedDer] }
      | some pkcs7Der => .ok ⟨r, budget, pkcs7Der⟩

/-- `fromDer` and `messageFromAsn1`, which throw into the same `catch`. -/
def parsePkcs7 (forge : Forge) (pkcs7Der : Bytes) : Except String (Asn1 × List Certificate) := do
  let root ← forge.fromDer pkcs7Der
  return (root, ← forge.certificates root)

/-- The `try` block over a located PKCS#7 blob. -/
def verifyPkcs7 (forge : Forge) (signed : Buffer) (l : Located) : VerifyResult :=
  let result : VerifyResult :=
    { byteRange := some l.byteRange, pkcs7BudgetSize := some l.budget,
      pkcs7ActualSize := some l.pkcs7Der.length }
  match parsePkcs7 forge l.pkcs7Der with
  | .error e => { result with failures := [.parseError e] }
  | .ok (_, []) => { result with failures := [.noCertificates] }
  | .ok (root, signerCert :: _) =>
    let crypto := verifySignerCrypto forge root signerCert (l.byteRange.covered signed.bytes)
    let ts := inspectTimestamp forge root
    let failures := crypto.failures ++ if ts.present then bindingFailures forge ts else []
    { result with
      ok := failures.isEmpty
      signerCommonName := signerCert.commonName
      signerOrganization := signerCert.organization
      digestValid := some crypto.digestValid
      signatureValid := some crypto.signatureValid
      timestamped := ts.present
      timestampTime := if ts.present then ts.genTime else none
      tsaCommonName := if ts.present then ts.tsaCommonName else none
      failures }

def verifyPdfStructure (forge : Forge) (signed : Buffer) : VerifyResult :=
  match locatePkcs7 signed with
  | .error result => result
  | .ok l => verifyPkcs7 forge signed l

end EsigSuite
