import EsigSuite.Lib.FirstOk
import EsigSuite.Lib.MapLast
import EsigSuite.Pdf.TimestampResponse
import EsigSuite.Pdf.VerifyPdf

/-!
# The PEM signer

`esig-core/src/pem-signer.ts` and the request of `timestamp.ts`. The tree that
node-forge builds is changed in place; here a change is a new tree. The key pass
inside `p7.sign` is part of `signedData`: its signature is always overwritten.
-/

namespace EsigSuite

open Lib Asn1

def BOOLEAN : Nat := 1
def NULL : Nat := 5

def OID_SHA256 : String := "2.16.840.1.101.3.4.2.1"
def OID_SIGNING_CERT_V2 : String := "1.2.840.113549.1.9.16.2.47"
def OID_SIGNING_TIME : String := "1.2.840.113549.1.9.5"

/-- What the signer reads of its certificate. -/
structure SigningCertificate where
  /-- `asn1.toDer(certificateToAsn1(cert))` -/
  der : Bytes
  /-- `distinguishedNameToAsn1(cert.issuer)` -/
  issuer : Asn1
  /-- `hexToBytes(cert.serialNumber)` -/
  serialBytes : Bytes
  /-- `publicKey.n.bitLength()` -/
  modulusBits : Nat

/-- `key.sign(md)`, of a digest. -/
abbrev PrivateKey := Bytes → Except String Bytes

/-- What `signRsaSha256` resolves to. -/
inductive ExternalSignature
  | bytes (signature : Bytes)
  | other (typeof : String)

structure ExternalSigner where
  keyType : String
  certificatePem : String
  signRsaSha256 : Bytes → Except String ExternalSignature

structure TsaTransport where
  fetch : Bytes → Except String Bytes
  required : Bool

/-- What the signer takes from node-forge besides `Forge`. -/
structure SigningForge extends Forge where
  oidToDer : String → Bytes
  integerToDer : Nat → Bytes
  certificateFromPem : String → Except String SigningCertificate
  privateKeyFromPem : String → Except String PrivateKey
  /-- `createSignedData` with the content, the certificate, one signer and the signing
  time, after `sign({ detached: true })`, as `toAsn1()`. -/
  signedData : SigningCertificate → Bytes → Int → Except String Asn1

-- ---------------------------------------------------------------------------
-- Errors
-- ---------------------------------------------------------------------------

inductive PemSignerError
  | bothKeys
  | certPem
  | keyPem
  | unsupportedKeyType (keyType : String)
  | modulus (keyType : String) (actualBits : Nat)
  /-- Thrown by node-forge. -/
  | forge (message : String)
  | noChildren
  | noSignedData
  | noSignerInfos
  | malformedSignerInfo
  | noSignedAttributes
  /-- Thrown by the external signer. -/
  | external (message : String)
  | signatureLength (returned : String) (expected : Nat)
  /-- Thrown by the transport. -/
  | transport (message : String)
  | response (e : TimeStampRespError)
  | spliceNoChildren
  | spliceNoSignedData
  | spliceNoSignerInfos
  | spliceMalformedSignerInfo

def PemSignerError.text (string : Nat → String) : PemSignerError → String
  | .bothKeys => "PemSigner: pass either keyPem or externalSigner, not both"
  | .certPem => "PemSigner: certPem must be a PEM-encoded X.509 certificate"
  | .keyPem => "PemSigner: keyPem must be PEM-encoded"
  | .unsupportedKeyType keyType =>
    "PemSigner: unsupported externalSigner.keyType \"" ++ keyType ++ "\""
  | .modulus keyType actualBits =>
    "PemSigner: externalSigner.keyType " ++ keyType ++
      " does not match the certificate's RSA modulus (" ++ string actualBits ++
      " bits)"
  | .forge message | .external message | .transport message => message
  | .noChildren => "PemSigner: ContentInfo has no children"
  | .noSignedData => "PemSigner: SignedData not found"
  | .noSignerInfos => "PemSigner: signerInfos SET not found"
  | .malformedSignerInfo => "PemSigner: SignerInfo SEQUENCE malformed"
  | .noSignedAttributes =>
    "PemSigner: could not locate signed attributes to add signing-certificate-v2"
  | .signatureLength returned expected =>
    "PemSigner: externalSigner.signRsaSha256 returned " ++ returned ++ " bytes; expected exactly " ++
      string expected ++ " (RSASSA-PKCS1-v1_5 signatures are modulus-sized)"
  | .response e => e.text string
  | .spliceNoChildren => "RFC3161 splice: ContentInfo has no children"
  | .spliceNoSignedData => "RFC3161 splice: SignedData not found"
  | .spliceNoSignerInfos => "RFC3161 splice: signerInfos SET not found"
  | .spliceMalformedSignerInfo => "RFC3161 splice: SignerInfo SEQUENCE malformed"

-- ---------------------------------------------------------------------------
-- The first SignerInfo
-- ---------------------------------------------------------------------------

namespace Asn1

def isContext (node : Asn1) : Bool :=
  node.tagClass == CONTEXT_SPECIFIC && node.children?.isSome

def isSet (node : Asn1) : Bool :=
  node.tagClass == UNIVERSAL && node.type == SET && node.children?.isSome

/-- The `[n]` context node. -/
def isContextNode (n : Nat) (node : Asn1) : Bool :=
  node.tagClass == CONTEXT_SPECIFIC && node.type == n

def isOctetString (node : Asn1) : Bool := node.tagClass == UNIVERSAL && node.type == OCTETSTRING

def mapChildren (f : List Asn1 → List Asn1) : Asn1 → Asn1
  | .primitive c t v => .primitive c t v
  | .constructed c t children => .constructed c t (f children)

def mapHead (f : Asn1 → Asn1) : List Asn1 → List Asn1
  | [] => []
  | node :: rest => f node :: rest

/-- A change of the children of the first SignerInfo. -/
def mapSignerInfo (f : List Asn1 → List Asn1) : Asn1 → Asn1 :=
  mapChildren (mapLast isContext (mapChildren (mapHead (mapChildren
    (mapLast isSet (mapChildren (mapHead (mapChildren f))))))))

end Asn1

/-- `firstSignerInfoSeq`, and the walk of `spliceUnsignedAttrs`, which throws texts of
its own: the children of the first SignerInfo. -/
def signerInfoChildren (noContent noData noInfos malformed : PemSignerError)
    (contentInfo : Asn1) : Except PemSignerError (List Asn1) :=
  match contentInfo.children? with
  | none => .error noContent
  | some children =>
    match (((lastWhere isContext children).bind Asn1.children?).bind (·.head?)).bind Asn1.children? with
    | none => .error noData
    | some signedData =>
      match ((lastWhere isSet signedData).bind Asn1.children?).bind (·.head?) with
      | none => .error noInfos
      | some signerInfo =>
        match signerInfo.children? with
        | none => .error malformed
        | some children => .ok children

def firstSignerInfoSeq : Asn1 → Except PemSignerError (List Asn1) :=
  signerInfoChildren .noChildren .noSignedData .noSignerInfos .malformedSignerInfo

def spliceUnsignedAttrs (contentInfo unsignedAttrs : Asn1) : Except PemSignerError Asn1 := do
  let _ ← signerInfoChildren .spliceNoChildren .spliceNoSignedData .spliceNoSignerInfos
    .spliceMalformedSignerInfo contentInfo
  return contentInfo.mapSignerInfo (· ++ [unsignedAttrs])

-- ---------------------------------------------------------------------------
-- The constructor
-- ---------------------------------------------------------------------------

inductive SigningKey
  | privateKey (key : PrivateKey)
  | externalSigner (signer : ExternalSigner)

structure PemSigner where
  key : SigningKey
  certificate : SigningCertificate
  tsa : Option TsaTransport
  padesStrict : Bool

structure PemSignerInput where
  keyPem : Option String
  certPem : Option String
  externalSigner : Option ExternalSigner
  tsa : Option TsaTransport
  padesStrict : Bool

/-- `text.includes(part)` -/
def includes (text part : String) : Bool := text.toList.tails.any (part.toList.isPrefixOf ·)

/-- A text that is there and not empty. -/
def nonemptyText (text : Option String) : Option String := text.filter (· ≠ "")

def certificatePem? (pem : Option String) : Option String :=
  (nonemptyText pem).filter (includes · "-----BEGIN CERTIFICATE-----")

def EXTERNAL_KEY_BITS : List (String × Nat) :=
  [("rsa-2048", 2048), ("rsa-3072", 3072), ("rsa-4096", 4096)]

section
variable (forge : SigningForge)

def PemSigner.new (input : PemSignerInput) : Except PemSignerError PemSigner :=
  match input.externalSigner with
  | some signer => do
    if (nonemptyText input.keyPem).isSome then throw .bothKeys
    else
      match certificatePem? (input.certPem.or (some signer.certificatePem)) with
      | none => throw .certPem
      | some pem =>
        let certificate ← (forge.certificateFromPem pem).mapError .forge
        match EXTERNAL_KEY_BITS.lookup signer.keyType with
        | none => throw (.unsupportedKeyType signer.keyType)
        | some expectedBits =>
          if certificate.modulusBits ≠ expectedBits then
            throw (.modulus signer.keyType certificate.modulusBits)
          else return ⟨.externalSigner signer, certificate, input.tsa, input.padesStrict⟩
  | none =>
    match (nonemptyText input.keyPem).filter (includes · "-----BEGIN"), certificatePem? input.certPem with
    | none, _ => throw .keyPem
    | _, none => throw .certPem
    | some keyPem, some certPem => do
      let key ← (forge.privateKeyFromPem keyPem).mapError .forge
      let certificate ← (forge.certificateFromPem certPem).mapError .forge
      return ⟨.privateKey key, certificate, input.tsa, input.padesStrict⟩

-- ---------------------------------------------------------------------------
-- The signed attributes
-- ---------------------------------------------------------------------------

def sequence (children : List Asn1) : Asn1 := .constructed UNIVERSAL SEQUENCE children

/-- A zero in front of a first byte with the high bit set. -/
def positive (bytes : Bytes) : Bytes :=
  match bytes with
  | b :: rest => if b &&& 0x80 ≠ 0 then 0 :: b :: rest else b :: rest
  | [] => []

def buildSigningCertV2Attr (cert : SigningCertificate) : Asn1 :=
  let certHash := forge.sha256 cert.der
  let generalNames := sequence [.constructed CONTEXT_SPECIFIC 4 [cert.issuer]]
  let serial : Asn1 := .primitive UNIVERSAL INTEGER (positive cert.serialBytes)
  let essCertId := sequence
    [.primitive UNIVERSAL OCTETSTRING certHash, sequence [generalNames, serial]]
  sequence [.primitive UNIVERSAL OID (forge.oidToDer OID_SIGNING_CERT_V2),
    .constructed UNIVERSAL SET [sequence [sequence [essCertId]]]]

/-- Whether an attribute is signing-time. -/
def isSigningTime (attr : Asn1) : Bool :=
  match attr.children? with
  | some (oidNode :: _) =>
    oidNode.type == OID && safeOid forge.toForge oidNode == OID_SIGNING_TIME
  | _ => false

def PemSigner.modulusBytes (signer : PemSigner) : Nat := (signer.certificate.modulusBits + 7) / 8

/-- The signature over the attributes as a SET. -/
def PemSigner.signatureOver (signer : PemSigner) (attrs : List Asn1) : Except PemSignerError Bytes := do
  let setDer ← (forge.toDer (.constructed UNIVERSAL SET attrs)).mapError .forge
  match signer.key with
  | .privateKey key => (key (forge.sha256 setDer)).mapError .forge
  | .externalSigner external =>
    match ← (external.signRsaSha256 setDer).mapError .external with
    | .other typeof => throw (.signatureLength typeof signer.modulusBytes)
    | .bytes signature =>
      if signature.length ≠ signer.modulusBytes then
        throw (.signatureLength (toString signature.length) signer.modulusBytes)
      else return signature

/-- The children of a SignerInfo with other signed attributes and another signature. -/
def resignedChildren (attrs : List Asn1) (signature : Bytes) (children : List Asn1) : List Asn1 :=
  mapLast isOctetString (fun _ => .primitive UNIVERSAL OCTETSTRING signature)
    (mapLast (isContextNode 0) (mapChildren fun _ => attrs) children)

/-- The tree after the change, and the new signature. -/
def PemSigner.addSigningCertV2AndResign (signer : PemSigner) (p7 : Asn1) :
    Except PemSignerError (Asn1 × Bytes) := do
  let children ← firstSignerInfoSeq p7
  match (lastWhere (isContextNode 0) children).bind Asn1.children?, lastWhere isOctetString children with
  | some attrs, some _ =>
    let kept := if signer.padesStrict then attrs.filter (!isSigningTime forge ·) else attrs
    let attrs := kept ++ [buildSigningCertV2Attr forge signer.certificate]
    let signature ← signer.signatureOver forge attrs
    return (p7.mapSignerInfo (resignedChildren attrs signature), signature)
  | _, _ => throw .noSignedAttributes

-- ---------------------------------------------------------------------------
-- The time stamp
-- ---------------------------------------------------------------------------

def buildTimeStampReq (nonceBytes sigValue : Bytes) : Except String Bytes :=
  let hashAlgorithm := sequence
    [.primitive UNIVERSAL OID (forge.oidToDer OID_SHA256), .primitive UNIVERSAL NULL []]
  let messageImprint := sequence
    [hashAlgorithm, .primitive UNIVERSAL OCTETSTRING (forge.sha256 sigValue)]
  forge.toDer (sequence
    [.primitive UNIVERSAL INTEGER (forge.integerToDer 1), messageImprint,
      .primitive UNIVERSAL INTEGER (positive nonceBytes), .primitive UNIVERSAL BOOLEAN [0xff]])

/-- The token that the transport brings. -/
def requestToken (tsa : TsaTransport) (nonceBytes sigValue : Bytes) : Except PemSignerError Asn1 := do
  let reqDer ← (buildTimeStampReq forge nonceBytes sigValue).mapError .forge
  let respBytes ← (tsa.fetch reqDer).mapError .transport
  (parseTimeStampResp forge.toForge respBytes).mapError .response

def timestampAttrs (token : Asn1) : Asn1 :=
  .constructed CONTEXT_SPECIFIC 1
    [sequence [.primitive UNIVERSAL OID (forge.oidToDer OID_TIMESTAMP_TOKEN),
      .constructed UNIVERSAL SET [token]]]

/-- The `try` block. -/
def timestamped (tsa : TsaTransport) (nonceBytes : Bytes) (p7 : Asn1) (sigValue : Bytes) :
    Except PemSignerError Asn1 := do
  let token ← requestToken forge tsa nonceBytes sigValue
  spliceUnsignedAttrs p7 (timestampAttrs forge token)

structure PemSignature where
  der : Bytes
  lastTimestamped : Bool
  lastTsaError : Option PemSignerError

/-- `sign`, with the random bytes of the nonce. -/
def PemSigner.sign (signer : PemSigner) (nonceBytes : Bytes) (signingTime : Int) (pdf : Bytes) :
    Except PemSignerError PemSignature := do
  let p7 ← (forge.signedData signer.certificate pdf signingTime).mapError .forge
  let (p7, sigValue) ← signer.addSigningCertV2AndResign forge p7
  match signer.tsa with
  | none => return ⟨← (forge.toDer p7).mapError .forge, false, none⟩
  | some tsa =>
    match timestamped forge tsa nonceBytes p7 sigValue with
    | .ok p7 => return ⟨← (forge.toDer p7).mapError .forge, true, none⟩
    | .error e =>
      if tsa.required then throw e
      else return ⟨← (forge.toDer p7).mapError .forge, false, some e⟩

end

end EsigSuite
