import EsigSuite.Pdf.Coverage
import EsigSuite.Pdf.PemSigner
import EsigSuite.Pdf.PqEmbed

/-!
# Signing a PDF

`signPdf` of `esig-core/src/sign-pdf.ts`. The signing library and the code that
adds the placeholder are a parameter: of their work stays the file around the
digits of /Contents, with the /ByteRange in it. The library is taken to cut off a
signature that is longer than its placeholder.
-/

namespace EsigSuite.SignPdf

open Lib Asn1

def DEFAULT_SIGNATURE_LENGTH : Nat := 8192
def TIMESTAMPED_SIGNATURE_LENGTH : Nat := 30720
def SUPPORTED_SUBFILTERS : List String := ["ETSI.CAdES.detached", "adbe.pkcs7.detached"]

structure PlaceholderOptions where
  reason : String
  contactInfo : String
  name : String
  location : String
  signatureLength : Nat
  subFilter : String

/-- A file with the /ByteRange written, around the digits of /Contents. -/
structure Prepared where
  head : Bytes
  digits : Nat
  tail : Bytes
  length_lt : head.length + (digits + 2) + tail.length < 2 ^ 53

/-- The digits in the place of the placeholder, cut off or filled up with zeros. -/
def Prepared.contents (p : Prepared) (der : Bytes) : Bytes :=
  let text := (bytesToHex der).map hexChar
  text.take p.digits ++ List.replicate (p.digits - text.length) 48

theorem Prepared.length_contents (p : Prepared) (der : Bytes) : (p.contents der).length = p.digits := by
  rw [contents, List.length_append, List.length_take, List.length_replicate]
  omega

/-- The file with this in its placeholder. -/
def Prepared.file (p : Prepared) (der : Bytes) : Buffer where
  bytes := p.head ++ 60 :: (p.contents der ++ 62 :: p.tail)
  length_lt := by
    have hlength := p.length_lt
    simp only [List.length_append, List.length_cons, p.length_contents]
    omega

structure SigningLibrary where
  plainAddPlaceholder : Bytes → PlaceholderOptions → Except String Bytes
  /-- `SignPdf.sign` before it calls the signer. -/
  prepare : Bytes → Except String Prepared

structure SignPdfInput where
  pdf : Buffer
  keyPem : Option String := none
  certPem : Option String := none
  externalSigner : Option ExternalSigner := none
  reason : String
  location : String
  contactInfo : String
  name : String
  signingTime : Option Int := none
  signatureLength : Option Nat := none
  subFilter : Option String := none
  tsa : Option TsaTransport := none
  padesStrict : Bool := false
  pqSeal : Option PqSealOptions := none

structure SignPdfResult where
  signedPdf : Buffer
  placeholderBudget : Nat
  timestamped : Bool
  tsaError : Option PemSignerError
  pqSealed : Bool
  pqKeyId : Option JsString
  pqMldsa65Fpr : Option JsString
  pqUuaid : Option JsString

inductive SignPdfError
  | bothKeys
  | noKey
  | unsupportedSubFilter (subFilter : String)
  | pqSeal (message : String)
  | library (message : String)
  | signer (e : PemSignerError)
  | overflow (actual : Nat) (measuredBudget : Number)

/-- The message, given how numbers are written and a text is quoted. -/
def SignPdfError.text (string : Number → String) (quote : String → String) : SignPdfError → String
  | .bothKeys => "signPdf: pass either keyPem or externalSigner, not both"
  | .noKey => "signPdf: keyPem or externalSigner is required"
  | .unsupportedSubFilter subFilter =>
    "signPdf: unsupported subFilter " ++ quote subFilter ++ " — expected one of " ++
      ", ".intercalate SUPPORTED_SUBFILTERS
  | .pqSeal message | .library message => message
  | .signer e => e.text fun n => string (.ofNat n)
  | .overflow actual measuredBudget =>
    "PKCS#7 (" ++ string (.ofNat actual) ++ " bytes) exceeded placeholder budget (" ++
      string measuredBudget ++ ") — increase signatureLength"

/-- The clock and the random bytes of one call. -/
structure SigningRun where
  now : Int
  nonceBytes : Bytes

/-- What `signPdf` has in hand before the overflow guard. -/
structure SignedParts where
  budget : Nat
  sealedPdf : SealedPdf
  prepared : Prepared
  signature : PemSignature

def SignedParts.signed (s : SignedParts) : Buffer := s.prepared.file s.signature.der

section
variable (lib : SigningLibrary) (forge : SigningForge)

def SignPdfInput.budget (input : SignPdfInput) : Nat :=
  input.signatureLength.getD
    (if input.tsa.isSome then TIMESTAMPED_SIGNATURE_LENGTH else DEFAULT_SIGNATURE_LENGTH)

def signedParts (run : SigningRun) (input : SignPdfInput) : Except SignPdfError SignedParts := do
  if input.externalSigner.isSome ∧ (nonemptyText input.keyPem).isSome then throw .bothKeys
  if input.externalSigner.isNone ∧ (nonemptyText input.keyPem).isNone then throw .noKey
  if let some subFilter := input.subFilter then
    if subFilter ∉ SUPPORTED_SUBFILTERS then throw (.unsupportedSubFilter subFilter)
  let sealedPdf ← (sealPdf forge.sha256 input.pdf input.pqSeal).mapError .pqSeal
  let withPlaceholder ← (lib.plainAddPlaceholder sealedPdf.basePdf
    ⟨input.reason, input.contactInfo, input.name, input.location, input.budget,
      input.subFilter.getD "ETSI.CAdES.detached"⟩).mapError .library
  let signer ← (PemSigner.new forge
    ⟨input.keyPem, input.certPem, input.externalSigner, input.tsa, input.padesStrict⟩).mapError .signer
  let prepared ← (lib.prepare withPlaceholder).mapError .library
  let signature ← (signer.sign forge run.nonceBytes (input.signingTime.getD run.now)
    (prepared.head ++ prepared.tail)).mapError .signer
  return ⟨input.budget, sealedPdf, prepared, signature⟩

/-- The overflow guard. -/
def overflowGuard (budget : Nat) (signed : Buffer) : Except SignPdfError Unit :=
  let found := verifyPdfStructure forge.toForge signed
  let actual := found.pkcs7ActualSize.getD 0
  let measuredBudget := found.pkcs7BudgetSize.getD (.ofNat budget)
  if (Number.ofNat actual).ge measuredBudget then .error (.overflow actual measuredBudget) else .ok ()

def signPdf (run : SigningRun) (input : SignPdfInput) : Except SignPdfError SignPdfResult := do
  let s ← signedParts lib forge run input
  overflowGuard forge s.budget s.signed
  return {
    signedPdf := s.signed
    placeholderBudget := s.budget
    timestamped := s.signature.lastTimestamped
    tsaError := s.signature.lastTsaError
    pqSealed := input.pqSeal.isSome
    pqKeyId := s.sealedPdf.pqKeyId
    pqMldsa65Fpr := s.sealedPdf.pqMldsa65Fpr
    pqUuaid := input.pqSeal.bind (·.uuaid) }

end

end EsigSuite.SignPdf
