import EsigSuite.Envelope.Model
import EsigSuite.Lib.FirstOk
import EsigSuite.Lib.JsRegex

/-!
# The document that is rendered

`composeEnvelopeHtml` of `esig-core/src/envelope.ts`, the signature blocks of
`signature-block.ts` and the identity attestations that `seal` of `envelopes.ts`
appends, over the fields of an envelope that these read. `toISOString` of a date
is a parameter.
-/

namespace EsigSuite

open Lib Lib.Regex

/-- `SignatureBlockEntry`; what the envelope may lack is `undefined`. -/
structure SignatureBlockEntry where
  name : JsString
  email : JsString
  signatureImageDataUrl : Option JsString
  signedAt : Option Time
  roleLabel : Option JsString

/-- What the attestations read of a verified identity. -/
structure AttestedIdentity where
  uuaid : JsString
  level : JsString
  keyFingerprint : Option JsString
  verifiedAt : JsString

structure RenderedSigner extends SignatureBlockEntry where
  verified : Option AttestedIdentity

structure RenderedEnvelope where
  status : EnvelopeStatus
  html : JsString
  signers : List RenderedSigner

inductive ComposeError
  /-- `envelope is …, not completed` -/
  | not_complete (status : EnvelopeStatus)
  /-- `signatureImageDataUrl must be a base64 image data URL …` -/
  | not_an_image
  /-- `undefined.toISOString()` -/
  | type_error
  deriving DecidableEq

/-- The value of `x ? … : ""`, where an empty text counts as missing. -/
def ifText (x : Option JsString) (text : JsString → JsString) : JsString :=
  match x with
  | some value => if value = [] then [] else text value
  | none => []

def join (separator : JsString) : List JsString → JsString
  | [] => []
  | [text] => text
  | text :: texts => text ++ separator ++ join separator texts

def escapeBy (entities : List (Char × String)) (s : JsString) : JsString :=
  s.flatMap fun c =>
    match entities.find? fun e => unitOf e.1 == c with
    | some e => js e.2
    | none => [c]

/-- `escapeHtml` of `envelopes.ts` -/
def escapeAttestation : JsString → JsString :=
  escapeBy [('&', "&amp;"), ('<', "&lt;"), ('>', "&gt;"), ('"', "&quot;")]

/-- `escapeHtml` of `signature-block.ts`, which escapes the apostrophe too -/
def escapeHtml : JsString → JsString :=
  escapeBy [('&', "&amp;"), ('<', "&lt;"), ('>', "&gt;"), ('"', "&quot;"),
    (Char.ofNat 0x27, "&#39;")]

def isBase64Unit (c : UInt16) : Bool :=
  isLetterUnit c || isDigitUnit c || c == unitOf '+' || c == unitOf '/'

/-- `/^data:image\/(png|jpe?g|webp|gif);base64,[A-Za-z0-9+/]+={0,2}$/` -/
def IMAGE_DATA_URL : Regex UInt16 :=
  .all [start, lit "data:image/",
    .group (.oneOf [lit "png", .all [lit "jp", opt (chr 'e'), chr 'g'], lit "webp", lit "gif"]),
    lit ";base64,", plus (.char isBase64Unit), upTo 2 (chr '='), finish]

def assertImageDataUrl (dataUrl : Option JsString) : Except ComposeError JsString :=
  let compact := (dataUrl.getD []).filter fun c => !isWhiteUnit c
  if IMAGE_DATA_URL.test none compact then .ok compact else .error .not_an_image

section
variable (toISOString : Time → JsString)

def signatureRow (s : SignatureBlockEntry) : Except ComposeError JsString := do
  let image ← assertImageDataUrl s.signatureImageDataUrl
  let some signedAt := s.signedAt | throw .type_error
  return js "\n  <div class=\"signature-row\">\n    " ++
    ifText s.roleLabel (fun label =>
      js "<p class=\"role-label\">" ++ escapeHtml label ++ js "</p>") ++
    js "\n    <p><strong>Signed electronically by:</strong> " ++ escapeHtml s.name ++
    ifText (some s.email) (fun email => js " &lt;" ++ escapeHtml email ++ js "&gt;") ++
    js "</p>\n    <img src=\"" ++ image ++ js "\" alt=\"Signature of " ++ escapeHtml s.name ++
    js "\">\n    <p class=\"signature-meta\">Signed at " ++ toISOString signedAt ++
    js "</p>\n  </div>"

def blockStyle : JsString := js "  <style>
    .signature-block \x7b margin-top: 64px; border-top: 1px solid #999; padding-top: 16px; \x7d
    .signature-row \x7b margin: 16px 0; padding: 12px 0; border-bottom: 1px dashed #ddd; \x7d
    .signature-row:last-child \x7b border-bottom: none; \x7d
    .signature-row img \x7b display: block; max-height: 96px; margin: 8px 0; \x7d
    .signature-meta \x7b color: #555; font-size: 11px; margin-top: 4px; \x7d
    .role-label \x7b font-style: italic; color: #444; margin: 0 0 4px; \x7d
    .audit-footer \x7b color: #555; font-size: 11px; margin-top: 12px; \x7d
  </style>
  "

def renderSignatureBlocksHtml (signers : List SignatureBlockEntry)
    (platformLabel platformUrl : Option JsString) : Except ComposeError JsString := do
  let platform := platformLabel.getD (js "self-contained e-signature pipeline")
  let rows ← signers.mapM (signatureRow toISOString)
  return js "<div class=\"signature-block\">\n" ++ (blockStyle ++ join (js "\n") rows ++
    js "\n  <p class=\"audit-footer\">\n    Cryptographically sealed via the " ++
    escapeHtml platform ++
    ifText platformUrl (fun url => js " (" ++ escapeHtml url ++ js ")") ++
    js ".\n    Any post-signing modification invalidates the signature panel in Adobe Reader / Preview.\n  </p>\n</div>")

def composeEnvelopeHtml (envelope : RenderedEnvelope) (platformLabel platformUrl : Option JsString) :
    Except ComposeError JsString :=
  if envelope.status ≠ .completed then .error (.not_complete envelope.status)
  else do
    let blocks ← renderSignatureBlocksHtml toISOString
      (envelope.signers.map (·.toSignatureBlockEntry)) platformLabel platformUrl
    return envelope.html ++ js "\n" ++ blocks

def attestationRow (signer : RenderedSigner) : Option JsString :=
  signer.verified.map fun record =>
    js "<div>" ++ escapeAttestation signer.name ++ js " — uuaid " ++
      escapeAttestation record.uuaid ++ js ", level " ++ escapeAttestation record.level ++
      ifText record.keyFingerprint (fun print =>
        js ", key fingerprint " ++ escapeAttestation print) ++
      js ", verified at " ++ escapeAttestation record.verifiedAt ++ js "</div>"

def identityAttestationsHtml (envelope : RenderedEnvelope) : JsString :=
  let rows := envelope.signers.filterMap attestationRow
  if rows = [] then []
  else
    js "\n<section class=\"identity-attestations\"><h3>Identity attestations</h3>\n" ++
      join (js "\n") rows ++ js "\n</section>"

/-- What `seal` hands to `render`. -/
def composed (envelope : RenderedEnvelope) : Except ComposeError JsString := do
  let html ← composeEnvelopeHtml toISOString envelope (some (js "e-sig MCP")) none
  return html ++ identityAttestationsHtml envelope

-- ---------------------------------------------------------------------------
-- Its shape
-- ---------------------------------------------------------------------------

theorem renderSignatureBlocksHtml_shape {signers : List SignatureBlockEntry}
    {label url : Option JsString} {blocks : JsString}
    (h : renderSignatureBlocksHtml toISOString signers label url = .ok blocks) :
    ∃ tail, blocks = js "<div class=\"signature-block\">\n" ++ tail := by
  obtain ⟨rows, -, h⟩ := bind_eq_ok.mp h
  exact ⟨_, (Except.ok.inj h).symm⟩

/-- The stored html comes first, and the blocks open with a tag of their own. -/
theorem composed_shape {envelope : RenderedEnvelope} {doc : JsString}
    (h : composed toISOString envelope = .ok doc) :
    ∃ tail, doc = envelope.html ++ js "\n<div class=\"signature-block\">" ++ tail := by
  obtain ⟨html, hcompose, h⟩ := bind_eq_ok.mp h
  rw [composeEnvelopeHtml] at hcompose
  split_ifs at hcompose
  obtain ⟨blocks, hblocks, hhtml⟩ := bind_eq_ok.mp hcompose
  obtain ⟨tail, rfl⟩ := renderSignatureBlocksHtml_shape toISOString hblocks
  obtain rfl := Except.ok.inj hhtml
  obtain rfl := Except.ok.inj h
  have hblock : js "\n" ++ js "<div class=\"signature-block\">\n" =
      js "\n<div class=\"signature-block\">" ++ js "\n" := by decide
  refine ⟨js "\n" ++ (tail ++ identityAttestationsHtml envelope), ?_⟩
  simp only [List.append_assoc]
  rw [← List.append_assoc (js "\n"), hblock, List.append_assoc]

end

end EsigSuite
