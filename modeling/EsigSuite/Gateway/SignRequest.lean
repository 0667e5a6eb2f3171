import EsigSuite.Gateway.Auth

/-!
# The signing endpoint

`parseSignRequest`, `decodeHtml` and `Signer.sign` of `esig-gateway/src/sign.ts`.
The HTML is text from `decodeHtml` on: it is rendered as such, and the hash of
the audit row is that of the text in UTF-8.
-/

namespace EsigSuite.Gateway

open Lib

def badRequest (detail : JsString) : GatewayThrown := .gatewayError .bad_request detail

-- ---------------------------------------------------------------------------
-- parseSignRequest
-- ---------------------------------------------------------------------------

/-- `[a-z0-9]` -/
def isSlugStart (unit : UInt16) : Bool := (97 ≤ unit && unit ≤ 122) || (48 ≤ unit && unit ≤ 57)

/-- `[a-z0-9._-]` -/
def isSlugUnit (unit : UInt16) : Bool :=
  isSlugStart unit || unit == 46 || unit == 95 || unit == 45

/-- `SLUG_RE` -/
def isSlug : JsString → Bool
  | [] => false
  | first :: rest => isSlugStart first && rest.length ≤ 63 && rest.all isSlugUnit

/-- `PURPOSE_RE` -/
def isPurpose (text : JsString) : Bool :=
  1 ≤ text.length && text.length ≤ 120 && text.all fun unit => 0x20 ≤ unit && unit ≤ 0x7E

def assertSlug (value : Option Json) (what : String) : Except GatewayThrown JsString :=
  match value with
  | some (.string text) =>
    if isSlug text then .ok text
    else .error (badRequest (js what ++ js " must match /^[a-z0-9][a-z0-9._-]\x7b0,63\x7d$/"))
  | _ => .error (badRequest (js what ++ js " must match /^[a-z0-9][a-z0-9._-]\x7b0,63\x7d$/"))

structure SignRequestBody where
  tenant : JsString
  cert_alias : JsString
  html_base64 : JsString
  purpose : JsString
  timestamp : JsString

def requireHtml : Option Json → Except GatewayThrown JsString
  | some (.string text) =>
    if text = [] then .error (badRequest (js "html_base64 must be a non-empty string")) else .ok text
  | _ => .error (badRequest (js "html_base64 must be a non-empty string"))

def requirePurpose : Option Json → Except GatewayThrown JsString
  | some (.string text) =>
    if isPurpose text then .ok text
    else .error (badRequest (js "purpose must be 1-120 printable ASCII characters"))
  | _ => .error (badRequest (js "purpose must be 1-120 printable ASCII characters"))

/-- `dateParse` is `Date.parse`, with nothing for NaN. -/
def requireTimestamp (dateParse : JsString → Option Int) : Option Json → Except GatewayThrown JsString
  | some (.string text) =>
    if dateParse text = none then
      .error (badRequest (js "timestamp is not a parseable RFC3339 instant"))
    else .ok text
  | _ => .error (badRequest (js "timestamp must be an RFC3339 string"))

def parseSignRequest (dateParse : JsString → Option Int) (raw : Json) :
    Except GatewayThrown SignRequestBody :=
  match raw with
  | .object members => do
    let tenant ← assertSlug (lookup members (js "tenant")) "tenant"
    let cert_alias ← assertSlug (lookup members (js "cert_alias")) "cert_alias"
    let html_base64 ← requireHtml (lookup members (js "html_base64"))
    let purpose ← requirePurpose (lookup members (js "purpose"))
    let timestamp ← requireTimestamp dateParse (lookup members (js "timestamp"))
    return { tenant, cert_alias, html_base64, purpose, timestamp }
  | _ => .error (badRequest (js "body must be a JSON object"))

-- ---------------------------------------------------------------------------
-- decodeHtml
-- ---------------------------------------------------------------------------

/-- `b64.replace(/\s+/g, "")` -/
def normalized (b64 : JsString) : JsString := b64.filter fun unit => !isWhiteSpace unit

/-- `[A-Za-z0-9+/]` -/
def isBase64Unit (unit : UInt16) : Bool :=
  (65 ≤ unit && unit ≤ 90) || (97 ≤ unit && unit ≤ 122) || (48 ≤ unit && unit ≤ 57) ||
    unit == 43 || unit == 47

/-- `/^[A-Za-z0-9+/]*={0,2}$/` -/
def isBase64Text (text : JsString) : Bool :=
  let pad := text.dropWhile isBase64Unit
  pad.length ≤ 2 && pad.all (· == 61)

/-- What comes out of `toString("utf8")` is a list of characters: it has no lone
surrogates. -/
def decodeHtml (text : JsString) : Except GatewayThrown (List Char) :=
  if !isBase64Text (normalized text) || (normalized text).length % 4 != 0 then
    .error (badRequest (js "html_base64 is not valid standard base64"))
  else
    let bytes := fromBase64 (normalized text)
    if bytes.length = 0 then .error (badRequest (js "html_base64 decoded to zero bytes"))
    else if b64 bytes ≠ normalized text then
      .error (badRequest (js "html_base64 is not canonical base64"))
    else .ok (Utf8.decode bytes)

-- ---------------------------------------------------------------------------
-- Signer
-- ---------------------------------------------------------------------------

inductive Via
  | jwt
  | mtls
  | mtlsJwt
  | apiKey

structure Principal where
  id : JsString
  via : Via
  tenantClaim : Option JsString
  transitional : Bool
  peer : Option JsString

structure TenantBinding where
  aliases : List JsString
  callers : List JsString
  subjectName : JsString
  reason : Option JsString
  location : Option JsString
  pqSeal : Option Bool
  uuaid : Option JsString

structure GatewayConfig where
  tenants : List (JsString × TenantBinding)
  maxClientSkewSec : Double

def resolveBinding (cfg : GatewayConfig) (tenant certAlias caller : JsString) :
    Except GatewayThrown TenantBinding :=
  match OrderedMap.get cfg.tenants tenant with
  | none => .error (.gatewayError .unknown_tenant
      (js "no registry entry for tenant \"" ++ tenant ++ js "\""))
  | some binding =>
    if certAlias ∉ binding.aliases then
      .error (.gatewayError .unknown_alias
        (js "alias \"" ++ certAlias ++ js "\" not bound to tenant \"" ++ tenant ++ js "\""))
    else if caller ∉ binding.callers then
      .error (.gatewayError .forbidden
        (js "caller \"" ++ caller ++ js "\" not bound to tenant \"" ++ tenant ++ js "\""))
    else .ok binding

def certKeyFor (tenant certAlias : JsString) : JsString := tenant ++ js "/" ++ certAlias

/-- `Math.abs(signedAt.getTime() - clientMs) / 1000` -/
def skewSec (signedAt clientMs : Int) : JsNumber :=
  match JsNumber.sub (some (.finite signedAt)) (some (.finite clientMs)) with
  | some (.finite d) => some (.round (|d| / 1000))
  | other => other

/-- `Math.round` -/
def mathRound : JsNumber → JsNumber
  | some (.finite x) => some (.finite ⌊x + 1 / 2⌋)
  | other => other

/-- What is made of the PDF: the signed bytes with what the row and the answer
say about them. -/
structure Produced where
  signedPdf : List UInt8
  certId : JsString
  certFingerprint : JsString
  timestamped : Bool
  archivedUrl : Option JsString

structure AuditMetadata where
  request_id : JsString
  cert_alias : JsString
  cert_key : JsString
  purpose : JsString
  caller : JsString × Via × Option JsString
  transitional_auth : Bool
  client_timestamp : JsString
  signed_at : Int
  html_sha256 : JsString
  pdf_sha256 : JsString
  pdf_bytes : Nat
  present : Bool

structure AuditRow where
  tenantId : JsString
  action : JsString
  actorUserId : JsString
  targetTable : JsString
  targetId : JsString
  certId : JsString
  certFingerprint : JsString
  signedPdfUrl : Option JsString
  metadata : AuditMetadata

structure SignResponseBody where
  signed_pdf_base64 : JsString
  cert_fingerprint : JsString
  timestamped : Bool
  audit_id : JsString
  signed_at : Int
  transitional_auth : Bool

/-- `produce` is steps 4 to 7: key material, signature, self-verification and
archival. -/
structure SignerDeps where
  config : GatewayConfig
  now : Int
  dateParse : JsString → Option Int
  render : List Char → Except JsString (List UInt8)
  produce : TenantBinding → SignRequestBody → Int → List UInt8 → Except GatewayThrown Produced
  insert : AuditRow → Except GatewayThrown JsString

/-- What a run leaves outside. -/
inductive Effect
  | rendered (html : List Char)
  | inserted (row : AuditRow)

section
variable (sha256Hex : List UInt8 → JsString)

/-- Steps 1 and 2. -/
def admission (deps : SignerDeps) (body : SignRequestBody) (principal : Principal) :
    Except GatewayThrown TenantBinding := do
  let binding ← resolveBinding deps.config body.tenant body.cert_alias principal.id
  if principal.tenantClaim.any (· ≠ body.tenant) then
    throw (.gatewayError .forbidden (js "credential is scoped to tenant \"" ++
      principal.tenantClaim.getD [] ++ js "\", request names \"" ++ body.tenant ++ js "\""))
  let skew := (deps.dateParse body.timestamp).bind (skewSec deps.now)
  if Double.finite 0 < deps.config.maxClientSkewSec ∧
      JsNumber.lt (some deps.config.maxClientSkewSec) skew = true then
    throw (.gatewayError .stale_timestamp
      (js "client timestamp skew " ++ JsString.ofText (mathRound skew).text ++ js "s"))
  return binding

def auditRow (deps : SignerDeps) (body : SignRequestBody) (principal : Principal)
    (requestId : JsString) (html : List Char) (made : Produced) : AuditRow where
  tenantId := body.tenant
  action := js "pdf.signed"
  actorUserId := principal.id
  targetTable := js "assurance_dossier"
  targetId := body.tenant ++ js ":" ++ body.purpose
  certId := made.certId
  certFingerprint := made.certFingerprint
  signedPdfUrl := made.archivedUrl
  metadata :=
    { request_id := requestId
      cert_alias := body.cert_alias
      cert_key := certKeyFor body.tenant body.cert_alias
      purpose := body.purpose
      caller := (principal.id, principal.via, principal.peer)
      transitional_auth := principal.transitional
      client_timestamp := body.timestamp
      signed_at := deps.now
      html_sha256 := sha256Hex (Utf8.encode html)
      pdf_sha256 := sha256Hex made.signedPdf
      pdf_bytes := made.signedPdf.length
      present := made.timestamped }

def sign (deps : SignerDeps) (body : SignRequestBody) (principal : Principal)
    (requestId : JsString) : Except GatewayThrown SignResponseBody × List Effect :=
  match admission deps body principal with
  | .error e => (.error e, [])
  | .ok binding =>
    match decodeHtml body.html_base64 with
    | .error e => (.error e, [])
    | .ok html =>
      match deps.render html with
      | .error detail => (.error (.gatewayError .render_failed detail), [.rendered html])
      | .ok unsignedPdf =>
        match deps.produce binding body deps.now unsignedPdf with
        | .error e => (.error e, [.rendered html])
        | .ok made =>
          let row := auditRow sha256Hex deps body principal requestId html made
          match deps.insert row with
          | .error e => (.error e, [.rendered html])
          | .ok auditId =>
            (.ok
              { signed_pdf_base64 := b64 made.signedPdf
                cert_fingerprint := made.certFingerprint
                timestamped := made.timestamped
                audit_id := auditId
                signed_at := deps.now
                transitional_auth := principal.transitional },
             [.rendered html, .inserted row])

/-- The route `/v1/sign` on the body it has parsed as JSON. -/
def handleSign (deps : SignerDeps) (raw : Json) (principal : Principal) (requestId : JsString) :
    Except GatewayThrown SignResponseBody × List Effect :=
  match parseSignRequest deps.dateParse raw with
  | .error e => (.error e, [])
  | .ok body => sign sha256Hex deps body principal requestId

end

-- ---------------------------------------------------------------------------
-- Base64 that is accepted
-- ---------------------------------------------------------------------------

theorem isBase64Unit_digit (d : Fin 64) : isBase64Unit (Base64.digit d).toUInt16 = true := by
  revert d
  decide

theorem b64_eq (bytes : List UInt8) : b64 bytes =
    (Base64.digits bytes).map (fun d => (Base64.digit d).toUInt16) ++
      (Base64.padding bytes.length).map UInt8.toUInt16 := by
  simp [b64, Base64.encode, Function.comp_def]

theorem dropWhile_b64 (bytes : List UInt8) : (b64 bytes).dropWhile isBase64Unit =
    (Base64.padding bytes.length).map UInt8.toUInt16 := by
  rw [b64_eq, List.dropWhile_append_of_pos]
  · unfold Base64.padding
    split_ifs <;> rfl
  · intro unit hunit
    obtain ⟨d, -, rfl⟩ := List.mem_map.mp hunit
    exact isBase64Unit_digit d

theorem isBase64Text_b64 (bytes : List UInt8) : isBase64Text (b64 bytes) = true := by
  simp only [isBase64Text, dropWhile_b64]
  unfold Base64.padding
  split_ifs <;> rfl

theorem length_b64 (bytes : List UInt8) : (b64 bytes).length % 4 = 0 := by
  rw [b64, List.length_map, Base64.length_encode_mod]

theorem not_white_of_base64 {unit : UInt16} (h : isBase64Unit unit = true) :
    isWhiteSpace unit = false := by
  simp only [isBase64Unit, isWhiteSpace, Bool.or_eq_true, Bool.and_eq_true, decide_eq_true_eq,
    beq_iff_eq, Bool.or_eq_false_iff, Bool.and_eq_false_iff, decide_eq_false_iff_not, beq_eq_false_iff_ne,
    UInt16.le_iff_toNat_le, ne_eq, ← UInt16.toNat_inj] at h ⊢
  simp at h ⊢
  omega

theorem normalized_b64 (bytes : List UInt8) : normalized (b64 bytes) = b64 bytes := by
  rw [normalized, List.filter_eq_self]
  intro unit hunit
  rw [b64_eq, List.mem_append, List.mem_map, List.mem_map] at hunit
  rcases hunit with ⟨d, -, rfl⟩ | ⟨code, hcode, rfl⟩
  · rw [not_white_of_base64 (isBase64Unit_digit d), Bool.not_false]
  · rw [Base64.padding_eq_pad hcode]
    rfl

theorem b64_injective : Function.Injective b64 := fun bytes bytes' h => by
  rw [← fromBase64_b64 bytes, h, fromBase64_b64]

/-- Just the base64 of some bytes is accepted, with white space anywhere. -/
theorem decodeHtml_eq_ok {text : JsString} {html : List Char} : decodeHtml text = .ok html ↔
    ∃ bytes, bytes ≠ [] ∧ normalized text = b64 bytes ∧ html = Utf8.decode bytes := by
  constructor
  · intro h
    simp only [decodeHtml] at h
    split_ifs at h with hregex hempty hround
    cases h
    exact ⟨fromBase64 (normalized text), fun hnil => hempty (by rw [hnil]; rfl),
      (not_not.mp hround).symm, rfl⟩
  · rintro ⟨bytes, hne, htext, rfl⟩
    have hregex : ¬ (!isBase64Text (b64 bytes) || (b64 bytes).length % 4 != 0) = true := by
      simp [isBase64Text_b64, length_b64]
    simp only [decodeHtml, htext, fromBase64_b64]
    rw [if_neg hregex, if_neg (mt List.eq_nil_of_length_eq_zero hne), if_neg (not_not.mpr rfl)]

-- ---------------------------------------------------------------------------
-- What is rendered and recorded
-- ---------------------------------------------------------------------------

/-- The request carries these bytes as its HTML. -/
def Submits (deps : SignerDeps) (raw : Json) (bytes : List UInt8) : Prop :=
  ∃ body, parseSignRequest deps.dateParse raw = .ok body ∧ normalized body.html_base64 = b64 bytes

section
variable {sha256Hex : List UInt8 → JsString} {deps : SignerDeps} {principal : Principal}
  {requestId : JsString} {body : SignRequestBody} {raw : Json} {bytes : List UInt8}

/-- A run that leaves anything outside has decoded its HTML. -/
theorem sign_effects (h : effect ∈ (sign sha256Hex deps body principal requestId).2) :
    ∃ html, decodeHtml body.html_base64 = .ok html ∧ (effect = .rendered html ∨
      ∃ made, effect = .inserted (auditRow sha256Hex deps body principal requestId html made)) := by
  unfold sign at h
  cases hbinding : admission deps body principal with
  | error e => simp [hbinding] at h
  | ok binding =>
    cases hhtml : decodeHtml body.html_base64 with
    | error e => simp [hbinding, hhtml] at h
    | ok html =>
      refine ⟨html, rfl, ?_⟩
      simp only [hbinding, hhtml] at h
      split at h
      · exact .inl (List.mem_singleton.mp h)
      · split at h
        · exact .inl (List.mem_singleton.mp h)
        · rename_i made _
          split at h
          · exact .inl (List.mem_singleton.mp h)
          · rcases List.mem_cons.mp h with rfl | h
            · exact .inl rfl
            · exact .inr ⟨made, List.mem_singleton.mp h⟩

theorem handleSign_effects (h : effect ∈ (handleSign sha256Hex deps raw principal requestId).2) :
    ∃ body html, parseSignRequest deps.dateParse raw = .ok body ∧
      decodeHtml body.html_base64 = .ok html ∧ (effect = .rendered html ∨
        ∃ made, effect = .inserted (auditRow sha256Hex deps body principal requestId html made)) := by
  unfold handleSign at h
  cases hbody : parseSignRequest deps.dateParse raw with
  | error e => simp [hbody] at h
  | ok body =>
    simp only [hbody] at h
    obtain ⟨html, hhtml, heffect⟩ := sign_effects h
    exact ⟨body, html, rfl, hhtml, heffect⟩

theorem submits_of_effect (h : effect ∈ (handleSign sha256Hex deps raw principal requestId).2) :
    ∃ bytes, bytes ≠ [] ∧ Submits deps raw bytes := by
  obtain ⟨body, html, hbody, hhtml, -⟩ := handleSign_effects h
  obtain ⟨bytes, hne, htext, -⟩ := decodeHtml_eq_ok.mp hhtml
  exact ⟨bytes, hne, body, hbody, htext⟩

/-- Rendered and hashed is what reading the bytes as UTF-8 gives. -/
theorem effect_of_submits (hbytes : Submits deps raw bytes)
    (h : effect ∈ (handleSign sha256Hex deps raw principal requestId).2) :
    effect = .rendered (Utf8.decode bytes) ∨ ∃ row, effect = .inserted row ∧
      row.metadata.html_sha256 = sha256Hex (Utf8.encode (Utf8.decode bytes)) := by
  obtain ⟨body, html, hbody, hhtml, heffect⟩ := handleSign_effects h
  obtain ⟨bytes', -, htext, rfl⟩ := decodeHtml_eq_ok.mp hhtml
  obtain ⟨body', hbody', htext'⟩ := hbytes
  cases hbody.symm.trans hbody'
  cases b64_injective (htext'.symm.trans htext)
  rcases heffect with rfl | ⟨made, rfl⟩
  · exact .inl rfl
  · exact .inr ⟨_, rfl, rfl⟩

end

/-- A request that was answered with a signed PDF, and what it left outside. -/
structure Signing (sha256Hex : List UInt8 → JsString) where
  deps : SignerDeps
  raw : Json
  principal : Principal
  requestId : JsString
  bytes : List UInt8
  html : List Char
  row : AuditRow
  submits : Submits deps raw bytes
  recorded : (handleSign sha256Hex deps raw principal requestId).2 =
    [.rendered html, .inserted row]

namespace Signing

variable {sha256Hex : List UInt8 → JsString} (s : Signing sha256Hex)

theorem html_eq : s.html = Utf8.decode s.bytes := by
  have hmem : Effect.rendered s.html ∈
      (handleSign sha256Hex s.deps s.raw s.principal s.requestId).2 := by
    rw [s.recorded]
    exact List.mem_cons_self
  rcases effect_of_submits s.submits hmem with h | ⟨row, h, -⟩
  · exact Effect.rendered.inj h
  · cases h

theorem html_sha256_eq :
    s.row.metadata.html_sha256 = sha256Hex (Utf8.encode (Utf8.decode s.bytes)) := by
  have hmem : Effect.inserted s.row ∈
      (handleSign sha256Hex s.deps s.raw s.principal s.requestId).2 := by
    rw [s.recorded]
    exact List.mem_cons_of_mem _ List.mem_cons_self
  rcases effect_of_submits s.submits hmem with h | ⟨row, h, hhash⟩
  · cases h
  · rw [Effect.inserted.inj h, hhash]

end Signing

/-- Bytes that are not UTF-8 are replaced before anything is made of them. -/
theorem html_kept_iff (bytes : List UInt8) :
    Utf8.encode (Utf8.decode bytes) = bytes ↔ ∃ text, Utf8.encode text = bytes := by
  constructor
  · exact fun h => ⟨_, h⟩
  · rintro ⟨text, rfl⟩
    rw [Utf8.decode_encode]

/-- Only the base64 of bytes gets to be rendered. Two signings are told apart by
their hashes, with the HTML of each kept, just where both submit UTF-8. -/
theorem signings_bound_iff {sha256Hex : List UInt8 → JsString}
    (hsha : Function.Injective sha256Hex) :
    (∀ deps raw principal requestId,
      (handleSign sha256Hex deps raw principal requestId).2 ≠ [] →
        ∃ bytes, bytes ≠ [] ∧ Submits deps raw bytes) ∧
      ∀ s s' : Signing sha256Hex, s.bytes ≠ s'.bytes →
        ((s.row.metadata.html_sha256 ≠ s'.row.metadata.html_sha256 ∧
            Utf8.encode s.html = s.bytes ∧ Utf8.encode s'.html = s'.bytes) ↔
          (∃ text, Utf8.encode text = s.bytes) ∧ ∃ text, Utf8.encode text = s'.bytes) := by
  constructor
  · intro deps raw principal requestId hne
    obtain ⟨effect, heffect⟩ := List.exists_mem_of_ne_nil _ hne
    exact submits_of_effect heffect
  · intro s s' hne
    rw [s.html_eq, s'.html_eq, s.html_sha256_eq, s'.html_sha256_eq, html_kept_iff, html_kept_iff]
    constructor
    · exact And.right
    · rintro ⟨h, h'⟩
      refine ⟨fun hsame => hne ?_, h, h'⟩
      rw [← (html_kept_iff _).mpr h, hsha hsame, (html_kept_iff _).mpr h']

-- ---------------------------------------------------------------------------
-- Signings of given bytes
-- ---------------------------------------------------------------------------

def plainBinding : TenantBinding where
  aliases := [js "main"]
  callers := [js "job"]
  subjectName := js "Acme"
  reason := none
  location := none
  pqSeal := none
  uuaid := none

def plainMade : Produced where
  signedPdf := [37, 80, 68, 70]
  certId := js "c1"
  certFingerprint := js "ab"
  timestamped := true
  archivedUrl := none

/-- One tenant, no limit on the age of a request, and collaborators that succeed. -/
def plainDeps : SignerDeps where
  config := { tenants := [(js "acme", plainBinding)], maxClientSkewSec := .finite 0 }
  now := 1000
  dateParse := fun _ => some 1000
  render := fun _ => .ok [37, 80, 68, 70]
  produce := fun _ _ _ _ => .ok plainMade
  insert := fun _ => .ok (js "a1")

def plainRequest (text : JsString) : Json :=
  .object [(js "tenant", .string (js "acme")), (js "cert_alias", .string (js "main")),
    (js "html_base64", .string text), (js "purpose", .string (js "dossier")),
    (js "timestamp", .string (js "2026-01-01T00:00:00Z"))]

def plainBody (text : JsString) : SignRequestBody where
  tenant := js "acme"
  cert_alias := js "main"
  html_base64 := text
  purpose := js "dossier"
  timestamp := js "2026-01-01T00:00:00Z"

def job : Principal where
  id := js "job"
  via := .jwt
  tenantClaim := none
  transitional := false
  peer := none

theorem parse_plainRequest {text : JsString} (h : text ≠ []) :
    parseSignRequest plainDeps.dateParse (plainRequest text) = .ok (plainBody text) := by
  have hhtml : requireHtml (some (.string text)) = .ok text := if_neg h
  have hparse : parseSignRequest plainDeps.dateParse (plainRequest text) = (do
      let html ← requireHtml (some (.string text))
      return plainBody html) := by
    rfl
  rw [hparse, hhtml]
  rfl

theorem b64_ne_nil {bytes : List UInt8} (h : bytes ≠ []) : b64 bytes ≠ [] := fun hnil =>
  Base64.encode_ne_nil h (List.map_eq_nil_iff.mp hnil)

theorem admission_plain (text : JsString) :
    admission plainDeps (plainBody text) job = .ok plainBinding := by
  rfl

/-- Bytes of every kind can be submitted. -/
def plainSigning (sha256Hex : List UInt8 → JsString) (bytes : List UInt8) (hne : bytes ≠ []) :
    Signing sha256Hex where
  deps := plainDeps
  raw := plainRequest (b64 bytes)
  principal := job
  requestId := js "r1"
  bytes := bytes
  html := Utf8.decode bytes
  row := auditRow sha256Hex plainDeps (plainBody (b64 bytes)) job (js "r1") (Utf8.decode bytes)
    plainMade
  submits := ⟨plainBody (b64 bytes), parse_plainRequest (b64_ne_nil hne), normalized_b64 bytes⟩
  recorded := by
    have hhtml : decodeHtml (plainBody (b64 bytes)).html_base64 = .ok (Utf8.decode bytes) :=
      decodeHtml_eq_ok.mpr ⟨bytes, hne, normalized_b64 bytes, rfl⟩
    simp only [handleSign, parse_plainRequest (b64_ne_nil hne), sign, admission_plain, hhtml]
    rfl

/-- As SHA-256 on the texts below, and without collisions. -/
def sampleHash (bytes : List UInt8) : JsString :=
  if bytes = [0x41] then js "559aead08264d5795d3909718cdd05abd49572e84fe55590eef31a88a08fdffd"
  else if bytes = [0x42] then js "df7e70e5021544f4834bbee64a9e3789febc4be81470df629cad6ddb03320a5c"
  else if bytes = [0xEF, 0xBF, 0xBD] then
    js "83d544ccc223c057d2bf80d3f2a32982c32c3c0db8e2674820da5064783fb097"
  else 120 :: bytes.map UInt8.toUInt16

def sampleOf : JsString → List UInt8
  | 120 :: units => units.map UInt16.toUInt8
  | 53 :: _ => [0x41]
  | 100 :: _ => [0x42]
  | _ => [0xEF, 0xBF, 0xBD]

theorem sampleHash_injective : Function.Injective sampleHash := by
  have hinverse : Function.LeftInverse sampleOf sampleHash := by
    intro bytes
    unfold sampleHash
    split_ifs with hA hB hreplacement
    · rw [hA]
      rfl
    · rw [hB]
      rfl
    · rw [hreplacement]
      rfl
    · simp [sampleOf, Function.comp_def]
  exact hinverse.injective

theorem signings_bound_AB :
    (plainSigning sampleHash [0x41] nofun).row.metadata.html_sha256 ≠
      (plainSigning sampleHash [0x42] nofun).row.metadata.html_sha256 :=
  (((signings_bound_iff sampleHash_injective).2 (plainSigning sampleHash [0x41] nofun)
    (plainSigning sampleHash [0x42] nofun) (by decide)).mpr
      ⟨⟨['A'], rfl⟩, ⟨['B'], rfl⟩⟩).1

/-- `FF` and `FE` are no UTF-8, and are both signed as U+FFFD. -/
theorem replaced_bytes_collide : ¬ ∀ sha256Hex : List UInt8 → JsString,
    Function.Injective sha256Hex → ∀ s s' : Signing sha256Hex, s.bytes ≠ s'.bytes →
      s.row.metadata.html_sha256 ≠ s'.row.metadata.html_sha256 ∧
        Utf8.encode s.html = s.bytes ∧ Utf8.encode s'.html = s'.bytes := by
  intro h
  have hdiffer := h sampleHash sampleHash_injective (plainSigning sampleHash [0xFF] nofun)
    (plainSigning sampleHash [0xFE] nofun) (by decide)
  exact hdiffer.1 rfl

end EsigSuite.Gateway
