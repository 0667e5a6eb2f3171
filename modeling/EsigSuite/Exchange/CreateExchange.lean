import EsigSuite.Exchange.Verify

/-!
# Exchanges are verified as they were signed

`createExchange` of `esig-uaid-exch/src/index.ts`, and what `verifyExchange` says
of its result after `JSON.stringify` and `JSON.parse`. Both proofs are accepted
but where a signature of nothing but zeros is given in base58btc.
-/

namespace EsigSuite.Exchange

open Lib

-- ---------------------------------------------------------------------------
-- Creation
-- ---------------------------------------------------------------------------

/-- `sign` may throw. -/
structure AgentSigner where
  agentUuaid : JsString
  verificationMethod : JsString
  sign : Bytes → Except JsString JsString

structure IssuerSigner where
  issuerDid : JsString
  verificationMethod : JsString
  sign : Bytes → Except JsString JsString

/-- A field that is absent is `undefined`. `now` is the text of the clock and
`id` what the id factory gives. -/
structure CreateExchangeInput where
  signingCredentialId : JsValue
  principal : JsValue
  action : JsValue
  counterparty : JsValue
  resource : JsValue
  purpose : JsValue
  value_impact : JsValue := .undefined
  external_refs : JsValue := .undefined
  soleControl : JsValue
  policyEvaluation : JsValue := .undefined
  now : JsString
  id : JsString

def CONTEXT : JsValue :=
  .array [.string (js "https://www.w3.org/ns/credentials/v2"),
    .string (js "https://uuaid.org/spec/UAP-EXCH-1/v1")]

def credentialSubject (input : CreateExchangeInput) : JsValue :=
  .object [
    (js "authorization", .object [
      (js "signing_credential", input.signingCredentialId),
      (js "principal", input.principal)]),
    (js "exchange", .object [
      (js "action", input.action),
      (js "counterparty", input.counterparty),
      (js "resource", input.resource),
      (js "purpose", input.purpose),
      (js "value_impact", input.value_impact.orElse (.object [])),
      (js "external_refs", input.external_refs.orElse (.object []))]),
    (js "sole_control", input.soleControl),
    (js "policy_evaluation", input.policyEvaluation)]

/-- The members of the body, which is an exchange without its proofs. -/
def bodyMembers (input : CreateExchangeInput) (agent : AgentSigner) :
    List (JsString × JsValue) :=
  [(js "@context", CONTEXT),
    (js "type", .array [.string (js "VerifiableCredential"), .string (js "UaidExchange")]),
    (js "id", .string (js "uuaid:foundation:exchange:" ++ input.id)),
    (js "issuer", .string agent.agentUuaid),
    (js "validFrom", .string input.now),
    (js "credentialSubject", credentialSubject input)]

def dataIntegrityProof (created verificationMethod proofPurpose proofValue : JsString) : JsValue :=
  .object [
    (js "type", .string (js "DataIntegrityProof")),
    (js "cryptosuite", .string (js "eddsa-jcs-2022")),
    (js "created", .string created),
    (js "verificationMethod", .string verificationMethod),
    (js "proofPurpose", .string proofPurpose),
    (js "proofValue", .string proofValue)]

def createExchange (input : CreateExchangeInput) (agent : AgentSigner) (issuer : IssuerSigner) :
    Except JsString JsValue := do
  let canonicalBytes ← jcsBytes (.object (bodyMembers input agent))
  let agentProofValue ← agent.sign canonicalBytes
  let issuerProofValue ← issuer.sign canonicalBytes
  let agentProof := dataIntegrityProof input.now agent.verificationMethod (js "authentication")
    agentProofValue
  let issuerProof := dataIntegrityProof input.now issuer.verificationMethod (js "assertionMethod")
    issuerProofValue
  return .object (bodyMembers input agent ++ [(js "proof", .array [agentProof, issuerProof])])

-- ---------------------------------------------------------------------------
-- Signers
-- ---------------------------------------------------------------------------

/-- A `did:key` of the key, with or without a fragment on one line. -/
def Names (vm : JsString) (publicKey : Bytes) : Prop :=
  ∃ p fragment, vm = js "did:key:" ++
      (encodeMultibase (ED25519_MULTICODEC_PREFIX ++ publicKey) p ++ fragment) ∧
    (fragment = [] ∨ ∃ rest, fragment = 35 :: rest ∧ rest.any isLineTerminator = false)

/-- A key, the signature that it makes and how that is written. -/
structure Signing where
  publicKey : Bytes
  signature : Bytes
  encoding : MultibasePrefix

/-- What the signer gives for the bytes. -/
def Signing.text (s : Signing) : JsString := encodeMultibase s.signature s.encoding

/-- The signature is correct, and the verifier gets the key from the
verification method or beside the exchange. -/
structure Signing.Faithful (s : Signing) (host : ExchangeHost) (vm : JsString)
    (passed : Option Bytes) (message : Bytes) : Prop where
  signed : Signed host s.publicKey message s.signature
  known : passed = some s.publicKey ∨ passed = none ∧ Names vm s.publicKey

/-- Nothing but zeros does not come back from base58btc. -/
def Signing.Readable (s : Signing) : Prop := ¬ (s.encoding = .z ∧ AllZero s.signature)

instance (s : Signing) : Decidable s.Readable := by unfold Signing.Readable; infer_instance

theorem base58btcChar_ne_hash : ∀ d < 58, base58btcChar d ≠ 35 := by decide +kernel

theorem base64UrlDigit_ne_hash (d : Fin 64) : base64UrlDigit d ≠ 35 := by
  revert d
  decide

theorem encodeMultibase_ne_hash (bytes : Bytes) (p : MultibasePrefix) :
    ∀ unit ∈ encodeMultibase bytes p, unit ≠ 35 := by
  intro unit hunit
  cases p with
  | z =>
    rcases List.mem_append.mp hunit with hunit | hunit
    · obtain rfl := List.mem_singleton.mp hunit
      decide
    · rcases List.mem_append.mp hunit with hunit | hunit
      · rw [List.eq_of_mem_replicate hunit]
        exact base58btcChar_ne_hash 0 (by decide)
      · obtain ⟨d, hd, rfl⟩ := List.mem_map.mp hunit
        exact base58btcChar_ne_hash d (Radix.digits_lt (by decide) hd)
  | u =>
    rcases List.mem_append.mp hunit with hunit | hunit
    · obtain rfl := List.mem_singleton.mp hunit
      decide
    · obtain ⟨d, -, rfl⟩ := List.mem_map.mp hunit
      exact base64UrlDigit_ne_hash d

theorem didKeyMatch_names {id fragment : JsString} (hid : ∀ unit ∈ id, unit ≠ 35) (hne : id ≠ [])
    (hfragment : fragment = [] ∨
      ∃ rest, fragment = 35 :: rest ∧ rest.any isLineTerminator = false) :
    didKeyMatch (js "did:key:" ++ (id ++ fragment)) = some id := by
  have hprefix : (js "did:key:").isPrefixOf (js "did:key:" ++ (id ++ fragment)) = true :=
    List.isPrefixOf_iff_prefix.mpr (List.prefix_append _ _)
  have hall : ∀ unit ∈ id, (unit != 35) = true := fun unit hunit => bne_iff_ne.mpr (hid unit hunit)
  have htake : (id ++ fragment).takeWhile (· != 35) = id := by
    rw [List.takeWhile_append_of_pos hall]
    rcases hfragment with rfl | ⟨rest, rfl, -⟩ <;> simp
  have hdrop : (id ++ fragment).dropWhile (· != 35) = fragment := by
    rw [List.dropWhile_append_of_pos hall]
    rcases hfragment with rfl | ⟨rest, rfl, -⟩ <;> simp
  have hline : fragment.any isLineTerminator = false := by
    rcases hfragment with rfl | ⟨rest, rfl, hrest⟩
    · rfl
    · rw [List.any_cons, hrest]
      decide
  unfold didKeyMatch
  rw [if_neg (not_not.mpr hprefix), List.drop_left]
  simp only [htake, hdrop, hline, hne, Bool.false_eq_true, or_self, if_false]

theorem publicKeyFromDidKey_names {vm : JsString} {publicKey : Bytes} (h : Names vm publicKey)
    (hlength : publicKey.length = 32) : publicKeyFromDidKey vm = .ok publicKey := by
  obtain ⟨p, fragment, rfl, hfragment⟩ := h
  have hne : encodeMultibase (ED25519_MULTICODEC_PREFIX ++ publicKey) p ≠ [] := by
    cases p <;> exact List.cons_ne_nil _ _
  have hnonzero : ¬ AllZero (ED25519_MULTICODEC_PREFIX ++ publicKey) := fun hall =>
    absurd (hall 0xed (List.mem_append_left _ List.mem_cons_self)) (by decide)
  have hdecode := decodeMultibase_encode (ED25519_MULTICODEC_PREFIX ++ publicKey) p
  rw [if_neg fun hz => hnonzero hz.2] at hdecode
  unfold publicKeyFromDidKey
  rw [didKeyMatch_names (encodeMultibase_ne_hash _ p) hne hfragment]
  simp only [hdecode]
  rw [if_neg]
  · rfl
  · simp [ED25519_MULTICODEC_PREFIX, hlength]

-- ---------------------------------------------------------------------------
-- The exchange is a value of JSON
-- ---------------------------------------------------------------------------

structure CreateExchangeInput.Proper (input : CreateExchangeInput) : Prop where
  signingCredentialId : input.signingCredentialId.Proper
  principal : input.principal.Proper
  action : input.action.Proper
  counterparty : input.counterparty.Proper
  resource : input.resource.Proper
  purpose : input.purpose.Proper
  value_impact : input.value_impact.Proper
  external_refs : input.external_refs.Proper
  soleControl : input.soleControl.Proper
  policyEvaluation : input.policyEvaluation.Proper

theorem orElse_proper {value : JsValue} (h : value.Proper) :
    (value.orElse (.object [])).Proper := by
  cases value with
  | undefined | null => simp [JsValue.orElse, JsValue.Proper, JsValue.ProperMembers]
  | _ => exact h

theorem credentialSubject_proper {input : CreateExchangeInput} (h : input.Proper) :
    (credentialSubject input).Proper := by
  simp only [credentialSubject, JsValue.Proper, JsValue.ProperMembers, List.map_cons, List.map_nil,
    h.signingCredentialId, h.principal, h.action, h.counterparty, h.resource, h.purpose,
    orElse_proper h.value_impact, orElse_proper h.external_refs, h.soleControl,
    h.policyEvaluation, and_true]
  decide

theorem bodyMembers_proper {input : CreateExchangeInput} (h : input.Proper) (agent : AgentSigner) :
    JsValue.ProperMembers (bodyMembers input agent) := by
  simp [bodyMembers, JsValue.ProperMembers, JsValue.Proper, JsValue.ProperItems, CONTEXT,
    JsValue.defined, credentialSubject_proper h]

theorem bodyMembers_keys (input : CreateExchangeInput) (agent : AgentSigner) :
    (bodyMembers input agent).map (·.1) = ["@context", "type", "id", "issuer", "validFrom",
      "credentialSubject"].map js := rfl

theorem dataIntegrityProof_proper (created vm purpose value : JsString) :
    (dataIntegrityProof created vm purpose value).Proper := by
  simp only [dataIntegrityProof, JsValue.Proper, JsValue.ProperMembers, List.map_cons,
    List.map_nil, and_true]
  decide

theorem membersProper_append {xs ys : List (JsString × JsValue)} :
    JsValue.ProperMembers (xs ++ ys) ↔ JsValue.ProperMembers xs ∧ JsValue.ProperMembers ys := by
  induction xs with
  | nil => simp [JsValue.ProperMembers]
  | cons member xs ih =>
    obtain ⟨key, value⟩ := member
    rw [List.cons_append, JsValue.ProperMembers, JsValue.ProperMembers, ih, and_assoc]

theorem membersJson_append (xs ys : List (JsString × JsValue)) :
    JsValue.membersJson (xs ++ ys) = JsValue.membersJson xs ++ JsValue.membersJson ys := by
  induction xs with
  | nil => rfl
  | cons member xs ih =>
    obtain ⟨key, value⟩ := member
    rw [List.cons_append, JsValue.membersJson, JsValue.membersJson, ih]
    split <;> rfl

/-- The exchange as it was created. -/
def created (input : CreateExchangeInput) (agent : AgentSigner) (issuer : IssuerSigner)
    (agentText issuerText : JsString) : JsValue :=
  .object (bodyMembers input agent ++ [(js "proof", .array [
    dataIntegrityProof input.now agent.verificationMethod (js "authentication") agentText,
    dataIntegrityProof input.now issuer.verificationMethod (js "assertionMethod") issuerText])])

section
variable {input : CreateExchangeInput} {agent : AgentSigner} {issuer : IssuerSigner}
  {agentText issuerText : JsString}

theorem dataIntegrityProof_defined (created vm purpose value : JsString) :
    (dataIntegrityProof created vm purpose value).defined = true := rfl

theorem created_proper (h : input.Proper) :
    (created input agent issuer agentText issuerText).Proper := by
  rw [created, JsValue.Proper, membersProper_append, List.map_append, bodyMembers_keys]
  refine ⟨?_, bodyMembers_proper h agent, ?_⟩
  · change (["@context", "type", "id", "issuer", "validFrom", "credentialSubject", "proof"].map
      js).Nodup
    decide
  · simp only [JsValue.ProperMembers, JsValue.Proper, JsValue.ProperItems,
      dataIntegrityProof_proper, dataIntegrityProof_defined, and_self]

-- ---------------------------------------------------------------------------
-- The exchange that is read
-- ---------------------------------------------------------------------------

theorem lookup_append_none {members more : List (JsString × Json)} {key : JsString}
    (h : ∀ m ∈ members, m.1 ≠ key) : lookup (members ++ more) key = lookup more key := by
  induction members with
  | nil => rfl
  | cons member members ih =>
    obtain ⟨hne, hrest⟩ := List.forall_mem_cons.mp h
    rw [List.cons_append, lookup_cons, if_neg hne, ih hrest]

/-- The body has no proof of its own. -/
theorem bodyJson_ne_proof (input : CreateExchangeInput) (agent : AgentSigner) :
    ∀ m ∈ JsValue.membersJson (bodyMembers input agent), m.1 ≠ js "proof" := by
  intro m hm
  have hkey := (JsValue.membersJson_keys (bodyMembers input agent)).subset (List.mem_map_of_mem hm)
  rw [bodyMembers_keys] at hkey
  have hall : ∀ key ∈ ["@context", "type", "id", "issuer", "validFrom", "credentialSubject"].map js,
      key ≠ js "proof" := by decide
  exact hall _ hkey

/-- The proofs as they are read. -/
def proofsJson (input : CreateExchangeInput) (agent : AgentSigner) (issuer : IssuerSigner)
    (agentText issuerText : JsString) : List Json :=
  [(dataIntegrityProof input.now agent.verificationMethod (js "authentication") agentText).toJson,
    (dataIntegrityProof input.now issuer.verificationMethod (js "assertionMethod")
      issuerText).toJson]

theorem created_toJson : (created input agent issuer agentText issuerText).toJson =
    .object (JsValue.membersJson (bodyMembers input agent) ++
      [(js "proof", .array (proofsJson input agent issuer agentText issuerText))]) := by
  rw [created, JsValue.toJson, membersJson_append]
  rfl

theorem created_proof :
    member (created input agent issuer agentText issuerText).toJson "proof" =
      some (.array (proofsJson input agent issuer agentText issuerText)) := by
  rw [created_toJson, member, lookup_append_none (bodyJson_ne_proof input agent), lookup_cons,
    if_pos rfl]

theorem created_documentBody :
    documentBody (created input agent issuer agentText issuerText).toJson =
      .ofJson (JsValue.object (bodyMembers input agent)).toJson := by
  have hbody : (JsValue.membersJson (bodyMembers input agent)).filter (·.1 != js "proof") =
      JsValue.membersJson (bodyMembers input agent) :=
    List.filter_eq_self.mpr fun m hm => bne_iff_ne.mpr (bodyJson_ne_proof input agent m hm)
  rw [created_toJson, documentBody, List.filter_append, hbody, JsValue.toJson]
  simp

/-- What was signed is what is verified. -/
theorem created_bytes (h : input.Proper) :
    jcsBytes (documentBody (created input agent issuer agentText issuerText).toJson) =
      jcsBytes (.object (bodyMembers input agent)) := by
  rw [created_documentBody]
  refine jcsBytes_toJson ?_ rfl
  rw [JsValue.Proper, bodyMembers_keys]
  exact ⟨by decide, bodyMembers_proper h agent⟩

/-- One proof of the exchange is accepted unless its signature is not read. -/
theorem proof_accepted {host : ExchangeHost} {document : JsValue} {message : Bytes} {s : Signing}
    {now vm purpose : JsString} {passed : Option Bytes} (hdocument : jcsBytes document = .ok message)
    (hlength : ∀ key message signature, host.ed25519Verify key message signature = true →
      signature.length = 64)
    (hs : s.Faithful host vm passed message) :
    (verifyDataIntegrityProof host document
        (some (dataIntegrityProof now vm purpose s.text).toJson)
        { publicKey := passed, expectedProofPurpose := some purpose }).ok = true ↔ s.Readable := by
  obtain ⟨⟨hkeyLength, keyObject, hcreate, hverify⟩, hknown⟩ := hs
  have hvalue : optional (some (dataIntegrityProof now vm purpose s.text).toJson) "proofValue" =
      some (.string s.text) := rfl
  have hformed : Formed (some (dataIntegrityProof now vm purpose s.text).toJson) purpose := by
    refine ⟨?_, ?_, ?_⟩
    · exact beq_self_eq_true _
    · exact beq_self_eq_true _
    · exact beq_self_eq_true purpose
  have hkey : resolveKey passed (some (dataIntegrityProof now vm purpose s.text).toJson) =
      .ok s.publicKey := by
    rcases hknown with rfl | ⟨rfl, hnames⟩
    · rfl
    · exact publicKeyFromDidKey_names hnames hkeyLength
  have hread := decodeMultibase_encode s.signature s.encoding
  rw [verifyDataIntegrityProof_ok]
  constructor
  · rintro ⟨-, publicKey, signature, message', hkey', hsignature, -, -, _, -, haccepted⟩ hunread
    rw [hvalue, Signing.text, hread, if_pos hunread] at hsignature
    have h64 := hlength _ _ _ hverify
    have h64' := hlength _ _ _ haccepted
    rw [← Except.ok.inj hsignature, List.length_append, h64] at h64'
    cases h64'
  · intro hreadable
    rw [if_neg hreadable] at hread
    exact ⟨hformed, s.publicKey, s.signature, message, hkey, hvalue ▸ hread, hdocument, hkeyLength,
      keyObject, hcreate, hverify⟩

theorem createExchange_ok {message : Bytes}
    (hmessage : jcsBytes (.object (bodyMembers input agent)) = .ok message)
    (hagent : agent.sign message = .ok agentText) (hissuer : issuer.sign message = .ok issuerText) :
    createExchange input agent issuer = .ok (created input agent issuer agentText issuerText) := by
  simp only [createExchange, hmessage, hagent, hissuer, bind, Except.bind, pure, Except.pure]
  rfl

/-- The exchange comes back from its text, and each check says whether that
signature is read. -/
theorem created_checks {host : ExchangeHost} {message : Bytes} {agentSigning issuerSigning : Signing}
    {opts : VerifyExchangeOpts} (h : input.Proper)
    (hmessage : jcsBytes (.object (bodyMembers input agent)) = .ok message)
    (hlength : ∀ key message signature, host.ed25519Verify key message signature = true →
      signature.length = 64)
    (hagent : agentSigning.Faithful host agent.verificationMethod opts.agentPublicKey message)
    (hissuer : issuerSigning.Faithful host issuer.verificationMethod opts.issuerPublicKey message) :
    let exchange := created input agent issuer agentSigning.text issuerSigning.text
    ∃ text, exchange.stringify = some text ∧ Json.parse text = some exchange.toJson ∧
      ((verifyExchange host exchange.toJson opts).agent.ok = true ↔ agentSigning.Readable) ∧
      ((verifyExchange host exchange.toJson opts).issuer.ok = true ↔ issuerSigning.Readable) ∧
      (verifyExchange host exchange.toJson opts).ok =
        ((verifyExchange host exchange.toJson opts).agent.ok &&
          (verifyExchange host exchange.toJson opts).issuer.ok) := by
  intro exchange
  have hbytes : jcsBytes (documentBody exchange.toJson) = .ok message :=
    (created_bytes h).trans hmessage
  refine ⟨Json.stringify exchange.toJson, rfl,
    JsValue.parse_stringify (created_proper h) rfl, ?_⟩
  unfold verifyExchange
  rw [created_proof]
  exact ⟨proof_accepted hbytes hlength hagent, proof_accepted hbytes hlength hissuer, rfl⟩

-- ---------------------------------------------------------------------------
-- The whole exchange
-- ---------------------------------------------------------------------------

/-- The signer gives a correct signature of the bytes of the exchange. -/
def Signing.Made (s : Signing) (host : ExchangeHost) (input : CreateExchangeInput)
    (agent : AgentSigner) (sign : Bytes → Except JsString JsString) (vm : JsString)
    (passed : Option Bytes) : Prop :=
  ∀ message, jcsBytes (.object (bodyMembers input agent)) = .ok message →
    sign message = .ok s.text ∧ s.Faithful host vm passed message

theorem body_bytes (h : input.Proper) (agent : AgentSigner) :
    ∃ message, jcsBytes (.object (bodyMembers input agent)) = .ok message := by
  refine jcsBytes_ok ?_ rfl
  rw [JsValue.Proper, bodyMembers_keys]
  exact ⟨by decide, bodyMembers_proper h agent⟩

/-- The exchange that two faithful signers make is accepted after its round trip
exactly where both signatures are read. -/
theorem createExchange_accepted {host : ExchangeHost} {agentSigning issuerSigning : Signing}
    {opts : VerifyExchangeOpts} (h : input.Proper)
    (hlength : ∀ key message signature, host.ed25519Verify key message signature = true →
      signature.length = 64)
    (hagent : agentSigning.Made host input agent agent.sign agent.verificationMethod
      opts.agentPublicKey)
    (hissuer : issuerSigning.Made host input agent issuer.sign issuer.verificationMethod
      opts.issuerPublicKey) :
    ∃ exchange text parsed, createExchange input agent issuer = .ok exchange ∧
      exchange.stringify = some text ∧ Json.parse text = some parsed ∧
      ((verifyExchange host parsed opts).ok = true ∧
          (verifyExchange host parsed opts).agent.ok = true ∧
          (verifyExchange host parsed opts).issuer.ok = true ↔
        agentSigning.Readable ∧ issuerSigning.Readable) := by
  obtain ⟨message, hmessage⟩ := body_bytes h agent
  obtain ⟨hagentSign, hagent⟩ := hagent message hmessage
  obtain ⟨hissuerSign, hissuer⟩ := hissuer message hmessage
  obtain ⟨text, htext, hparse, hagentOk, hissuerOk, hboth⟩ :=
    created_checks h hmessage hlength hagent hissuer
  refine ⟨_, text, _, createExchange_ok hmessage hagentSign hissuerSign, htext, hparse, ?_⟩
  rw [hboth, Bool.and_eq_true, hagentOk, hissuerOk, and_self]

end

namespace ZeroSample

def input : CreateExchangeInput where
  signingCredentialId := .string (js "uuaid:foundation:signing-credential:c")
  principal := .string (js "uuaid:foundation:org:p")
  action := .string (js "sign.contract")
  counterparty := .string (js "uuaid:foundation:org:q")
  resource := .object [(js "type", .string (js "application/pdf")),
    (js "sha256", .string (js "sha256:00")), (js "size", .number (.finite 1024))]
  purpose := .string (js "lease")
  soleControl := .object [(js "challenge_type", .string (js "passkey")),
    (js "challenge_at", .string (js "2026-07-04T00:00:00.000Z")),
    (js "challenge_evidence_hash", .string (js "sha256:00"))]
  now := js "2026-07-04T00:00:00.000Z"
  id := js "4"

/-- The encoding of a point of order four. -/
def publicKey : Bytes := List.replicate 32 0

def signing (encoding : MultibasePrefix) : Signing :=
  { publicKey, signature := List.replicate 64 0, encoding }

def vm : JsString := js "did:key:" ++ encodeMultibase (ED25519_MULTICODEC_PREFIX ++ publicKey) .z

def agent (encoding : MultibasePrefix) : AgentSigner where
  agentUuaid := js "uuaid:foundation:agent:a"
  verificationMethod := vm
  sign _ := .ok (signing encoding).text

def issuer : IssuerSigner where
  issuerDid := js "did:web:issuer"
  verificationMethod := vm
  sign _ := .ok (signing .u).text

/-- Ed25519 on the bytes of this exchange: the sum is the point itself. -/
def host : ExchangeHost where
  KeyObject := Bytes
  sha256Hex _ := js "66687aadf862bd776c8fc18b8e9f8e20089714856ee233b3902a591d0d5f2925"
  createPublicKey := .ok
  ed25519Verify key message signature :=
    key == ED25519_SPKI_PREFIX ++ publicKey && signature == List.replicate 64 0 &&
      match jcsBytes (.object (bodyMembers input (agent .u))) with
      | .ok bytes => bytes == message
      | .error _ => false

theorem input_proper : input.Proper := by
  have hsize : Double.Exact 1024 := Double.exact_nat (by decide : 1024 < 2 ^ 53)
  constructor <;>
    simp only [input, JsValue.Proper, JsValue.ProperMembers, hsize, and_true, List.map_cons,
      List.map_nil] <;> decide

theorem signature_length (key message signature : Bytes)
    (h : host.ed25519Verify key message signature = true) : signature.length = 64 := by
  simp only [host, Bool.and_eq_true, beq_iff_eq] at h
  rw [h.1.2, List.length_replicate]

theorem faithful (encoding : MultibasePrefix) {message : Bytes}
    (h : jcsBytes (.object (bodyMembers input (agent encoding))) = .ok message) :
    (signing encoding).Faithful host vm none message := by
  have hbytes : jcsBytes (.object (bodyMembers input (agent .u))) = .ok message := h
  refine ⟨⟨List.length_replicate, _, rfl, ?_⟩, .inr ⟨rfl, .z, [], by rw [List.append_nil]; rfl, .inl rfl⟩⟩
  simp [host, hbytes, signing]

end ZeroSample

theorem createExchange_accepted_sample :
    ∃ exchange text parsed,
      createExchange ZeroSample.input (ZeroSample.agent .u) ZeroSample.issuer = .ok exchange ∧
      exchange.stringify = some text ∧ Json.parse text = some parsed ∧
      ((verifyExchange ZeroSample.host parsed {}).ok = true ∧
          (verifyExchange ZeroSample.host parsed {}).agent.ok = true ∧
          (verifyExchange ZeroSample.host parsed {}).issuer.ok = true ↔
        (ZeroSample.signing .u).Readable ∧ (ZeroSample.signing .u).Readable) :=
  createExchange_accepted ZeroSample.input_proper ZeroSample.signature_length
    (fun _ h => ⟨rfl, ZeroSample.faithful .u h⟩) fun _ h => ⟨rfl, ZeroSample.faithful .u h⟩

/-- A correct signature of zeros in base58btc is refused. -/
theorem zero_signature_refused :
    ∃ message exchange text parsed,
      jcsBytes (.object (bodyMembers ZeroSample.input (ZeroSample.agent .z))) = .ok message ∧
      (ZeroSample.agent .z).sign message = .ok (ZeroSample.signing .z).text ∧
      (ZeroSample.signing .z).Faithful ZeroSample.host ZeroSample.vm none message ∧
      ZeroSample.issuer.sign message = .ok (ZeroSample.signing .u).text ∧
      (ZeroSample.signing .u).Faithful ZeroSample.host ZeroSample.vm none message ∧
      createExchange ZeroSample.input (ZeroSample.agent .z) ZeroSample.issuer = .ok exchange ∧
      exchange.stringify = some text ∧ Json.parse text = some parsed ∧
      (verifyExchange ZeroSample.host parsed {}).ok = false ∧
      (verifyExchange ZeroSample.host parsed {}).agent.ok = false := by
  obtain ⟨message, hmessage⟩ := body_bytes ZeroSample.input_proper (ZeroSample.agent .z)
  have hagent := ZeroSample.faithful .z hmessage
  have hissuer := ZeroSample.faithful .u hmessage
  obtain ⟨text, htext, hparse, hagentOk, -, hboth⟩ :=
    @created_checks _ (ZeroSample.agent .z) ZeroSample.issuer _ _ _ _ {} ZeroSample.input_proper
      hmessage ZeroSample.signature_length hagent hissuer
  have hunread : ¬ (ZeroSample.signing .z).Readable := by decide
  have hrefused := Bool.eq_false_iff.mpr fun h => hunread (hagentOk.mp h)
  refine ⟨message, _, text, _, hmessage, rfl, hagent, rfl, hissuer,
    createExchange_ok hmessage rfl rfl, htext, hparse, ?_, hrefused⟩
  rw [hboth, hrefused, Bool.false_and]

end EsigSuite.Exchange
