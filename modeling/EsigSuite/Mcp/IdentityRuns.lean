import EsigSuite.Envelope.Lifecycle
import EsigSuite.Mcp.EnvelopeFile
import EsigSuite.Mcp.EnvelopeService

/-!
# Runs of the envelope service

The calls of `EnvelopeService` as programs over the rows of a store that
answers each find and each compare-and-swap at once. `Evolves` is what any of
them may make of a row, and the store meets `StoreContract` with it.
-/

namespace EsigSuite.IdentityGate

open Lib EnvelopeFile

variable {ρ : Type} [Inhabited ρ]

-- ---------------------------------------------------------------------------
-- The store and the outside
-- ---------------------------------------------------------------------------

abbrev Rows (ρ : Type) := List (Envelope (McpMetadata ρ))

/-- An update carries what `gatedStore` records. -/
inductive Op (ρ : Type)
  | now
  | random
  | insert (e : Envelope (McpMetadata ρ))
  | update (gate : Option Bool) (e : Envelope (McpMetadata ρ))
  | findById (tenantId id : String)
  | findByTokenHash (tokenHash : String)
  | audit
  | persistIdentityBlob (json : JsonText)
  | badge (uuaid : String)
  | verifyCredential (id : String)

def Res : Op ρ → Type
  | .now => Time
  | .random => String
  | .insert _ | .update .. => Except Thrown (Envelope (McpMetadata ρ))
  | .findById .. | .findByTokenHash _ => Except Thrown (Option (Envelope (McpMetadata ρ)))
  | .audit => Except Thrown Unit
  | .persistIdentityBlob _ => Except Thrown String
  | .badge _ => Except RegistryFailure JsonText
  | .verifyCredential _ => Except RegistryFailure CredentialStatus

/-- The row of the same envelope and revision is replaced. -/
def Swapped (e : Envelope (McpMetadata ρ)) (s s' : Rows ρ) : Prop :=
  ∃ (i : Nat) (cur : Envelope (McpMetadata ρ)), s[i]? = some cur ∧ cur.id = e.id ∧
    cur.tenantId = e.tenantId ∧ getRev cur = getRev e ∧ s' = s.set i (setRev e (getRev e + 1))

/-- The clock, `crypto` and the outside answer anything, and any call of the
store may fail without effect. -/
def exec : (op : Op ρ) → Rows ρ → Res op → Rows ρ → Prop
  | .insert e, s, r, s' =>
    (s' = s ++ [setRev e 0] ∧ r = .ok (setRev e 0)) ∨ (s' = s ∧ ∃ t, r = .error t)
  | .update _ e, s, r, s' =>
    (Swapped e s s' ∧ r = .ok (setRev e (getRev e + 1))) ∨ (s' = s ∧ ∃ t, r = .error t)
  | .findById tenantId id, s, r, s' =>
    s' = s ∧ (r = .ok (s.find? fun e => e.tenantId == tenantId && e.id == id) ∨ ∃ t, r = .error t)
  | .findByTokenHash tokenHash, s, r, s' =>
    s' = s ∧ (r = .ok (rowOf s tokenHash) ∨ ∃ t, r = .error t)
  | _, s, _, s' => s' = s

abbrev M (ρ : Type) := ExceptT Thrown (Prog (Op ρ) Res)

def store (gate : Option Bool) : EnvelopeStore (McpMetadata ρ) (M ρ) where
  insert e := ExceptT.mk (Prog.perform (Op.insert e))
  update e := ExceptT.mk (Prog.perform (Op.update gate e))
  findById tenantId id := ExceptT.mk (Prog.perform (Op.findById tenantId id))
  findByTokenHash tokenHash := ExceptT.mk (Prog.perform (Op.findByTokenHash tokenHash))

/-- What a server is set up with. -/
structure Server (ρ : Type) where
  config : Config
  hashToken : String → String
  assertImageDataUrl : String → Option String
  checks : IdentityChecks
  noted : EventType → Option String → Envelope (McpMetadata ρ) → ρ × Bool
  expiredEmitted : Envelope (McpMetadata ρ) → Bool
  sha256 : String → String

namespace Server

variable (server : Server ρ)

def env : EnvelopeEnv (M ρ) where
  now := ExceptT.lift (Prog.perform Op.now)
  randomToken := ExceptT.lift (Prog.perform Op.random)
  randomUUID := ExceptT.lift (Prog.perform Op.random)
  hashToken := server.hashToken
  assertImageDataUrl := server.assertImageDataUrl

def registryClient : RegistryClient (M ρ) where
  badge uuaid := ExceptT.lift (Prog.perform (Op.badge uuaid))
  verifyCredential id := ExceptT.lift (Prog.perform (Op.verifyCredential id))

def deps : EnvelopeServiceDeps ρ (M ρ) where
  config := server.config
  envelopeStore := store none
  gatedStore ready := store (some ready)
  env := server.env
  identity :=
    { server.checks with
      persistIdentityBlob := fun json => ExceptT.mk (Prog.perform (Op.persistIdentityBlob json))
      registry := server.config.uuaidRegistryUrl.map fun _ => registryClient
      configuredRegistryUrl := server.config.uuaidRegistryUrl
      registrySigningKey := server.config.uuaidRegistrySigningKey }
  audit := ExceptT.mk (Prog.perform Op.audit)
  noted := server.noted
  expiredEmitted := server.expiredEmitted
  sha256 := server.sha256

end Server

/-- What may be called once an envelope exists. -/
inductive Call (ρ : Type)
  | resolve (token : String)
  | sign (token signatureImageDataUrl : String) (identityProof : Option IdentityProofInput)
  | issueIdentityChallenge (envelopeId signerId : String)
  | acceptPreVerifiedIdentity (evt : IdentityProofEvent)
  | decline (token : String) (reason : Option String)
  | void (envelopeId : String)
  | expireOne (envelopeId : String)
  | updateRest (envelopeId : String) (mutate : Envelope (McpMetadata ρ) → Option ρ)

section
variable (server : Server ρ)

def perform : Call ρ → M ρ Unit
  | .resolve token => discard (resolveSigningToken (store none) server.env token)
  | .sign token image proof => discard (sign server.deps token image proof)
  | .issueIdentityChallenge envelopeId signerId =>
    discard (issueIdentityChallenge server.deps envelopeId signerId)
  | .acceptPreVerifiedIdentity evt => discard (acceptPreVerifiedIdentity server.deps evt)
  | .decline token reason => discard (decline server.deps token reason)
  | .void envelopeId => discard (voidService server.deps envelopeId)
  | .expireOne envelopeId => expireOne server.deps envelopeId
  | .updateRest envelopeId mutate => updateRest server.deps envelopeId mutate

/-- One call after the other; what one throws goes to its caller. -/
def thread : List (Call ρ) → Prog (Op ρ) Res Unit
  | [] => .pure ()
  | call :: rest => (perform server call).run.bind fun _ => thread rest

end

-- ---------------------------------------------------------------------------
-- What is kept of an identity
-- ---------------------------------------------------------------------------

variable {e e' e'' : Envelope (McpMetadata ρ)}

def identityOf (e : Envelope (McpMetadata ρ)) : EnvelopeIdentityMetadata := (mcpBucket e).identity

/-- The record that the gate asks for is on the envelope. -/
def Good (e : Envelope (McpMetadata ρ)) (signerId : String) : Prop :=
  ∃ record, verifiedOf e signerId = some record ∧
    satisfies record (minLevelOf e) (expectedUuaidOf e signerId) = true

/-- Who signed under a level had the record. -/
def Secured (e : Envelope (McpMetadata ρ)) : Prop :=
  minLevelOf e ≠ .none → ∀ s ∈ e.signers, s.status = .signed → Good e s.id

def keysOf (e : Envelope (McpMetadata ρ)) : List (String × String) :=
  e.signers.map fun s => (s.id, s.tokenHash)

def signerIdOf (e : Envelope (McpMetadata ρ)) (tokenHash : String) : Option String :=
  (e.signerOf tokenHash).map (·.2.id)

/-- What the calls make of an envelope before it is stamped. -/
structure Edit (e e' : Envelope (McpMetadata ρ)) : Prop where
  id : e'.id = e.id
  tenantId : e'.tenantId = e.tenantId
  mcpRev : e'.mcpRev = e.mcpRev
  keys : keysOf e' = keysOf e
  policy : getEnvelopeIdentityPolicy e' = getEnvelopeIdentityPolicy e
  good : ∀ signerId, Good e signerId → Good e' signerId
  secured : Secured e → Secured e'

/-- What a row may become. -/
structure Evolves (e e' : Envelope (McpMetadata ρ)) : Prop where
  id : e'.id = e.id
  keys : keysOf e' = keysOf e
  policy : getEnvelopeIdentityPolicy e' = getEnvelopeIdentityPolicy e
  good : ∀ signerId, Good e signerId → Good e' signerId
  secured : Secured e → Secured e'
  rev_le : getRev e ≤ getRev e'
  eq_of_rev : getRev e' = getRev e → e' = e

theorem Evolves.refl (e : Envelope (McpMetadata ρ)) : Evolves e e :=
  ⟨rfl, rfl, rfl, fun _ h => h, fun h => h, Nat.le_refl _, fun _ => rfl⟩

theorem Evolves.trans (h : Evolves e e') (h' : Evolves e' e'') : Evolves e e'' where
  id := h'.id.trans h.id
  keys := h'.keys.trans h.keys
  policy := h'.policy.trans h.policy
  good signerId hgood := h'.good signerId (h.good signerId hgood)
  secured hsecured := h'.secured (h.secured hsecured)
  rev_le := Nat.le_trans h.rev_le h'.rev_le
  eq_of_rev hrev := by
    have hle := h.rev_le
    have hle' := h'.rev_le
    rw [h'.eq_of_rev (by omega), h.eq_of_rev (by omega)]

theorem minLevelOf_congr (h : getEnvelopeIdentityPolicy e' = getEnvelopeIdentityPolicy e) :
    minLevelOf e' = minLevelOf e := by
  rw [minLevelOf, minLevelOf, h]

theorem expectedUuaidOf_congr (h : getEnvelopeIdentityPolicy e' = getEnvelopeIdentityPolicy e)
    (signerId : String) : expectedUuaidOf e' signerId = expectedUuaidOf e signerId := by
  rw [expectedUuaidOf, expectedUuaidOf, h]

theorem verifiedOf_congr (h : identityOf e' = identityOf e) (signerId : String) :
    verifiedOf e' signerId = verifiedOf e signerId := by
  rw [verifiedOf, verifiedOf, getSignerIdentityState, getSignerIdentityState]
  change ((identityOf e').signers signerId).bind _ = ((identityOf e).signers signerId).bind _
  rw [h]

theorem policy_congr (h : identityOf e' = identityOf e) :
    getEnvelopeIdentityPolicy e' = getEnvelopeIdentityPolicy e :=
  congrArg (·.policy) h

theorem good_congr (h : identityOf e' = identityOf e) (signerId : String) :
    Good e' signerId ↔ Good e signerId := by
  rw [Good, Good, verifiedOf_congr h, minLevelOf_congr (policy_congr h),
    expectedUuaidOf_congr (policy_congr h)]

omit [Inhabited ρ] in
theorem signerIdOf_eq (e : Envelope (McpMetadata ρ)) (tokenHash : String) :
    signerIdOf e tokenHash = ((keysOf e).find? (·.2 == tokenHash)).map (·.1) := by
  rw [signerIdOf, Envelope.signerOf, keysOf]
  induction e.signers with
  | nil => rfl
  | cons s rest ih =>
    rw [List.findIdx?_cons, List.map_cons, List.find?_cons]
    cases s.tokenHash == tokenHash with
    | true => rfl
    | false =>
      rw [← ih]
      cases rest.findIdx? (·.tokenHash == tokenHash) with
      | none => rfl
      | some j => cases hj : rest[j]? <;> simp [hj]

omit [Inhabited ρ] in
theorem signerIdOf_congr (h : keysOf e' = keysOf e) (tokenHash : String) :
    signerIdOf e' tokenHash = signerIdOf e tokenHash := by
  rw [signerIdOf_eq, signerIdOf_eq, h]

omit [Inhabited ρ] in
theorem hasToken_congr (h : keysOf e' = keysOf e) (tokenHash : String) :
    e'.signers.any (·.tokenHash == tokenHash) = e.signers.any (·.tokenHash == tokenHash) := by
  have hany : ∀ d : Envelope (McpMetadata ρ),
      d.signers.any (·.tokenHash == tokenHash) = (keysOf d).any (·.2 == tokenHash) := fun d => by
    rw [keysOf, List.any_map]
    rfl
  rw [hany, hany, h]

/-- The revision stamp is no part of the rest. -/
theorem Edit.evolves (h : Edit e e') : Evolves e (setRev e' (getRev e' + 1)) where
  id := h.id
  keys := h.keys
  policy := h.policy
  good := h.good
  secured := h.secured
  rev_le := by
    change getRev e ≤ getRev e' + 1
    rw [getRev, getRev, h.mcpRev]
    omega
  eq_of_rev hrev := by
    change getRev e' + 1 = getRev e at hrev
    rw [getRev, getRev, h.mcpRev] at hrev
    omega

-- ---------------------------------------------------------------------------
-- The edits
-- ---------------------------------------------------------------------------

/-- An edit of something else. -/
theorem Edit.of_identity (hid : e'.id = e.id) (htenant : e'.tenantId = e.tenantId)
    (hrev : e'.mcpRev = e.mcpRev) (hkeys : keysOf e' = keysOf e)
    (hidentity : identityOf e' = identityOf e)
    (hsigned : minLevelOf e ≠ .none → ∀ s ∈ e'.signers, s.status = .signed →
      s ∈ e.signers ∨ Good e s.id) : Edit e e' where
  id := hid
  tenantId := htenant
  mcpRev := hrev
  keys := hkeys
  policy := policy_congr hidentity
  good signerId := (good_congr hidentity signerId).mpr
  secured h hlevel s hs hstatus := by
    rw [minLevelOf_congr (policy_congr hidentity)] at hlevel
    rw [good_congr hidentity]
    rcases hsigned hlevel s hs hstatus with hs | hgood
    · exact h hlevel s hs hstatus
    · exact hgood

theorem edit_expire (e : Envelope (McpMetadata ρ)) : Edit e { e with status := .expired } :=
  .of_identity rfl rfl rfl rfl rfl fun _ _ hs _ => .inl hs

theorem edit_void (e : Envelope (McpMetadata ρ)) (voidedAt : Time) :
    Edit e { e with status := .voided, voidedAt := some voidedAt } :=
  .of_identity rfl rfl rfl rfl rfl fun _ _ hs _ => .inl hs

theorem edit_rest (e : Envelope (McpMetadata ρ)) (rest : ρ) : Edit e (withRest e rest) :=
  .of_identity rfl rfl rfl rfl rfl fun _ _ hs _ => .inl hs

theorem Edit.trans (h : Edit e e') (h' : Edit e' e'') : Edit e e'' where
  id := h'.id.trans h.id
  tenantId := h'.tenantId.trans h.tenantId
  mcpRev := h'.mcpRev.trans h.mcpRev
  keys := h'.keys.trans h.keys
  policy := h'.policy.trans h.policy
  good signerId hgood := h'.good signerId (h.good signerId hgood)
  secured hsecured := h'.secured (h.secured hsecured)

omit [Inhabited ρ] in
theorem keysOf_modify {f : EnvelopeSigner → EnvelopeSigner}
    (hsigners : e'.signers = e.signers.modify i f)
    (hf : ∀ s, ((f s).id, (f s).tokenHash) = (s.id, s.tokenHash)) : keysOf e' = keysOf e := by
  rw [keysOf, keysOf, hsigners]
  apply List.ext_getElem?
  intro j
  rw [List.getElem?_map, List.getElem?_map, List.getElem?_modify]
  cases e.signers[j]? with
  | none => rfl
  | some s =>
    by_cases hij : i = j
    · simpa [hij] using hf s
    · simp [hij]

theorem edit_decline (e : Envelope (McpMetadata ρ)) (i : Nat) (reason : Option String)
    (declinedAt voidedAt : Time) : Edit e (e.declined i reason declinedAt voidedAt) := by
  refine .of_identity rfl rfl rfl (keysOf_modify (Envelope.declined_signers e i _ _ _) fun _ => rfl)
    rfl fun _ s hs hsigned => .inl ?_
  rw [Envelope.declined_signers] at hs
  rcases mem_modify hs with hs | ⟨a, -, rfl⟩
  · exact hs
  · cases hsigned

omit [Inhabited ρ] in
theorem signed_metadata (e : Envelope (McpMetadata ρ)) (i : Nat) (image : String)
    (signedAt completedAt : Time) :
    (e.signed i image signedAt completedAt).metadata = e.metadata := by
  unfold Envelope.signed
  dsimp only
  split <;> rfl

/-- A signature asks for the record. -/
theorem edit_sign {signer : EnvelopeSigner} (hsigner : e.signers[i]? = some signer)
    (hgood : minLevelOf e = .none ∨ Good e signer.id) (image : String)
    (signedAt completedAt : Time) : Edit e (e.signed i image signedAt completedAt) := by
  obtain ⟨hid, htenant, hrev⟩ := e.signed_fields i image signedAt completedAt
  have hidentity : identityOf (e.signed i image signedAt completedAt) = identityOf e := by
    rw [identityOf, identityOf, mcpBucket, mcpBucket, signed_metadata]
  refine .of_identity hid htenant hrev
    (keysOf_modify (Envelope.signed_signers e i _ _ _) fun _ => rfl) hidentity
    fun hlevel s hs _ => ?_
  rw [Envelope.signed_signers] at hs
  rcases mem_modify hs with hs | ⟨a, ha, rfl⟩
  · exact .inl hs
  · rw [hsigner] at ha
    cases ha
    exact .inr (hgood.resolve_left hlevel)

/-- The state of a signer's identity is written. -/
theorem verifiedOf_set (e : Envelope (McpMetadata ρ)) (signerId other : String)
    (state : SignerIdentityState) :
    verifiedOf (setSignerIdentityState e signerId state) other =
      if other = signerId then state.verified else verifiedOf e other := by
  rw [verifiedOf, getSignerIdentityState]
  change (Function.update (mcpBucket e).identity.signers signerId (some state) other).bind _ = _
  rw [Function.update_apply]
  split
  · rfl
  · rfl

theorem edit_identity {signerId : String} {state : SignerIdentityState}
    (h : state.verified = verifiedOf e signerId ∨ ∃ record, state.verified = some record ∧
      satisfies record (minLevelOf e) (expectedUuaidOf e signerId) = true) :
    Edit e (setSignerIdentityState e signerId state) := by
  have hgood : ∀ other, Good e other → Good (setSignerIdentityState e signerId state) other := by
    rintro other ⟨record, hrecord, hsatisfies⟩
    rw [Good, verifiedOf_set]
    split
    next heq =>
      subst heq
      rcases h with h | h
      · rw [h]
        exact ⟨record, hrecord, hsatisfies⟩
      · exact h
    next => exact ⟨record, hrecord, hsatisfies⟩
  exact ⟨rfl, rfl, rfl, rfl, rfl, hgood, fun hsecured hlevel s hs hstatus =>
    hgood s.id (hsecured hlevel s hs hstatus)⟩

end EsigSuite.IdentityGate
