import EsigSuite.Mcp.EventDuties

/-!
# Identities under the rules

The checks of a proof ask only the outside. A challenge is issued with the
nonce that was just drawn, over none that is live, and consumed with the record
in one write.
-/

namespace EsigSuite.Mcp.Duties

open Lib
open EnvelopeFile (getRev setRev)
open Protocol (Triple)

variable {ι : Type}

-- ---------------------------------------------------------------------------
-- The checks
-- ---------------------------------------------------------------------------

section
variable {server : Server} {who : ι} {input : VerifySignerIdentityInput} {uuaid : String}

theorem throwIf_outside {bad : Prop} [Decidable bad] {error : Thrown} :
    Outside (fun _ => ¬ bad) (throwIf bad error : M ι Unit) := by
  unfold throwIf
  split
  next => exact Within.throw _
  next h => exact Within.pure h

theorem env_now_outside : Outside (fun _ => True) (env server : EnvelopeEnv (M ι)).now := now_outside

theorem persistIdentityBlob_outside (json : JsonText) :
    Outside (fun _ => True) ((identityEnv server : IdentityEnv (M ι)).persistIdentityBlob json) :=
  Within.mk (Prog.Within.perform (C := fun op : Op ι => op.outside = true) rfl)

theorem badge_outside (uuaid : String) :
    Outside (fun _ => True) ((registryClient : RegistryClient (M ι)).badge uuaid) :=
  Within.lift ⟨rfl, fun _ => trivial⟩

theorem verifyCredential_outside (id : String) :
    Outside (fun _ => True) ((registryClient : RegistryClient (M ι)).verifyCredential id) :=
  Within.lift ⟨rfl, fun _ => trivial⟩

theorem checkUuaid_outside :
    Outside (fun _ => True) (checkUuaid (identityEnv server : IdentityEnv (M ι)) input) := by
  unfold checkUuaid
  split
  · exact Within.throw _
  · exact throwIf_outside.bind fun _ _ => throwIf_outside.bind fun _ _ => Within.pure trivial

theorem assertSafeIdentityString_outside (value : String) :
    Outside (fun _ => True) (assertSafeIdentityString input value uuaid : M ι Unit) :=
  throwIf_outside.bind fun _ _ => throwIf_outside.any

theorem assertSafeOptional_outside (value : Option String) :
    Outside (fun _ => True) (assertSafeOptional input value uuaid : M ι Unit) := by
  cases value with
  | none => exact Within.pure trivial
  | some value => exact assertSafeIdentityString_outside value

theorem checkCredential_outside (key : List UInt8) (credential : Option UaidSigningCredential) :
    Outside (fun _ => True)
      (checkCredential (identityEnv server : IdentityEnv (M ι)) input uuaid key credential) := by
  cases credential with
  | none => exact Within.pure trivial
  | some credential =>
    refine (assertSafeIdentityString_outside _).bind fun _ _ => ?_
    split
    · exact Within.throw _
    · refine throwIf_outside.bind fun _ _ => (assertSafeOptional_outside _).bind fun _ _ => ?_
      split
      · exact Within.throw _
      · exact throwIf_outside.bind fun _ _ =>
          (persistIdentityBlob_outside _).bind fun _ _ => Within.pure trivial

theorem localLevel_outside (key : List UInt8) :
    Outside (fun _ => True)
      (localLevel (identityEnv server : IdentityEnv (M ι)) input uuaid key) := by
  unfold localLevel
  refine Within.bind (R := fun _ => True) ?_ fun _ _ =>
    throwIf_outside.bind fun _ _ => Within.pure trivial
  unfold agentLevel
  split
  · split
    · exact Within.pure trivial
    · exact Within.throw _
  · exact Within.pure trivial

theorem checkDisagreement_outside (key : List UInt8) (level : IdentityLevel) :
    Outside (fun _ => True)
      (checkDisagreement (env server) (identityEnv server : IdentityEnv (M ι)) input uuaid key
        level) := by
  unfold checkDisagreement
  split
  next registry _ hregistry _ =>
    split
    · rw [registry_eq hregistry]
      refine (badge_outside uuaid).bind fun _ _ => ?_
      split
      · exact Within.pure trivial
      · refine env_now_outside.bind fun _ _ => ?_
        split
        · exact Within.pure trivial
        · split
          · exact Within.pure trivial
          · split
            · split
              · exact Within.pure trivial
              · exact throwIf_outside.any
            · exact Within.pure trivial
    · exact Within.pure trivial
  · exact Within.pure trivial

theorem checkBadge_outside (key : List UInt8) :
    Outside (fun _ => True)
      (checkBadge (env server) (identityEnv server : IdentityEnv (M ι)) input uuaid key
        registryClient) := by
  unfold checkBadge
  refine throwIf_outside.bind fun _ _ => ?_
  split
  · exact Within.throw _
  · refine (badge_outside uuaid).bind fun _ _ => ?_
    split
    · exact Within.throw _
    · exact Within.throw _
    · refine env_now_outside.bind fun _ _ => ?_
      split
      · exact Within.throw _
      · refine throwIf_outside.bind fun _ _ => throwIf_outside.bind fun _ _ => ?_
        split
        · exact Within.throw _
        · refine throwIf_outside.bind fun _ _ => ?_
          split
          · exact Within.throw _
          · exact throwIf_outside.bind fun _ _ => Within.pure trivial

theorem checkCredentialStatus_outside (record : SignerIdentityRegistryRecord)
    (credential : Option UaidSigningCredential) :
    Outside (fun _ => True)
      (checkCredentialStatus input uuaid (registryClient : RegistryClient (M ι)) record
        credential) := by
  cases credential with
  | none => exact Within.pure trivial
  | some credential =>
    refine (verifyCredential_outside _).bind fun _ _ => ?_
    split
    · exact Within.throw _
    · exact (assertSafeOptional_outside _).bind fun _ _ => throwIf_outside.bind fun _ _ =>
        throwIf_outside.bind fun _ _ => Within.pure trivial

theorem checkRegistry_outside (proof : IdentityProofInput) (key : List UInt8)
    (record : SignerIdentityRecord) :
    Outside (fun _ => True)
      (checkRegistry (env server) (identityEnv server : IdentityEnv (M ι)) input proof key
        record) := by
  unfold checkRegistry
  split
  · split
    · exact Within.throw _
    next registry hregistry =>
      rw [registry_eq hregistry]
      exact (checkBadge_outside key).bind fun _ _ => env_now_outside.bind fun _ _ =>
        (persistIdentityBlob_outside _).bind fun _ _ =>
        (checkCredentialStatus_outside _ _).bind fun _ _ => Within.pure trivial
  · exact Within.pure trivial

end

-- ---------------------------------------------------------------------------
-- Writing identities
-- ---------------------------------------------------------------------------

section
variable {server : Server} {who : ι} {tenantId envelopeId signerId : String}
  {input : VerifySignerIdentityInput} {A : Track (Duties ι) → Prop}

theorem identity_same (e : McpEnvelope) (signerId : String) (state : SignerIdentityState) :
    Same e (setSignerIdentityState e signerId state) := ⟨rfl, rfl, rfl, rfl, rfl, rfl, rfl, rfl⟩

/-- A write of one signer's identity. -/
theorem Calm.writeIdentity {e : McpEnvelope} {state : SignerIdentityState}
    (hA : ∀ t, A t → Holding e t)
    (hidentity : ∀ t, A t → IdentityEdit t.own.nonce e (setSignerIdentityState e signerId state)) :
    Calm server who A ((store ⟨who, .plain⟩).update (setSignerIdentityState e signerId state))
      fun _ _ => True :=
  (Calm.write rfl (owed_same (identity_same e signerId state)) ⟨rfl, rfl, rfl, rfl⟩
    (.aside (identity_same e signerId state) (.inl rfl)) (fun t ht => .inr (hA t ht)) hidentity).any

/-- The error of a write becomes a value. -/
theorem Calm.attempt {α : Type} {x : M ι α} (hx : Calm server who A x fun _ _ => True) :
    Calm server who A
      (tryCatchThe Thrown (do let _ ← x; return none) fun e => return some e) fun _ _ => True :=
  .tryCatch (hx.bind fun _ => .pure fun _ _ => trivial) fun _ => .pure fun _ _ => trivial

theorem Calm.finalizeAttempts {now : Time} {nonce : String} {record : SignerIdentityRecord}
    (attempts : Nat) :
    Calm server who (fun _ => True)
      (EsigSuite.finalizeAttempts (store ⟨who, .plain⟩) now tenantId envelopeId signerId nonce
        record attempts) fun _ _ => True := by
  induction attempts with
  | zero => exact .pure fun _ _ => trivial
  | succ attempts ih =>
    rw [EsigSuite.finalizeAttempts]
    refine (Calm.findById ⟨rfl, rfl⟩).bind fun found => ?_
    cases found with
    | none => exact .pure fun _ _ => trivial
    | some e =>
      dsimp only
      cases hlive : liveChallenge (getSignerIdentityState e signerId) nonce now with
      | error reason => exact .pure fun _ _ => trivial
      | ok challenge =>
        dsimp only
        obtain ⟨hchallenge, hopen⟩ : challengeOf e signerId = some challenge ∧
            challenge.consumed = false := by
          unfold liveChallenge at hlive
          rw [challengeOf]
          cases hstate : (getSignerIdentityState e signerId).bind (·.challenge) with
          | none =>
            rw [hstate] at hlive
            cases hlive
          | some c =>
            rw [hstate] at hlive
            simp only at hlive
            split at hlive
            · cases hlive
            next hopen =>
              split at hlive
              · cases hlive
              · split at hlive
                · cases hlive
                · cases hlive
                  exact ⟨rfl, by simpa using hopen⟩
        refine (Calm.attempt (Calm.writeIdentity (fun t ht => (ht e rfl).1) fun t _ =>
          .finalize signerId challenge record hchallenge hopen rfl)).bind fun outcome => ?_
        cases outcome with
        | none => exact .pure fun _ _ => trivial
        | some error =>
          dsimp only
          split
          · exact .throw _
          · exact ih

theorem Calm.persistL0Attempts {record : SignerIdentityRecord} (attempts : Nat) :
    Calm server who (fun _ => True)
      (EsigSuite.persistL0Attempts (store ⟨who, .plain⟩) tenantId envelopeId signerId record
        attempts) fun _ _ => True := by
  induction attempts with
  | zero => exact .pure fun _ _ => trivial
  | succ attempts ih =>
    rw [EsigSuite.persistL0Attempts]
    refine (Calm.findById ⟨rfl, rfl⟩).bind fun found => ?_
    cases found with
    | none => exact .throw _
    | some e =>
      refine (Calm.attempt (Calm.writeIdentity (fun t ht => (ht e rfl).1) fun t _ =>
        .record signerId record rfl)).bind fun outcome => ?_
      cases outcome with
      | none => exact .pure fun _ _ => trivial
      | some error =>
        dsimp only
        split
        · exact .throw _
        · exact ih

theorem Calm.checkChallengeProof {uuaid : String} {proof : JsonText} :
    Calm server who (fun _ => True)
      (EsigSuite.checkChallengeProof (store ⟨who, .plain⟩) (env server) (identityEnv server) input
        uuaid proof) fun _ _ => True := by
  unfold EsigSuite.checkChallengeProof
  refine (Calm.findById ⟨rfl, rfl⟩).bind fun found => ?_
  split
  · exact .throw _
  · split
    · exact .throw _
    · refine Calm.throwIf.bind fun _ => (Calm.outside env_now_outside).bind fun _ =>
        Calm.throwIf.bind fun _ => ?_
      split
      · exact .throw _
      · split
        · exact .throw _
        · exact .pure fun _ _ => trivial

theorem Calm.verifySignerIdentity :
    Calm server who (fun _ => True)
      (EsigSuite.verifySignerIdentity (store ⟨who, .plain⟩) (env server) (identityEnv server) input)
      fun _ _ => True := by
  unfold EsigSuite.verifySignerIdentity
  split
  · exact .pure fun _ _ => trivial
  · refine (Calm.outside checkUuaid_outside).any.bind fun proof => ?_
    split
    · refine (Calm.outside env_now_outside).any.bind fun now => ?_
      exact (Calm.persistL0Attempts _).bind fun _ => .pure fun _ _ => trivial
    · split
      · exact .throw _
      next json _ =>
        refine Calm.checkChallengeProof.bind fun (challenge, keyFingerprint) => ?_
        refine (Calm.outside (checkCredential_outside _ _)).any.bind fun _ => ?_
        refine (Calm.outside (persistIdentityBlob_outside _)).any.bind fun _ => ?_
        refine (Calm.outside env_now_outside).any.bind fun _ => ?_
        refine (Calm.outside (localLevel_outside _)).any.bind fun _ => ?_
        refine (Calm.outside (checkDisagreement_outside _ _)).any.bind fun _ => ?_
        refine (Calm.outside (checkRegistry_outside _ _ _)).any.bind fun record => ?_
        refine Calm.bind (R := fun _ _ => True) ?_ fun outcome => ?_
        · exact (Calm.outside env_now_outside).any.bind fun now => Calm.finalizeAttempts _
        · cases outcome with
          | error _ => exact .throw _
          | ok _ => exact .pure fun _ _ => trivial

/-- A nonce is drawn over what was read. -/
theorem Calm.random {e : McpEnvelope} :
    Calm server who (Holding e) (env server : EnvelopeEnv (M ι)).randomToken fun nonce t =>
      Holding e t ∧ t.own.nonce = some nonce :=
  fun _ hP => .lift (Rules.call fun t _ ⟨⟨hPt, hready⟩, hholding⟩ _ _ => ⟨hready.free,
    ⟨⟨hP t _ ⟨fun _ h => h, rfl, rfl, rfl, fun _ h => h, rfl⟩ hPt, hready.who, hready.free⟩,
      hholding, rfl⟩⟩)

theorem Calm.issueChallenge {ttlSec : Nat} :
    Calm server who (fun _ => True)
      (EsigSuite.issueChallenge (store ⟨who, .plain⟩) (env server) tenantId envelopeId signerId
        ttlSec) fun _ _ => True := by
  unfold EsigSuite.issueChallenge
  refine (Calm.outside env_now_outside).any.bind fun now => ?_
  refine (Calm.findById ⟨rfl, rfl⟩).bind fun found => ?_
  cases found with
  | none => exact .throw _
  | some e =>
    dsimp only
    refine Calm.throwIf.bind fun _ => ?_
    split
    · exact .throw _
    · split
      · exact .pure fun _ _ => trivial
      next hnone =>
        refine (Calm.random (e := e)).mono (fun t ht => (ht.2 e rfl).1) (fun _ _ h => h)
          |>.bind fun nonce => ?_
        refine (Calm.writeIdentity (fun t ht => ht.1) fun t ht => ?_).bind fun _ =>
          .pure fun _ _ => trivial
        refine .issue signerId _ ht.2 rfl (fun c hc => ?_) rfl
        -- what is there already is not live
        rw [Option.filter_eq_none_iff] at hnone
        have hdead := hnone c (by
          rw [challengeOf] at hc
          cases hstate : getSignerIdentityState e signerId with
          | none =>
            rw [hstate] at hc
            cases hc
          | some state =>
            rw [hstate] at hc
            exact hc)
        cases hconsumed : c.consumed with
        | true => exact .inl rfl
        | false =>
          right
          simpa [hconsumed] using hdead

-- ---------------------------------------------------------------------------
-- The service's part
-- ---------------------------------------------------------------------------

theorem Calm.takeRate : Calm server who A (Mcp.takeRate : M ι Unit) fun _ => A :=
  (Calm.outside (R := fun _ => True) (Within.mk (Prog.Within.perform
    (C := fun op : Op ι => op.outside = true) rfl))).mono (fun _ h => h) fun _ _ h => h.2

theorem Calm.emitSigner {fallback : Option EnvelopeSigner} {type : EventType} {data : EventData}
    (htype : type ≠ .envelope_expired) :
    Calm server who (fun _ => True)
      (Mcp.emitSigner server who envelopeId signerId fallback type data : M ι Unit) fun _ _ => True :=
  Calm.emitPlain (fun _ => rfl) fun _ => htype

theorem Calm.rejectedIdentity {signer : EnvelopeSigner} (error : Thrown) :
    Calm server who (fun _ => True)
      (Mcp.rejectedIdentity server who envelopeId signer error : M ι Unit) fun _ _ => True := by
  cases error with
  | identity reason uuaid level =>
    exact (Calm.audit rfl rfl).bind fun _ => Calm.emitSigner (fun h => by cases h)
  | _ => exact .pure fun _ _ => trivial

theorem Calm.verifiedIdentity {fallback : Option EnvelopeSigner} {record : SignerIdentityRecord} :
    Calm server who (fun _ => True)
      (Mcp.verifiedIdentity server who envelopeId signerId fallback record : M ι Unit)
      fun _ _ => True :=
  (Calm.audit rfl rfl).bind fun _ => Calm.emitSigner (fun h => by cases h)

theorem Calm.verifyAtGate {e : McpEnvelope} {signer : EnvelopeSigner}
    {proof : Option IdentityProofInput} :
    Calm server who (fun _ => True) (Mcp.verifyAtGate server who e signer proof : M ι Unit)
      fun _ _ => True := by
  unfold Mcp.verifyAtGate
  dsimp only
  split
  · exact .pure fun _ _ => trivial
  · split
    · exact (Calm.audit rfl rfl).any
    · refine Calm.bind (R := fun _ _ => True) ?_ fun record => ?_
      · exact Calm.verifySignerIdentity.tryCatch fun error =>
          (Calm.rejectedIdentity error).bind fun _ => .throw _
      · cases record with
        | none => exact .pure fun _ _ => trivial
        | some record => exact Calm.verifiedIdentity

theorem Calm.gateCheck {proof : Option IdentityProofInput}
    (gate : TokenResolution (McpMetadata (SealMetadata Bookkeeping))) :
    Calm server who (fun _ => True) (Mcp.gateCheck server who proof gate : M ι Unit)
      fun _ _ => True := by
  cases gate with
  | ok e index signer => exact Calm.verifyAtGate
  | _ => exact .pure fun _ _ => trivial

theorem Calm.issueIdentityChallenge :
    Calm server who (fun _ => True)
      (Mcp.issueIdentityChallenge server who envelopeId signerId : M ι _) fun _ _ => True :=
  Calm.takeRate.bind fun _ => Calm.issueChallenge.bind fun _ => (Calm.audit rfl rfl).bind fun _ =>
    .pure fun _ _ => trivial

theorem Calm.acceptPreVerifiedIdentity {evt : IdentityProofEvent} :
    Calm server who (fun _ => True) (Mcp.acceptPreVerifiedIdentity server who evt : M ι _)
      fun _ _ => True := by
  unfold Mcp.acceptPreVerifiedIdentity
  refine (Calm.findById ⟨rfl, rfl⟩).any.bind fun found => ?_
  cases found with
  | none => exact .pure fun _ _ => trivial
  | some e =>
    dsimp only
    split
    · exact .pure fun _ _ => trivial
    · refine .tryCatch (Calm.verifySignerIdentity.bind fun record => ?_) fun error => ?_
      · cases record with
        | none => exact .pure fun _ _ => trivial
        | some record => exact Calm.verifiedIdentity.bind fun _ => .pure fun _ _ => trivial
      · cases error with
        | identity reason uuaid level =>
          exact (Calm.audit rfl rfl).bind fun _ => .pure fun _ _ => trivial
        | _ => exact .throw _

end

end EsigSuite.Mcp.Duties
