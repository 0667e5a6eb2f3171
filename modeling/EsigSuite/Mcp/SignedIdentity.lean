import EsigSuite.Mcp.IdentityGate

/-!
# Who signs has been verified

Under `GateInTurn` nobody signs under a level without the record of it, in any
interleaving. Without it a signer whose turn comes between the gate and the
signature does.
-/

namespace EsigSuite.IdentityGate

open Lib EnvelopeFile Protocol
open Lifecycle (throwIf_quiet)

section
variable {ρ : Type} [Inhabited ρ] {start : Rows ρ} {server : Server ρ}
  {P : Rows ρ → Prop} {input : VerifySignerIdentityInput} {uuaid : String}

-- ---------------------------------------------------------------------------
-- The checks
-- ---------------------------------------------------------------------------

/-- A lookup by id, where only what is found matters. -/
theorem findById_quiet (server : Server ρ) (gate : Option Bool) (tenantId id : String) :
    (protocol start).Quiet ((store gate).findById tenantId id) fun _ => True :=
  fun P hP => ((contract start server gate).findById tenantId id P hP).mono (fun _ _ h => h)
    (fun _ _ _ h => ⟨trivial, h.1⟩) fun _ _ _ h => h

/-- The record proves what is asked for. -/
def Meets (input : VerifySignerIdentityInput) (level : IdentityLevel) (uuaid : String) : Prop :=
  input.minLevel.order ≤ level.order ∧
    (input.expectedUuaid = none ∨ input.expectedUuaid = some uuaid)

theorem checkUuaid_quiet : (protocol start).Quiet (checkUuaid server.deps.identity input)
    fun proof => input.expectedUuaid = none ∨ input.expectedUuaid = some proof.uuaid := by
  unfold checkUuaid
  split
  · exact .throw _
  next proof =>
    refine throwIf_quiet.bind fun _ _ => throwIf_quiet.bind fun _ hpinned => .pure ?_
    by_cases hnone : input.expectedUuaid = none
    · exact .inl hnone
    · exact .inr (by_contra fun hother => hpinned ⟨hnone, hother⟩)

theorem checkChallengeProof_quiet (proof : JsonText) : (protocol start).Quiet
    (checkChallengeProof (store none) server.env server.deps.identity input uuaid proof)
    fun _ => True := by
  unfold checkChallengeProof
  refine (findById_quiet server none _ _).bind fun found _ => ?_
  split
  · exact .throw _
  · split
    · exact .throw _
    · refine throwIf_quiet.bind fun _ _ => (now_quiet start server).bind fun _ _ =>
        throwIf_quiet.bind fun _ _ => ?_
      split
      · exact .throw _
      · split
        · exact .throw _
        · exact .pure trivial

theorem assertSafeIdentityString_quiet (value : String) : (protocol start).Quiet
    (assertSafeIdentityString input value uuaid : M ρ Unit) fun _ => True :=
  throwIf_quiet.bind fun _ _ => throwIf_quiet.mono fun _ _ => trivial

theorem assertSafeOptional_quiet (value : Option String) : (protocol start).Quiet
    (assertSafeOptional input value uuaid : M ρ Unit) fun _ => True := by
  cases value with
  | none => exact .pure trivial
  | some value => exact assertSafeIdentityString_quiet value

theorem persistIdentityBlob_quiet (json : JsonText) :
    (protocol start).Quiet (server.deps.identity.persistIdentityBlob json) fun _ => True :=
  .mk fun _ => idle start (.persistIdentityBlob json) fun _ _ _ h => h

theorem checkCredential_quiet (key : List UInt8) (credential : Option UaidSigningCredential) :
    (protocol start).Quiet (checkCredential server.deps.identity input uuaid key credential)
      fun _ => True := by
  cases credential with
  | none => exact .pure trivial
  | some credential =>
    refine (assertSafeIdentityString_quiet _).bind fun _ _ => ?_
    split
    · exact .throw _
    · refine throwIf_quiet.bind fun _ _ => (assertSafeOptional_quiet _).bind fun _ _ => ?_
      split
      · exact .throw _
      · exact throwIf_quiet.bind fun _ _ =>
          (persistIdentityBlob_quiet _).bind fun _ _ => .pure trivial

theorem localLevel_quiet (key : List UInt8) : (protocol start).Quiet
    (localLevel server.deps.identity input uuaid key) fun level =>
      (level = .L1 ∨ level = .L1p) ∧ (input.minLevel = .L1p → level = .L1p) := by
  unfold localLevel
  refine Quiet.bind (R := fun level => level = .L1 ∨ level = .L1p) ?_ fun level hlevel => ?_
  · unfold agentLevel
    split
    · split
      · exact .pure (.inr rfl)
      · exact .throw _
    · exact .pure (.inl rfl)
  · refine throwIf_quiet.bind fun _ hl1p => .pure ⟨hlevel, fun hmin => ?_⟩
    exact by_contra fun hother => hl1p ⟨hmin, hother⟩

theorem badge_quiet (registry : RegistryClient (M ρ)) (hregistry : registry = Server.registryClient)
    (uuaid : String) : (protocol start).Quiet (registry.badge uuaid) fun _ => True := by
  subst hregistry
  exact .lift fun _ => idle start (.badge uuaid) fun _ _ _ h => h

theorem verifyCredential_quiet (registry : RegistryClient (M ρ))
    (hregistry : registry = Server.registryClient) (id : String) :
    (protocol start).Quiet (registry.verifyCredential id) fun _ => True := by
  subst hregistry
  exact .lift fun _ => idle start (.verifyCredential id) fun _ _ _ h => h

omit [Inhabited ρ] in
/-- The only registry client there is. -/
theorem registry_eq {registry : RegistryClient (M ρ)}
    (h : server.deps.identity.registry = some registry) : registry = Server.registryClient := by
  obtain ⟨_, -, rfl⟩ := Option.map_eq_some_iff.mp
    (show server.config.uuaidRegistryUrl.map (fun _ => Server.registryClient) = some registry
      from h)
  rfl

theorem checkDisagreement_quiet (key : List UInt8) (level : IdentityLevel) :
    (protocol start).Quiet
      (checkDisagreement server.env server.deps.identity input uuaid key level)
      fun _ => True := by
  unfold checkDisagreement
  split
  next registry _ hregistry _ =>
    split
    · refine (badge_quiet registry (registry_eq hregistry) uuaid).bind fun _ _ => ?_
      split
      · exact .pure trivial
      · refine (now_quiet start server).bind fun _ _ => ?_
        split
        · exact .pure trivial
        · split
          · exact .pure trivial
          · split
            · split
              · exact .pure trivial
              · exact throwIf_quiet.mono fun _ _ => trivial
            · exact .pure trivial
    · exact .pure trivial
  · exact .pure trivial

theorem checkBadge_quiet (key : List UInt8) {registry : RegistryClient (M ρ)}
    (hregistry : registry = Server.registryClient) : (protocol start).Quiet
      (checkBadge server.env server.deps.identity input uuaid key registry) fun _ => True := by
  unfold checkBadge
  refine throwIf_quiet.bind fun _ _ => ?_
  split
  · exact .throw _
  · refine (badge_quiet registry hregistry uuaid).bind fun _ _ => ?_
    split
    · exact .throw _
    · exact .throw _
    · refine (now_quiet start server).bind fun _ _ => ?_
      split
      · exact .throw _
      · refine throwIf_quiet.bind fun _ _ => throwIf_quiet.bind fun _ _ => ?_
        split
        · exact .throw _
        · refine throwIf_quiet.bind fun _ _ => ?_
          split
          · exact .throw _
          · exact throwIf_quiet.bind fun _ _ => .pure trivial

theorem checkCredentialStatus_quiet {registry : RegistryClient (M ρ)}
    (hregistry : registry = Server.registryClient) (record : SignerIdentityRegistryRecord)
    (credential : Option UaidSigningCredential) : (protocol start).Quiet
      (checkCredentialStatus input uuaid registry record credential) fun _ => True := by
  cases credential with
  | none => exact .pure trivial
  | some credential =>
    refine (verifyCredential_quiet registry hregistry _).bind fun _ _ => ?_
    split
    · exact .throw _
    · exact (assertSafeOptional_quiet _).bind fun _ _ => throwIf_quiet.bind fun _ _ =>
        throwIf_quiet.bind fun _ _ => .pure trivial

theorem checkRegistry_quiet (proof : IdentityProofInput) (key : List UInt8)
    (record : SignerIdentityRecord) : (protocol start).Quiet
      (checkRegistry server.env server.deps.identity input proof key record) fun record' =>
        record'.uuaid = record.uuaid ∧
          record'.level = if input.minLevel = .L2 then .L2 else record.level := by
  unfold checkRegistry
  split
  next =>
    split
    · exact .throw _
    next registry hregistry =>
      have hregistry := registry_eq hregistry
      refine (checkBadge_quiet key hregistry).bind fun _ _ =>
        (now_quiet start server).bind fun _ _ =>
        (persistIdentityBlob_quiet _).bind fun _ _ =>
        (checkCredentialStatus_quiet hregistry _ _).bind fun _ _ => .pure ⟨rfl, rfl⟩
  next => exact .pure ⟨rfl, rfl⟩

/-- The levels that the checks give are high enough. -/
theorem order_le {min level : IdentityLevel} (hzero : min ≠ .none)
    (hlevel : (level = .L1 ∨ level = .L1p) ∧ (min = .L1p → level = .L1p)) :
    min.order ≤ (if min = .L2 then .L2 else level : IdentityLevel).order := by
  obtain ⟨rfl | rfl, hl1p⟩ := hlevel <;> cases min <;> simp_all [IdentityLevel.order]

-- ---------------------------------------------------------------------------
-- Recording an identity
-- ---------------------------------------------------------------------------

/-- The envelope asks for what the input does. -/
def Demands (input : VerifySignerIdentityInput) : Rows ρ → Prop :=
  AllOf input.envelopeId fun e =>
    minLevelOf e = input.minLevel ∧ expectedUuaidOf e input.signerId = input.expectedUuaid

def Verified (input : VerifySignerIdentityInput) : Rows ρ → Prop :=
  AllOf input.envelopeId (Good · input.signerId)

theorem satisfies_of_meets {e : Envelope (McpMetadata ρ)} {record : SignerIdentityRecord}
    (hmeets : Meets input record.level record.uuaid) (hlevel : minLevelOf e = input.minLevel)
    (hpin : expectedUuaidOf e input.signerId = input.expectedUuaid) :
    satisfies record (minLevelOf e) (expectedUuaidOf e input.signerId) = true := by
  obtain ⟨horder, hnone | hsome⟩ := hmeets
  · simp [satisfies, hlevel, hpin, horder, hnone]
  · simp [satisfies, hlevel, hpin, horder, hsome]

/-- The one write of a verified record. -/
theorem record_triple (hP : (protocol start).Kept P) (hdemands : ∀ s, P s → Demands input s)
    {record : SignerIdentityRecord} (hmeets : Meets input record.level record.uuaid)
    {e : Envelope (McpMetadata ρ)} {state : SignerIdentityState}
    (hstate : state.verified = some record) :
    (protocol start).Triple
      (tryCatchThe Thrown
        (do let _ ← (store none).update (setSignerIdentityState e input.signerId state)
            return none)
        fun t => return some t)
      (fun s => P s ∧ (contract start server none).Current P
        (.id input.tenantId input.envelopeId) e s)
      (fun o s => P s ∧ (o = none → Verified input s)) (fun _ => P) := by
  refine (Triple.attempt (M := fun s => P s ∧ Verified input s) (E := P) (Triple.know (q :=
    e.id = input.envelopeId ∧
      satisfies record (minLevelOf e) (expectedUuaidOf e input.signerId) = true) ?_
    fun he => ?_)).mono (fun _ _ h => h) ?_ fun _ _ _ h => h
  · rintro s - ⟨-, ⟨t, -, hPt, hmem, hid⟩, -⟩
    obtain ⟨hlevel, hpin⟩ := hdemands t hPt e hmem hid
    exact ⟨hid, satisfies_of_meets hmeets hlevel hpin⟩
  · obtain ⟨hid, hsatisfies⟩ := he
    refine ((contract start server none).update_current hP fun _ _ _ _ _ =>
      edit_identity (.inr ⟨record, hstate, hsatisfies⟩)).bind fun _ => .pure fun s _ h => ?_
    refine ⟨rfl, h.2, fun d hd hdid => ?_⟩
    -- The row has evolved from the one that was written, which has the record.
    have hevolves := h.1 d hd (hdid.trans hid.symm)
    refine hevolves.good _ ⟨record, ?_, hsatisfies⟩
    change verifiedOf (setSignerIdentityState e input.signerId state) input.signerId = some record
    rw [verifiedOf_set, if_pos rfl, hstate]
  · rintro o s - (⟨-, h, hverified⟩ | ⟨⟨t, rfl⟩, h⟩)
    · exact ⟨h, fun _ => hverified⟩
    · exact ⟨h, nofun⟩

theorem finalizeAttempts_triple (server : Server ρ) (hP : (protocol start).Kept P)
    (hdemands : ∀ s, P s → Demands input s) {record : SignerIdentityRecord}
    (hmeets : Meets input record.level record.uuaid) (now : Time) (nonce : String)
    (attempts : Nat) :
    (protocol start).Triple
      (finalizeAttempts (store none) now input.tenantId input.envelopeId input.signerId nonce
        record attempts) P
      (fun r s => P s ∧ (r = .ok () → Verified input s)) (fun _ => P) := by
  induction attempts with
  | zero => exact .pure fun _ _ h => ⟨h, nofun⟩
  | succ attempts ih =>
    rw [finalizeAttempts]
    refine ((contract start server none).findById _ _ P hP.1).bind fun found => ?_
    cases found with
    | none => exact .pure fun _ _ h => ⟨h.1, nofun⟩
    | some e =>
      refine Triple.mono (P := fun s => P s ∧ (contract start server none).Current P
        (.id input.tenantId input.envelopeId) e s) ?_ (fun s _ h => ⟨h.1, h.2 e rfl⟩)
        (fun _ _ _ h => h) fun _ _ _ h => h
      dsimp only
      split
      · exact .pure fun _ _ h => ⟨h.1, nofun⟩
      · refine (record_triple hP hdemands hmeets rfl).bind fun o => ?_
        cases o with
        | none => exact .pure fun s _ h => ⟨h.1, fun _ => h.2 rfl⟩
        | some t =>
          dsimp only
          split
          · exact .throw fun _ _ h => h.1
          · exact ih.mono (fun _ _ h => h.1) (fun _ _ _ h => h) fun _ _ _ h => h

/-- The last attempt either writes or throws. -/
theorem persistL0Attempts_triple (server : Server ρ) (hP : (protocol start).Kept P)
    (hdemands : ∀ s, P s → Demands input s) {record : SignerIdentityRecord}
    (hmeets : Meets input record.level record.uuaid) (attempts : Nat) :
    (protocol start).Triple
      (persistL0Attempts (store none) input.tenantId input.envelopeId input.signerId record
        attempts) P
      (fun _ s => P s ∧ (attempts ≠ 0 → Verified input s)) (fun _ => P) := by
  induction attempts with
  | zero => exact .pure fun _ _ h => ⟨h, fun hzero => absurd rfl hzero⟩
  | succ attempts ih =>
    rw [persistL0Attempts]
    refine ((contract start server none).findById _ _ P hP.1).bind fun found => ?_
    cases found with
    | none => exact .throw fun _ _ h => h.1
    | some e =>
      refine Triple.mono (P := fun s => P s ∧ (contract start server none).Current P
        (.id input.tenantId input.envelopeId) e s) ?_ (fun s _ h => ⟨h.1, h.2 e rfl⟩)
        (fun _ _ _ h => h) fun _ _ _ h => h
      refine (record_triple hP hdemands hmeets rfl).bind fun o => ?_
      cases o with
      | none => exact .pure fun s _ h => ⟨h.1, fun _ => h.2 rfl⟩
      | some t =>
        dsimp only
        split
        · exact .throw fun _ _ h => h.1
        next hmore =>
          exact ih.mono (fun _ _ h => h.1) (fun _ _ _ h => ⟨h.1, fun _ => h.2 hmore⟩)
            fun _ _ _ h => h

/-- Where it gives no error a record that meets the demands is on the
envelope. -/
theorem verifySignerIdentity_triple (hP : (protocol start).Kept P)
    (hdemands : ∀ s, P s → Demands input s) (hlevel : input.minLevel ≠ .none) :
    (protocol start).Triple
      (verifySignerIdentity (store none) server.env server.deps.identity input) P
      (fun _ s => P s ∧ Verified input s) (fun _ => P) := by
  unfold verifySignerIdentity
  rw [if_neg hlevel]
  refine (checkUuaid_quiet P hP.1).bind fun proof => .given fun hpin => ?_
  split
  next hmin =>
    refine (now_quiet start server P hP.1).bind fun now => .given fun _ => ?_
    have hmeets : Meets input .L0 proof.uuaid := by
      refine ⟨?_, hpin⟩
      rw [hmin]
    refine (persistL0Attempts_triple server hP hdemands hmeets _).bind fun _ => ?_
    · exact .pure fun s _ h => ⟨h.1, h.2 (by decide)⟩
  next hmin =>
    split
    · exact .throw fun _ _ h => h
    next json _ =>
      refine (checkChallengeProof_quiet json P hP.1).bind fun found => .given fun _ => ?_
      refine (checkCredential_quiet _ _ P hP.1).bind fun _ => .given fun _ => ?_
      refine (persistIdentityBlob_quiet _ P hP.1).bind fun _ => .given fun _ => ?_
      refine (now_quiet start server P hP.1).bind fun _ => .given fun _ => ?_
      refine (localLevel_quiet _ P hP.1).bind fun level => .given fun hlocal => ?_
      refine (checkDisagreement_quiet _ _ P hP.1).bind fun _ => .given fun _ => ?_
      refine (checkRegistry_quiet _ _ _ P hP.1).bind fun record => .given fun hrecord => ?_
      have hmeets : Meets input record.level record.uuaid := by
        rw [hrecord.1, hrecord.2]
        exact ⟨order_le hlevel hlocal, hpin⟩
      refine Triple.bind (M := fun r s => P s ∧ (r = .ok () → Verified input s)) ?_ fun r => ?_
      · refine (now_quiet start server P hP.1).bind fun _ => .given fun _ => ?_
        exact finalizeAttempts_triple server hP hdemands hmeets _ _ _
      · cases r with
        | error _ => exact .throw fun _ _ h => h.1
        | ok _ => exact .pure fun s _ h => ⟨h.1, h.2 rfl⟩

-- ---------------------------------------------------------------------------
-- Calls that ask for nothing
-- ---------------------------------------------------------------------------

/-- The program keeps to the rules. -/
def Safe (start : Rows ρ) (x : M ρ α) : Prop :=
  ∀ P, (protocol start).Kept P → (protocol start).Triple x P (fun _ => P) (fun _ => P)

theorem Safe.of_quiet {x : M ρ α} {R : α → Prop} (h : (protocol start).Quiet x R) :
    Safe start x :=
  fun P hP => (h P hP.1).mono (fun _ _ hs => hs) (fun _ _ _ hs => hs.2) fun _ _ _ hs => hs

theorem Safe.pure (a : α) : Safe start (Pure.pure a : M ρ α) := fun _ _ => .pure fun _ _ h => h

theorem Safe.throw (t : Thrown) : Safe start (throwThe Thrown t : M ρ α) :=
  fun _ _ => .throw fun _ _ h => h

theorem Safe.bind {x : M ρ α} {f : α → M ρ β} (hx : Safe start x) (hf : ∀ a, Safe start (f a)) :
    Safe start (x >>= f) :=
  fun P hP => (hx P hP).bind fun a => hf a P hP

theorem Safe.tryCatch {x : M ρ α} {handler : Thrown → M ρ α} (hx : Safe start x)
    (hhandler : ∀ t, Safe start (handler t)) : Safe start (tryCatchThe Thrown x handler) :=
  fun P hP => (hx P hP).tryCatch fun t => hhandler t P hP

theorem Safe.discard {x : M ρ α} (hx : Safe start x) : Safe start (discard x) :=
  hx.bind fun _ => .pure _

theorem audit_safe (server : Server ρ) : Safe start server.deps.audit :=
  .of_quiet (audit_quiet start server)

theorem auditTrimmed_safe (server : Server ρ) (trimmed : Bool) :
    Safe start (auditTrimmed server.deps trimmed) := by
  cases trimmed with
  | true => exact audit_safe server
  | false => exact .pure _

theorem appendAttempts_safe (server : Server ρ) (envelopeId : String)
    {build : Envelope (McpMetadata ρ) → Option (Envelope (McpMetadata ρ) × Bool)}
    (hbuild : ∀ e edited trimmed, build e = some (edited, trimmed) → Edit e edited)
    (attempts : Nat) : Safe start (appendAttempts server.deps envelopeId build attempts) := by
  induction attempts with
  | zero => exact .throw _
  | succ attempts ih =>
    intro P hP
    rw [appendAttempts]
    refine ((contract start server none).findById _ _ P hP.1).bind fun found => ?_
    cases found with
    | none => exact .throw fun _ _ h => h.1
    | some e =>
      dsimp only
      split
      · exact .pure fun _ _ h => h.1
      next edited trimmed hedited =>
        have hwrite := (contract start server none).update_current (l := .id server.config.tenant
          envelopeId) hP fun _ _ _ _ _ => hbuild e edited trimmed hedited
        have hnoted : Safe start (do auditTrimmed server.deps trimmed
                                     return (none : Option Thrown)) :=
          (auditTrimmed_safe server trimmed).bind fun _ => .pure _
        refine Triple.bind (M := fun _ => P) ?_ fun o => ?_
        · refine Triple.tryCatch (M := fun _ => P) ?_ fun t => .pure fun _ _ h => h
          refine (hwrite.mono (fun s _ h => ⟨h.1, h.2 e rfl⟩) (fun _ _ _ h => h)
            fun _ _ _ h => h).bind fun _ => ?_
          exact (hnoted P hP).mono (fun _ _ h => h.2) (fun _ _ _ h => h) fun _ _ _ h => h
        · split
          · exact .pure fun _ _ h => h
          · split
            · exact .throw fun _ _ h => h
            · exact ih P hP

theorem emit_safe (server : Server ρ) (envelopeId : String) (type : EventType)
    (signerId : Option String) : Safe start (emit server.deps envelopeId type signerId) := by
  refine .tryCatch (appendAttempts_safe server envelopeId ?_ _) fun _ => .pure _
  rintro e _ _ ⟨⟩
  exact edit_rest e _

theorem updateRest_safe (server : Server ρ) (envelopeId : String)
    (mutate : Envelope (McpMetadata ρ) → Option ρ) :
    Safe start (updateRest server.deps envelopeId mutate) := by
  refine appendAttempts_safe server envelopeId ?_ _
  intro e edited trimmed h
  obtain ⟨rest, -, hedited⟩ := Option.map_eq_some_iff.mp h
  cases hedited
  exact edit_rest e rest

theorem expireOne_safe (server : Server ρ) (envelopeId : String) :
    Safe start (expireOne server.deps envelopeId) := by
  refine (Safe.of_quiet (now_quiet start server)).bind fun now => ?_
  refine appendAttempts_safe server envelopeId ?_ _
  intro e edited trimmed h
  dsimp only at h
  split at h
  · cases h
  · split at h
    · cases h
    · cases h
      split
      · exact (edit_expire e).trans (edit_rest _ _)
      · exact edit_rest e _

theorem resolve_safe (server : Server ρ) (token : String) :
    Safe start (resolveSigningToken (store none) server.env token) :=
  fun _ hP => ((contract start server none).resolveSigningToken
    (fun e _ _ _ _ _ _ => edit_expire e) hP).mono (fun _ _ h => h) (fun _ _ _ h => h.1)
    fun _ _ _ h => h

theorem decline_safe (server : Server ρ) (token : String) (reason : Option String) :
    Safe start (decline server.deps token reason) := by
  refine Safe.bind (fun P hP => ?_) fun e => (audit_safe server).bind fun _ =>
    (emit_safe server _ _ _).bind fun _ => .pure _
  exact ((contract start server none).declineEnvelope (fun e _ _ _ _ _ _ => edit_expire e)
    (fun e _ i _ reason declinedAt voidedAt _ _ _ _ _ _ _ =>
      edit_decline e i reason declinedAt voidedAt) hP reason).mono (fun _ _ h => h)
    (fun _ _ _ h => h.2) fun _ _ _ h => h

theorem void_safe (server : Server ρ) (envelopeId : String) :
    Safe start (voidService server.deps envelopeId) := by
  refine Safe.bind (fun P hP => ?_) fun e => (audit_safe server).bind fun _ =>
    (emit_safe server _ _ _).bind fun _ => .pure _
  exact (contract start server none).voidEnvelope
    (fun e _ voidedAt _ _ _ _ _ => edit_void e voidedAt) hP

/-- Only the challenge is replaced. -/
theorem issueIdentityChallenge_safe (server : Server ρ) (envelopeId signerId : String) :
    Safe start (issueIdentityChallenge server.deps envelopeId signerId) := by
  refine Safe.bind (fun P hP => ?_) fun _ => (audit_safe server).bind fun _ => .pure _
  refine (now_quiet start server P hP.1).bind fun now => .given fun _ => ?_
  refine ((contract start server none).findById _ _ P hP.1).bind fun found => ?_
  cases found with
  | none => exact .throw fun _ _ h => h.1
  | some e =>
    refine Triple.mono (P := fun s => P s ∧ (contract start server none).Current P
      (.id server.config.tenant envelopeId) e s) ?_ (fun s _ h => ⟨h.1, h.2 e rfl⟩)
      (fun _ _ _ h => h) fun _ _ _ h => h
    refine (throwIf_triple fun _ _ h => h.1).bind fun _ => .given fun _ => ?_
    split
    · exact .throw fun _ _ h => h.1
    · dsimp only
      split
      · exact .pure fun _ _ h => h.1
      · have hcurrent := hP.1.and ((contract start server none).current_stable P
          (.id server.config.tenant envelopeId) e)
        refine ((random_quiet start server _ hcurrent).mono (fun _ _ h => h) (fun _ _ _ h => h.2)
          fun _ _ _ h => h.1).bind fun nonce => ?_
        refine ((contract start server none).update_current hP fun _ _ _ _ _ =>
          edit_identity (.inl ?_)).bind fun _ => .pure fun _ _ h => h.2
        change (((getSignerIdentityState e signerId).getD {}).verified) = _
        rw [verifiedOf]
        cases getSignerIdentityState e signerId <;> rfl

/-- The policy that was read is the policy of the row. -/
theorem demands_of_read (server : Server ρ) {l : Lookup} {e : Envelope (McpMetadata ρ)}
    (signerId : String) (proof : Option IdentityProofInput) {s : Rows ρ} (h : Read l e s) :
    Demands (verifyInput server.deps e signerId proof) s := by
  intro d hd hid
  have hpolicy := (h.1 d hd hid).policy
  exact ⟨minLevelOf_congr hpolicy, expectedUuaidOf_congr hpolicy signerId⟩

/-- A proof over an envelope that was read. -/
theorem verify_triple (server : Server ρ) (hP : (protocol start).Kept P) {l : Lookup}
    {e : Envelope (McpMetadata ρ)} (signerId : String) (proof : Option IdentityProofInput)
    (hlevel : minLevelOf e ≠ .none) :
    (protocol start).Triple
      (verifySignerIdentity (store none) server.env server.deps.identity
        (verifyInput server.deps e signerId proof))
      (fun s => P s ∧ Read l e s)
      (fun _ s => (P s ∧ Read l e s) ∧ AllOf e.id (Good · signerId) s)
      (fun _ s => P s ∧ Read l e s) :=
  verifySignerIdentity_triple (hP.and (read_kept start l e))
    (fun _ h => demands_of_read server signerId proof h.2) hlevel

/-- A relayed proof is held to the policy of the envelope. -/
theorem acceptPreVerifiedIdentity_safe (server : Server ρ) (evt : IdentityProofEvent) :
    Safe start (acceptPreVerifiedIdentity server.deps evt) := by
  intro P hP
  refine ((contract start server none).findById _ _ P hP.1).bind fun found => ?_
  cases found with
  | none => exact .pure fun _ _ h => h.1
  | some e =>
    dsimp only
    split
    · exact .pure fun _ _ h => h.1
    next hlevel =>
      have hverify := verify_triple server hP (l := .id server.config.tenant evt.envelopeId)
        evt.signerId (some { uuaid := evt.uuaid, proof := some evt.proof,
                             credential := evt.credential }) hlevel
      refine Triple.tryCatch (M := fun _ => P) ?_ fun t => ?_
      · refine (hverify.mono (fun s _ h => ⟨h.1, (h.2 e rfl).2⟩) (fun _ _ _ h => h.1.1)
          fun _ _ _ h => h.1).bind fun record => ?_
        split
        · exact .pure fun _ _ h => h
        · exact ((audit_safe server).bind fun _ => (emit_safe server _ _ _).bind fun _ =>
            .pure _) P hP
      · split
        · exact ((audit_safe server).bind fun _ => .pure _) P hP
        · exact .throw fun _ _ h => h

-- ---------------------------------------------------------------------------
-- Signing
-- ---------------------------------------------------------------------------

/-- Whoever the token stands for may sign. -/
def Cleared (tokenHash : String) : Rows ρ → Prop :=
  OfToken tokenHash fun e =>
    minLevelOf e = .none ∨ ∀ signerId, signerIdOf e tokenHash = some signerId → Good e signerId

theorem cleared_kept (tokenHash : String) :
    (protocol start).Kept (Cleared (ρ := ρ) tokenHash) := by
  refine ofToken_kept ?_ tokenHash
  rintro e e' hstep (hlevel | hgood)
  · exact .inl ((minLevelOf_congr hstep.policy).trans hlevel)
  · refine .inr fun signerId hsigner => hstep.good signerId (hgood signerId ?_)
    rw [← signerIdOf_congr hstep.keys, hsigner]

/-- The row of the token is the one that the gate has read. -/
theorem cleared_of_read {tokenHash : String} {e : Envelope (McpMetadata ρ)} {i : Nat}
    {signer : EnvelopeSigner} {s : Rows ρ} (hsigner : e.signerOf tokenHash = some (i, signer))
    (hread : Read (.token tokenHash) e s)
    (hgood : minLevelOf e = .none ∨ AllOf e.id (Good · signer.id) s) : Cleared tokenHash s := by
  intro d hd
  have hevolves := hread.2 tokenHash rfl d hd
  rcases hgood with hlevel | hgood
  · exact .inl ((minLevelOf_congr hevolves.policy).trans hlevel)
  · refine .inr fun signerId hid => ?_
    rw [signerIdOf_congr hevolves.keys, signerIdOf, hsigner] at hid
    cases hid
    exact hgood d (List.mem_of_find?_eq_some hd) hevolves.id

theorem verifyAtGate_triple (server : Server ρ) {tokenHash : String}
    {e : Envelope (McpMetadata ρ)} {i : Nat} {signer : EnvelopeSigner}
    (hsigner : e.signerOf tokenHash = some (i, signer)) (proof : Option IdentityProofInput) :
    (protocol start).Triple (verifyAtGate server.deps e signer proof)
      (Read (.token tokenHash) e) (fun _ => Cleared tokenHash) (fun _ _ => True) := by
  have hread := read_kept start (.token tokenHash) e
  have hcleared : (protocol start).Kept (Cleared (ρ := ρ) tokenHash) := cleared_kept tokenHash
  unfold verifyAtGate
  dsimp only
  split
  next hlevel => exact .pure fun s _ h => cleared_of_read hsigner h (.inl hlevel)
  next hlevel =>
    split
    next hbefore =>
      obtain ⟨record, hrecord, hsatisfies⟩ := (Option.any_eq_true _ _).mp hbefore
      refine (audit_safe server (Cleared tokenHash) hcleared).mono (fun s _ h => ?_)
        (fun _ _ _ h => h) fun _ _ _ _ => trivial
      refine cleared_of_read hsigner h (.inr fun d hd hid => ?_)
      exact (h.1 d hd hid).good _ ⟨record, hrecord, hsatisfies⟩
    next =>
      have htrue : (protocol start).Kept fun _ => True := Protocol.kept_const True
      have hverify := verify_triple server htrue (l := .token tokenHash) (e := e) signer.id proof
        hlevel
      refine Triple.bind (M := fun _ => Cleared tokenHash) ?_ fun record => ?_
      · refine Triple.tryCatch (M := fun _ _ => True) (hverify.mono (fun _ _ h => ⟨trivial, h⟩)
          (fun _ _ _ h => cleared_of_read hsigner h.1.2 (.inr h.2)) fun _ _ _ _ => trivial)
          fun t => ?_
        refine Triple.bind (M := fun _ _ => True) ?_ fun _ => .throw fun _ _ h => h
        have hrejected : Safe start (rejected server.deps e.id signer.id t) := by
          unfold rejected
          split
          · exact (audit_safe server).bind fun _ => emit_safe server _ _ _
          · exact .pure _
        exact hrejected _ (Protocol.kept_const True)
      · split
        · exact .pure fun _ _ h => h
        · exact (((audit_safe server).bind fun _ => emit_safe server _ _ _) _ hcleared).mono
            (fun _ _ h => h) (fun _ _ _ h => h) fun _ _ _ _ => trivial

/-- The gate has cleared a signer it found ready. -/
theorem gateCheck_triple (server : Server ρ) {tokenHash : String}
    (gate : TokenResolution (McpMetadata ρ)) (proof : Option IdentityProofInput) :
    (protocol start).Triple (gateCheck server.deps proof gate)
      ((contract start server none).Resolved (fun _ => True) tokenHash gate)
      (fun _ s => gate.ready = true → Cleared tokenHash s) (fun _ _ => True) := by
  cases gate with
  | ok e i signer =>
    refine Triple.know (q := e.signerOf tokenHash = some (i, signer))
      (fun s _ h => h.2.1.2.1) fun hsigner => ?_
    exact (verifyAtGate_triple server hsigner proof).mono (fun s _ h => (h.2.2 e rfl).2)
      (fun _ _ _ h _ => h) fun _ _ _ _ => trivial
  | not_your_turn => exact .pure fun _ _ _ => nofun
  | already_signed => exact .pure fun _ _ _ => nofun
  | closed => exact .pure fun _ _ _ => nofun
  | invalid => exact .pure fun _ _ _ => nofun

omit [Inhabited ρ] in
theorem signed_not_expired (e : Envelope (McpMetadata ρ)) (i : Nat) (image : String)
    (signedAt completedAt : Time) : (e.signed i image signedAt completedAt).status ≠ .expired := by
  rw [Envelope.signed_status]
  split <;> nofun

/-- A signature of a cleared signer, or one under no level. -/
theorem edit_signed {tokenHash image : String} {e : Envelope (McpMetadata ρ)} {i : Nat}
    {signer : EnvelopeSigner} {signedAt completedAt : Time} {t : Rows ρ} {ready : Bool}
    (hcleared : ready = true → Cleared tokenHash t) (hstored : rowOf t tokenHash = some e)
    (hsigner : e.signerOf tokenHash = some (i, signer))
    (hallowed : Allowed (some ready) (e.signed i image signedAt completedAt)) :
    Edit e (e.signed i image signedAt completedAt) := by
  refine edit_sign (Envelope.signerOf_eq_some hsigner).1 ?_ image signedAt completedAt
  cases ready with
  | true =>
    rcases hcleared rfl e hstored with hlevel | hgood
    · exact .inl hlevel
    · refine .inr (hgood signer.id ?_)
      rw [signerIdOf, hsigner, Option.map_some]
  | false =>
    rcases hallowed rfl with hexpired | hlevel
    · exact absurd hexpired (signed_not_expired e i image signedAt completedAt)
    · refine .inl (Eq.trans (minLevelOf_congr ?_).symm hlevel)
      rw [getEnvelopeIdentityPolicy, getEnvelopeIdentityPolicy, mcpBucket, mcpBucket,
        signed_metadata]

theorem recordSignature_triple (server : Server ρ) (ready : Bool) (token image : String)
    (signedAt : Option Time) :
    (protocol start).Triple
      (recordSignature (store (some ready)) server.env token image signedAt)
      (fun s => ready = true → Cleared (server.hashToken token) s) (fun _ _ => True)
      (fun _ _ => True) := by
  have hP : (protocol start).Kept fun s => ready = true → Cleared (server.hashToken token) s :=
    .imp fun _ => cleared_kept _
  refine ((contract start server (some ready)).recordSignature ?_ ?_ hP image signedAt).mono
    (fun _ _ h => h) (fun _ _ _ _ => trivial) fun _ _ _ _ => trivial
  · exact fun e _ _ _ _ _ _ => edit_expire e
  · intro e t i signer image signedAt completedAt _ hcleared hstored _ hsigner _ _ hallowed
    exact edit_signed hcleared hstored hsigner hallowed

theorem emitCompleted_safe (server : Server ρ) (e : Envelope (McpMetadata ρ)) :
    Safe start (emitCompleted server.deps e) := by
  unfold emitCompleted
  split
  · exact emit_safe server _ _ _
  · exact .pure _

theorem sign_triple (server : Server ρ) (token image : String)
    (proof : Option IdentityProofInput) :
    (protocol start).Triple (sign server.deps token image proof) (fun _ => True)
      (fun _ _ => True) (fun _ _ => True) := by
  unfold sign
  have htrue := Protocol.kept_const (p := protocol start) True
  refine ((contract start server none).resolveSigningToken (fun e _ _ _ _ _ _ => edit_expire e)
    htrue).bind fun gate => ?_
  refine (gateCheck_triple server gate proof).bind fun _ => ?_
  have hready : (protocol start).Kept fun s =>
      gate.ready = true → Cleared (server.hashToken token) s := .imp fun _ => cleared_kept _
  refine ((Safe.of_quiet (now_quiet start server) _ hready).mono (fun _ _ h => h)
    (fun _ _ _ h => h) fun _ _ _ _ => trivial).bind fun signedAt => ?_
  refine (recordSignature_triple server gate.ready token image _).bind fun e => ?_
  exact ((audit_safe server).bind fun _ => (emit_safe server _ _ _).bind fun _ =>
    (emitCompleted_safe server e).bind fun _ =>
    (Safe.of_quiet (findById_quiet server none _ _)).bind fun _ => .pure _) _ htrue

-- ---------------------------------------------------------------------------
-- Runs
-- ---------------------------------------------------------------------------

theorem perform_triple (server : Server ρ) (call : Call ρ) :
    (protocol start).Triple (perform server call) (fun _ => True) (fun _ _ => True)
      (fun _ _ => True) := by
  have htrue := Protocol.kept_const (p := protocol start) True
  cases call with
  | resolve token => exact (resolve_safe server token).discard _ htrue
  | sign token image proof =>
    exact (sign_triple server token image proof).bind fun _ => .pure fun _ _ h => h
  | issueIdentityChallenge envelopeId signerId =>
    exact (issueIdentityChallenge_safe server envelopeId signerId).discard _ htrue
  | acceptPreVerifiedIdentity evt =>
    exact (acceptPreVerifiedIdentity_safe server evt).discard _ htrue
  | decline token reason => exact (decline_safe server token reason).discard _ htrue
  | void envelopeId => exact (void_safe server envelopeId).discard _ htrue
  | expireOne envelopeId => exact expireOne_safe server envelopeId _ htrue
  | updateRest envelopeId mutate => exact updateRest_safe server envelopeId mutate _ htrue

theorem thread_holds (server : Server ρ) (calls : List (Call ρ)) :
    (protocol start).Holds (thread server calls) (fun _ => True) fun _ _ => True := by
  induction calls with
  | nil => exact fun _ _ h => h
  | cons call rest ih =>
    refine Holds.bind (M := fun _ _ => True) (Holds.post (perform_triple server call) ?_) fun _ => ih
    exact fun _ _ _ _ => trivial

/-- What the rows of a run have become. -/
theorem run_evolved {ι : Type} [DecidableEq ι] (hids : (start.map (·.id)).Nodup)
    {calls : ι → List (Call ρ)} {c : Rows ρ × (ι → Prog (Op ρ) Res Unit)}
    (hrun : Run (Guarded exec GateInTurn) (start, fun i => thread server (calls i)) c) :
    Inv start c.1 := by
  have hready : Ready (Inv start) (fun _ => protocol start) (fun _ _ _ => True)
      (start, fun i => thread server (calls i)) :=
    ⟨⟨hids, evolves_refl start⟩, fun i =>
      ⟨fun _ => True, stable_const True, trivial, thread_holds server (calls i)⟩⟩
  exact (hready.run (compatible start) hrun).1

/-- In every run in which a `sign` whose gate did not find the signer ready
records no signature under a level: who has signed under a level has a record
of it, of the pinned uuaid if there is one. -/
theorem signed_verified {ι : Type} [DecidableEq ι] (hids : (start.map (·.id)).Nodup)
    (hsecured : ∀ e ∈ start, Secured e) {calls : ι → List (Call ρ)}
    {c : Rows ρ × (ι → Prog (Op ρ) Res Unit)}
    (hrun : Run (Guarded exec GateInTurn) (start, fun i => thread server (calls i)) c) :
    ∀ e ∈ c.1, minLevelOf e ≠ .none → ∀ s ∈ e.signers, s.status = .signed →
      ∃ record, verifiedOf e s.id = some record ∧ (minLevelOf e).order ≤ record.level.order ∧
        ∀ uuaid, expectedUuaidOf e s.id = some uuaid → record.uuaid = uuaid := by
  intro e he hlevel s hs hsigned
  obtain ⟨d, hd, hevolves⟩ := exists_of_mem_forall₂ (run_evolved hids hrun).evolved he
  obtain ⟨record, hrecord, hsatisfies⟩ :=
    hevolves.secured (hsecured d hd) hlevel s hs hsigned
  rw [satisfies, Bool.and_eq_true, decide_eq_true_eq] at hsatisfies
  refine ⟨record, hrecord, hsatisfies.1, fun uuaid hpin => ?_⟩
  have hsame : uuaid = record.uuaid := by simpa [hpin] using hsatisfies.2
  exact hsame.symm

end

-- ---------------------------------------------------------------------------
-- A signer whose turn comes after the gate
-- ---------------------------------------------------------------------------

namespace Sample

def server : Server Unit where
  config :=
    { tenant := "acme", maxSigners := 5, identityMinLevel := .none, uuaidRegistryUrl := none,
      uuaidRegistrySigningKey := none, identityChallengeTtlSec := 600 }
  hashToken := id
  assertImageDataUrl := some
  checks :=
    { isWellFormedUuaidAssertion := fun _ => true
      verifyChallengeProof := fun _ _ => .error "no proof"
      publicKeyFromProof := fun _ => []
      publicKeyFromCredentialKey := fun _ => none
      isFoundationAgent := fun _ => false
      uuaidFromEd25519Key := fun _ => ""
      verifyRegistryBadge := fun _ _ _ => .error "no badge"
      hexToBytes := fun _ => none }
  noted _ _ _ := ((), false)
  expiredEmitted _ := false
  sha256 := id

/-- Ann signs first and has been verified, Bob has not. -/
def envelope : Envelope (McpMetadata Unit) where
  id := "envelope"
  tenantId := "acme"
  title := "Lease"
  html := "<p>Lease</p>"
  status := .sent
  signers :=
    [{ id := "ann", name := "Ann", email := "ann@acme.test", roleLabel := none, order := 1,
       status := .pending, tokenHash := "a" },
     { id := "bob", name := "Bob", email := "bob@acme.test", roleLabel := none, order := 2,
       status := .pending, tokenHash := "b" }]
  createdAt := 0
  expiresAt := none
  metadata := some
    { htmlSha256 := some "<p>Lease</p>"
      identity :=
        { policy := some { minLevel := .L0, signers := fun _ => none }
          signers := fun signerId =>
            if signerId = "ann" then
              some { verified := some { level := .L0, uuaid := "uuaid:ann", verifiedAt := 0 } }
            else none }
      rest := () }
  mcpRev := some 0

def signs (token : String) : Call Unit := .sign token "image" none

def calls : Bool → List (Call Unit)
  | false => [signs "a"]
  | true => [signs "b"]

def annSigned : Envelope (McpMetadata Unit) := setRev (envelope.signed 0 "image" 1 2) 1

def bobSigned : Envelope (McpMetadata Unit) := setRev (annSigned.signed 1 "image" 3 4) 2

abbrev Threads := Bool → Prog (Op Unit) Res Unit

/-- Ann's call, up to her signature. -/
theorem ann_signs {threads : Threads} (hi : threads false = thread server [signs "a"]) :
    ∃ threads', Run (Guarded exec GateInTurn) ([envelope], threads) ([annSigned], threads') ∧
      threads' true = threads true := by
  apply Exists.intro
  apply And.intro
  · refine .call (r := .ok (some envelope)) hi ⟨⟨rfl, .inl rfl⟩, trivial⟩ ?_
    refine .call (i := false) (r := .ok ()) rfl ⟨rfl, trivial⟩ ?_
    refine .call (i := false) (r := (1 : Int)) rfl ⟨rfl, trivial⟩ ?_
    refine .call (i := false) (r := .ok (some envelope)) rfl ⟨⟨rfl, .inl rfl⟩, trivial⟩ ?_
    refine .call (i := false) (r := (2 : Int)) rfl ⟨rfl, trivial⟩ ?_
    refine .call (i := false) (r := .ok annSigned) rfl
      ⟨.inl ⟨⟨0, envelope, rfl, rfl, rfl, rfl, rfl⟩, rfl⟩, trivial⟩ ?_
    exact .refl
  · rfl

/-- What is left of Bob's call after his gate. -/
def bobGated : Prog (Op Unit) Res Unit :=
  match thread server [signs "b"] with
  | .call (.findByTokenHash _) k => k (.ok (some envelope))
  | p => p

/-- Bob's gate. -/
theorem bob_asks {threads : Threads} (hi : threads true = thread server [signs "b"]) :
    ∃ threads', Run exec ([envelope], threads) ([envelope], threads') ∧
      threads' false = threads false ∧ threads' true = bobGated := by
  apply Exists.intro
  apply And.intro
  · refine .call (r := .ok (some envelope)) hi ⟨rfl, .inl rfl⟩ ?_
    exact .refl
  · exact ⟨rfl, rfl⟩

/-- Bob signs after Ann, with a gate that was before. -/
theorem bob_signs {threads : Threads} (hi : threads true = bobGated) :
    ∃ threads', Run exec ([annSigned], threads) ([bobSigned], threads') := by
  apply Exists.intro
  refine .call (r := (3 : Int)) hi rfl ?_
  refine .call (i := true) (r := .ok (some annSigned)) rfl ⟨rfl, .inl rfl⟩ ?_
  refine .call (i := true) (r := (4 : Int)) rfl rfl ?_
  refine .call (i := true) (r := .ok bobSigned) rfl
    (.inl ⟨⟨0, annSigned, rfl, rfl, rfl, rfl, rfl⟩, rfl⟩) ?_
  exact .refl

theorem start_secured : ∀ e ∈ [envelope], Secured e := by
  rintro _ he - s hs hsigned
  rw [List.mem_singleton.mp he] at hs
  rcases List.mem_cons.mp hs with rfl | hs
  · cases hsigned
  · rw [List.mem_singleton.mp hs] at hsigned
    cases hsigned

end Sample

/-- Ann signs with the record she has. -/
theorem signed_verified_sample : minLevelOf Sample.annSigned ≠ .none ∧
    ∀ e ∈ [Sample.annSigned], minLevelOf e ≠ .none → ∀ s ∈ e.signers, s.status = .signed →
      ∃ record, verifiedOf e s.id = some record ∧ (minLevelOf e).order ≤ record.level.order ∧
        ∀ uuaid, expectedUuaidOf e s.id = some uuaid → record.uuaid = uuaid := by
  obtain ⟨threads, hrun, -⟩ :=
    @Sample.ann_signs (fun i => thread Sample.server (Sample.calls i)) rfl
  refine ⟨by decide, signed_verified ?_ Sample.start_secured hrun⟩
  exact List.nodup_singleton "envelope"

/-- Bob's gate is skipped as it is not his turn, Ann signs, and Bob's signature
is recorded: he signs under a level without any record. -/
theorem late_turn_unverified : ∃ c, Run exec
    ([Sample.envelope], fun i => thread Sample.server (Sample.calls i)) c ∧
    ∃ e ∈ c.1, minLevelOf e ≠ .none ∧ ∃ s ∈ e.signers, s.status = .signed ∧
      verifiedOf e s.id = none := by
  obtain ⟨threads₁, hasks, hfalse, htrue⟩ := @Sample.bob_asks
    (fun i => thread Sample.server (Sample.calls i)) rfl
  obtain ⟨threads₂, hann, htrue'⟩ := Sample.ann_signs hfalse
  obtain ⟨threads₃, hlate⟩ := Sample.bob_signs (htrue'.trans htrue)
  refine ⟨_, hasks.trans (hann.unguarded.trans hlate), Sample.bobSigned,
    List.mem_singleton_self _, nofun, ?_⟩
  exact ⟨_, List.mem_cons_of_mem _ List.mem_cons_self, rfl, rfl⟩

end EsigSuite.IdentityGate
