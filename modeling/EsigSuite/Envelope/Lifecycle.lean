import EsigSuite.Envelope.Changes
import EsigSuite.Lib.Table

/-!
# The life of an envelope

`Consistent` ties the status of an envelope to those of its signers. Every
edit keeps it, and keeps what is recorded of a signer who has signed.
-/

namespace EsigSuite

open Lib

variable {μ : Type}

-- ---------------------------------------------------------------------------
-- The invariant
-- ---------------------------------------------------------------------------

structure Consistent (e : Envelope μ) : Prop where
  nonempty : e.signers ≠ []
  completed_iff : e.status = .completed ↔ ∀ s ∈ e.signers, s.status = .signed
  in_order : ∀ s ∈ e.signers, ∀ s' ∈ e.signers,
    s.status = .signed → s'.order < s.order → s'.status = .signed
  declined_voided : ∀ s ∈ e.signers, s.status = .declined → e.status = .voided

/-- What is recorded of a signer who has signed stays. -/
def SignedKept (e e' : Envelope μ) : Prop :=
  ∀ (i : Nat) (s : EnvelopeSigner), e.signers[i]? = some s → s.status = .signed →
    e'.signers[i]? = some s

theorem SignedKept.refl (e : Envelope μ) : SignedKept e e := fun _ _ h _ => h

theorem SignedKept.trans {e e' e'' : Envelope μ} (h : SignedKept e e') (h' : SignedKept e' e'') :
    SignedKept e e'' := fun i s hs hsigned => h' i s (h i s hs hsigned) hsigned

namespace Envelope

/-- Nobody whose turn it is waits for a signer of lower order. -/
theorem waitingOn_eq_nil {e : Envelope μ} (h : e.waitingOn signer = []) :
    ∀ s ∈ e.signers, s.order < signer.order → s.status = .signed := by
  intro s hs hlt
  by_contra hopen
  have : s ∈ e.waitingOn signer := by
    rw [waitingOn, List.mem_filter]
    exact ⟨hs, decide_eq_true ⟨hlt, hopen⟩⟩
  rw [h] at this
  cases this

end Envelope

/-- Editing a signer who has not signed keeps those who have. -/
theorem SignedKept.modify {e e' : Envelope μ} (hsigners : e'.signers = e.signers.modify i f)
    (hsigner : e.signers[i]? = some signer) (hopen : signer.status ≠ .signed) :
    SignedKept e e' := by
  intro j s hs hsigned
  have hij : i ≠ j := by
    rintro rfl
    rw [hsigner] at hs
    cases hs
    exact hopen hsigned
  rw [hsigners, List.getElem?_modify, hs]
  simp [hij]

namespace Consistent

variable {e e' : Envelope μ}

theorem not_all_signed (h : Consistent e) (hopen : e.status ≠ .completed) :
    ¬ ∀ s ∈ e.signers, s.status = .signed := fun hall => hopen (h.completed_iff.mpr hall)

theorem not_declined (h : Consistent e) (hlive : e.live = true) :
    ∀ s ∈ e.signers, s.status ≠ .declined := by
  intro s hs hdeclined
  have hvoided := h.declined_voided s hs hdeclined
  simp [Envelope.live, hvoided] at hlive

theorem open_of_live (hlive : e.live = true) : e.status ≠ .completed := by
  intro h
  simp [Envelope.live, h] at hlive

/-- Only the status changes, from an open one to another that is not
completed. -/
theorem close (h : Consistent e) (hopen : e.status ≠ .completed) (hsigners : e'.signers = e.signers)
    (hstatus : e'.status ≠ .completed)
    (hdeclined : (∃ s ∈ e.signers, s.status = .declined) → e'.status = .voided) :
    Consistent e' where
  nonempty := hsigners ▸ h.nonempty
  completed_iff := by
    rw [hsigners]
    exact ⟨fun hc => absurd hc hstatus, fun hall => absurd hall (h.not_all_signed hopen)⟩
  in_order := hsigners ▸ h.in_order
  declined_voided s hs hd := hdeclined ⟨s, hsigners ▸ hs, hd⟩

theorem sign (h : Consistent e) (hlive : e.live = true) (hsigner : e.signers[i]? = some signer)
    (hturn : e.waitingOn signer = []) (image : String) (signedAt completedAt : Time) :
    Consistent (e.signed i image signedAt completedAt) where
  nonempty := by
    rw [Envelope.signed_signers]
    exact List.ne_nil_of_mem (modified_mem hsigner)
  completed_iff := by
    rw [Envelope.signed_status, Envelope.signed_signers]
    split
    next hall => simpa using hall
    next hall => simpa using hall
  in_order := by
    rw [Envelope.signed_signers]
    intro s hs s' hs' hsigned hlt
    rcases mem_modify hs' with hs' | ⟨a', -, rfl⟩
    · rcases mem_modify hs with hs | ⟨a, ha, rfl⟩
      · exact h.in_order s hs s' hs' hsigned hlt
      · rw [hsigner] at ha
        cases ha
        exact Envelope.waitingOn_eq_nil hturn s' hs' hlt
    · rfl
  declined_voided := by
    rw [Envelope.signed_signers]
    intro s hs hdeclined
    rcases mem_modify hs with hs | ⟨a, -, rfl⟩
    · exact absurd hdeclined (h.not_declined hlive s hs)
    · cases hdeclined

theorem decline (h : Consistent e) (hsigner : e.signers[i]? = some signer)
    (hopen : signer.status ≠ .signed) (reason : Option String) (declinedAt voidedAt : Time) :
    Consistent (e.declined i reason declinedAt voidedAt) where
  nonempty := List.ne_nil_of_mem (modified_mem hsigner)
  completed_iff := by
    constructor
    · nofun
    · intro hall
      cases hall _ (modified_mem hsigner)
  in_order := by
    rw [Envelope.declined_signers]
    intro s hs s' hs' hsigned hlt
    rcases mem_modify hs with hs | ⟨a, -, rfl⟩
    · rcases mem_modify hs' with hs' | ⟨a', ha', rfl⟩
      · exact h.in_order s hs s' hs' hsigned hlt
      · rw [hsigner] at ha'
        cases ha'
        exact absurd (h.in_order s hs signer (List.mem_of_getElem? hsigner) hsigned hlt) hopen
    · cases hsigned
  declined_voided _ _ _ := rfl

end Consistent

/-- Every edit keeps the invariant. -/
theorem Change.consistent (hchange : Change e e') (h : Consistent e) : Consistent e' := by
  cases hchange with
  | expire hlive =>
    refine h.close (Consistent.open_of_live hlive) rfl nofun ?_
    rintro ⟨s, hs, hdeclined⟩
    exact absurd hdeclined (h.not_declined hlive s hs)
  | sign hlive hsigner hopen hturn image signedAt completedAt =>
    exact h.sign hlive hsigner hturn image signedAt completedAt
  | decline hlive hsigner hopen reason declinedAt voidedAt =>
    exact h.decline hsigner hopen reason declinedAt voidedAt
  | void hopen voidedAt => exact h.close hopen rfl nofun fun _ => rfl

theorem Change.signedKept (hchange : Change e e') : SignedKept e e' := by
  cases hchange with
  | expire => exact .refl _
  | sign hlive hsigner hopen =>
    exact .modify (Envelope.signed_signers _ _ _ _ _) hsigner hopen
  | decline hlive hsigner hopen =>
    exact .modify (Envelope.declined_signers _ _ _ _ _) hsigner hopen
  | void => exact .refl _

-- ---------------------------------------------------------------------------
-- One call after the other
-- ---------------------------------------------------------------------------

namespace Lifecycle

/-- Calls to a store that holds one envelope, to the clock and to `crypto`. -/
inductive Op (μ : Type)
  | now
  | random
  | insert (e : Envelope μ)
  | update (e : Envelope μ)
  | findById (tenantId id : String)
  | findByTokenHash (tokenHash : String)

def Res : Op μ → Type
  | .now => Time
  | .random => String
  | .insert _ | .update _ => Except Thrown (Envelope μ)
  | .findById .. | .findByTokenHash _ => Except Thrown (Option (Envelope μ))

/-- The clock shows any time. A store call may fail, without effect. -/
def exec : (op : Op μ) → Option (Envelope μ) → Res op → Option (Envelope μ) → Prop
  | .now, s, _, s' | .random, s, _, s' => s' = s
  | .insert e, s, r, s' => (s = none ∧ s' = some e ∧ r = .ok e) ∨ (s' = s ∧ ∃ t, r = .error t)
  | .update e, s, r, s' =>
    ((s.map (·.id) = some e.id) ∧ s' = some e ∧ r = .ok e) ∨ (s' = s ∧ ∃ t, r = .error t)
  | .findById tenantId id, s, r, s' =>
    s' = s ∧ (r = .ok (s.filter fun e => e.tenantId == tenantId && e.id == id) ∨ ∃ t, r = .error t)
  | .findByTokenHash tokenHash, s, r, s' =>
    s' = s ∧ (r = .ok (s.filter fun e => e.signers.any (·.tokenHash == tokenHash)) ∨
      ∃ t, r = .error t)

abbrev M (μ : Type) := ExceptT Thrown (Prog (Op μ) Res)

def store : EnvelopeStore μ (M μ) where
  insert e := ExceptT.mk (Prog.perform (Op.insert e))
  update e := ExceptT.mk (Prog.perform (Op.update e))
  findById tenantId id := ExceptT.mk (Prog.perform (Op.findById tenantId id))
  findByTokenHash tokenHash := ExceptT.mk (Prog.perform (Op.findByTokenHash tokenHash))

/-- `hashToken` and `assertImageDataUrl` are arbitrary functions. -/
def env (hashToken : String → String) (assertImageDataUrl : String → Option String) :
    EnvelopeEnv (M μ) where
  now := ExceptT.lift (Prog.perform Op.now)
  randomToken := ExceptT.lift (Prog.perform Op.random)
  randomUUID := ExceptT.lift (Prog.perform Op.random)
  hashToken
  assertImageDataUrl

def protocol : Protocol (Op μ) Res (Option (Envelope μ)) where
  exec := exec
  inv _ := True
  rely := Eq
  guar s s' := s = s' ∨ (∃ e e', s = some e ∧ s' = some e' ∧ Change e e')

theorem stable (P : Option (Envelope μ) → Prop) : (protocol (μ := μ)).Stable P := by
  rintro s _ - - rfl h
  exact h

/-- The store replaces the envelope it returned. -/
def contract (hashToken : String → String) (assertImageDataUrl : String → Option String) :
    StoreContract (protocol (μ := μ)) store (env hashToken assertImageDataUrl) where
  Stored _ e s := s = some e
  Read _ e s := s = some e
  Changed := Change
  Wrote _ _ _ _ := True
  read_stable _ e := stable _
  now P hP := by
    refine .lift (Protocol.Holds.perform ?_ fun _ => hP)
    rintro s r _ - h rfl
    exact ⟨trivial, .inl rfl, h⟩
  findByTokenHash tokenHash P hP := by
    refine Protocol.Holds.perform ?_ fun _ => stable _
    rintro s r _ - h ⟨rfl, rfl | ⟨t, rfl⟩⟩
    · refine ⟨trivial, .inl rfl, h, fun e he => ?_⟩
      obtain ⟨rfl, -⟩ := Option.filter_eq_some_iff.mp he
      exact ⟨⟨_, trivial, h, rfl⟩, rfl⟩
    · exact ⟨trivial, .inl rfl, h⟩
  findById tenantId id P hP := by
    refine Protocol.Holds.perform ?_ fun _ => stable _
    rintro s r _ - h ⟨rfl, rfl | ⟨t, rfl⟩⟩
    · refine ⟨trivial, .inl rfl, h, fun e he => ?_⟩
      obtain ⟨rfl, -⟩ := Option.filter_eq_some_iff.mp he
      exact ⟨⟨_, trivial, h, rfl⟩, rfl⟩
    · exact ⟨trivial, .inl rfl, h⟩
  update _ read e P hP hchange := by
    refine Protocol.Holds.perform ?_ fun _ => stable _
    rintro s r _ - ⟨rfl, h⟩ (⟨-, rfl, rfl⟩ | ⟨rfl, t, rfl⟩)
    · have hguar : protocol.guar (some read) (some e) := .inr ⟨read, e, rfl, rfl, hchange⟩
      exact ⟨trivial, hguar, trivial, hP.2 _ _ trivial trivial hguar h⟩
    · exact ⟨trivial, .inl rfl, h⟩

-- ---------------------------------------------------------------------------
-- Creation
-- ---------------------------------------------------------------------------

/-- An envelope nobody has acted on. -/
structure Fresh (e : Envelope μ) : Prop where
  nonempty : e.signers ≠ []
  sent : e.status = .sent
  pending : ∀ s ∈ e.signers, s.status = .pending

theorem Fresh.consistent {e : Envelope μ} (h : Fresh e) : Consistent e where
  nonempty := h.nonempty
  completed_iff := by
    obtain ⟨s, hs⟩ := List.exists_mem_of_ne_nil _ h.nonempty
    rw [h.sent]
    constructor
    · intro hcompleted
      cases hcompleted
    · intro hall
      have hsigned := hall s hs
      rw [h.pending s hs] at hsigned
      cases hsigned
  in_order s hs s' _ hsigned _ := by
    rw [h.pending s hs] at hsigned
    cases hsigned
  declined_voided s hs hdeclined := by
    rw [h.pending s hs] at hdeclined
    cases hdeclined

section
variable {Op : Type} {Res : Op → Type} {σ : Type} {p : Protocol Op Res σ}
  {store : EnvelopeStore μ (ExceptT Thrown (Prog Op Res))}
  {env : EnvelopeEnv (ExceptT Thrown (Prog Op Res))} {P : σ → Prop} {Q : Envelope μ → σ → Prop}

theorem throwIf_quiet {bad : Prop} [Decidable bad] {error : Thrown} :
    p.Quiet (throwIf bad error : ExceptT Thrown (Prog Op Res) Unit) fun _ => ¬ bad :=
  fun _ _ => throwIf_triple fun _ _ h => h

theorem createSigner_quiet (htoken : p.Quiet env.randomToken fun _ => True)
    (huuid : p.Quiet env.randomUUID fun _ => True) (s : SignerInput) :
    p.Quiet (createSigner env s) fun r => r.1.status = .pending := by
  unfold createSigner
  refine throwIf_quiet.bind fun _ _ => throwIf_quiet.bind fun _ _ =>
    throwIf_quiet.bind fun _ _ => ?_
  exact htoken.bind fun _ _ => huuid.bind fun _ _ => .pure rfl

theorem checkExpiresAt_quiet (hnow : p.Quiet env.now fun _ => True) (expiresAt : Option Time) :
    p.Quiet (checkExpiresAt env expiresAt) fun _ => True := by
  cases expiresAt with
  | none => exact .pure trivial
  | some expiresAt => exact hnow.bind fun _ _ => throwIf_quiet.mono fun _ _ => trivial

/-- Nothing is touched until the fresh envelope is inserted. -/
theorem createEnvelope_inserts (hP : p.Stable P) (hnow : p.Quiet env.now fun _ => True)
    (htoken : p.Quiet env.randomToken fun _ => True)
    (huuid : p.Quiet env.randomUUID fun _ => True) (input : CreateEnvelopeInput μ)
    (hinsert : ∀ e, Fresh e → e.signers.length = input.signers.length →
      p.Triple (store.insert e) P Q fun _ _ => True) :
    p.Triple (createEnvelope store env input) P (fun r s => Q r.1 s) (fun _ _ => True) := by
  unfold createEnvelope
  have hquiet : ∀ {α : Type} {x : ExceptT Thrown (Prog Op Res) α} {R : α → Prop}, p.Quiet x R →
      p.Triple x P (fun a s => R a ∧ P s) (fun _ _ => True) := fun hx =>
    (hx P hP).mono (fun _ _ h => h) (fun _ _ _ h => h) fun _ _ _ _ => trivial
  refine (hquiet throwIf_quiet).bind fun _ => .given fun _ => ?_
  refine (hquiet throwIf_quiet).bind fun _ => .given fun _ => ?_
  refine (hquiet throwIf_quiet).bind fun _ => .given fun hsome => ?_
  refine (hquiet (checkExpiresAt_quiet hnow _)).bind fun _ => .given fun _ => ?_
  refine (hquiet (Protocol.Quiet.mapM (R := fun _ r => r.1.status = .pending) fun s _ =>
    createSigner_quiet htoken huuid s)).bind fun created => .given fun hcreated => ?_
  refine (hquiet huuid).bind fun id => .given fun _ => ?_
  refine (hquiet hnow).bind fun createdAt => .given fun _ => ?_
  refine (hinsert _ ⟨?_, rfl, ?_⟩ ?_).bind fun e => .pure fun s _ h => h
  · simp only [ne_eq, List.map_eq_nil_iff]
    rintro rfl
    exact hsome (List.forall₂_nil_right_iff.mp hcreated)
  · intro s hs
    obtain ⟨r, hr, rfl⟩ := List.mem_map.mp hs
    obtain ⟨_, -, hpending⟩ := exists_of_mem_forall₂ hcreated hr
    exact hpending
  · simpa using hcreated.length_eq.symm

end

/-- Until the envelope is inserted the calls touch nothing. -/
def creating : Protocol (Op μ) Res (Option (Envelope μ)) where
  exec := exec
  inv _ := True
  rely := Eq
  guar _ _ := True

section
variable {hashToken : String → String} {assertImageDataUrl : String → Option String}

theorem creating_stable (P : Option (Envelope μ) → Prop) : (creating (μ := μ)).Stable P := by
  rintro s _ - - rfl h
  exact h

theorem createEnvelope_triple (input : CreateEnvelopeInput μ) : (creating (μ := μ)).Triple
    (createEnvelope store (env hashToken assertImageDataUrl) input) (· = none)
    (fun r s => s = some r.1 ∧ Fresh r.1) (fun _ _ => True) := by
  have hidle : ∀ op : Op μ, (∀ s r s', exec op s r s' → s' = s) →
      (creating (μ := μ)).Quiet (ExceptT.lift (Prog.perform op) : M μ (Res op)) fun _ => True :=
    fun op hop => .lift fun P hP => .idle (fun s r s' h => ⟨hop s r s' h, trivial⟩) hP
  have hnow := hidle .now fun _ _ _ h => h
  have hrandom := hidle .random fun _ _ _ h => h
  refine createEnvelope_inserts (Q := fun e s => s = some e ∧ Fresh e) (creating_stable _) hnow
    hrandom hrandom input fun e hfresh _ => Protocol.Holds.perform ?_ fun _ => creating_stable _
  rintro s r _ - rfl (⟨-, rfl, rfl⟩ | ⟨rfl, t, rfl⟩)
  · exact ⟨trivial, trivial, rfl, hfresh⟩
  · exact ⟨trivial, trivial, trivial⟩

end

-- ---------------------------------------------------------------------------
-- Runs
-- ---------------------------------------------------------------------------

inductive Call
  | resolve (token : String)
  | record (token signatureImageDataUrl : String) (signedAt : Option Time)
  | decline (token : String) (reason : Option String)
  | void (tenantId envelopeId : String)

section
variable (hashToken : String → String) (assertImageDataUrl : String → Option String)

def Call.body : Call → M μ Unit
  | .resolve token => discard (resolveSigningToken store (env hashToken assertImageDataUrl) token)
  | .record token image signedAt =>
    discard (recordSignature store (env hashToken assertImageDataUrl) token image signedAt)
  | .decline token reason =>
    discard (declineEnvelope store (env hashToken assertImageDataUrl) token reason)
  | .void tenantId envelopeId =>
    discard (voidEnvelope store (env hashToken assertImageDataUrl) tenantId envelopeId)

/-- A call runs to its end, in a result or a throw. -/
def Next (s s' : Option (Envelope μ)) : Prop :=
  ∃ (call : Call) (r : Except Thrown Unit),
    (call.body hashToken assertImageDataUrl).run.Eval exec s r s'

/-- Any number of calls. -/
def Reaches : Option (Envelope μ) → Option (Envelope μ) → Prop :=
  Relation.ReflTransGen (Next hashToken assertImageDataUrl)

end

section
variable {hashToken : String → String} {assertImageDataUrl : String → Option String}

theorem discard_triple {x : M μ α} (h : (protocol (μ := μ)).Triple x (fun _ => True)
    (fun _ _ => True) (fun _ _ => True)) :
    (protocol (μ := μ)).Triple (discard x) (fun _ => True) (fun _ _ => True) (fun _ _ => True) :=
  Protocol.Triple.bind (f := fun _ => pure ()) h fun _ => .pure fun _ _ _ => trivial

theorem body_triple (call : Call) : (protocol (μ := μ)).Triple
    (call.body hashToken assertImageDataUrl) (fun _ => True) (fun _ _ => True)
    (fun _ _ => True) := by
  cases call with
  | resolve token =>
    refine discard_triple (((contract hashToken assertImageDataUrl).resolveSigningToken
      (fun _ _ _ _ _ => .expire) (Protocol.kept_const True)).mono (fun _ _ h => h)
      (fun _ _ _ _ => trivial) fun _ _ _ h => h)
  | record token image signedAt =>
    refine discard_triple (((contract hashToken assertImageDataUrl).recordSignature
      (fun _ _ _ _ _ => .expire) ?_ (Protocol.kept_const True) image signedAt).mono
        (fun _ _ h => h) (fun _ _ _ _ => trivial) fun _ _ _ h => h)
    intro e t i signer image signedAt completedAt _ _ _ hlive hsigner hopen hturn
    exact .sign hlive (Envelope.signerOf_eq_some hsigner).1 hopen hturn image signedAt completedAt
  | decline token reason =>
    refine discard_triple (((contract hashToken assertImageDataUrl).declineEnvelope
      (fun _ _ _ _ _ => .expire) ?_ (Protocol.kept_const True) reason).mono
        (fun _ _ h => h) (fun _ _ _ _ => trivial) fun _ _ _ h => h)
    intro e t i signer reason declinedAt voidedAt _ _ _ hlive hsigner hopen
    exact .decline hlive (Envelope.signerOf_eq_some hsigner).1 hopen reason declinedAt voidedAt
  | void tenantId envelopeId =>
    refine discard_triple ((contract hashToken assertImageDataUrl).voidEnvelope ?_
      (Protocol.kept_const True))
    intro e t voidedAt _ _ _ hopen
    exact .void hopen voidedAt

/-- What a series of edits keeps. -/
theorem guar_run {s s' : Option (Envelope μ)} (h : Relation.ReflTransGen protocol.guar s s')
    {e : Envelope μ} (hs : s = some e) (hconsistent : Consistent e) :
    ∃ e', s' = some e' ∧ Consistent e' ∧ SignedKept e e' := by
  induction h with
  | refl => exact ⟨e, hs, hconsistent, .refl e⟩
  | tail _ hguar ih =>
    obtain ⟨e₁, rfl, hconsistent₁, hkept₁⟩ := ih
    rcases hguar with rfl | ⟨_, e₂, heq, rfl, hchange⟩
    · exact ⟨e₁, rfl, hconsistent₁, hkept₁⟩
    · cases heq
      exact ⟨e₂, rfl, hchange.consistent hconsistent₁, hkept₁.trans hchange.signedKept⟩

theorem next_consistent {s : Option (Envelope μ)} {e : Envelope μ} (hconsistent : Consistent e)
    (h : Next hashToken assertImageDataUrl (some e) s) :
    ∃ e', s = some e' ∧ Consistent e' ∧ SignedKept e e' := by
  obtain ⟨call, r, heval⟩ := h
  obtain ⟨-, hguar, -⟩ := Protocol.Holds.eval (body_triple call) trivial trivial heval
  exact guar_run hguar rfl hconsistent

theorem reaches_consistent {s : Option (Envelope μ)} {e : Envelope μ} (hconsistent : Consistent e)
    (h : Reaches hashToken assertImageDataUrl (some e) s) :
    ∃ e', s = some e' ∧ Consistent e' ∧ SignedKept e e' := by
  induction h with
  | refl => exact ⟨e, rfl, hconsistent, .refl e⟩
  | tail _ hnext ih =>
    obtain ⟨e₁, rfl, hconsistent₁, hkept₁⟩ := ih
    obtain ⟨e₂, rfl, hconsistent₂, hkept₂⟩ := next_consistent hconsistent₁ hnext
    exact ⟨e₂, rfl, hconsistent₂, hkept₁.trans hkept₂⟩

/-- Whatever is called on a created envelope, and whenever: it is complete
exactly when all have signed, nobody has signed before the signers of lower
order, a signature stays as recorded, and a refusal voids the envelope. -/
theorem created_consistent {input : CreateEnvelopeInput μ} {e : Envelope μ}
    {tokens : List SigningToken} {s₀ s₁ s₂ : Option (Envelope μ)}
    (hcreate : (createEnvelope store (env hashToken assertImageDataUrl) input).run.Eval exec none
      (.ok (e, tokens)) s₀)
    (h₁ : Reaches hashToken assertImageDataUrl s₀ s₁)
    (h₂ : Reaches hashToken assertImageDataUrl s₁ s₂) :
    ∃ e₁ e₂, s₁ = some e₁ ∧ s₂ = some e₂ ∧
      (e₁.status = .completed ↔ ∀ s ∈ e₁.signers, s.status = .signed) ∧
      (∀ s ∈ e₁.signers, ∀ s' ∈ e₁.signers,
        s.status = .signed → s'.order < s.order → s'.status = .signed) ∧
      (∀ s ∈ e₁.signers, s.status = .declined → e₁.status = .voided) ∧ SignedKept e₁ e₂ := by
  obtain ⟨-, -, rfl, hfresh⟩ :=
    Protocol.Holds.eval (createEnvelope_triple input) trivial rfl hcreate
  obtain ⟨e₁, rfl, h, -⟩ := reaches_consistent hfresh.consistent h₁
  obtain ⟨e₂, rfl, -, hkept⟩ := reaches_consistent h h₂
  exact ⟨e₁, e₂, rfl, rfl, h.completed_iff, h.in_order, h.declined_voided, hkept⟩

end

-- ---------------------------------------------------------------------------
-- A run
-- ---------------------------------------------------------------------------

namespace Sample

def input : CreateEnvelopeInput Unit where
  tenantId := "acme"
  title := "Lease"
  html := "<p>Lease</p>"
  signers := [{ name := "Ann", email := "ann@acme.test" }]

def sent : Envelope Unit where
  id := "envelope"
  tenantId := "acme"
  title := "Lease"
  html := "<p>Lease</p>"
  status := .sent
  signers :=
    [{ id := "signer", name := "Ann", email := "ann@acme.test", roleLabel := none, order := 1,
       status := .pending, tokenHash := "token" }]
  createdAt := 0
  expiresAt := none
  metadata := none

theorem created : (createEnvelope store (env id some) input).run.Eval exec none
    (.ok (sent, [⟨"signer", "ann@acme.test", "token"⟩])) (some sent) :=
  ⟨"token", none, rfl, "signer", none, rfl, "envelope", none, rfl, (0 : Int), none, rfl,
    .ok sent, some sent, .inl ⟨rfl, rfl, rfl⟩, rfl, rfl⟩

theorem recorded : Next id some (some sent) (some (sent.signed 0 "image" 1 2)) :=
  ⟨.record "token" "image" none, .ok (), .ok (some sent), _, ⟨rfl, .inl rfl⟩,
    (1 : Int), _, rfl, (2 : Int), _, rfl, .ok (sent.signed 0 "image" 1 2), _,
    .inl ⟨rfl, rfl, rfl⟩, rfl, rfl⟩

theorem declined : Next id some (some (sent.signed 0 "image" 1 2))
    (some (sent.signed 0 "image" 1 2)) :=
  ⟨.decline "token" none, .error (.envelope .not_signable "cannot decline after signing"),
    .ok (some (sent.signed 0 "image" 1 2)), _, ⟨rfl, .inl rfl⟩, rfl, rfl⟩

end Sample

/-- Ann signs, then tries to decline. -/
theorem created_consistent_sample : ∃ e₁ e₂, some (Sample.sent.signed 0 "image" 1 2) = some e₁ ∧
    some (Sample.sent.signed 0 "image" 1 2) = some e₂ ∧
    (e₁.status = .completed ↔ ∀ s ∈ e₁.signers, s.status = .signed) ∧
    (∀ s ∈ e₁.signers, ∀ s' ∈ e₁.signers,
      s.status = .signed → s'.order < s.order → s'.status = .signed) ∧
    (∀ s ∈ e₁.signers, s.status = .declined → e₁.status = .voided) ∧ SignedKept e₁ e₂ :=
  created_consistent Sample.created (.single Sample.recorded) (.single Sample.declined)

end Lifecycle

end EsigSuite
