import EsigSuite.Envelope.Core
import EsigSuite.Lib.Async

/-!
# What the envelope functions do to a stored envelope

`Change` lists the four edits. `StoreContract` says what the functions need of
a store: what was read is still current when it is written back. Over every
such store each function makes at most the edits of its name.
-/

namespace EsigSuite

open Lib

variable {μ : Type}

/-- One edit of an envelope, as written to the store. -/
inductive Change : Envelope μ → Envelope μ → Prop
  | expire {e : Envelope μ} (hlive : e.live = true) : Change e { e with status := .expired }
  | sign {e : Envelope μ} (hlive : e.live = true) (hsigner : e.signers[index]? = some signer)
      (hopen : signer.status ≠ .signed) (hturn : e.waitingOn signer = [])
      (image : String) (signedAt completedAt : Time) :
      Change e (e.signed index image signedAt completedAt)
  | decline {e : Envelope μ} (hlive : e.live = true) (hsigner : e.signers[index]? = some signer)
      (hopen : signer.status ≠ .signed) (reason : Option String) (declinedAt voidedAt : Time) :
      Change e (e.declined index reason declinedAt voidedAt)
  | void {e : Envelope μ} (hopen : e.status ≠ .completed) (voidedAt : Time) :
      Change e { e with status := .voided, voidedAt := some voidedAt }

namespace Envelope

@[simp] theorem setSigner_signers (e : Envelope μ) (i : Nat) (f : EnvelopeSigner → EnvelopeSigner) :
    (e.setSigner i f).signers = e.signers.modify i f := rfl

/-- What signing writes on the signer. -/
def signSigner (image : String) (signedAt : Time) (s : EnvelopeSigner) : EnvelopeSigner :=
  { s with status := .signed, signedAt := some signedAt, signatureImageDataUrl := some image }

def declineSigner (reason : Option String) (declinedAt : Time) (s : EnvelopeSigner) :
    EnvelopeSigner :=
  { s with status := .declined, declinedAt := some declinedAt, declineReason := reason }

theorem signed_signers (e : Envelope μ) (i : Nat) (image : String) (signedAt completedAt : Time) :
    (e.signed i image signedAt completedAt).signers =
      e.signers.modify i (signSigner image signedAt) := by
  unfold signed
  dsimp only
  split <;> rfl

theorem signed_status (e : Envelope μ) (i : Nat) (image : String) (signedAt completedAt : Time) :
    (e.signed i image signedAt completedAt).status =
      if (e.signers.modify i (signSigner image signedAt)).all (·.status == .signed) then .completed
      else .partially_signed := by
  unfold signed
  dsimp only
  split
  next h => rw [if_pos (by exact h)]
  next h => rw [if_neg (by exact h)]

theorem declined_signers (e : Envelope μ) (i : Nat) (reason : Option String)
    (declinedAt voidedAt : Time) : (e.declined i reason declinedAt voidedAt).signers =
      e.signers.modify i (declineSigner reason declinedAt) := rfl

end Envelope

-- ---------------------------------------------------------------------------
-- Resolutions
-- ---------------------------------------------------------------------------

namespace Envelope

theorem signerOf_eq_some {e : Envelope μ} {tokenHash : String}
    (h : e.signerOf tokenHash = some (i, signer)) :
    e.signers[i]? = some signer ∧ signer.tokenHash = tokenHash := by
  simp only [signerOf, Option.bind_eq_bind, Option.bind_eq_some_iff, Option.pure_def] at h
  obtain ⟨j, hj, s, hs, h⟩ := h
  cases h
  refine ⟨hs, ?_⟩
  obtain ⟨hlt, hhash, -⟩ := List.findIdx?_eq_some_iff_getElem.mp hj
  rw [List.getElem?_eq_getElem hlt, Option.some.injEq] at hs
  subst hs
  exact beq_iff_eq.mp hhash

theorem live_iff {e : Envelope μ} :
    e.live = true ↔ e.status = .sent ∨ e.status = .partially_signed := by
  simp [live]

theorem resolution_live {e : Envelope μ} (h : e.live = true) :
    e.resolution i signer = e.liveResolution i signer := by
  rcases live_iff.mp h with h | h <;> rw [resolution, h]

theorem resolution_not_live {e : Envelope μ} (h : e.live = false) :
    ∃ status, e.resolution i signer = .closed status e i signer := by
  cases hstatus : e.status with
  | sent => simp [live, hstatus] at h
  | partially_signed => simp [live, hstatus] at h
  | completed => exact ⟨.completed, by rw [resolution, hstatus]⟩
  | voided => exact ⟨.voided, by rw [resolution, hstatus]⟩
  | expired => exact ⟨.expired, by rw [resolution, hstatus]⟩

end Envelope

/-- What a resolution says about the envelope it was read from. -/
def TokenResolution.Sound (tokenHash : String) : TokenResolution μ → Prop
  | .ok e i signer => e.live = true ∧ e.signerOf tokenHash = some (i, signer) ∧
      signer.status ≠ .signed ∧ e.waitingOn signer = []
  | .not_your_turn e i signer waiting => e.live = true ∧ e.signerOf tokenHash = some (i, signer) ∧
      signer.status ≠ .signed ∧ e.waitingOn signer = waiting ∧ waiting ≠ []
  | .already_signed e i signer => e.live = true ∧ e.signerOf tokenHash = some (i, signer) ∧
      signer.status = .signed
  | .closed .. | .invalid => True

theorem Envelope.resolution_sound {e : Envelope μ} {tokenHash : String}
    (h : e.signerOf tokenHash = some (i, signer)) : (e.resolution i signer).Sound tokenHash := by
  cases hlive : e.live with
  | false =>
    have hclosed : ∃ status, e.resolution i signer = .closed status e i signer :=
      Envelope.resolution_not_live hlive
    obtain ⟨status, hstatus⟩ := hclosed
    rw [hstatus]
    trivial
  | true =>
    rw [Envelope.resolution_live hlive, Envelope.liveResolution]
    split
    next hsigned => exact ⟨hlive, h, hsigned⟩
    next hopen =>
      split
      next hturn => exact ⟨hlive, h, hopen, hturn⟩
      next hwaiting => exact ⟨hlive, h, hopen, rfl, hwaiting⟩

/-- The envelope, where it was still live. -/
def TokenResolution.live? : TokenResolution μ → Option (Envelope μ)
  | .ok e .. | .not_your_turn e .. | .already_signed e .. => some e
  | .closed .. | .invalid => none

theorem Envelope.resolution_live? {e : Envelope μ} (h : (e.resolution i signer).live? = some e') :
    e' = e := by
  unfold resolution liveResolution at h
  split at h <;> first | cases h | skip
  all_goals split at h
  all_goals first | exact (Option.some.inj h).symm | skip
  all_goals split at h <;> exact (Option.some.inj h).symm

-- ---------------------------------------------------------------------------
-- Stores
-- ---------------------------------------------------------------------------

variable {Op : Type} {Res : Op → Type} {σ : Type}

theorem throwIf_triple {p : Protocol Op Res σ} {P : σ → Prop} {E : Thrown → σ → Prop} {bad : Prop}
    [Decidable bad] {error : Thrown} (hE : ∀ s, p.inv s → P s → E error s) :
    p.Triple (throwIf bad error : ExceptT Thrown (Prog Op Res) Unit) P (fun _ s => ¬ bad ∧ P s)
      E := by
  unfold throwIf
  split
  · exact .throw hE
  next h => exact .pure fun s _ hP => ⟨h, hP⟩

/-- How an envelope was looked up. -/
inductive Lookup
  | id (tenantId id : String)
  | token (tokenHash : String)

/-- The store and the clock as programs over a protocol. `Stored l e s` is "`l`
finds `e`", `Read l e s` is "`e` was found by `l`, and a write of it would
replace what was found". An update makes an edit in `Changed`, and then
`Wrote l read e s`. -/
structure StoreContract (p : Protocol Op Res σ)
    (store : EnvelopeStore μ (ExceptT Thrown (Prog Op Res)))
    (env : EnvelopeEnv (ExceptT Thrown (Prog Op Res))) where
  Stored : Lookup → Envelope μ → σ → Prop
  Read : Lookup → Envelope μ → σ → Prop
  Changed : Envelope μ → Envelope μ → Prop
  Wrote : Lookup → Envelope μ → Envelope μ → σ → Prop
  read_stable : ∀ l e, p.Stable (Read l e)
  now : ∀ P, p.Stable P → p.Triple env.now P (fun _ => P) (fun _ => P)
  findByTokenHash : ∀ tokenHash P, p.Stable P → p.Triple (store.findByTokenHash tokenHash) P
    (fun r s => P s ∧ ∀ e, r = some e →
      (∃ t, p.inv t ∧ P t ∧ Stored (.token tokenHash) e t) ∧ Read (.token tokenHash) e s)
    (fun _ => P)
  findById : ∀ tenantId id P, p.Stable P → p.Triple (store.findById tenantId id) P
    (fun r s => P s ∧ ∀ e, r = some e →
      (∃ t, p.inv t ∧ P t ∧ Stored (.id tenantId id) e t) ∧ Read (.id tenantId id) e s)
    (fun _ => P)
  update : ∀ l read e P, p.Kept P → Changed read e →
    p.Triple (store.update e) (fun s => Read l read s ∧ P s)
      (fun _ s => Wrote l read e s ∧ P s) (fun _ => P)

namespace StoreContract

variable {p : Protocol Op Res σ} {store : EnvelopeStore μ (ExceptT Thrown (Prog Op Res))}
  {env : EnvelopeEnv (ExceptT Thrown (Prog Op Res))} (c : StoreContract p store env)

/-- Read at a time when `P` held, and not replaced since. -/
def Current (P : σ → Prop) (l : Lookup) (e : Envelope μ) (s : σ) : Prop :=
  (∃ t, p.inv t ∧ P t ∧ c.Stored l e t) ∧ c.Read l e s

/-- What is known once a token is resolved. -/
def Resolved (P : σ → Prop) (tokenHash : String) (r : TokenResolution μ) (s : σ) : Prop :=
  P s ∧ r.Sound tokenHash ∧ ∀ e, r.live? = some e → c.Current P (.token tokenHash) e s

theorem current_stable (P : σ → Prop) (l : Lookup) (e : Envelope μ) :
    p.Stable (c.Current P l e) :=
  (Protocol.stable_const _).and (c.read_stable l e)

theorem resolved_dead {P : σ → Prop} {r : TokenResolution μ} (hsound : r.Sound tokenHash)
    (hdead : r.live? = none) {s : σ} (h : P s) : c.Resolved P tokenHash r s :=
  ⟨h, hsound, fun e he => by rw [hdead] at he; cases he⟩

theorem resolveSigningToken {token : String} (hexpire : ∀ e t, p.inv t → P t →
      c.Stored (.token (env.hashToken token)) e t → e.live = true →
      c.Changed e { e with status := .expired }) (hP : p.Kept P) :
    p.Triple (EsigSuite.resolveSigningToken store env token) P
      (c.Resolved P (env.hashToken token)) (fun _ => P) := by
  unfold EsigSuite.resolveSigningToken
  refine (c.findByTokenHash _ P hP.1).bind fun found => ?_
  cases found with
  | none => exact .pure fun s _ h => c.resolved_dead (r := .invalid) trivial rfl h.1
  | some e =>
    dsimp only
    cases hsigner : e.signerOf (env.hashToken token) with
    | none => exact .pure fun s _ h => c.resolved_dead (r := .invalid) trivial rfl h.1
    | some found =>
      obtain ⟨i, signer⟩ := found
      dsimp only
      have hresolved : p.Triple
          (pure (e.resolution i signer) : ExceptT Thrown (Prog Op Res) (TokenResolution μ))
          (fun s => P s ∧ c.Current P (.token (env.hashToken token)) e s) (c.Resolved P (env.hashToken token)) (fun _ => P) := by
        refine .pure fun s _ h => ⟨h.1, Envelope.resolution_sound hsigner, ?_⟩
        intro e' he'
        rw [Envelope.resolution_live? he']
        exact h.2
      refine Protocol.Triple.mono
        (P := fun s => P s ∧ c.Current P (.token (env.hashToken token)) e s) ?_
        (fun s _ h => ⟨h.1, h.2 e rfl⟩) (fun _ _ _ h => h) (fun _ _ _ h => h)
      split
      next hlive hexpires =>
        refine (c.now _ (hP.1.and (c.current_stable P _ e))).mono (fun _ _ h => h)
          (fun _ _ _ h => h) (fun _ _ _ h => h.1) |>.bind fun now => ?_
        split
        next hpast =>
          refine Protocol.Triple.mono
            (P := fun s => (∃ t, p.inv t ∧ P t ∧ c.Stored (.token (env.hashToken token)) e t) ∧
              c.Read (.token (env.hashToken token)) e s ∧ P s)
            (.given fun ⟨t, ht, hPt, hstored⟩ => ?_)
            (fun s _ h => ⟨h.2.1, h.2.2, h.1⟩) (fun _ _ _ h => h) (fun _ _ _ h => h)
          refine (c.update _ e _ P hP (hexpire e t ht hPt hstored hlive)).bind fun e' => ?_
          exact .pure fun s _ h =>
            c.resolved_dead (r := .closed .expired e' i signer) trivial rfl h.2
        next => exact hresolved
      next => exact hresolved

/-- Reading the clock keeps what is known. -/
theorem now_current {P : σ → Prop} {l : Lookup} {e : Envelope μ} (hP : p.Kept P) :
    p.Triple env.now (fun s => P s ∧ c.Current P l e s) (fun _ s => P s ∧ c.Current P l e s)
      (fun _ => P) :=
  (c.now _ (hP.1.and (c.current_stable P _ e))).mono (fun _ _ h => h) (fun _ _ _ h => h)
    (fun _ _ _ h => h.1)

/-- Writing back an edit of what was read. -/
theorem update_current {P : σ → Prop} {l : Lookup} {e e' : Envelope μ} (hP : p.Kept P)
    (hchange : ∀ t, p.inv t → P t → c.Stored l e t → c.Changed e e') :
    p.Triple (store.update e') (fun s => P s ∧ c.Current P l e s)
      (fun _ s => c.Wrote l e e' s ∧ P s) (fun _ => P) := by
  refine Protocol.Triple.mono
    (P := fun s => (∃ t, p.inv t ∧ P t ∧ c.Stored l e t) ∧ c.Read l e s ∧ P s)
    (.given fun ⟨t, ht, hPt, hstored⟩ => c.update l e e' P hP (hchange t ht hPt hstored))
    (fun s _ h => ⟨h.2.1, h.2.2, h.1⟩) (fun _ _ _ h => h) (fun _ _ _ h => h)

/-- The live envelope of a resolution, with what its constructor says. -/
theorem resolved_live {r : TokenResolution μ} {tokenHash : String} {P : σ → Prop}
    {e : Envelope μ} (hr : r.live? = some e) (s : σ) (h : c.Resolved P tokenHash r s) :
    r.Sound tokenHash ∧ P s ∧ c.Current P (.token tokenHash) e s :=
  ⟨h.2.1, h.1, h.2.2 e hr⟩

/-- A signature of the token's signer was written. -/
def Signed (tokenHash : String) (s : σ) : Prop :=
  ∃ e i signer image signedAt completedAt, e.live = true ∧
    e.signerOf tokenHash = some (i, signer) ∧ signer.status ≠ .signed ∧
    e.waitingOn signer = [] ∧
    c.Wrote (.token tokenHash) e (e.signed i image signedAt completedAt) s

/-- A refusal of the token's signer was written. -/
def Declined (tokenHash : String) (s : σ) : Prop :=
  ∃ e i signer reason declinedAt voidedAt, e.live = true ∧
    e.signerOf tokenHash = some (i, signer) ∧ signer.status ≠ .signed ∧
    c.Wrote (.token tokenHash) e (e.declined i reason declinedAt voidedAt) s

theorem recordSignature (hexpire : ∀ e t, p.inv t → P t →
      c.Stored (.token (env.hashToken token)) e t → e.live = true →
      c.Changed e { e with status := .expired })
    (hsign : ∀ e t i signer image signedAt completedAt, p.inv t → P t →
      c.Stored (.token (env.hashToken token)) e t → e.live = true → e.signerOf (env.hashToken token) = some (i, signer) →
      signer.status ≠ .signed → e.waitingOn signer = [] →
      c.Changed e (e.signed i image signedAt completedAt))
    (hP : p.Kept P) (image : String) (signedAt : Option Time) :
    p.Triple (EsigSuite.recordSignature store env token image signedAt) P
      (fun _ s => c.Signed (env.hashToken token) s ∧ P s) (fun _ => P) := by
  unfold EsigSuite.recordSignature
  refine (c.resolveSigningToken hexpire hP).bind fun r => ?_
  cases r with
  | invalid => exact .throw fun _ _ h => h.1
  | not_your_turn => exact .throw fun _ _ h => h.1
  | already_signed => exact .throw fun _ _ h => h.1
  | closed => exact .throw fun _ _ h => h.1
  | ok e i signer =>
    refine Protocol.Triple.mono (.given fun hsound => ?_) (fun s _ => c.resolved_live rfl s)
      (fun _ _ _ h => h) (fun _ _ _ h => h)
    obtain ⟨hlive, hsigner, hopen, hturn⟩ := hsound
    dsimp only
    cases env.assertImageDataUrl image with
    | none => exact .throw fun _ _ h => h.1
    | some image =>
      dsimp only
      have hwrite : ∀ signedAt, p.Triple
          (do let completedAt ← env.now
              store.update (e.signed i image signedAt completedAt))
          (fun s => P s ∧ c.Current P (.token (env.hashToken token)) e s)
          (fun _ s => c.Signed (env.hashToken token) s ∧ P s) (fun _ => P) := by
        intro signedAt
        refine (c.now_current hP).bind fun completedAt => ?_
        refine (c.update_current hP fun t ht hPt hstored => ?_).mono (fun _ _ h => h)
          (fun _ s _ h => ⟨⟨e, i, signer, image, signedAt, completedAt, hlive, hsigner, hopen, hturn,
            h.1⟩, h.2⟩) (fun _ _ _ h => h)
        exact hsign e t i signer image signedAt completedAt ht hPt hstored hlive hsigner hopen hturn
      cases signedAt with
      | none => exact (c.now_current hP).bind hwrite
      | some signedAt => exact hwrite signedAt

theorem declineEnvelope (hexpire : ∀ e t, p.inv t → P t →
      c.Stored (.token (env.hashToken token)) e t → e.live = true →
      c.Changed e { e with status := .expired })
    (hdecline : ∀ e t i signer reason declinedAt voidedAt, p.inv t → P t →
      c.Stored (.token (env.hashToken token)) e t → e.live = true → e.signerOf (env.hashToken token) = some (i, signer) →
      signer.status ≠ .signed → c.Changed e (e.declined i reason declinedAt voidedAt))
    (hP : p.Kept P) (reason : Option String) :
    p.Triple (EsigSuite.declineEnvelope store env token reason) P
      (fun _ s => c.Declined (env.hashToken token) s ∧ P s) (fun _ => P) := by
  unfold EsigSuite.declineEnvelope
  refine (c.resolveSigningToken hexpire hP).bind fun r => ?_
  have hwrite : ∀ e i signer, e.live = true →
      e.signerOf (env.hashToken token) = some (i, signer) → signer.status ≠ .signed →
      p.Triple
        (do let declinedAt ← env.now
            let voidedAt ← env.now
            store.update (e.declined i reason declinedAt voidedAt))
        (fun s => P s ∧ c.Current P (.token (env.hashToken token)) e s)
        (fun _ s => c.Declined (env.hashToken token) s ∧ P s) (fun _ => P) := by
    intro e i signer hlive hsigner hopen
    refine (c.now_current hP).bind fun declinedAt => ?_
    refine (c.now_current hP).bind fun voidedAt => ?_
    refine (c.update_current hP fun t ht hPt hstored => ?_).mono (fun _ _ h => h)
      (fun _ s _ h => ⟨⟨e, i, signer, reason, declinedAt, voidedAt, hlive, hsigner, hopen, h.1⟩,
        h.2⟩) (fun _ _ _ h => h)
    exact hdecline e t i signer reason declinedAt voidedAt ht hPt hstored hlive hsigner hopen
  cases r with
  | invalid => exact .throw fun _ _ h => h.1
  | already_signed => exact .throw fun _ _ h => h.1
  | closed status => cases status <;> exact .throw fun _ _ h => h.1
  | ok e i signer =>
    refine Protocol.Triple.mono (.given fun hsound => ?_) (fun s _ => c.resolved_live rfl s)
      (fun _ _ _ h => h) (fun _ _ _ h => h)
    exact hwrite e i signer hsound.1 hsound.2.1 hsound.2.2.1
  | not_your_turn e i signer waiting =>
    refine Protocol.Triple.mono (.given fun hsound => ?_) (fun s _ => c.resolved_live rfl s)
      (fun _ _ _ h => h) (fun _ _ _ h => h)
    exact hwrite e i signer hsound.1 hsound.2.1 hsound.2.2.1

theorem voidEnvelope {tenantId envelopeId : String} (hvoid : ∀ e t voidedAt, p.inv t → P t →
      c.Stored (.id tenantId envelopeId) e t → e.status ≠ .completed →
      c.Changed e { e with status := .voided, voidedAt := some voidedAt })
    (hP : p.Kept P) :
    p.Triple (EsigSuite.voidEnvelope store env tenantId envelopeId) P (fun _ => P)
      (fun _ => P) := by
  unfold EsigSuite.voidEnvelope
  refine (c.findById tenantId envelopeId P hP.1).bind fun found => ?_
  cases found with
  | none => exact .throw fun _ _ h => h.1
  | some e =>
    refine Protocol.Triple.mono (P := fun s => P s ∧ c.Current P (.id tenantId envelopeId) e s) ?_
      (fun s _ h => ⟨h.1, h.2 e rfl⟩) (fun _ _ _ h => h) (fun _ _ _ h => h)
    refine (throwIf_triple fun _ _ h => h.1).bind fun _ => .given fun hopen => ?_
    refine (c.now_current hP).bind fun voidedAt => ?_
    refine (c.update_current hP fun t ht hPt hstored => ?_).mono (fun _ _ h => h)
      (fun _ _ _ h => h.2) (fun _ _ _ h => h)
    exact hvoid e t voidedAt ht hPt hstored hopen

end StoreContract

end EsigSuite
