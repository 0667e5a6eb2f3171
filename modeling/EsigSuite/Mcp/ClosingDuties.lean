import EsigSuite.Mcp.CreationDuties

/-!
# Signing, refusing, voiding and sealing under the rules

A signature, a refusal and a voiding owe links. What is called after them erases
these links, or loses them where a call fails in between. The other calls owe
nothing.
-/

namespace EsigSuite.Mcp.Duties

open Lib
open EnvelopeFile (getRev setRev)
open Protocol (Triple)

variable {ι : Type}

-- ---------------------------------------------------------------------------
-- Links that are owed
-- ---------------------------------------------------------------------------

/-- No link is owed, and none is lost yet. -/
def Clear (t : Track (Duties ι)) : Prop :=
  Unclaimed t.own ∧ t.own.links = [] ∧ t.own.linksLost = false

/-- At most the links of `L` are owed. -/
def Owing (L : List (String × Option String)) (t : Track (Duties ι)) : Prop :=
  Unclaimed t.own ∧ (t.own.linksLost = true ∨ ∀ d ∈ t.own.links, d ∈ L)

theorem unclaimed_steady : Steady (fun t : Track (Duties ι) => Unclaimed t.own) := fun _ _ h ht =>
  ht.imp h.held.trans h.gaveUp.trans

theorem clear_steady : Steady (Clear : Track (Duties ι) → Prop) :=
  fun t t' h ⟨hclaim, hlinks, hlost⟩ =>
    ⟨unclaimed_steady t t' h hclaim, List.eq_nil_iff_forall_not_mem.mpr fun d hd =>
      List.not_mem_nil (hlinks ▸ h.links d hd), h.linksLost.trans hlost⟩

theorem owing_steady (L : List (String × Option String)) :
    Steady (Owing L : Track (Duties ι) → Prop) := fun t t' h ⟨hclaim, howing⟩ =>
  ⟨unclaimed_steady t t' h hclaim,
    howing.imp h.linksLost.trans fun hall d hd => hall d (h.links d hd)⟩

theorem owing_borne (D : Option (String × Option String)) (L : List (String × Option String)) :
    Borne D (Owing L : Track (Duties ι) → Prop) :=
  ⟨owing_steady L, fun _ _ h => ⟨h.1, .inl rfl⟩⟩

/-- At most the links of `L` are owed, and `e` was read. -/
def OwingOf (L : List (String × Option String)) (e : McpEnvelope) (t : Track (Duties ι)) : Prop :=
  Owing L t ∧ e ∈ t.seen

theorem owingOf_borne (D : Option (String × Option String)) (L : List (String × Option String))
    (e : McpEnvelope) : Borne D (OwingOf L e : Track (Duties ι) → Prop) :=
  ⟨(owing_steady L).and (steady_seen e), fun hD t ht => ⟨(owing_borne D L).lost hD t ht.1, ht.2⟩⟩

theorem Clear.owing {t : Track (Duties ι)} (h : Clear t) : Owing [] t :=
  ⟨h.1, .inr fun d hd => h.2.1 ▸ hd⟩

/-- A link is erased. -/
theorem Owing.clear {L L' : List (String × Option String)} {d : String × Option String}
    {t : Track (Duties ι)} (h : Owing L t) (hclear : Cleared (some d) t)
    (hL : ∀ d' ∈ L, d' = d ∨ d' ∈ L') : Owing L' t := by
  refine ⟨h.1, ?_⟩
  rcases h.2, hclear with ⟨hlost | hall, hlost' | hnone⟩
  · exact .inl hlost
  · exact .inl hlost
  · exact .inl hlost'
  · refine .inr fun d' hd' => (hL d' (hall d' hd')).resolve_left ?_
    rintro rfl
    exact hnone _ rfl hd'

section
variable {server : Server} {who : ι} {A : Track (Duties ι) → Prop} {token : String}

-- ---------------------------------------------------------------------------
-- Resolving a token
-- ---------------------------------------------------------------------------

/-- What is known once a token is resolved. -/
def Resolved (server : Server) (token : String)
    (r : TokenResolution (McpMetadata (SealMetadata Bookkeeping))) (t : Track (Duties ι)) : Prop :=
  r.Sound (server.hashToken token) ∧ ∀ e, r.live? = some e → Holding e t

theorem Calm.resolve {purpose : Purpose} (hpurpose : purpose = .plain ∨ ∃ gate, purpose = .sign gate) :
    Calm server who A (resolveSigningToken (store ⟨who, purpose⟩) (env server) token)
      (Resolved server token) := by
  have hbare : purpose.bare = true := by rcases hpurpose with rfl | ⟨gate, rfl⟩ <;> rfl
  unfold resolveSigningToken
  refine Calm.findByTokenHash.bind fun found => ?_
  cases found with
  | none => exact .pure fun _ _ => ⟨trivial, fun e he => by cases he⟩
  | some e =>
    dsimp only
    cases hsigner : e.signerOf ((env server : EnvelopeEnv (M ι)).hashToken token) with
    | none => exact .pure fun _ _ => ⟨trivial, fun e he => by cases he⟩
    | some found =>
      obtain ⟨i, signer⟩ := found
      dsimp only
      have hresolved : Calm server who (Holding e)
          (Pure.pure (e.resolution i signer) : M ι _) (Resolved server token) :=
        .pure fun t ht => ⟨Envelope.resolution_sound hsigner, fun e' he' => by
          rw [Envelope.resolution_live? he']
          exact ht⟩
      refine Calm.mono (A := Holding e) ?_ (fun t ht => ht e rfl) fun _ _ h => h
      split
      next hlive hexpires =>
        refine ((Calm.outside env_now_outside).mono (fun _ h => h) fun _ _ h => h.2).bind fun now => ?_
        split
        next hpast =>
          have howed : owed e { e with status := .expired } = [] :=
            owed_none rfl fun h => by rcases h.1 with h | h <;> cases h
          have hkeeps : KeepsLog e { e with status := .expired } := ⟨rfl, rfl, rfl, rfl⟩
          refine (Calm.write hbare howed hkeeps (.change hlive (.expire hlive) hpurpose)
            (fun _ ht => .inr ht) fun _ _ => .same rfl).bind fun e' => ?_
          exact .pure fun _ _ => ⟨trivial, fun e he => by cases he⟩
        next => exact hresolved
      next => exact hresolved

-- ---------------------------------------------------------------------------
-- Closing writes
-- ---------------------------------------------------------------------------

theorem written_closing {webhook : Bool} {own : Duties ι} {purpose : Purpose}
    {read e e' : McpEnvelope} (hchanges : purpose.changes = true) :
    own.written webhook purpose read e e' =
      { own with
        last := some e', links := (own.links ++ owed read e).filter (stillStored e),
        linksLost := own.linksLost || misses read e purpose, nonce := none } := by
  have hnotes : purpose.notes = false := by cases purpose <;> first | rfl | cases hchanges
  have hheld : own.heldAfter e purpose = own.held := by
    cases purpose <;> first | rfl | cases hchanges
  have hfailed : own.failedAfter purpose = own.failed := by
    cases purpose <;> first | rfl | cases hchanges
  rw [written, hnotes, hchanges, hheld, hfailed, Bool.and_false, Bool.true_and]
  simp only [Bool.false_eq_true, if_false, if_true]

/-- The thread after a write that owes links. -/
def wroteClosing (t : Track (Duties ι)) (purpose : Purpose) (read e e' : McpEnvelope)
    (drawn : List String) : Track (Duties ι) :=
  { t with
    seen := [e'] ++ t.seen, drawn
    own := { t.own with
      last := some e', links := (t.own.links ++ owed read e).filter (stillStored e),
      linksLost := t.own.linksLost || misses read e purpose, nonce := none } }

/-- A write after which at most `L` is owed. -/
theorem closing_triple {read e : McpEnvelope} {purpose : Purpose}
    {L : List (String × Option String)} (hchanges : purpose.changes = true)
    (hkeeps : KeepsLog read e) (hrewrite : Rewrite server read e purpose)
    (hstates : statesOf e = statesOf read)
    (hL : misses read e purpose = true ∨ ∀ d ∈ owed read e, d ∈ L) :
    (serviceRules server).watch.protocol.Triple ((store ⟨who, purpose⟩).update e)
      (fun t => (Clear t ∧ Ready who t) ∧ Holding read t)
      (fun e' t => (OwingOf L e' t ∧ Ready who t) ∧ e' = setRev e (getRev e + 1))
      (fun _ t => Clear t ∧ Ready who t) := by
  have hbare : purpose.bare = true := by cases purpose <;> first | rfl | cases hchanges
  refine Rules.call fun t r ⟨⟨hclear, hready⟩, hholding⟩ hanswers _ =>
    ⟨⟨⟨read, hholding.2, ?_, ?_⟩, hready.free⟩, ?_⟩
  · exact ⟨hkeeps.1, hkeeps.2.1, hkeeps.2.2.1, .inl hkeeps.2.2.2⟩
  · exact bare_writes hbare hready (fun _ => hclear.2.2) hkeeps hrewrite (.inr hholding.1)
      (.same hstates)
  · match r, hanswers with
    | .ok e', hanswers =>
      have hown : t.own.updated server.config.webhook purpose e (.ok e') =
          { t.own with
            last := some e', links := (t.own.links ++ owed read e).filter (stillStored e),
            linksLost := t.own.linksLost || misses read e purpose, nonce := none } := by
        rw [updated, hholding.1]
        exact written_closing hchanges
      have hafter : (serviceRules server).advance t (.update ⟨who, purpose⟩ e) (.ok e') =
          wroteClosing t purpose read e e'
            (t.drawn.filter fun id => !(eventsOf e).any (·.id == id)) := by
        change { t with
          seen := _, drawn := _
          own := t.own.updated server.config.webhook purpose e (.ok e') } = _
        rw [hown]
        rfl
      rw [hafter]
      refine ⟨⟨⟨⟨hclear.1, ?_⟩, List.mem_cons_self⟩, hready.who, hready.free⟩, hanswers e' rfl⟩
      rcases hL with hmisses | hall
      · refine .inl ?_
        change (t.own.linksLost || misses read e purpose) = true
        rw [hmisses, Bool.or_true]
      · refine .inr fun d hd => hall d ?_
        have hd := (List.mem_filter.mp hd).1
        rwa [hclear.2.1, List.nil_append] at hd
    | .error error, _ =>
      have hafter : (serviceRules server).advance t (.update ⟨who, purpose⟩ e) (.error error) =
          failedBare t (t.drawn.filter fun id => !(eventsOf e).any (·.id == id)) := by
        change { t with
          seen := _, drawn := _
          own := t.own.updated server.config.webhook purpose e (.error error) } = _
        rw [updated_bare_error hbare]
        rfl
      rw [hafter]
      exact ⟨clear_steady t _ (failedBare_ahead ..) hclear, hready.who, hready.free⟩

-- ---------------------------------------------------------------------------
-- Signing
-- ---------------------------------------------------------------------------

/-- The links that a signature owes if the gate had found the signer. -/
def signLinks (gate : Option String) (e : McpEnvelope) : List (String × Option String) :=
  gate.toList.map (fun signerId => (e.id, some signerId)) ++
    if e.status = .completed then [(e.id, none)] else []

theorem signed_owed (gate : Option String) (e : McpEnvelope) (i : Nat) (image : String)
    (signedAt completedAt : Time) :
    misses e (e.signed i image signedAt completedAt) (.sign gate) = true ∨
      ∀ d ∈ owed e (e.signed i image signedAt completedAt),
        d ∈ signLinks gate (e.signed i image signedAt completedAt) := by
  cases hmisses : misses e (e.signed i image signedAt completedAt) (.sign gate) with
  | true => exact .inl rfl
  | false =>
    refine .inr fun d hd => ?_
    rw [misses, List.any_eq_false] at hmisses
    rcases List.mem_append.mp hd with hd | hd
    · obtain ⟨signerId, hsigner, rfl⟩ := List.mem_map.mp hd
      have hgate : gate = some signerId := by simpa using hmisses signerId hsigner
      refine List.mem_append_left _ ?_
      rw [hgate]
      exact List.mem_singleton_self _
    · split at hd
      next hclosed =>
        refine List.mem_append_right _ ?_
        have hstatus := Envelope.signed_status e i image signedAt completedAt
        have hcompleted : (e.signed i image signedAt completedAt).status = .completed := by
          rcases hclosed.1 with h | h
          · exact h
          · rw [hstatus] at h
            split at h <;> cases h
        rw [if_pos hcompleted]
        exact hd
      next => cases hd

theorem signed_keeps (e : McpEnvelope) (i : Nat) (image : String) (signedAt completedAt : Time) :
    KeepsLog e (e.signed i image signedAt completedAt) ∧
      statesOf (e.signed i image signedAt completedAt) = statesOf e := by
  unfold Envelope.signed
  dsimp only
  split <;> exact ⟨⟨rfl, rfl, rfl, rfl⟩, rfl⟩

theorem now_triple {B : Track (Duties ι) → Prop} {E : Thrown → Track (Duties ι) → Prop}
    (hB : ∀ t, B t → Enqueued t.own) :
    (serviceRules server).watch.protocol.Triple (env server : EnvelopeEnv (M ι)).now B (fun _ => B)
      E :=
  .lift (Rules.call fun t _ ht _ _ => ⟨hB t ht, ht⟩)

theorem recordSignature_triple {gate : Option String} {image : String} {signedAt : Time} :
    (serviceRules server).watch.protocol.Triple
      (recordSignature (store ⟨who, .sign gate⟩) (env server) token image (some signedAt))
      (fun t => Clear t ∧ Ready who t)
      (fun e t => OwingOf (signLinks gate e) e t ∧ Ready who t)
      (fun _ t => Clear t ∧ Ready who t) := by
  unfold recordSignature
  have hresolve : Calm server who (fun _ => True)
      (resolveSigningToken (store ⟨who, .sign gate⟩) (env server) token) _ :=
    Calm.resolve (.inr ⟨gate, rfl⟩)
  refine ((hresolve Clear clear_steady).mono (fun _ _ ht => ⟨ht, trivial⟩) (fun _ _ _ ht => ht)
    fun _ _ _ ht => ht).bind fun r => ?_
  cases r with
  | invalid => exact .throw fun _ _ ht => ht.1
  | not_your_turn => exact .throw fun _ _ ht => ht.1
  | already_signed => exact .throw fun _ _ ht => ht.1
  | closed => exact .throw fun _ _ ht => ht.1
  | ok e i signer =>
    refine Triple.know (fun t _ ht => ht.2.1) fun ⟨hlive, hsigner, hopen, hturn⟩ => ?_
    refine Triple.mono (P := fun t => (Clear t ∧ Ready who t) ∧ Holding e t) ?_
      (fun t _ ht => ⟨ht.1, ht.2.2 e rfl⟩) (fun _ _ _ ht => ht) fun _ _ _ ht => ht
    dsimp only
    cases (env server : EnvelopeEnv (M ι)).assertImageDataUrl image with
    | none => exact .throw fun _ _ ht => ht.1
    | some image =>
      dsimp only
      refine show (serviceRules server).watch.protocol.Triple
        (do let completedAt ← (env server : EnvelopeEnv (M ι)).now
            (store ⟨who, .sign gate⟩).update (e.signed i image signedAt completedAt)) _ _ _ from ?_
      refine (now_triple fun _ ht => ht.1.2.free).bind fun completedAt => ?_
      have hkeeps := signed_keeps e i image signedAt completedAt
      refine (closing_triple rfl hkeeps.1 (.change hlive
        (.sign hlive (Envelope.signerOf_eq_some hsigner).1 hopen hturn image signedAt completedAt)
        (.inr ⟨gate, rfl⟩)) hkeeps.2 (signed_owed gate e i image signedAt completedAt)).mono
        (fun _ _ ht => ht) (fun e' t _ ht => ?_) fun _ _ _ ht => ht
      obtain ⟨howing, rfl⟩ := ht
      exact howing

-- ---------------------------------------------------------------------------
-- Refusing and voiding
-- ---------------------------------------------------------------------------

theorem newlySigned_declined (e : McpEnvelope) (i : Nat) (reason : Option String)
    (declinedAt voidedAt : Time) : newlySigned e (e.declined i reason declinedAt voidedAt) = [] := by
  rw [newlySigned, List.map_eq_nil_iff, List.filter_eq_nil_iff]
  intro s hs
  obtain ⟨j, hj, rfl⟩ := List.mem_iff_getElem.mp hs
  simp only [Envelope.declined_signers, List.getElem_zip, List.getElem_modify]
  split
  · simp [Envelope.declineSigner]
  · simp

/-- Who closes an envelope owes all its links. -/
theorem closed_owed {e e' : McpEnvelope} (hid : e'.id = e.id) (hnewly : newlySigned e e' = []) :
    ∀ d ∈ owed e e', d ∈ [(e.id, (none : Option String))] := by
  intro d hd
  rw [owed, hnewly, List.map_nil, List.nil_append, hid] at hd
  split at hd
  · exact hd
  · cases hd

theorem declineEnvelope_triple {reason : Option String} :
    (serviceRules server).watch.protocol.Triple
      (declineEnvelope (store ⟨who, .plain⟩) (env server) token reason)
      (fun t => Clear t ∧ Ready who t)
      (fun e t => OwingOf [(e.id, none)] e t ∧ Ready who t) (fun _ t => Clear t ∧ Ready who t) := by
  have hwrite : ∀ (e : McpEnvelope) i signer, e.live = true →
      e.signerOf (server.hashToken token) = some (i, signer) → signer.status ≠ .signed →
      (serviceRules server).watch.protocol.Triple
        (do let declinedAt ← (env server : EnvelopeEnv (M ι)).now
            let voidedAt ← (env server : EnvelopeEnv (M ι)).now
            (store ⟨who, .plain⟩).update (e.declined i reason declinedAt voidedAt))
        (fun t => (Clear t ∧ Ready who t) ∧ Holding e t)
        (fun e t => OwingOf [(e.id, none)] e t ∧ Ready who t) (fun _ t => Clear t ∧ Ready who t) := by
    intro e i signer hlive hsigner hopen
    refine (now_triple fun _ ht => ht.1.2.free).bind fun declinedAt => ?_
    refine (now_triple fun _ ht => ht.1.2.free).bind fun voidedAt => ?_
    have hchange : Rewrite server e (e.declined i reason declinedAt voidedAt) .plain :=
      .change hlive (.decline hlive (Envelope.signerOf_eq_some hsigner).1 hopen reason declinedAt
        voidedAt) (.inl rfl)
    have hkeeps : KeepsLog e (e.declined i reason declinedAt voidedAt) := ⟨rfl, rfl, rfl, rfl⟩
    refine (closing_triple rfl hkeeps hchange rfl
      (.inr (closed_owed rfl (newlySigned_declined ..)))).mono
      (fun _ _ ht => ht) (fun e' t _ ht => ?_) fun _ _ _ ht => ht
    obtain ⟨howing, rfl⟩ := ht
    exact howing
  unfold declineEnvelope
  have hresolve : Calm server who (fun _ => True)
      (resolveSigningToken (store ⟨who, .plain⟩) (env server) token) _ :=
    Calm.resolve (.inl rfl)
  refine ((hresolve Clear clear_steady).mono (fun _ _ ht => ⟨ht, trivial⟩) (fun _ _ _ ht => ht)
    fun _ _ _ ht => ht).bind fun r => ?_
  cases r with
  | invalid => exact .throw fun _ _ ht => ht.1
  | already_signed => exact .throw fun _ _ ht => ht.1
  | closed status => cases status <;> exact .throw fun _ _ ht => ht.1
  | ok e i signer =>
    refine Triple.know (fun t _ ht => ht.2.1) fun ⟨hlive, hsigner, hopen, _⟩ => ?_
    exact (hwrite e i signer hlive hsigner hopen).mono (fun t _ ht => ⟨ht.1, ht.2.2 e rfl⟩)
      (fun _ _ _ ht => ht) fun _ _ _ ht => ht
  | not_your_turn e i signer waiting =>
    refine Triple.know (fun t _ ht => ht.2.1) fun ⟨hlive, hsigner, hopen, _⟩ => ?_
    exact (hwrite e i signer hlive hsigner hopen).mono (fun t _ ht => ⟨ht.1, ht.2.2 e rfl⟩)
      (fun _ _ _ ht => ht) fun _ _ _ ht => ht

theorem voidEnvelope_triple {tenantId envelopeId : String} :
    (serviceRules server).watch.protocol.Triple
      (voidEnvelope (store ⟨who, .void⟩) (env server) tenantId envelopeId)
      (fun t => Clear t ∧ Ready who t)
      (fun e t => OwingOf [(e.id, none)] e t ∧ Ready who t) (fun _ t => Clear t ∧ Ready who t) := by
  unfold voidEnvelope
  have hfind : Calm server who (fun _ => True)
      ((store ⟨who, .void⟩).findById tenantId envelopeId) _ := Calm.findById ⟨rfl, rfl⟩
  refine ((hfind Clear clear_steady).mono (fun _ _ ht => ⟨ht, trivial⟩) (fun _ _ _ ht => ht)
    fun _ _ _ ht => ht).bind fun found => ?_
  cases found with
  | none => exact .throw fun _ _ ht => ht.1
  | some e =>
    refine Triple.mono (P := fun t => (Clear t ∧ Ready who t) ∧ Holding e t) ?_
      (fun t _ ht => ⟨ht.1, (ht.2 e rfl).1⟩) (fun _ _ _ ht => ht) fun _ _ _ ht => ht
    refine (throwIf_triple fun _ _ ht => ht.1).bind fun _ => .given fun hopen => ?_
    refine (now_triple fun _ ht => ht.1.2.free).bind fun voidedAt => ?_
    have hkeeps : KeepsLog e { e with status := .voided, voidedAt := some voidedAt } :=
      ⟨rfl, rfl, rfl, rfl⟩
    refine (closing_triple rfl hkeeps (.void hopen voidedAt) rfl
      (.inr (closed_owed rfl (newlySigned_same rfl)))).mono
      (fun _ _ ht => ht) (fun e' t _ ht => ?_) fun _ _ _ ht => ht
    obtain ⟨howing, rfl⟩ := ht
    exact howing

-- ---------------------------------------------------------------------------
-- Sealing
-- ---------------------------------------------------------------------------

/-- An outcome of a seal is written over what was read before. -/
theorem Calm.writeSeal {e : McpEnvelope} (e' : McpEnvelope) (hsame : Same e e')
    (hkeeps : KeepsLog e e') (hstates : statesOf e' = statesOf e) :
    Calm server who (fun t => e ∈ t.seen) ((store ⟨who, .seal⟩).update e') fun _ _ => True :=
  (Calm.write rfl (owed_same hsame) hkeeps (.aside hsame (.inr (.inr rfl)))
    (fun _ ht => .inl ⟨rfl, ht⟩) fun _ _ => .same hstates).any

theorem produce_outside (e : McpEnvelope) :
    Outside (fun _ => True)
      (ExceptT.lift (Prog.perform (Op.produce e)) : M ι (Except Thrown Service.Artifact)) :=
  Within.lift ⟨rfl, fun _ => trivial⟩

theorem Calm.sealEnvelope {e : McpEnvelope} :
    Calm server who (fun t => e ∈ t.seen) (Mcp.sealEnvelope server who e : M ι _)
      fun _ _ => True := by
  unfold Mcp.sealEnvelope
  refine ((Calm.outside (produce_outside e)).mono (fun _ h => h) fun _ _ h => h.2).bind
    fun outcome => ?_
  cases outcome with
  | error error =>
    refine Calm.now.bind fun lastAttemptAt => ?_
    refine (Calm.writeSeal (e := e) (Service.failedSeal e error lastAttemptAt)
      ⟨rfl, rfl, rfl, rfl, rfl, rfl, rfl, rfl⟩ ⟨rfl, rfl, rfl, rfl⟩ rfl).bind fun updated => ?_
    refine (Calm.audit rfl rfl).bind fun _ => ?_
    exact (Calm.emitPlain (fun _ => rfl) fun _ h => by cases h).bind fun _ =>
      .pure fun _ _ => trivial
  | ok artifact =>
    refine (Calm.writeSeal (e := e) (Service.sealedSeal e artifact)
      ⟨rfl, rfl, rfl, rfl, rfl, rfl, rfl, rfl⟩ ⟨rfl, rfl, rfl, rfl⟩ rfl).bind fun updated => ?_
    refine (Calm.auditInsert rfl rfl).bind fun _ => ?_
    exact (Calm.emitPlain (fun _ => rfl) fun _ h => by cases h).bind fun _ =>
      .pure fun _ _ => trivial

theorem Calm.reseal {envelopeId : String} :
    Calm server who (fun _ => True) (Mcp.reseal server who envelopeId : M ι _) fun _ _ => True := by
  unfold Mcp.reseal
  refine (Calm.findById ⟨rfl, rfl⟩).bind fun found => ?_
  cases found with
  | none => exact .throw _
  | some e =>
    dsimp only
    refine (Calm.throwIf.mono (fun _ h => h) fun _ _ h => h.2).bind fun _ => ?_
    refine (Calm.throwIf.mono (fun _ h => h) fun _ _ h => h.2).bind fun _ => ?_
    refine Calm.takeRate.bind fun _ => (Calm.audit rfl rfl).bind fun _ => ?_
    exact Calm.sealEnvelope.mono (fun t ht => (ht e rfl).1.2) fun _ _ h => h

-- ---------------------------------------------------------------------------
-- The calls
-- ---------------------------------------------------------------------------

/-- At the end of a call no link is owed, or it will stay. -/
def Idle (who : ι) (t : Track (Duties ι)) : Prop := Owing [] t ∧ Ready who t

/-- A row without which links stay. -/
theorem closingAudit_triple {action : AuditAction} {target : String} {metadata : AuditMetadata}
    {L : List (String × Option String)} {e : McpEnvelope} (hcloses : closes action = true)
    (hinterposes : interposes action = false) :
    (serviceRules server).watch.protocol.Triple (Mcp.audit server action target metadata : M ι Unit)
      (fun t => OwingOf L e t ∧ Ready who t) (fun _ t => OwingOf L e t ∧ Ready who t)
      (fun _ => Idle who) := by
  refine Rules.call fun t r ht _ _ => ⟨.inr ht.2.free, ?_⟩
  match r with
  | .ok () => exact ht
  | .error error =>
    have hown : t.own.audited action (.error error) = { t.own with linksLost := true } := by
      rw [audited, hinterposes, hcloses, Bool.or_false, Bool.or_true]
    change Idle who { t with own := t.own.audited action (.error error) }
    rw [hown]
    exact ⟨⟨ht.1.1.1, .inl rfl⟩, ht.2.who, ht.2.free⟩

/-- The links of `d` are erased with an event. -/
theorem emitErasing_owing {envelopeId : String} {signerId : Option String}
    {event : McpEnvelope → EsigEventInput} {L L' : List (String × Option String)} {e : McpEnvelope}
    (hid : ∀ e, (event e).envelopeId = e.id) (htype : ∀ e, (event e).type ≠ .envelope_expired)
    (hL : ∀ d ∈ L, d = (envelopeId, signerId) ∨ d ∈ L') :
    (serviceRules server).watch.protocol.Triple
      (emitErasing server who envelopeId signerId event : M ι Unit)
      (fun t => OwingOf L e t ∧ Ready who t) (fun _ t => OwingOf L' e t ∧ Ready who t)
      (fun _ => Idle who) :=
  (emitErasing_triple (owingOf_borne _ L e) hid htype).mono (fun _ _ ht => ht)
    (fun _ _ _ ht => ⟨⟨ht.1.1.1.clear ht.2 hL, ht.1.1.2⟩, ht.1.2⟩) fun _ _ _ ht => ht.elim

/-- What a completed envelope owes. -/
def completedLinks (e : McpEnvelope) : List (String × Option String) :=
  if e.status = .completed then [(e.id, none)] else []

theorem emitSigned_triple {e : McpEnvelope} {gate : Option String} :
    (serviceRules server).watch.protocol.Triple (emitSigned server who e.id gate : M ι Unit)
      (fun t => OwingOf (signLinks gate e) e t ∧ Ready who t)
      (fun _ t => OwingOf (completedLinks e) e t ∧ Ready who t) (fun _ => Idle who) := by
  unfold emitSigned
  cases gate with
  | none =>
    exact (emitPlain_triple (owingOf_borne none (signLinks none e) e).steady (fun _ => rfl)
      fun _ h => by cases h).mono (fun _ _ ht => ht) (fun _ _ _ ht => ht) fun _ _ _ ht => ht.elim
  | some signerId =>
    refine emitErasing_owing (fun _ => rfl) (fun _ h => by cases h) fun d hd => ?_
    rcases List.mem_append.mp hd with hd | hd
    · exact .inl (List.mem_singleton.mp hd)
    · exact .inr hd

theorem emitCompleted_triple {e : McpEnvelope} :
    (serviceRules server).watch.protocol.Triple (emitCompleted server who e : M ι Unit)
      (fun t => OwingOf (completedLinks e) e t ∧ Ready who t)
      (fun _ t => OwingOf [] e t ∧ Ready who t) (fun _ => Idle who) := by
  unfold emitCompleted completedLinks
  split
  next =>
    exact emitErasing_owing (fun _ => rfl) (fun _ h => by cases h) fun d hd =>
      .inl (List.mem_singleton.mp hd)
  next => exact .pure fun _ _ ht => ht

/-- A calm program at the end of a call. -/
theorem Calm.ending {α : Type} {x : M ι α} {R : α → Track (Duties ι) → Prop} {e : McpEnvelope}
    (hx : Calm server who A x R) :
    (serviceRules server).watch.protocol.Triple x (fun t => (OwingOf [] e t ∧ Ready who t) ∧ A t)
      (fun a t => (OwingOf [] e t ∧ Ready who t) ∧ R a t) (fun _ => Idle who) :=
  (hx _ (owingOf_borne none [] e).steady).mono (fun _ _ ht => ht) (fun _ _ _ ht => ht)
    fun _ _ _ ht => ⟨ht.1.1, ht.2⟩

theorem sign_triple {image : String} {proof : Option IdentityProofInput} :
    (serviceRules server).watch.protocol.Triple (sign server who token image proof : M ι _)
      (fun t => Clear t ∧ Ready who t) (fun _ => Idle who) (fun _ => Idle who) := by
  have hcalm : ∀ {α : Type} {x : M ι α}, Calm server who (fun _ => True) x (fun _ _ => True) →
      (serviceRules server).watch.protocol.Triple x (fun t => Clear t ∧ Ready who t)
        (fun _ t => Clear t ∧ Ready who t) (fun _ => Idle who) := fun hx =>
    (hx Clear clear_steady).mono (fun _ _ ht => ⟨ht, trivial⟩) (fun _ _ _ ht => ht.1)
      fun _ _ _ ht => ⟨ht.1.owing, ht.2⟩
  unfold sign
  refine (hcalm (Calm.resolve (.inl rfl)).any).bind fun gate => ?_
  refine (hcalm (Calm.gateCheck gate)).bind fun _ => ?_
  refine (hcalm Calm.now).bind fun signedAt => ?_
  refine (recordSignature_triple.mono (fun _ _ ht => ht) (fun _ _ _ ht => ht)
    fun _ _ _ ht => ⟨ht.1.owing, ht.2⟩).bind fun e => ?_
  refine (closingAudit_triple (by rfl) (by rfl)).bind fun _ => ?_
  refine emitSigned_triple.bind fun _ => emitCompleted_triple.bind fun _ => ?_
  have hfind : Calm server who (fun t => e ∈ t.seen)
      ((store ⟨who, .plain⟩).findById server.config.tenant e.id) fun r t => r.getD e ∈ t.seen :=
    ((Calm.findById ⟨rfl, rfl⟩).frame (steady_seen e)).mono (fun _ ht => ⟨ht, ht⟩) fun r t ht => by
      cases r with
      | none => exact ht.2
      | some e' => exact (ht.1 e' rfl).1.2
  refine Triple.bind (hfind.ending.mono (fun _ _ ht => ⟨ht, ht.1.2⟩) (fun _ _ _ ht => ht)
    fun _ _ _ ht => ht) fun refreshed => ?_
  dsimp only
  split
  · exact Calm.sealEnvelope.ending.mono (fun _ _ ht => ht) (fun _ _ _ ht => ⟨ht.1.1.1, ht.1.2⟩)
      fun _ _ _ ht => ht
  · exact .pure fun _ _ ht => ⟨ht.1.1.1, ht.1.2⟩

theorem decline_triple {reason : Option String} :
    (serviceRules server).watch.protocol.Triple (decline server who token reason : M ι _)
      (fun t => Clear t ∧ Ready who t) (fun _ => Idle who) (fun _ => Idle who) := by
  unfold decline
  refine (declineEnvelope_triple.mono (fun _ _ ht => ht) (fun _ _ _ ht => ht)
    fun _ _ _ ht => ⟨ht.1.owing, ht.2⟩).bind fun e => ?_
  refine (closingAudit_triple (by rfl) (by rfl)).bind fun _ => ?_
  refine (emitErasing_owing (fun _ => rfl) (fun _ h => by cases h) fun d hd =>
    .inl (List.mem_singleton.mp hd)).bind (M := fun _ t => OwingOf [] e t ∧ Ready who t) fun _ => ?_
  exact .pure fun _ _ ht => ⟨ht.1.1, ht.2⟩

theorem void_triple {envelopeId : String} :
    (serviceRules server).watch.protocol.Triple (void server who envelopeId : M ι _)
      (fun t => Clear t ∧ Ready who t) (fun _ => Idle who) (fun _ => Idle who) := by
  unfold void
  refine (voidEnvelope_triple.mono (fun _ _ ht => ht) (fun _ _ _ ht => ht)
    fun _ _ _ ht => ⟨ht.1.owing, ht.2⟩).bind fun e => ?_
  refine (closingAudit_triple (by rfl) (by rfl)).bind fun _ => ?_
  refine (emitErasing_owing (fun _ => rfl) (fun _ h => by cases h) fun d hd =>
    .inl (List.mem_singleton.mp hd)).bind (M := fun _ t => OwingOf [] e t ∧ Ready who t) fun _ => ?_
  exact .pure fun _ _ ht => ⟨ht.1.1, ht.2⟩

-- ---------------------------------------------------------------------------
-- Viewing
-- ---------------------------------------------------------------------------

theorem buildViewed_emits {envelopeId signerId : String} :
    Emits server envelopeId none (fun _ => .note) now (buildViewed signerId : Build ι) where
  kind := .inl ⟨rfl, fun _ => rfl⟩
  clock := .inl rfl
  build e _ := by
    refine .inl ⟨rfl, ?_⟩
    unfold buildViewed
    split
    · exact Within.pure fun _ _ h => by cases h
    · split
      · exact Within.pure fun _ _ h => by cases h
      · refine now_outside.bind fun at_ _ => Within.pure fun edited input h k => ?_
        cases h
        have hsame : Same e (withBook e
            { bookOf e with viewed := Function.update (bookOf e).viewed signerId (some at_) }) :=
          ⟨rfl, rfl, rfl, rfl, rfl, rfl, rfl, rfl⟩
        exact
          { keeps := ⟨rfl, rfl, rfl, rfl⟩
            states := rfl
            owed := owed_same hsame
            envelopeId := rfl
            rewrite := fun _ h => .aside (hsame.trans h) (.inr (.inl rfl))
            expired := fun h => by cases h
            clears := fun d h => by cases h }

theorem Calm.recordViewed {envelopeId signerId : String} :
    Calm server who (fun _ => True) (Mcp.recordViewed server who envelopeId signerId : M ι Unit)
      fun _ _ => True := by
  unfold Mcp.recordViewed
  have hemit : Calm server who (fun _ => True)
      (emit server who (fun _ => .note) envelopeId (buildViewed signerId)) fun _ _ => True :=
    fun P hP => (emit_triple ⟨hP, fun h => by cases h⟩ buildViewed_emits).mono (fun _ _ ht => ht.1)
      (fun _ _ _ ht => ⟨ht.1, trivial⟩) fun _ _ _ ht => ht.elim
  refine hemit.bind fun r => ?_
  cases r with
  | none => exact .pure fun _ _ => trivial
  | some event => exact Calm.isolated (Calm.audit rfl rfl)

end

end EsigSuite.Mcp.Duties
