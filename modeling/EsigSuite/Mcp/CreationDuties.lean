import EsigSuite.Mcp.IdentityDuties

/-!
# Creation under the rules

What is inserted has identifiers that were just drawn and nothing of an event, a
link or a reminder. The writes that follow add a policy, unregistered signers
and links.
-/

namespace EsigSuite.Mcp.Duties

open Lib
open EnvelopeFile (getRev setRev)
open Protocol (Triple)

variable {ι : Type}

-- ---------------------------------------------------------------------------
-- Creation
-- ---------------------------------------------------------------------------

section
variable {server : Server} {who : ι} {A : Track (Duties ι) → Prop}

/-- An identifier is drawn. -/
theorem Calm.uuid {ids : List String} :
    Calm server who (fun t => ids <+: t.drawn) (env server : EnvelopeEnv (M ι)).randomUUID
      fun id t => id :: ids <+: t.drawn :=
  fun _ hP => .lift (Rules.call fun t _ ⟨⟨hPt, hready⟩, hids⟩ _ _ => ⟨hready.free,
    ⟨hP t _ ⟨fun _ h => h, rfl, rfl, rfl, fun _ h => h, rfl⟩ hPt, hready.who, hready.free⟩,
    List.cons_prefix_cons.mpr ⟨rfl, hids⟩⟩)

/-- A token is drawn, which is no identifier. -/
theorem Calm.token {ids : List String} :
    Calm server who (fun t => ids <+: t.drawn) (env server : EnvelopeEnv (M ι)).randomToken
      fun _ t => ids <+: t.drawn :=
  fun _ hP => .lift (Rules.call fun t _ ⟨⟨hPt, hready⟩, hids⟩ _ _ => ⟨hready.free,
    ⟨hP t _ ⟨fun _ h => h, rfl, rfl, rfl, fun _ h => h, rfl⟩ hPt, hready.who, hready.free⟩, hids⟩)

theorem Calm.createSigner {ids : List String} (s : SignerInput) :
    Calm server who (fun t => ids <+: t.drawn) (EsigSuite.createSigner (env server) s : M ι _)
      fun r t => r.1.status = .pending ∧ r.1.id :: ids <+: t.drawn := by
  unfold EsigSuite.createSigner
  refine (Calm.throwIf.mono (fun _ h => h) fun _ _ h => h.2).bind fun _ => ?_
  refine (Calm.throwIf.mono (fun _ h => h) fun _ _ h => h.2).bind fun _ => ?_
  refine (Calm.throwIf.mono (fun _ h => h) fun _ _ h => h.2).bind fun _ => ?_
  exact Calm.token.bind fun token => Calm.uuid.bind fun id => .pure fun t ht => ⟨rfl, ht⟩

theorem Calm.createSigners (signers : List SignerInput) (ids : List String) :
    Calm server who (fun t => ids <+: t.drawn)
      (signers.mapM (EsigSuite.createSigner (env server)) : M ι _) fun created t =>
        (∀ r ∈ created, r.1.status = .pending) ∧
          (created.map (·.1.id)).reverse ++ ids <+: t.drawn := by
  induction signers generalizing ids with
  | nil => exact .pure fun t ht => ⟨List.forall_mem_nil _, ht⟩
  | cons s rest ih =>
    rw [List.mapM_cons]
    refine (Calm.createSigner s).bind fun r => .given fun hr => ?_
    refine (ih _).bind fun created => .pure fun t ht => ⟨List.forall_mem_cons.mpr ⟨hr, ht.1⟩, ?_⟩
    rw [List.map_cons, List.reverse_cons, List.append_assoc]
    exact ht.2

theorem Calm.insert {e : McpEnvelope} {tag : Tag ι} (hlog : eventsOf e = []) :
    Calm server who (fun t => Fresh server t.drawn e) ((store tag).insert e) fun e' t =>
      Holding e' t ∧ e' = setRev e 0 := by
  refine fun P hP => Rules.call fun t r ⟨⟨hPt, hready⟩, hfresh⟩ hanswers _ =>
    ⟨⟨hfresh.ids.subset List.mem_cons_self, hlog, hfresh, hready.free⟩, ?_⟩
  match r, hanswers with
  | .ok e', hanswers =>
    have hown : t.own.found .plain (.ok (some e')) = { t.own with last := some e' } :=
      found_light ⟨rfl, rfl⟩ t.own e'
    have hafter : (serviceRules server).advance t (.insert e) (.ok e') =
        { t with
          seen := [e'] ++ t.seen, drawn := t.drawn.filter (· != e.id)
          own := { t.own with last := some e' } } := by
      change { t with
        seen := _, drawn := _
        own := t.own.found .plain (.ok (some e')) } = _
      rw [hown]
      rfl
    rw [hafter]
    exact ⟨⟨hP t _ ⟨fun _ h => List.mem_append_right _ h, rfl, rfl, rfl, fun _ h => h, rfl⟩ hPt,
      hready.who, hready.free⟩, ⟨rfl, List.mem_cons_self⟩, hanswers e' rfl⟩
  | .error error, _ =>
    have hown : t.own.found .plain (.error error) = t.own :=
      missed_light (show Light .plain from ⟨rfl, rfl⟩) t.own
    have hafter : (serviceRules server).advance t (.insert e) (.error error) =
        { t with seen := [] ++ t.seen, drawn := t.drawn.filter (· != e.id) } := by
      change { t with
        seen := _, drawn := _
        own := t.own.found .plain (.error error) } = _
      rw [hown]
      rfl
    rw [hafter]
    exact ⟨hP t _ ⟨fun _ h => h, rfl, rfl, rfl, fun _ h => h, rfl⟩ hPt, hready.who, hready.free⟩

/-- Nobody has signed, and nothing has expired. -/
structure Newborn (e : McpEnvelope) : Prop where
  sent : e.status = .sent
  pending : ∀ s ∈ e.signers, s.status = .pending
  emitted : expiredEmittedAt e = none

theorem Newborn.of_same {e e' : McpEnvelope} (h : Newborn e) (hsame : Same e e') (rev : Nat) :
    Newborn (setRev e' rev) :=
  ⟨hsame.status.trans h.sent, fun s hs => h.pending s (hsame.signers ▸ hs),
    hsame.emitted.trans h.emitted⟩

/-- A write that keeps all but the bookkeeping, right after creation. -/
theorem Calm.settle {e : McpEnvelope} (e' : McpEnvelope) (hsame : Same e e') (hkeeps : KeepsLog e e')
    (hstates : statesOf e' = statesOf e) (hborn : Newborn e) :
    Calm server who (Holding e) ((store ⟨who, .plain⟩).update e') fun e'' t =>
      Newborn e'' ∧ Holding e'' t :=
  (Calm.write rfl (owed_same hsame) hkeeps (.aside hsame (.inl rfl)) (fun _ ht => .inr ht)
    fun _ _ => .same hstates).mono (fun _ h => h) fun _ _ h => ⟨h.2 ▸ hborn.of_same hsame _, h.1⟩

theorem Calm.createEnvelope {args : CreateEnvelopeArgs (SealMetadata Bookkeeping)}
    {text : String → String} {message : Option String}
    (hrest : args.rest = { other := { message } }) :
    Calm server who (fun _ => True)
      (EsigSuite.createEnvelope (store ⟨who, .plain⟩) (env server)
        { tenantId := server.config.tenant, title := args.title, html := args.html,
          signers := args.signers, expiresAt := args.expiresAt,
          metadata := some { htmlSha256 := some (text args.html), identity := {},
                             rest := args.rest } } : M ι _)
      fun r t => Newborn r.1 ∧ Holding r.1 t := by
  unfold EsigSuite.createEnvelope
  refine Calm.throwIf.bind fun _ => Calm.throwIf.bind fun _ => Calm.throwIf.bind fun _ => ?_
  refine Calm.bind (R := fun _ _ => True) ?_ fun _ => ?_
  · unfold checkExpiresAt
    split
    · exact .pure fun _ _ => trivial
    · exact (Calm.outside env_now_outside).bind fun _ => Calm.throwIf.any
  refine ((Calm.createSigners args.signers []).mono (fun t _ => List.nil_prefix) fun _ _ h => h).bind
    fun created => .given fun hpending => ?_
  refine Calm.uuid.bind fun id => ?_
  refine ((Calm.outside env_now_outside).mono (fun _ h => h) fun _ _ h => h.2).bind fun createdAt => ?_
  have hsigners : ∀ s ∈ created.map (·.1), s.status = EnvelopeSignerStatus.pending := by
    simpa using hpending
  refine ((Calm.insert ?_).mono (fun t ht => ?_) fun _ _ h => h).bind fun e => .pure fun t ht => ?_
  · rw [hrest]
    rfl
  · exact
      { tenantId := rfl
        status := rfl
        pending := hsigners
        ids := by simpa [List.map_map, Function.comp_def] using ht
        links := by rw [hrest]; rfl
        reminders := by rw [hrest]; rfl
        emitted := by rw [hrest]; rfl
        states := rfl }
  · obtain ⟨hholding, rfl⟩ := ht
    exact ⟨⟨rfl, hsigners, by rw [hrest]; rfl⟩, hholding⟩

theorem checkIdentityArgs_outside {args : CreateEnvelopeArgs (SealMetadata Bookkeeping)} :
    Outside (fun _ => True) (checkIdentityArgs (identityDeps server who) args : M ι Unit) := by
  unfold checkIdentityArgs
  refine throwIf_outside.bind fun _ _ => throwIf_outside.bind fun _ _ => Within.forM fun s _ => ?_
  refine throwIf_outside.bind fun _ _ => throwIf_outside.bind fun _ _ => ?_
  split
  · exact Within.pure trivial
  · exact throwIf_outside.any

theorem Calm.createCore {args : CreateEnvelopeArgs (SealMetadata Bookkeeping)}
    {message : Option String} (hrest : args.rest = { other := { message } }) :
    Calm server who (fun _ => True)
      (EsigSuite.create (identityDeps server who) args : M ι _)
      fun r t => Newborn r.1 ∧ Holding r.1 t := by
  unfold EsigSuite.create
  refine Calm.throwIf.bind fun _ => Calm.throwIf.bind fun _ => ?_
  refine (Calm.outside checkIdentityArgs_outside).any.bind fun _ => ?_
  refine (Calm.createEnvelope hrest).bind fun (e, tokens) => .given fun hborn => ?_
  dsimp only
  split
  · refine Calm.bind (R := fun e' t => Newborn e' ∧ Holding e' t) ?_ fun e' => .pure fun _ h => h
    exact Calm.settle (e := e) (setEnvelopeIdentityPolicy e _) ⟨rfl, rfl, rfl, rfl, rfl, rfl, rfl, rfl⟩
      ⟨rfl, rfl, rfl, rfl⟩ rfl hborn
  · exact .pure fun _ h => ⟨hborn, h⟩

theorem Calm.recordUnregistered {e : McpEnvelope} {indices : List Nat} (hborn : Newborn e) :
    Calm server who (Holding e) (Mcp.recordUnregistered server who e indices : M ι _)
      fun e' t => Newborn e' ∧ Holding e' t := by
  unfold Mcp.recordUnregistered
  split
  · exact .pure fun _ h => ⟨hborn, h⟩
  · dsimp only
    refine (Calm.settle (e := e) (withBook e { bookOf e with
        pillarUnregisteredSignerIds := indices.filterMap fun i => (e.signers[i]?).map (·.id) }) ⟨rfl, rfl, rfl, rfl, rfl, rfl, rfl, rfl⟩
      ⟨rfl, rfl, rfl, rfl⟩ rfl hborn).bind fun e' => .given fun hborn' => ?_
    refine Calm.bind (R := fun _ => Holding e') ?_ fun _ => .pure fun _ h => ⟨hborn', h⟩
    generalize indices.filterMap (fun i => (e.signers[i]?).map (·.id)) = ids
    induction ids with
    | nil => exact .pure fun _ h => h
    | cons id rest ih => exact (Calm.audit rfl rfl).bind fun _ => ih

theorem encryptLink_outside (l : DeliveryLink) :
    Outside (fun _ => True) (encryptLink l : M ι (String × String)) :=
  Within.bind (R := fun _ => True) (Within.lift ⟨rfl, fun _ => trivial⟩) fun _ _ =>
    Within.pure trivial

theorem Calm.persistLinks {e : McpEnvelope} {links : List DeliveryLink} (hborn : Newborn e) :
    Calm server who (Holding e) (Mcp.persistLinks server who e links : M ι _)
      fun _ _ => True := by
  unfold Mcp.persistLinks
  split
  · refine ((Calm.outside (Within.mapM fun l _ => encryptLink_outside l)).mono (fun _ h => h)
      fun _ _ h => h.2).bind fun encryptedLinks => ?_
    have hrewrite : Rewrite server e (withLinks e encryptedLinks) .plain :=
      .persist hborn.sent hborn.pending hborn.emitted encryptedLinks (.refl _)
    have hkeeps : KeepsLog e (withLinks e encryptedLinks) := ⟨rfl, rfl, rfl, rfl⟩
    have howed : owed e (withLinks e encryptedLinks) = [] := owed_none rfl fun h => h.2 rfl
    exact (Calm.write rfl howed hkeeps hrewrite (fun _ ht => .inr ht) fun _ _ => .same rfl).any
  · exact .pure fun _ _ => trivial

theorem Calm.create {args : CreateArgs} :
    Calm server who (fun _ => True) (Mcp.create server who args : M ι _) fun _ _ => True := by
  unfold Mcp.create
  refine (Calm.outside (R := fun _ => True) (Within.mk (Prog.Within.perform
    (C := fun op : Op ι => op.outside = true) rfl))).any.bind fun unregistered => ?_
  refine (Calm.createCore rfl).bind fun (e, tokens) => .given fun hborn => ?_
  refine (Calm.recordUnregistered hborn).bind fun e => .given fun hborn => ?_
  refine (Calm.persistLinks hborn).bind fun e => Calm.deliver.bind fun receipts => ?_
  refine (Calm.audit rfl rfl).bind fun _ => ?_
  exact (Calm.emitPlain (fun _ => rfl) fun _ h => by cases h).bind fun _ => .pure fun _ _ => trivial

end

end EsigSuite.Mcp.Duties
