import EsigSuite.Mcp.ServiceRules

/-!
# Calls that leave duties as they are

`Calm` is that a program keeps the rules and whatever does not depend on what
was read or drawn. The stores, the outside and their combinations are calm.
-/

namespace EsigSuite.Mcp.Duties

open Lib
open EnvelopeFile (getRev setRev)
open Protocol (Triple)

variable {ι : Type}

-- ---------------------------------------------------------------------------
-- What lasts
-- ---------------------------------------------------------------------------

/-- More is seen, and no duty is added or given up. -/
structure Ahead (t t' : Track (Duties ι)) : Prop where
  seen : ∀ e ∈ t.seen, e ∈ t'.seen
  held : t'.own.held = t.own.held
  failed : t'.own.failed = t.own.failed
  gaveUp : t'.own.gaveUp = t.own.gaveUp
  links : ∀ d ∈ t'.own.links, d ∈ t.own.links
  linksLost : t'.own.linksLost = t.own.linksLost

def Steady (P : Track (Duties ι) → Prop) : Prop := ∀ t t', Ahead t t' → P t → P t'

/-- Between two emissions. -/
structure Ready (who : ι) (t : Track (Duties ι)) : Prop where
  who : t.own.who = who
  free : Enqueued t.own

def Holding (e : McpEnvelope) (t : Track (Duties ι)) : Prop := t.own.last = some e ∧ e ∈ t.seen

theorem Ahead.refl (t : Track (Duties ι)) : Ahead t t :=
  ⟨fun _ h => h, rfl, rfl, rfl, fun _ h => h, rfl⟩

theorem Steady.and {P Q : Track (Duties ι) → Prop} (hP : Steady P) (hQ : Steady Q) :
    Steady fun t => P t ∧ Q t :=
  fun t t' h hPQ => ⟨hP t t' h hPQ.1, hQ t t' h hPQ.2⟩

theorem steady_seen (e : McpEnvelope) : Steady (fun t : Track (Duties ι) => e ∈ t.seen) :=
  fun _ _ h he => h.seen e he

theorem steady_const (q : Prop) : Steady (fun _ : Track (Duties ι) => q) := fun _ _ _ h => h

/-- From `A`, the program ends with `R`, or throws. -/
def Calm {α : Type} (server : Server) (who : ι) (A : Track (Duties ι) → Prop) (x : M ι α)
    (R : α → Track (Duties ι) → Prop) : Prop :=
  ∀ P, Steady P → (serviceRules server).watch.protocol.Triple x
    (fun t => (P t ∧ Ready who t) ∧ A t) (fun a t => (P t ∧ Ready who t) ∧ R a t)
    fun _ t => P t ∧ Ready who t

-- ---------------------------------------------------------------------------
-- Combining programs
-- ---------------------------------------------------------------------------

namespace Calm

variable {α β : Type} {server : Server} {who : ι} {A A' : Track (Duties ι) → Prop} {x : M ι α}
  {f : α → M ι β} {R R' : α → Track (Duties ι) → Prop} {S : β → Track (Duties ι) → Prop}

theorem pure {a : α} (h : ∀ t, A t → R a t) : Calm server who A (Pure.pure a) R :=
  fun _ _ => .pure fun t _ ht => ⟨ht.1, h t ht.2⟩

theorem throw (e : Thrown) : Calm server who A (throwThe Thrown e : M ι α) R :=
  fun _ _ => .throw fun _ _ ht => ht.1

theorem bind (hx : Calm server who A x R) (hf : ∀ a, Calm server who (R a) (f a) S) :
    Calm server who A (x >>= f) S :=
  fun P hP => (hx P hP).bind fun a => hf a P hP

theorem mono (hx : Calm server who A x R) (hA : ∀ t, A' t → A t) (hR : ∀ a t, R a t → R' a t) :
    Calm server who A' x R' :=
  fun P hP => (hx P hP).mono (fun t _ h => ⟨h.1, hA t h.2⟩) (fun a t _ h => ⟨h.1, hR a t h.2⟩)
    fun _ _ _ h => h

theorem any (hx : Calm server who A x R) : Calm server who A x fun _ _ => True :=
  hx.mono (fun _ h => h) fun _ _ _ => trivial

theorem frame {F : Track (Duties ι) → Prop} (hx : Calm server who A x R) (hF : Steady F) :
    Calm server who (fun t => A t ∧ F t) x fun a t => R a t ∧ F t :=
  fun P hP => (hx _ (hP.and hF)).mono (fun _ _ h => ⟨⟨⟨h.1.1, h.2.2⟩, h.1.2⟩, h.2.1⟩)
    (fun _ _ _ h => ⟨⟨h.1.1.1, h.1.2⟩, h.2, h.1.1.2⟩) fun _ _ _ h => ⟨h.1.1, h.2⟩

theorem given {q : Prop} (h : q → Calm server who A x R) :
    Calm server who (fun t => q ∧ A t) x R :=
  fun P hP => Triple.know (fun _ _ ht => ht.2.1) fun hq =>
    (h hq P hP).mono (fun _ _ ht => ⟨ht.1, ht.2.2⟩) (fun _ _ _ h => h) fun _ _ _ h => h

theorem know {q : Prop} (hq : ∀ t, A t → q) (h : q → Calm server who A x R) :
    Calm server who A x R :=
  (given h).mono (fun t ht => ⟨hq t ht, ht⟩) fun _ _ h => h

theorem tryCatch {handler : Thrown → M ι α} (hx : Calm server who A x R)
    (hh : ∀ e, Calm server who (fun _ => True) (handler e) R) :
    Calm server who A (tryCatchThe Thrown x handler) R :=
  fun P hP => Triple.tryCatch (hx P hP) fun e =>
    (hh e P hP).mono (fun _ _ h => ⟨h, trivial⟩) (fun _ _ _ h => h) fun _ _ _ h => h

theorem throwIf {bad : Prop} [Decidable bad] {e : Thrown} :
    Calm server who A (EsigSuite.throwIf bad e) fun _ t => ¬ bad ∧ A t :=
  fun _ _ => (throwIf_triple fun _ _ h => h.1).mono (fun _ _ h => h)
    (fun _ _ _ h => ⟨h.2.1, h.1, h.2.2⟩) fun _ _ _ h => h

theorem forM {g : α → M ι Unit} {xs : List α} (hA : Steady A)
    (hg : ∀ a ∈ xs, Calm server who A (g a) fun _ _ => True) :
    Calm server who A (xs.forM g) fun _ _ => True := by
  induction xs with
  | nil => exact pure fun _ _ => trivial
  | cons a rest ih =>
    have hkept := ((hg a List.mem_cons_self).frame hA).mono (fun t h => ⟨h, h⟩) fun _ _ h => h.2
    exact hkept.bind fun _ => ih fun b hb => hg b (List.mem_cons_of_mem _ hb)

theorem mapM {g : α → M ι β} {xs : List α} (hA : Steady A)
    (hg : ∀ a ∈ xs, Calm server who A (g a) fun _ _ => True) :
    Calm server who A (xs.mapM g) fun _ _ => True := by
  induction xs with
  | nil => exact pure fun _ _ => trivial
  | cons a rest ih =>
    rw [List.mapM_cons]
    have hkept := ((hg a List.mem_cons_self).frame hA).mono (fun t h => ⟨h, h⟩) fun _ _ h => h.2
    exact hkept.bind fun _ => (ih fun b hb => hg b (List.mem_cons_of_mem _ hb)).bind fun _ =>
      pure fun _ _ => trivial

theorem discard (hx : Calm server who A x R) :
    Calm server who A (discard x) fun _ _ => True :=
  hx.bind fun _ => pure fun _ _ => trivial

theorem isolated {x : M ι Unit} {R : Unit → Track (Duties ι) → Prop} (hx : Calm server who A x R) :
    Calm server who A (Mcp.isolated x) fun _ _ => True :=
  (hx.any).tryCatch fun _ => pure fun _ _ => trivial

end Calm

-- ---------------------------------------------------------------------------
-- Calls
-- ---------------------------------------------------------------------------

section
variable {server : Server} {who : ι} {tenantId envelopeId : String} {tag : Tag ι}
  {A : Track (Duties ι) → Prop}

/-- A program that asks only the outside. -/
theorem outside_triple {α : Type} {R : α → Prop} {x : M ι α} {P : Track (Duties ι) → Prop}
    (hx : Outside R x) (hP : ∀ t, P t → Enqueued t.own) :
    (serviceRules server).watch.protocol.Triple x P (fun a t => R a ∧ P t) fun _ => P := by
  refine Protocol.Holds.post (Watch.within (P := P) hx fun op hop t r hlawful hPt => ?_) fun
    | .ok _, _, _, h => h
    | .error _, _, _, h => h.2
  have hpermits : (serviceRules server).permits t op := by
    cases op <;> first | exact hP t hPt | cases hop
  have hsame : (serviceRules server).advance t op r = t := by
    cases op <;> first | rfl | cases hop
  rw [show (serviceRules server).watch.next t op r = t from
    (Rules.track_eq hlawful hpermits r).trans hsame]
  exact ⟨hlawful, hPt⟩

theorem Calm.outside {α : Type} {R : α → Prop} {x : M ι α} (hx : Outside R x) :
    Calm server who A x fun a t => R a ∧ A t :=
  fun _ _ => (outside_triple hx fun _ h => h.1.2.free).mono (fun _ _ h => h)
    (fun _ _ _ h => ⟨h.2.1, h.1, h.2.2⟩) fun _ _ _ h => h.1

theorem Calm.now : Calm server who A (Mcp.now : M ι Time) fun _ => A :=
  (Calm.outside now_outside).mono (fun _ h => h) fun _ _ h => h.2

/-- Purposes whose reads may fail without a loss. -/
def Light (purpose : Purpose) : Prop := purpose.erases = false ∧ purpose.rollsBack = false

theorem missed_light {purpose : Purpose} (h : Light purpose) (own : Duties ι) :
    own.missed purpose = own := by
  rw [missed, h.1, h.2, Bool.or_false, Bool.or_false]

theorem found_light {purpose : Purpose} (h : Light purpose) (own : Duties ι) (e : McpEnvelope) :
    own.found purpose (.ok (some e)) = { own with last := some e } := by
  have hstrays : purpose.strays e = false := by cases purpose <;> first | rfl | cases h.2
  rw [found, hstrays, Bool.or_false]

theorem read_ahead (t : Track (Duties ι)) (es : List McpEnvelope) (last : Option McpEnvelope) :
    Ahead t { t with seen := es ++ t.seen, own := { t.own with last } } :=
  ⟨fun _ h => List.mem_append_right _ h, rfl, rfl, rfl, fun _ h => h, rfl⟩

theorem Ready.read {t : Track (Duties ι)} (h : Ready who t) (es : List McpEnvelope)
    (last : Option McpEnvelope) :
    Ready who { t with seen := es ++ t.seen, own := { t.own with last } } :=
  ⟨h.who, h.free⟩

theorem Calm.findById (hlight : Light tag.purpose) :
    Calm server who A ((store tag).findById tenantId envelopeId) fun r t =>
      ∀ e, r = some e → Holding e t ∧ e.tenantId = tenantId ∧ e.id = envelopeId := by
  refine fun P hP => Rules.call fun t r ⟨⟨hPt, hready⟩, _⟩ hanswers _ => ⟨hready.free, ?_⟩
  match r, hanswers with
  | .error e, _ =>
    change P { t with own := t.own.missed tag.purpose } ∧ Ready who { t with own := t.own.missed tag.purpose }
    rw [missed_light hlight]
    exact ⟨hPt, hready⟩
  | .ok none, _ =>
    change (P { t with own := t.own.missed tag.purpose } ∧
      Ready who { t with own := t.own.missed tag.purpose }) ∧ _
    rw [missed_light hlight]
    exact ⟨⟨hPt, hready⟩, fun e he => by cases he⟩
  | .ok (some e), hanswers =>
    have hown := found_light hlight t.own e
    refine ⟨?_, ?_⟩
    · change P { t with seen := [e] ++ t.seen, own := t.own.found tag.purpose (.ok (some e)) } ∧
        Ready who { t with seen := [e] ++ t.seen, own := t.own.found tag.purpose (.ok (some e)) }
      rw [hown]
      exact ⟨hP t _ (read_ahead t [e] (some e)) hPt, hready.read [e] (some e)⟩
    · rintro _ ⟨⟩
      exact ⟨⟨rfl, List.mem_cons_self⟩, hanswers e rfl⟩

theorem Calm.findByTokenHash {tokenHash : String} :
    Calm server who A ((store tag).findByTokenHash tokenHash) fun r t =>
      ∀ e, r = some e → Holding e t := by
  refine fun P hP => Rules.call fun t r ⟨⟨hPt, hready⟩, _⟩ hanswers _ => ⟨hready.free, ?_⟩
  have hmissed := missed_light (ι := ι) (show Light .plain from ⟨rfl, rfl⟩) t.own
  match r, hanswers with
  | .error e, _ =>
    change P { t with own := t.own.missed .plain } ∧ Ready who { t with own := t.own.missed .plain }
    rw [hmissed]
    exact ⟨hPt, hready⟩
  | .ok none, _ =>
    change (P { t with own := t.own.missed .plain } ∧
      Ready who { t with own := t.own.missed .plain }) ∧ _
    rw [hmissed]
    exact ⟨⟨hPt, hready⟩, fun e he => by cases he⟩
  | .ok (some e), hanswers =>
    have hown := found_light (show Light .plain from ⟨rfl, rfl⟩) t.own e
    refine ⟨?_, ?_⟩
    · change P { t with seen := [e] ++ t.seen, own := t.own.found .plain (.ok (some e)) } ∧
        Ready who { t with seen := [e] ++ t.seen, own := t.own.found .plain (.ok (some e)) }
      rw [hown]
      exact ⟨hP t _ (read_ahead t [e] (some e)) hPt, hready.read [e] (some e)⟩
    · rintro _ ⟨⟩
      exact ⟨rfl, List.mem_cons_self⟩

theorem Calm.listEnvelopes :
    Calm server who A (Mcp.listEnvelopes tenantId : M ι _) fun es t =>
      ∀ e ∈ es, e ∈ t.seen ∧ e.tenantId = tenantId := by
  refine fun P hP => Rules.call fun t r ⟨⟨hPt, hready⟩, _⟩ hanswers _ => ⟨hready.free, ?_⟩
  match r, hanswers with
  | .error e, _ => exact ⟨hPt, hready⟩
  | .ok es, hanswers =>
    refine ⟨⟨hP t _ (read_ahead t es t.own.last) hPt, hready.read es t.own.last⟩, fun e he => ?_⟩
    exact ⟨List.mem_append_left _ he, hanswers es rfl e he⟩

/-- A row that nothing depends on. -/
theorem Calm.auditInsert {entry : AuditLogEntry} (hcloses : closes entry.action = false)
    (hinterposes : interposes entry.action = false) :
    Calm server who A (Mcp.auditInsert entry : M ι Unit) fun _ => A := by
  refine fun P hP => Rules.call fun t r ⟨⟨hPt, hready⟩, hA⟩ _ _ => ⟨.inr hready.free, ?_⟩
  match r with
  | .ok () => exact ⟨⟨hPt, hready⟩, hA⟩
  | .error e =>
    have hsame : t.own.audited entry.action (.error e) = t.own := by
      rw [audited, hcloses, hinterposes, Bool.or_false, Bool.or_false]
    change P { t with own := t.own.audited entry.action (.error e) } ∧
      Ready who { t with own := t.own.audited entry.action (.error e) }
    rw [hsame]
    exact ⟨hPt, hready⟩

theorem Calm.audit {action : AuditAction} {target : String} {metadata : AuditMetadata}
    (hcloses : closes action = false) (hinterposes : interposes action = false) :
    Calm server who A (Mcp.audit server action target metadata : M ι Unit) fun _ => A :=
  .auditInsert hcloses hinterposes

/-- A deliver that is not about a claim. -/
theorem Calm.deliver {envelope : DeliveryEnvelope} {links : List DeliveryLink} :
    Calm server who A (Mcp.deliver ⟨who, .plain⟩ envelope links : M ι _) fun _ => A := by
  refine fun P hP => Rules.call fun t r ⟨⟨hPt, hready⟩, hA⟩ _ _ =>
    ⟨⟨hready.who.symm, hready.free, fun c sentTimestamp h => by cases h⟩, ?_⟩
  match r with
  | .ok [] => exact ⟨⟨hPt, hready⟩, hA⟩
  | .ok (receipt :: rest) => exact ⟨⟨hPt, hready⟩, hA⟩
  | .error e => exact ⟨hPt, hready⟩

-- ---------------------------------------------------------------------------
-- Writes without an event
-- ---------------------------------------------------------------------------

theorem misses_of_owed {read e : McpEnvelope} (h : owed read e = []) (purpose : Purpose) :
    misses read e purpose = false := by
  have hnone : newlySigned read e = [] := by
    rw [owed, List.append_eq_nil_iff, List.map_eq_nil_iff] at h
    exact h.1
  cases purpose <;> first | rfl | (rw [misses, hnone]; rfl)

theorem written_bare {webhook : Bool} {own : Duties ι} {purpose : Purpose}
    {read e e' : McpEnvelope} (hbare : purpose.bare = true)
    (howed : purpose.changes = true → owed read e = []) :
    own.written webhook purpose read e e' =
      { own with
        last := some e', links := own.links.filter (stillStored e), nonce := none } := by
  have hnotes : purpose.notes = false := by cases purpose <;> first | rfl | cases hbare
  have hheld : own.heldAfter e purpose = own.held := by
    cases purpose <;> first | rfl | cases hbare
  have hfailed : own.failedAfter purpose = own.failed := by
    cases purpose <;> first | rfl | cases hbare
  have hadded : (if purpose.changes then owed read e else []) = [] := by
    cases hchanges : purpose.changes with
    | true => exact howed hchanges
    | false => rfl
  have hmisses : (purpose.changes && misses read e purpose) = false := by
    cases hchanges : purpose.changes with
    | true => exact misses_of_owed (howed hchanges) purpose
    | false => rfl
  rw [written, hnotes, hheld, hfailed, hadded, hmisses, Bool.and_false, List.append_nil,
    Bool.or_false]
  rfl

theorem updated_bare_error {webhook : Bool} {own : Duties ι} {purpose : Purpose} {e : McpEnvelope}
    {error : Thrown} (hbare : purpose.bare = true) :
    own.updated webhook purpose e (.error error) = { own with nonce := none } := by
  have herases : purpose.erasesLast = false := by cases purpose <;> first | rfl | cases hbare
  have hrolls : purpose.rollsBackLast = false := by cases purpose <;> first | rfl | cases hbare
  rw [updated, herases, hrolls, Bool.or_false, Bool.or_false]

/-- The thread after a write without an event. -/
def wroteBare (t : Track (Duties ι)) (e e' : McpEnvelope) (drawn : List String) :
    Track (Duties ι) :=
  { t with
    seen := [e'] ++ t.seen, drawn
    own := { t.own with
      last := some e', links := t.own.links.filter (stillStored e), nonce := none } }

theorem wroteBare_ahead (t : Track (Duties ι)) (e e' : McpEnvelope) (drawn : List String) :
    Ahead t (wroteBare t e e' drawn) :=
  ⟨fun _ h => List.mem_append_right _ h, rfl, rfl, rfl, fun _ h => (List.mem_filter.mp h).1, rfl⟩

/-- The thread after a write that failed and costs nothing. -/
def failedBare (t : Track (Duties ι)) (drawn : List String) : Track (Duties ι) :=
  { t with seen := [] ++ t.seen, drawn, own := { t.own with nonce := none } }

theorem failedBare_ahead (t : Track (Duties ι)) (drawn : List String) :
    Ahead t (failedBare t drawn) :=
  ⟨fun _ h => h, rfl, rfl, rfl, fun _ h => h, rfl⟩

/-- What a write without an event is held to. -/
theorem bare_writes {server : Server} {t : Track (Duties ι)} {read e : McpEnvelope}
    {purpose : Purpose} (hbare : purpose.bare = true) (hready : Ready who t)
    (howed : owed read e ≠ [] → t.own.linksLost = false) (hkeeps : KeepsLog read e)
    (hrewrite : Rewrite server read e purpose)
    (hlast : purpose = .seal ∨ t.own.last = some read)
    (hidentity : IdentityEdit t.own.nonce read e) : Writes server t ⟨who, purpose⟩ read e where
  last := hlast
  who := hready.who.symm
  rewrite := hrewrite
  noted := by
    have hnotes : purpose.notes = false := by cases purpose <;> first | rfl | cases hbare
    rw [Noted, if_neg (by rw [hnotes]; exact Bool.false_ne_true)]
    exact hkeeps.2.2.2
  identity := hidentity
  owes := howed
  claims c sentTimestamp h := by
    change purpose = _ at h
    rw [h] at hbare
    cases hbare
  rollsBack c sentTimestamp index left h := by
    change purpose = _ at h
    rw [h] at hbare
    cases hbare

theorem Calm.write {read e : McpEnvelope} {purpose : Purpose} (hbare : purpose.bare = true)
    (howed : owed read e = []) (hkeeps : KeepsLog read e) (hrewrite : Rewrite server read e purpose)
    (hA : ∀ t, A t → (purpose = .seal ∧ read ∈ t.seen) ∨ Holding read t)
    (hidentity : ∀ t, A t → IdentityEdit t.own.nonce read e) :
    Calm server who A ((store ⟨who, purpose⟩).update e) fun e' t =>
      Holding e' t ∧ e' = setRev e (getRev e + 1) := by
  refine fun P hP => Rules.call fun t r ⟨⟨hPt, hready⟩, hAt⟩ hanswers _ => ⟨⟨⟨read, ?_, ?_, ?_⟩, ?_⟩, ?_⟩
  · exact (hA t hAt).elim (·.2) (·.2)
  · exact ⟨hkeeps.1, hkeeps.2.1, hkeeps.2.2.1, .inl hkeeps.2.2.2⟩
  · exact bare_writes hbare hready (fun h => absurd howed h) hkeeps hrewrite
      ((hA t hAt).imp (·.1) (·.1)) (hidentity t hAt)
  · exact hready.free
  · match r, hanswers with
    | .ok e', hanswers =>
      have hown : t.own.updated server.config.webhook purpose e (.ok e') =
          { t.own with
            last := some e', links := t.own.links.filter (stillStored e), nonce := none } := by
        refine written_bare hbare fun hchanges => ?_
        rcases hA t hAt with ⟨rfl, -⟩ | hholding
        · cases hchanges
        · rw [hholding.1]
          exact howed
      have hafter : (serviceRules server).advance t (.update ⟨who, purpose⟩ e) (.ok e') =
          wroteBare t e e' (t.drawn.filter fun id => !(eventsOf e).any (·.id == id)) := by
        change { t with
          seen := _, drawn := _
          own := t.own.updated server.config.webhook purpose e (.ok e') } = _
        rw [hown]
        rfl
      rw [hafter]
      exact ⟨⟨hP t _ (wroteBare_ahead ..) hPt, hready.who, hready.free⟩,
        ⟨rfl, List.mem_cons_self⟩, hanswers e' rfl⟩
    | .error error, _ =>
      have hafter : (serviceRules server).advance t (.update ⟨who, purpose⟩ e) (.error error) =
          failedBare t (t.drawn.filter fun id => !(eventsOf e).any (·.id == id)) := by
        change { t with
          seen := _, drawn := _
          own := t.own.updated server.config.webhook purpose e (.error error) } = _
        rw [updated_bare_error hbare]
        rfl
      rw [hafter]
      exact ⟨hP t _ (failedBare_ahead ..) hPt, hready.who, hready.free⟩

end

end EsigSuite.Mcp.Duties
