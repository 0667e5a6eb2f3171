import EsigSuite.Mcp.ServiceLogic

/-!
# Emissions under the rules

`appendEvent` and what emits with it. An event that was stored is enqueued
before anything else is written, unless a call failed that stands in between;
stored links that an emission takes away are owed no longer.
-/

namespace EsigSuite.Mcp.Duties

open Lib
open EnvelopeFile (getRev setRev)
open Protocol (Triple)

variable {ι : Type}

-- ---------------------------------------------------------------------------
-- Assertions
-- ---------------------------------------------------------------------------

/-- An event has just been stored. -/
def Stored (server : Server) (event : EsigEvent) (t : Track (Duties ι)) : Prop :=
  if server.config.webhook then t.own.event = some event ∨ t.own.eventLost = true
  else Enqueued t.own

/-- The link is no longer owed, or will stay. -/
def Cleared (D : Option (String × Option String)) (t : Track (Duties ι)) : Prop :=
  t.own.linksLost = true ∨ ∀ d, D = some d → d ∉ t.own.links

/-- What is kept where links may be lost. -/
structure Borne (D : Option (String × Option String)) (P : Track (Duties ι) → Prop) : Prop where
  steady : Steady P
  lost : D.isSome → ∀ t : Track (Duties ι), P t → P { t with own := { t.own with linksLost := true } }

/-- An emission gave up, or is over. -/
def Quit (who : ι) (P : Track (Duties ι) → Prop) (D : Option (String × Option String))
    (t : Track (Duties ι)) : Prop :=
  (P t ∧ Ready who t) ∧ Cleared D t

/-- The event is stored, with what its edit clears. -/
def After (server : Server) (who : ι) (P : Track (Duties ι) → Prop)
    (D : Option (String × Option String)) (event : EsigEvent) (t : Track (Duties ι)) : Prop :=
  P t ∧ t.own.who = who ∧ Stored server event t ∧ Cleared D t

theorem cleared_none (t : Track (Duties ι)) : Cleared none t := .inr fun _ h => by cases h

-- ---------------------------------------------------------------------------
-- Plans
-- ---------------------------------------------------------------------------

/-- An edit of an envelope and the event that tells of it. -/
structure Plan (server : Server) (D : Option (String × Option String)) (e edited : McpEnvelope)
    (input : EsigEventInput) (purpose : Purpose) : Prop where
  keeps : KeepsLog e edited
  states : statesOf edited = statesOf e
  owed : owed e edited = []
  envelopeId : input.envelopeId = e.id
  rewrite : ∀ e', Same edited e' → Rewrite server e e' purpose
  expired : input.type = .envelope_expired → expiredEmittedAt e = none ∧
    expiredEmittedAt edited ≠ none ∧ (e.live = true ∨ e.status = .expired)
  clears : ∀ d, D = some d → stillStored edited d = false

theorem newlySigned_same {e e' : McpEnvelope} (h : e'.signers = e.signers) :
    newlySigned e e' = [] := by
  rw [newlySigned, h, List.map_eq_nil_iff, List.filter_eq_nil_iff]
  intro s hs
  have hsame : s.1 = s.2 := by
    obtain ⟨j, -, rfl⟩ := List.mem_iff_getElem.mp hs
    simp
  simp [hsame]

theorem owed_none {e e' : McpEnvelope} (hsigners : e'.signers = e.signers)
    (hopened : ¬ (Closed e' ∧ e'.status ≠ e.status)) : owed e e' = [] := by
  rw [Mcp.owed, newlySigned_same hsigners, if_neg hopened]
  rfl

theorem owed_same {e e' : McpEnvelope} (h : Same e e') : owed e e' = [] :=
  owed_none h.signers fun hboth => hboth.2 h.status

theorem stored_same (edited : McpEnvelope) (event : EsigEvent) :
    Same edited (appendEventInMemory edited event).1 := ⟨rfl, rfl, rfl, rfl, rfl, rfl, rfl, rfl⟩

theorem stored_log (edited : McpEnvelope) (event : EsigEvent) :
    eventsOf (appendEventInMemory edited event).1 = lastEvents (eventsOf edited ++ [event]) := rfl

theorem stillStored_congr {e e' : McpEnvelope} (hid : e'.id = e.id) (hlinks : linksOf e' = linksOf e)
    (d : String × Option String) : stillStored e' d = stillStored e d := by
  obtain ⟨id, signerId⟩ := d
  cases signerId <;> rw [stillStored, stillStored, hid, hlinks]

theorem owed_congr {read e e' : McpEnvelope} (h : Same e e') (hid : e'.id = e.id) :
    owed read e' = owed read e := by
  have hclosed : Closed e' ↔ Closed e := by rw [Closed, Closed, h.status]
  rw [Mcp.owed, Mcp.owed, newlySigned, newlySigned, h.signers, hid]
  congr 1
  exact if_congr (and_congr hclosed (by rw [h.status])) rfl rfl

theorem written_noting {webhook : Bool} {own : Duties ι} {purpose : Purpose}
    {read e e' : McpEnvelope} (hnotes : purpose.notes = true) :
    own.written webhook purpose read e e' =
      { own with
        last := some e', event := if webhook then (eventsOf e).getLast? else own.event,
        links := own.links.filter (stillStored e), nonce := none } := by
  have hchanges : purpose.changes = false := by cases purpose <;> first | rfl | cases hnotes
  have hheld : own.heldAfter e purpose = own.held := by
    cases purpose <;> first | rfl | cases hnotes
  have hfailed : own.failedAfter purpose = own.failed := by
    cases purpose <;> first | rfl | cases hnotes
  rw [written, hnotes, hchanges, hheld, hfailed, Bool.and_true, Bool.false_and, Bool.or_false]
  simp only [Bool.false_eq_true, if_false, List.append_nil]

theorem updated_noting_error {webhook : Bool} {own : Duties ι} {purpose : Purpose} {e : McpEnvelope}
    {error : Thrown} (hnotes : purpose.notes = true) :
    own.updated webhook purpose e (.error error) =
      { own with linksLost := own.linksLost || purpose.erasesLast, nonce := none } := by
  have hrolls : purpose.rollsBackLast = false := by cases purpose <;> first | rfl | cases hnotes
  rw [updated, hrolls, Bool.or_false]

-- ---------------------------------------------------------------------------
-- Storing an event
-- ---------------------------------------------------------------------------

section
variable {server : Server} {who : ι} {envelopeId tenantId : String} {P : Track (Duties ι) → Prop}
  {D : Option (String × Option String)} {purpose : Purpose} {e edited : McpEnvelope}
  {input : EsigEventInput}

/-- The thread after an event was stored. -/
def wroteNoting (webhook : Bool) (t : Track (Duties ι)) (e e' : McpEnvelope)
    (drawn : List String) : Track (Duties ι) :=
  { t with
    seen := [e'] ++ t.seen, drawn
    own := { t.own with
      last := some e', event := if webhook then (eventsOf e).getLast? else t.own.event,
      links := t.own.links.filter (stillStored e), nonce := none } }

theorem wroteNoting_ahead (webhook : Bool) (t : Track (Duties ι)) (e e' : McpEnvelope)
    (drawn : List String) : Ahead t (wroteNoting webhook t e e' drawn) :=
  ⟨fun _ h => List.mem_append_right _ h, rfl, rfl, rfl, fun _ h => (List.mem_filter.mp h).1, rfl⟩

/-- The thread after an event could not be stored. -/
def failedNoting (t : Track (Duties ι)) (lost : Bool) (drawn : List String) : Track (Duties ι) :=
  { t with
    seen := [] ++ t.seen, drawn
    own := { t.own with linksLost := t.own.linksLost || lost, nonce := none } }

theorem failedNoting_kept (hP : Borne D P) {lost : Bool} (hlost : lost = true → D.isSome)
    {t : Track (Duties ι)} (hPt : P t) (drawn : List String) : P (failedNoting t lost drawn) := by
  cases lost with
  | false =>
    refine hP.steady t _ ⟨fun _ h => h, rfl, rfl, rfl, fun _ h => h, ?_⟩ hPt
    exact Bool.or_false _
  | true =>
    have hlostPt := hP.lost (hlost rfl) t hPt
    refine hP.steady { t with own := { t.own with linksLost := true } } _
      ⟨fun _ h => h, rfl, rfl, rfl, fun _ h => h, ?_⟩ hlostPt
    exact Bool.or_true _

/-- What a stored event is held to. -/
theorem storeEvent_writes {t : Track (Duties ι)} (hnotes : purpose.notes = true)
    (hplan : Plan server D e edited input purpose) (hready : Ready who t) (hholding : Holding e t)
    {id : String} {createdAt : Time} (hdrawn : id ∈ t.drawn) :
    Writes server t ⟨who, purpose⟩ e (appendEventInMemory edited { input with id, createdAt }).1 where
  last := .inr hholding.1
  who := hready.who.symm
  rewrite := hplan.rewrite _ (stored_same edited _)
  noted := by
    rw [Noted, if_pos hnotes]
    refine ⟨{ input with id, createdAt }, hdrawn, hplan.envelopeId, ?_, fun htype => ?_⟩
    · rw [stored_log, hplan.keeps.2.2.2]
    · rw [(stored_same edited _).emitted]
      exact hplan.expired htype
  identity := .same hplan.states
  owes h := by
    rw [owed_congr (stored_same edited _) rfl, hplan.owed] at h
    exact absurd rfl h
  claims c sentTimestamp h := by
    change purpose = _ at h
    rw [h] at hnotes
    cases hnotes
  rollsBack c sentTimestamp index left h := by
    change purpose = _ at h
    rw [h] at hnotes
    cases hnotes

/-- The update with which an event is stored. -/
theorem storeEvent_triple (hP : Borne D P) (hnotes : purpose.notes = true)
    (herases : purpose.erasesLast = true → D.isSome) (hplan : Plan server D e edited input purpose)
    {id : String} {createdAt : Time} :
    (serviceRules server).watch.protocol.Triple
      ((store ⟨who, purpose⟩).update (appendEventInMemory edited { input with id, createdAt }).1)
      (fun t => ((P t ∧ Ready who t) ∧ Holding e t) ∧ id ∈ t.drawn)
      (fun _ => After server who P D { input with id, createdAt })
      (fun _ t => (P t ∧ Ready who t) ∧ (purpose.erasesLast = true → Cleared D t)) := by
  have hlog : eventsOf (appendEventInMemory edited { input with id, createdAt }).1 =
      lastEvents (eventsOf e ++ [{ input with id, createdAt }]) := by
    rw [stored_log, hplan.keeps.2.2.2]
  refine Rules.call fun t r ⟨⟨⟨hPt, hready⟩, hholding⟩, hdrawn⟩ _ _ =>
    ⟨⟨⟨e, hholding.2, ?_, storeEvent_writes hnotes hplan hready hholding hdrawn⟩, hready.free⟩, ?_⟩
  · exact ⟨hplan.keeps.1, hplan.keeps.2.1, hplan.keeps.2.2.1, .inr ⟨_, hdrawn, hlog⟩⟩
  · match r with
    | .ok e' =>
      have hown : t.own.updated server.config.webhook purpose
          (appendEventInMemory edited { input with id, createdAt }).1 (.ok e') = _ :=
        written_noting hnotes
      have hcleared : ∀ d, D = some d → d ∉ t.own.links.filter
          (stillStored (appendEventInMemory edited { input with id, createdAt }).1) := by
        intro d hd hmem
        have hkept := (List.mem_filter.mp hmem).2
        rw [stillStored_congr (show (appendEventInMemory edited
          { input with id, createdAt }).1.id = edited.id from rfl) rfl, hplan.clears d hd] at hkept
        cases hkept
      have hafter : (serviceRules server).advance t (.update ⟨who, purpose⟩
            (appendEventInMemory edited { input with id, createdAt }).1) (.ok e') =
          wroteNoting server.config.webhook t
            (appendEventInMemory edited { input with id, createdAt }).1 e' (t.drawn.filter fun id' =>
              !(eventsOf (appendEventInMemory edited { input with id, createdAt }).1).any
                (·.id == id')) := by
        change { t with
          seen := _, drawn := _
          own := t.own.updated server.config.webhook purpose
            (appendEventInMemory edited { input with id, createdAt }).1 (.ok e') } = _
        rw [hown]
        rfl
      rw [hafter]
      refine ⟨hP.steady t _ (wroteNoting_ahead ..) hPt, hready.who, ?_, .inr hcleared⟩
      unfold Stored
      split
      next hwebhook =>
        refine .inl ?_
        change (if server.config.webhook then _ else _) = _
        rw [if_pos hwebhook, hlog, lastEvents, window_push _ _ _ MAX_EVENTS_pos,
          List.getLast?_concat]
      next hwebhook =>
        have hsame : (if server.config.webhook then
            (eventsOf (appendEventInMemory edited { input with id, createdAt }).1).getLast?
          else t.own.event) = t.own.event := if_neg hwebhook
        rcases hready.free with hnone | heventLost
        · exact .inl (hsame.trans hnone)
        · exact .inr heventLost
    | .error error =>
      have hown : t.own.updated server.config.webhook purpose
          (appendEventInMemory edited { input with id, createdAt }).1 (.error error) = _ :=
        updated_noting_error hnotes
      have hafter : (serviceRules server).advance t (.update ⟨who, purpose⟩
            (appendEventInMemory edited { input with id, createdAt }).1) (.error error) =
          failedNoting t purpose.erasesLast (t.drawn.filter fun id' =>
              !(eventsOf (appendEventInMemory edited { input with id, createdAt }).1).any
                (·.id == id')) := by
        change { t with
          seen := _, drawn := _
          own := t.own.updated server.config.webhook purpose
            (appendEventInMemory edited { input with id, createdAt }).1 (.error error) } = _
        rw [hown]
        rfl
      rw [hafter]
      refine ⟨⟨?_, hready.who, hready.free⟩, fun hlast => .inl ?_⟩
      · exact failedNoting_kept hP herases hPt _
      · change (t.own.linksLost || purpose.erasesLast) = true
        rw [hlast, Bool.or_true]

/-- A row without which the event is lost. -/
theorem interpose_triple {event : EsigEvent} {action : AuditAction} {target : String}
    {metadata : AuditMetadata} (hP : Steady P) (hinterposes : interposes action = true)
    (hcloses : closes action = false) :
    (serviceRules server).watch.protocol.Triple (audit server action target metadata : M ι Unit)
      (After server who P D event) (fun _ => After server who P D event)
      (fun _ => Quit who P D) := by
  refine Rules.call fun t r ⟨hPt, hwho, hstored, hcleared⟩ _ _ => ⟨.inl hinterposes, ?_⟩
  match r with
  | .ok () => exact ⟨hPt, hwho, hstored, hcleared⟩
  | .error error =>
    have hown : t.own.audited action (.error error) = { t.own with eventLost := true } := by
      rw [audited, hinterposes, hcloses, Bool.or_true, Bool.or_false]
    change Quit who P D { t with own := t.own.audited action (.error error) }
    rw [hown]
    exact ⟨⟨hP t _ ⟨fun _ h => h, rfl, rfl, rfl, fun _ h => h, rfl⟩ hPt, hwho, .inr rfl⟩, hcleared⟩

theorem auditTrimmed_triple {event : EsigEvent} {trimmed : List EsigEvent} (hP : Steady P) :
    (serviceRules server).watch.protocol.Triple
      (auditTrimmed server envelopeId trimmed : M ι Unit) (After server who P D event)
      (fun _ => After server who P D event) (fun _ => Quit who P D) := by
  unfold auditTrimmed
  split
  · exact .pure fun _ _ h => h
  · exact interpose_triple hP rfl rfl

theorem writeEvent_triple (hP : Borne D P) (hnotes : purpose.notes = true)
    (herases : purpose.erasesLast = true → D.isSome) (hplan : Plan server D e edited input purpose)
    {id : String} {createdAt : Time} :
    (serviceRules server).watch.protocol.Triple
      (writeEvent server ⟨who, purpose⟩ envelopeId
        (appendEventInMemory edited { input with id, createdAt }))
      (fun t => ((P t ∧ Ready who t) ∧ Holding e t) ∧ id ∈ t.drawn)
      (fun o t => match o with
        | none => After server who P D { input with id, createdAt } t
        | some _ => (P t ∧ Ready who t) ∧ (purpose.erasesLast = true → Cleared D t))
      (fun _ _ => False) := by
  unfold writeEvent
  refine Triple.tryCatch ?_ fun error => .pure fun t _ h => h
  refine (storeEvent_triple hP hnotes herases hplan).bind fun _ => ?_
  refine ((auditTrimmed_triple hP.steady).mono (fun _ _ h => h) (fun _ _ _ h => h)
    fun _ _ _ h => ⟨h.1, fun _ => h.2⟩).bind fun _ => .pure fun _ _ h => h

end

-- ---------------------------------------------------------------------------
-- Emissions
-- ---------------------------------------------------------------------------

/-- What an emission is made of. It notes, or erases a link and notes. -/
structure Emits (server : Server) (envelopeId : String) (D : Option (String × Option String))
    (purpose : Nat → Purpose) (clock : M ι Time) (build : Build ι) : Prop where
  kind : (D = none ∧ ∀ k, purpose k = .note) ∨ (D.isSome ∧ ∀ k, purpose k = .erase k)
  clock : clock = now ∨ ∃ at_, clock = pure at_
  build : ∀ e, e.id = envelopeId →
    (D = none ∧ Outside (fun r => ∀ edited input, r = some (edited, input) →
      ∀ k, Plan server D e edited input (purpose k)) (build e)) ∨
    ∃ edited input, build e = pure (some (edited, input)) ∧
      ∀ k, Plan server D e edited input (purpose k)

section
variable {server : Server} {who : ι} {envelopeId tenantId : String} {P : Track (Duties ι) → Prop}
  {D : Option (String × Option String)} {purpose : Nat → Purpose} {clock : M ι Time}
  {build : Build ι}

theorem Emits.notes (h : Emits server envelopeId D purpose clock build) (k : Nat) :
    (purpose k).notes = true := by
  rcases h.kind with ⟨-, hnote⟩ | ⟨-, herase⟩
  · rw [hnote]; rfl
  · rw [herase]; rfl

theorem Emits.erasesLast (h : Emits server envelopeId D purpose clock build) (k : Nat)
    (hlast : (purpose k).erasesLast = true) : D.isSome := by
  rcases h.kind with ⟨-, hnote⟩ | ⟨hD, -⟩
  · rw [hnote] at hlast
    cases hlast
  · exact hD

theorem Quit.of_none {t : Track (Duties ι)} (hD : D = none) (h : P t ∧ Ready who t) :
    Quit who P D t :=
  ⟨h, hD ▸ cleared_none t⟩

/-- The find of an attempt. Where links are to go, they are lost if nothing is
found. -/
theorem findToEmit_triple (hP : Borne D P) (h : Emits server envelopeId D purpose clock build)
    (k : Nat) :
    (serviceRules server).watch.protocol.Triple
      ((store ⟨who, purpose k⟩).findById tenantId envelopeId) (fun t => P t ∧ Ready who t)
      (fun r t => match r with
        | some e => ((P t ∧ Ready who t) ∧ Holding e t) ∧ e.id = envelopeId
        | none => Quit who P D t) (fun _ => Quit who P D) := by
  rcases h.kind with ⟨hD, hnote⟩ | ⟨hD, herase⟩
  · have hlight : Light (purpose k) := by rw [hnote]; exact ⟨rfl, rfl⟩
    have hfind : Calm server who (fun _ => True)
        ((store ⟨who, purpose k⟩).findById tenantId envelopeId) _ := Calm.findById hlight
    refine (hfind P hP.steady).mono
      (fun _ _ ht => ⟨ht, trivial⟩) (fun r t _ hr => ?_) fun _ _ _ ht => .of_none hD ht
    cases r with
    | none => exact .of_none hD hr.1
    | some e => exact ⟨⟨hr.1, (hr.2 e rfl).1⟩, (hr.2 e rfl).2.2⟩
  · have hmissed : ∀ own : Duties ι, own.missed (purpose k) = { own with linksLost := true } := by
      intro own
      rw [missed, herase, show (Purpose.erase k).erases = true from rfl,
        show (Purpose.erase k).rollsBack = false from rfl, Bool.or_true, Bool.or_false]
    have hquit : ∀ t : Track (Duties ι), P t ∧ Ready who t →
        Quit who P D { t with own := t.own.missed (purpose k) } := by
      intro t ht
      rw [hmissed]
      exact ⟨⟨hP.lost hD t ht.1, ht.2.who, ht.2.free⟩, .inl rfl⟩
    refine Rules.call fun t r ht hanswers _ => ⟨ht.2.free, ?_⟩
    rcases r with e | _ | e
    · exact hquit t ht
    · exact hquit t ht
    · have hfound : t.own.found (purpose k) (.ok (some e)) = { t.own with last := some e } := by
        rw [found, herase, show (Purpose.erase k).strays e = false from rfl, Bool.or_false]
      change ((P { t with seen := [e] ++ t.seen, own := t.own.found (purpose k) (.ok (some e)) } ∧
        Ready who { t with seen := [e] ++ t.seen, own := t.own.found (purpose k) (.ok (some e)) }) ∧
        Holding e { t with
          seen := [e] ++ t.seen, own := t.own.found (purpose k) (.ok (some e)) }) ∧ _
      rw [hfound]
      exact ⟨⟨⟨hP.steady t _ (read_ahead t [e] (some e)) ht.1, ht.2.read [e] (some e)⟩,
        rfl, List.mem_cons_self⟩, (hanswers e rfl).2⟩

/-- An identifier is drawn over what was read. -/
theorem uuid_triple {e : McpEnvelope} {E : Thrown → Track (Duties ι) → Prop} (hP : Steady P) :
    (serviceRules server).watch.protocol.Triple (randomUUID : M ι String)
      (fun t => (P t ∧ Ready who t) ∧ Holding e t)
      (fun id t => ((P t ∧ Ready who t) ∧ Holding e t) ∧ id ∈ t.drawn) E :=
  .lift (Rules.call fun t id ht _ _ =>
    ⟨ht.1.2.free, ⟨⟨hP t _ ⟨fun _ h => h, rfl, rfl, rfl, fun _ h => h, rfl⟩ ht.1.1,
      ht.1.2.who, ht.1.2.free⟩, ht.2⟩, List.mem_cons_self⟩)

theorem clock_triple {A : Track (Duties ι) → Prop} {E : Thrown → Track (Duties ι) → Prop}
    (hA : ∀ t, A t → Enqueued t.own) (hclock : clock = now ∨ ∃ at_, clock = pure at_) :
    (serviceRules server).watch.protocol.Triple clock A (fun _ => A) E := by
  rcases hclock with rfl | ⟨at_, rfl⟩
  · exact .lift (Rules.call fun t _ ht _ _ => ⟨hA t ht, ht⟩)
  · exact .pure fun _ _ h => h

theorem build_triple (h : Emits server envelopeId D purpose clock build) {e : McpEnvelope}
    (hid : e.id = envelopeId) :
    (serviceRules server).watch.protocol.Triple (build e)
      (fun t => (P t ∧ Ready who t) ∧ Holding e t)
      (fun r t => match r with
        | none => Quit who P D t
        | some (edited, input) => (∀ k, Plan server D e edited input (purpose k)) ∧
            (P t ∧ Ready who t) ∧ Holding e t) (fun _ => Quit who P D) := by
  rcases h.build e hid with ⟨hD, hbuild⟩ | ⟨edited, input, hbuild, hplan⟩
  · refine (outside_triple hbuild fun _ ht => ht.1.2.free).mono (fun _ _ ht => ht) (fun r t _ ht => ?_)
      fun _ _ _ ht => .of_none hD ht.1
    match r, ht with
    | none, ht => exact .of_none hD ht.2.1
    | some (edited, input), ht => exact ⟨ht.1 edited input rfl, ht.2⟩
  · rw [hbuild]
    exact .pure fun t _ ht => ⟨hplan, ht⟩

/-- `appendEvent`, with one attempt left or more. -/
theorem appendAttempts_triple (hP : Borne D P) (h : Emits server envelopeId D purpose clock build)
    (attempts : Nat) :
    (serviceRules server).watch.protocol.Triple
      (appendAttempts server who purpose clock envelopeId build (attempts + 1))
      (fun t => P t ∧ Ready who t)
      (fun r t => match r with
        | some event => After server who P D event t
        | none => Quit who P D t) (fun _ => Quit who P D) := by
  -- one attempt, given what follows a failed one
  have hattempt : ∀ k, (∀ error : Thrown, (serviceRules server).watch.protocol.Triple
        (if k = 0 then throw error
          else appendAttempts server who purpose clock envelopeId build k)
        (fun t => (P t ∧ Ready who t) ∧ ((purpose k).erasesLast = true → Cleared D t))
        (fun r t => match r with
          | some event => After server who P D event t
          | none => Quit who P D t) (fun _ => Quit who P D)) →
      (serviceRules server).watch.protocol.Triple
        (appendAttempts server who purpose clock envelopeId build (k + 1))
        (fun t => P t ∧ Ready who t)
        (fun r t => match r with
          | some event => After server who P D event t
          | none => Quit who P D t) (fun _ => Quit who P D) := by
    intro k hrest
    rw [appendAttempts]
    refine (findToEmit_triple hP h k).bind fun found => ?_
    cases found with
    | none => exact .throw fun _ _ ht => ht
    | some e =>
      refine Triple.know (q := e.id = envelopeId) (fun _ _ ht => ht.2) fun hid => ?_
      refine ((build_triple h hid).mono (fun _ _ ht => ht.1) (fun _ _ _ ht => ht)
        fun _ _ _ ht => ht).bind fun built => ?_
      match built with
      | none => exact .pure fun _ _ ht => ht
      | some (edited, input) =>
        refine .given fun hplan => ?_
        refine (uuid_triple hP.steady).bind fun id => ?_
        refine (clock_triple (fun t ht => ht.1.1.2.free) h.clock).bind fun createdAt => ?_
        refine ((writeEvent_triple hP (h.notes k) (h.erasesLast k) (hplan k)).mono
          (fun _ _ ht => ht) (fun _ _ _ ht => ht) fun _ _ _ ht => ht.elim).bind fun outcome => ?_
        cases outcome with
        | none => exact .pure fun _ _ ht => ht
        | some error => exact hrest error
  induction attempts with
  | zero =>
    refine hattempt 0 fun error => .throw fun t _ ht => ⟨ht.1, ?_⟩
    rcases h.kind with ⟨rfl, -⟩ | ⟨-, herase⟩
    · exact cleared_none t
    · exact ht.2 (by rw [herase]; rfl)
  | succ attempts ih =>
    refine hattempt (attempts + 1) fun error => ?_
    rw [if_neg (Nat.succ_ne_zero _)]
    exact ih.mono (fun _ _ ht => ht.1) (fun _ _ _ ht => ht) fun _ _ _ ht => ht

theorem enqueue_triple {event : EsigEvent} (hP : Steady P) :
    (serviceRules server).watch.protocol.Triple (enqueue server event : M ι Unit)
      (After server who P D event) (fun _ => Quit who P D) (fun _ => Quit who P D) := by
  unfold enqueue
  split
  next hwebhook =>
    refine Rules.call fun t r ⟨hPt, hwho, hstored, hcleared⟩ _ _ => ?_
    rw [Stored, if_pos hwebhook] at hstored
    refine ⟨hstored, ?_⟩
    match r with
    | .ok () =>
      exact ⟨⟨hP t _ ⟨fun _ h => h, rfl, rfl, rfl, fun _ h => h, rfl⟩ hPt, hwho, .inl rfl⟩, hcleared⟩
    | .error error =>
      exact ⟨⟨hP t _ ⟨fun _ h => h, rfl, rfl, rfl, fun _ h => h, rfl⟩ hPt, hwho, .inr rfl⟩, hcleared⟩
  next hwebhook =>
    refine .pure fun t _ ⟨hPt, hwho, hstored, hcleared⟩ => ?_
    rw [Stored, if_neg hwebhook] at hstored
    exact ⟨⟨hPt, hwho, hstored⟩, hcleared⟩

theorem emit_triple (hP : Borne D P) (h : Emits server envelopeId D purpose now build) :
    (serviceRules server).watch.protocol.Triple (emit server who purpose envelopeId build)
      (fun t => P t ∧ Ready who t) (fun _ => Quit who P D) (fun _ _ => False) := by
  unfold emit
  refine Triple.tryCatch ?_ fun _ => .pure fun _ _ ht => ht
  refine (appendAttempts_triple hP h (MAX_ATTEMPTS - 1)).bind fun r => ?_
  cases r with
  | none => exact .pure fun _ _ ht => ht
  | some event => exact (enqueue_triple hP.steady).bind fun _ => .pure fun _ _ ht => ht

/-- An event of an envelope that is left alone otherwise. -/
theorem emitPlain_emits {event : McpEnvelope → EsigEventInput}
    (hid : ∀ e, (event e).envelopeId = e.id) (htype : ∀ e, (event e).type ≠ .envelope_expired) :
    Emits server envelopeId none (fun _ => .note) now
      (fun e => (pure (some (e, event e)) : M ι _)) where
  kind := .inl ⟨rfl, fun _ => rfl⟩
  clock := .inl rfl
  build e _ := .inr ⟨e, event e, rfl, fun _ =>
    { keeps := ⟨rfl, rfl, rfl, rfl⟩
      states := rfl
      owed := owed_same (.refl e)
      envelopeId := hid e
      rewrite := fun _ hsame => .aside hsame (.inr (.inl rfl))
      expired := fun h => absurd h (htype e)
      clears := fun d h => by cases h }⟩

theorem emitPlain_triple {event : McpEnvelope → EsigEventInput} (hP : Steady P)
    (hid : ∀ e, (event e).envelopeId = e.id) (htype : ∀ e, (event e).type ≠ .envelope_expired) :
    (serviceRules server).watch.protocol.Triple
      (emitPlain server who envelopeId event : M ι Unit) (fun t => P t ∧ Ready who t)
      (fun _ t => P t ∧ Ready who t) (fun _ _ => False) :=
  (emit_triple ⟨hP, fun h => by cases h⟩ (emitPlain_emits hid htype)).bind fun _ =>
    .pure fun _ _ ht => ht.1

theorem Calm.emitPlain {event : McpEnvelope → EsigEventInput}
    (hid : ∀ e, (event e).envelopeId = e.id) (htype : ∀ e, (event e).type ≠ .envelope_expired) :
    Calm server who (fun _ => True) (Mcp.emitPlain server who envelopeId event : M ι Unit)
      fun _ _ => True :=
  fun _ hP => (emitPlain_triple hP hid htype).mono (fun _ _ ht => ht.1)
    (fun _ _ _ ht => ⟨ht, trivial⟩) fun _ _ _ ht => ht.elim

/-- The link that `emitErasing` clears. -/
theorem stillStored_erased (e : McpEnvelope) (signerId : Option String) :
    stillStored (eraseStoredLinks e signerId) (e.id, signerId) = false := by
  cases signerId with
  | none =>
    have hid : (eraseStoredLinks e none).id = e.id := rfl
    have hlinks : linksOf (eraseStoredLinks e none) = [] := rfl
    simp [stillStored, hid, hlinks]
  | some signerId =>
    have hid : (eraseStoredLinks e (some signerId)).id = e.id := rfl
    have hlinks : linksOf (eraseStoredLinks e (some signerId)) =
        (linksOf e).filter (·.1 != signerId) := rfl
    simp [stillStored, hid, hlinks]

theorem emitErasing_emits {signerId : Option String} {event : McpEnvelope → EsigEventInput}
    (hid : ∀ e, (event e).envelopeId = e.id) (htype : ∀ e, (event e).type ≠ .envelope_expired) :
    Emits server envelopeId (some (envelopeId, signerId)) .erase now
      (fun e => (pure (some (eraseStoredLinks e signerId, event (eraseStoredLinks e signerId))) :
        M ι _)) where
  kind := .inr ⟨rfl, fun _ => rfl⟩
  clock := .inl rfl
  build e he := .inr ⟨_, _, rfl, fun _ =>
    { keeps := by cases signerId <;> exact ⟨rfl, rfl, rfl, rfl⟩
      states := by cases signerId <;> rfl
      owed := owed_none (by cases signerId <;> rfl) fun h => h.2 (by cases signerId <;> rfl)
      envelopeId := (hid _).trans (by cases signerId <;> rfl)
      rewrite := fun _ hsame => .erase _ signerId hsame
      expired := fun h => absurd h (htype _)
      clears := fun d h => by
        cases h
        rw [← he]
        exact stillStored_erased e signerId }⟩

/-- Afterwards the links it takes away are owed no longer, or will stay. -/
theorem emitErasing_triple {signerId : Option String} {event : McpEnvelope → EsigEventInput}
    (hP : Borne (some (envelopeId, signerId)) P) (hid : ∀ e, (event e).envelopeId = e.id)
    (htype : ∀ e, (event e).type ≠ .envelope_expired) :
    (serviceRules server).watch.protocol.Triple
      (emitErasing server who envelopeId signerId event : M ι Unit) (fun t => P t ∧ Ready who t)
      (fun _ => Quit who P (some (envelopeId, signerId))) (fun _ _ => False) :=
  (emit_triple hP (emitErasing_emits hid htype)).bind fun _ => .pure fun _ _ ht => ht

-- ---------------------------------------------------------------------------
-- Expiry
-- ---------------------------------------------------------------------------

theorem expired_plan {e : McpEnvelope} {at_ : Time} (hcan : e.live = true ∨ e.status = .expired)
    (hemitted : expiredEmittedAt e = none) :
    Plan server none e (expiredEdit e at_)
      { type := .envelope_expired, envelopeId := e.id, phase := .open_ .expired } .note where
  keeps := ⟨rfl, rfl, rfl, rfl⟩
  states := rfl
  owed := owed_none rfl fun h => by rcases h.1 with h | h <;> cases h
  envelopeId := rfl
  rewrite := fun _ hsame => .expire at_ hcan hemitted hsame
  expired := fun _ => ⟨hemitted, (fun h => by cases h), hcan⟩
  clears := fun d h => by cases h

theorem buildExpired_emits {at_ : Time} :
    Emits server envelopeId none (fun _ => .note) (pure at_) (buildExpired at_ : Build ι) where
  kind := .inl ⟨rfl, fun _ => rfl⟩
  clock := .inr ⟨at_, rfl⟩
  build e _ := by
    refine .inl ⟨rfl, ?_⟩
    unfold buildExpired
    split
    next hcan =>
      dsimp only
      split
      next => exact .pure fun _ _ h => by cases h
      next hemitted =>
        refine .pure fun edited input h k => ?_
        cases h
        refine expired_plan ?_ (by simpa using hemitted)
        rcases Bool.or_eq_true_iff.mp hcan with hlive | hexpired
        · exact .inl (Bool.and_eq_true_iff.mp hlive).1
        · exact .inr (beq_iff_eq.mp hexpired)
    next => exact .pure fun _ _ h => by cases h

theorem Calm.expireOne {at_ : Time} :
    Calm server who (fun _ => True) (Mcp.expireOne server who envelopeId at_ : M ι Unit)
      fun _ _ => True := by
  intro P hP
  have hborne : Borne none P := ⟨hP, fun h => by cases h⟩
  unfold Mcp.expireOne
  refine ((appendAttempts_triple hborne buildExpired_emits (MAX_ATTEMPTS - 1)).mono
    (fun _ _ ht => ht.1) (fun _ _ _ ht => ht) fun _ _ _ ht => ht.1).bind fun r => ?_
  cases r with
  | none => exact .pure fun _ _ ht => ⟨ht.1, trivial⟩
  | some event =>
    refine ((interpose_triple hP rfl rfl).mono (fun _ _ ht => ht) (fun _ _ _ ht => ht)
      fun _ _ _ ht => ht.1).bind fun _ => ?_
    exact (enqueue_triple hP).mono (fun _ _ ht => ht) (fun _ _ _ ht => ⟨ht.1, trivial⟩)
      fun _ _ _ ht => ht.1

theorem Calm.expiryTick {at_ : Time} :
    Calm server who (fun _ => True) (Mcp.expiryTick server who at_ : M ι Unit) fun _ _ => True := by
  refine (Calm.listEnvelopes.any).bind fun all => Calm.forM (steady_const _) fun e _ => ?_
  split
  · exact Calm.isolated Calm.expireOne
  · exact Calm.pure fun _ _ => trivial

end

end EsigSuite.Mcp.Duties
