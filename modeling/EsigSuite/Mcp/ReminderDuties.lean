import EsigSuite.Mcp.ClosingDuties

/-!
# Reminders under the rules

A send holds a claim from the write that makes it until it is sent or taken
back, or gives up where the channel or the store fails it.
-/

namespace EsigSuite.Mcp.Duties

open Lib
open EnvelopeFile (getRev setRev)
open Protocol (Triple)

variable {ι : Type}

-- ---------------------------------------------------------------------------
-- Updates that are retried
-- ---------------------------------------------------------------------------

section
variable {server : Server} {who : ι} {envelopeId : String}

/-- A write, by whether it was done. -/
theorem writeUpdate_tried {tag : Tag ι} {edited : McpEnvelope} {A F E : Track (Duties ι) → Prop}
    {R : McpEnvelope → Track (Duties ι) → Prop}
    (hwrite : (serviceRules server).watch.protocol.Triple ((store tag).update edited) A R
      (fun _ => F)) :
    (serviceRules server).watch.protocol.Triple (writeUpdate tag edited) A
      (fun r t => match r with
        | .ok e' => R e' t
        | .error _ => F t) (fun _ => E) := by
  unfold writeUpdate
  refine Triple.tryCatch (hwrite.bind fun e' => ?_) fun error => ?_
  · exact .pure fun _ _ ht => ht
  · exact .pure fun _ _ ht => ht

/-- `B` holds between two attempts, `N` where there is nothing to do, `W` of
what is written, `R` once it is and `E` of what is thrown. -/
theorem updateAttempts_triple {β : Type} {purpose : Nat → Purpose} {claimed : β → Purpose → Purpose}
    {mutate : McpEnvelope → M ι (Option (McpEnvelope × β))} {B N E : Track (Duties ι) → Prop}
    {W : McpEnvelope → McpEnvelope → β → Prop} {R : McpEnvelope → β → Track (Duties ι) → Prop}
    (hfind : ∀ k, (serviceRules server).watch.protocol.Triple
      ((store ⟨who, purpose k⟩).findById server.config.tenant envelopeId) B
      (fun r t => match r with
        | some e => e.id = envelopeId ∧ Holding e t ∧ B t ∧
            ((purpose k).strays e = true → t.own.gaveUp = true)
        | none => E t) (fun _ => E))
    (hmutate : ∀ k e, e.id = envelopeId → (serviceRules server).watch.protocol.Triple (mutate e)
      (fun t => Holding e t ∧ B t ∧ ((purpose k).strays e = true → t.own.gaveUp = true))
      (fun r t => match r with
        | some (edited, b) => W e edited b ∧ Holding e t ∧ B t
        | none => N t) (fun _ => E))
    (hwrite : ∀ k e edited b, e.id = envelopeId → W e edited b →
      (serviceRules server).watch.protocol.Triple
        ((store ⟨who, claimed b (purpose k)⟩).update edited) (fun t => Holding e t ∧ B t)
        (fun e' => R e' b) (fun _ t => if k = 0 then E t else B t)) (attempts : Nat) :
    (serviceRules server).watch.protocol.Triple
      (updateAttempts server who purpose claimed envelopeId mutate (attempts + 1)) B
      (fun r t => match r with
        | some (e', b) => R e' b t
        | none => N t) (fun _ => E) := by
  have hattempt : ∀ k, (∀ error : Thrown, (serviceRules server).watch.protocol.Triple
        (if k = 0 then throw error
          else updateAttempts server who purpose claimed envelopeId mutate k)
        (fun t => if k = 0 then E t else B t)
        (fun r t => match r with
          | some (e', b) => R e' b t
          | none => N t) (fun _ => E)) →
      (serviceRules server).watch.protocol.Triple
        (updateAttempts server who purpose claimed envelopeId mutate (k + 1)) B
        (fun r t => match r with
          | some (e', b) => R e' b t
          | none => N t) (fun _ => E) := by
    intro k hrest
    rw [updateAttempts]
    refine (hfind k).bind fun found => ?_
    cases found with
    | none => exact .throw fun _ _ ht => ht
    | some e =>
      refine .given fun hid => ?_
      refine (hmutate k e hid).bind fun r => ?_
      rcases r with _ | ⟨edited, b⟩
      · exact .pure fun _ _ ht => ht
      · refine .given fun hW => ?_
        refine (writeUpdate_tried (hwrite k e edited b hid hW)).bind fun outcome => ?_
        cases outcome with
        | ok e' => exact .pure fun _ _ ht => ht
        | error error => exact hrest error
  induction attempts with
  | zero => exact hattempt 0 fun error => .throw fun _ _ ht => ht
  | succ attempts ih =>
    refine hattempt (attempts + 1) fun error => ?_
    rw [if_neg (Nat.succ_ne_zero _)]
    exact ih.mono (fun _ _ ht => by rwa [if_neg (Nat.succ_ne_zero _)] at ht) (fun _ _ _ ht => ht)
      fun _ _ _ ht => ht

-- ---------------------------------------------------------------------------
-- Claiming
-- ---------------------------------------------------------------------------

/-- A claim is held, and no link is owed. -/
structure Claimed (who : ι) (h : Held) (failed : Bool) (t : Track (Duties ι)) : Prop where
  held : t.own.held = some h
  failed : t.own.failed = failed
  links : t.own.links = []
  linksLost : t.own.linksLost = false
  ready : Ready who t

/-- What a claim makes of an envelope. -/
structure Claims (server : Server) (signerId : String) (kind : ReminderKind) (e edited : McpEnvelope)
    (claim : Claim) : Prop where
  edited : edited = withList server e signerId kind (listOf e signerId kind ++ [claim.sentTimestamp])
  signer : (signerById e signerId).isSome
  link : (linkOf e signerId).isSome
  max : (sentOfSigner e signerId).sentAt.length + (sentOfSigner e signerId).manualSentAt.length <
    server.config.max
  index : claim.index = (listOf e signerId kind).length

theorem sentOf_withSent (createdAt : Time) (kind : ReminderKind) (state : SignerReminderState)
    (sent : List Time) : sentOf kind (withSent server createdAt kind state sent) = sent := by
  cases kind <;> rfl

theorem claimReminder_outside (signerId : String) (kind : ReminderKind) (e : McpEnvelope) :
    Outside (fun r => ∃ edited claim, r = some (edited, claim) ∧
      Claims server signerId kind e edited claim)
      (claimReminder server signerId kind e : M ι _) := by
  unfold claimReminder
  split
  · exact Within.throw _
  next signer hsigner =>
    split
    · exact Within.throw _
    next encryptedLink hlink =>
      refine Within.bind (R := fun _ => True) ?_ fun url _ => ?_
      · cases server.decryptLink encryptedLink <;> trivial
      · refine throwIf_outside.bind fun _ hmax => now_outside.bind fun sentTimestamp _ => ?_
        refine Within.pure ⟨_, _, rfl, ?_⟩
        exact
          { edited := rfl
            signer := by rw [hsigner]; rfl
            link := by
              obtain ⟨hlink, -⟩ := Option.filter_eq_some_iff.mp hlink
              rw [hlink]
              rfl
            max := Nat.lt_of_not_le hmax
            index := by
              dsimp only
              rw [sentOf_withSent, List.length_append]
              rfl }

theorem listOf_withList (e : McpEnvelope) (signerId : String) (kind : ReminderKind)
    (sent : List Time) : listOf (withList server e signerId kind sent) signerId kind = sent := by
  have hstate : sentOfSigner (withList server e signerId kind sent) signerId =
      withSent server e.createdAt kind (sentOfSigner e signerId) sent := by
    change ((Function.update (reminderStateOf e) signerId (some _)) signerId).getD {} = _
    rw [Function.update_self]
    rfl
  rw [listOf, hstate, sentOf_withSent]

theorem owed_withList (e : McpEnvelope) (signerId : String) (kind : ReminderKind)
    (sent : List Time) : owed e (withList server e signerId kind sent) = [] :=
  owed_none rfl fun h => h.2 rfl

/-- The thread after a claim was made or taken back. -/
def wroteHeld (t : Track (Duties ι)) (e e' : McpEnvelope) (held : Option Held)
    (drawn : List String) : Track (Duties ι) :=
  { t with
    seen := [e'] ++ t.seen, drawn
    own := { t.own with
      last := some e', links := t.own.links.filter (stillStored e), held, failed := false,
      nonce := none } }

theorem claim_triple {e edited : McpEnvelope} {claim : Claim} {c : ClaimFor}
    (hid : e.id = c.envelopeIn.id) (hdue : Due server c)
    (hclaims : Claims server c.signerId c.kind e edited claim) :
    (serviceRules server).watch.protocol.Triple
      ((store ⟨who, .claim c claim.sentTimestamp⟩).update edited)
      (fun t => Holding e t ∧ (Clear t ∧ c.envelopeIn ∈ t.seen) ∧ Ready who t)
      (fun e' => Claimed who ⟨e'.id, c, claim.sentTimestamp, claim.index⟩ false)
      (fun _ t => (Clear t ∧ c.envelopeIn ∈ t.seen) ∧ Ready who t) := by
  have hkeeps : KeepsLog e edited := by rw [hclaims.edited]; exact ⟨rfl, rfl, rfl, rfl⟩
  have hstates : statesOf edited = statesOf e := by rw [hclaims.edited]; rfl
  have howed : owed e edited = [] := by rw [hclaims.edited]; exact owed_withList ..
  have hindex : (listOf edited c.signerId c.kind).length - 1 = claim.index := by
    rw [hclaims.edited, listOf_withList, List.length_append, hclaims.index]
    rfl
  refine Rules.call fun t r ⟨hholding, ⟨hclear, hseen⟩, hready⟩ hanswers _ =>
    ⟨⟨⟨e, hholding.2, ?_, ?_⟩, hready.free⟩, ?_⟩
  · exact ⟨hkeeps.1, hkeeps.2.1, hkeeps.2.2.1, .inl hkeeps.2.2.2⟩
  · exact
      { last := .inr hholding.1
        who := hready.who.symm
        rewrite := by
          rw [hclaims.edited]
          exact .claim c claim.sentTimestamp hid hclaims.signer hclaims.link hclaims.max hdue
        noted := hkeeps.2.2.2
        identity := .same hstates
        owes := fun h => absurd howed h
        claims := fun _ _ hpurpose => by
          cases hpurpose
          exact ⟨hclear.1, hseen⟩
        rollsBack := fun _ _ _ _ h => by cases h }
  · match r, hanswers with
    | .ok e', hanswers =>
      have he' : e' = setRev edited (getRev edited + 1) := hanswers e' rfl
      have hown : t.own.updated server.config.webhook (.claim c claim.sentTimestamp) edited
          (.ok e') =
          { t.own with
            last := some e', links := t.own.links.filter (stillStored edited),
            held := some ⟨edited.id, c, claim.sentTimestamp, claim.index⟩, failed := false,
            nonce := none } := by
        rw [updated, written, heldAfter, hindex]
        simp [Purpose.notes, Purpose.changes, failedAfter]
      have hafter : (serviceRules server).advance t
            (.update ⟨who, .claim c claim.sentTimestamp⟩ edited) (.ok e') =
          wroteHeld t edited e' (some ⟨edited.id, c, claim.sentTimestamp, claim.index⟩)
            (t.drawn.filter fun id => !(eventsOf edited).any (·.id == id)) := by
        change { t with
          seen := _, drawn := _
          own := t.own.updated server.config.webhook (.claim c claim.sentTimestamp) edited
            (.ok e') } = _
        rw [hown]
        rfl
      rw [hafter, he']
      exact
        { held := rfl
          failed := rfl
          links := by
            change t.own.links.filter _ = []
            rw [hclear.2.1]
            rfl
          linksLost := hclear.2.2
          ready := ⟨hready.who, hready.free⟩ }
    | .error error, _ =>
      have hafter : (serviceRules server).advance t
            (.update ⟨who, .claim c claim.sentTimestamp⟩ edited) (.error error) =
          failedBare t (t.drawn.filter fun id => !(eventsOf edited).any (·.id == id)) := by
        change { t with
          seen := _, drawn := _
          own := t.own.updated server.config.webhook (.claim c claim.sentTimestamp) edited
            (.error error) } = _
        rw [updated, show (Purpose.claim c claim.sentTimestamp).erasesLast = false from rfl,
          show (Purpose.claim c claim.sentTimestamp).rollsBackLast = false from rfl,
          Bool.or_false, Bool.or_false]
        rfl
      rw [hafter]
      exact ⟨⟨clear_steady t _ (failedBare_ahead ..) hclear, hseen⟩, hready.who, hready.free⟩

-- ---------------------------------------------------------------------------
-- Taking back
-- ---------------------------------------------------------------------------

/-- A call gives up on its claim. -/
theorem Claimed.giveUp {h : Held} {unsent : Bool} {t : Track (Duties ι)}
    (ht : Claimed who h unsent t) (hgave : t.own.gaveUp = true) : Clear t ∧ Ready who t :=
  ⟨⟨.inr hgave, ht.links, ht.linksLost⟩, ht.ready⟩

theorem findClaimed_triple {h : Held} {tenantId : String} {c : ClaimFor} {sentTimestamp : Time}
    {index left : Nat} :
    (serviceRules server).watch.protocol.Triple
      ((store ⟨who, .rollback c sentTimestamp index left⟩).findById tenantId envelopeId)
      (Claimed who h true)
      (fun r t => match r with
        | some e => e.id = envelopeId ∧ Holding e t ∧ Claimed who h true t ∧
            ((Purpose.rollback c sentTimestamp index left).strays e = true → t.own.gaveUp = true)
        | none => Clear t ∧ Ready who t) (fun _ t => Clear t ∧ Ready who t) := by
  have hmissed : ∀ own : Duties ι, own.missed (.rollback c sentTimestamp index left) =
      { own with gaveUp := true } := fun own => by
    rw [missed, show (Purpose.rollback c sentTimestamp index left).erases = false from rfl,
      show (Purpose.rollback c sentTimestamp index left).rollsBack = true from rfl, Bool.or_false,
      Bool.or_true]
  have hquit : ∀ t : Track (Duties ι), Claimed who h true t →
      Clear { t with own := t.own.missed (.rollback c sentTimestamp index left) } ∧
        Ready who { t with own := t.own.missed (.rollback c sentTimestamp index left) } := by
    intro t ht
    rw [hmissed]
    exact ⟨⟨.inr rfl, ht.links, ht.linksLost⟩, ht.ready.who, ht.ready.free⟩
  refine Rules.call fun t r ht hanswers _ => ⟨ht.ready.free, ?_⟩
  rcases r with e | _ | e
  · exact hquit t ht
  · exact hquit t ht
  · refine ⟨(hanswers e rfl).2, ⟨rfl, List.mem_cons_self⟩, ?_, fun hstrays => ?_⟩
    · exact ⟨ht.held, ht.failed, ht.links, ht.linksLost, ht.ready.who, ht.ready.free⟩
    · change (t.own.gaveUp || (Purpose.rollback c sentTimestamp index left).strays e) = true
      rw [hstrays, Bool.or_true]

/-- What taking a claim back makes of an envelope. -/
def TakesBack (server : Server) (c : ClaimFor) (index : Nat) (e edited : McpEnvelope) : Prop :=
  (reminderStateOf e c.signerId).isSome ∧
    edited = withList server e c.signerId c.kind ((listOf e c.signerId c.kind).eraseIdx index)

theorem rollbackReminder_triple {h : Held} {c : ClaimFor} {sentTimestamp : Time}
    {index left : Nat} (e : McpEnvelope) :
    (serviceRules server).watch.protocol.Triple
      (rollbackReminder server c.signerId c.kind index e : M ι _)
      (fun t => Holding e t ∧ Claimed who h true t ∧
        ((Purpose.rollback c sentTimestamp index left).strays e = true → t.own.gaveUp = true))
      (fun r t => match r with
        | some (edited, _) => TakesBack server c index e edited ∧ Holding e t ∧ Claimed who h true t
        | none => Clear t ∧ Ready who t) (fun _ t => Clear t ∧ Ready who t) := by
  unfold rollbackReminder
  cases hstate : reminderStateOf e c.signerId with
  | none =>
    refine .pure fun t _ ht => ht.2.1.giveUp (ht.2.2 ?_)
    rw [Purpose.strays, hstate]
    rfl
  | some state =>
    refine .pure fun t _ ht => ⟨⟨by rw [hstate]; rfl, ?_⟩, ht.1, ht.2.1⟩
    rw [withList, listOf, sentOfSigner, hstate]
    rfl

theorem takeBack_triple {h : Held} {e edited : McpEnvelope} {left : Nat}
    (hid : e.id = h.envelopeId) (hback : TakesBack server h.claim h.index e edited) :
    (serviceRules server).watch.protocol.Triple
      ((store ⟨who, .rollback h.claim h.sentTimestamp h.index left⟩).update edited)
      (fun t => Holding e t ∧ Claimed who h true t) (fun _ t => Clear t ∧ Ready who t)
      (fun _ t => if left = 0 then Clear t ∧ Ready who t else Claimed who h true t) := by
  obtain ⟨hstate, hedited⟩ := hback
  have hkeeps : KeepsLog e edited := by rw [hedited]; exact ⟨rfl, rfl, rfl, rfl⟩
  have hstates : statesOf edited = statesOf e := by rw [hedited]; rfl
  have howed : owed e edited = [] := by rw [hedited]; exact owed_withList ..
  refine Rules.call fun t r ⟨hholding, hclaimed⟩ hanswers _ =>
    ⟨⟨⟨e, hholding.2, ?_, ?_⟩, hclaimed.ready.free⟩, ?_⟩
  · exact ⟨hkeeps.1, hkeeps.2.1, hkeeps.2.2.1, .inl hkeeps.2.2.2⟩
  · exact
      { last := .inr hholding.1
        who := hclaimed.ready.who.symm
        rewrite := by
          rw [hedited]
          exact .rollback h.claim h.sentTimestamp h.index left hstate
        noted := hkeeps.2.2.2
        identity := .same hstates
        owes := fun h => absurd howed h
        claims := fun _ _ h => by cases h
        rollsBack := fun _ _ _ _ hp => by
          cases hp
          exact ⟨by rw [hclaimed.held, hid], hclaimed.failed⟩ }
  · match r with
    | .ok e' =>
      have hown : t.own.updated server.config.webhook
          (.rollback h.claim h.sentTimestamp h.index left) edited (.ok e') =
          { t.own with
            last := some e', links := t.own.links.filter (stillStored edited), held := none,
            failed := false, nonce := none } := by
        rw [updated, written]
        simp [Purpose.notes, Purpose.changes, failedAfter, heldAfter]
      have hafter : (serviceRules server).advance t
            (.update ⟨who, .rollback h.claim h.sentTimestamp h.index left⟩ edited) (.ok e') =
          wroteHeld t edited e' none
            (t.drawn.filter fun id => !(eventsOf edited).any (·.id == id)) := by
        change { t with
          seen := _, drawn := _
          own := t.own.updated server.config.webhook
            (.rollback h.claim h.sentTimestamp h.index left) edited (.ok e') } = _
        rw [hown]
        rfl
      rw [hafter]
      refine ⟨⟨.inl rfl, ?_, hclaimed.linksLost⟩, hclaimed.ready.who, hclaimed.ready.free⟩
      change t.own.links.filter _ = []
      rw [hclaimed.links]
      rfl
    | .error error =>
      have hown : t.own.updated server.config.webhook
          (.rollback h.claim h.sentTimestamp h.index left) edited (.error error) =
          { t.own with
            gaveUp := t.own.gaveUp || decide (left = 0), nonce := none } := by
        cases left <;> simp [updated, Purpose.erasesLast, Purpose.rollsBackLast]
      have hafter : (serviceRules server).advance t
            (.update ⟨who, .rollback h.claim h.sentTimestamp h.index left⟩ edited) (.error error) =
          { t with
            seen := [] ++ t.seen
            drawn := t.drawn.filter fun id => !(eventsOf edited).any (·.id == id)
            own := { t.own with gaveUp := t.own.gaveUp || decide (left = 0), nonce := none } } := by
        change { t with
          seen := _, drawn := _
          own := t.own.updated server.config.webhook
            (.rollback h.claim h.sentTimestamp h.index left) edited (.error error) } = _
        rw [hown]
        rfl
      rw [hafter]
      have hstill : Claimed who h true
          { t with
            seen := [] ++ t.seen
            drawn := t.drawn.filter fun id => !(eventsOf edited).any (·.id == id)
            own := { t.own with gaveUp := t.own.gaveUp || decide (left = 0), nonce := none } } :=
        ⟨hclaimed.held, hclaimed.failed, hclaimed.links, hclaimed.linksLost, hclaimed.ready.who,
          hclaimed.ready.free⟩
      split
      next hlast =>
        refine hstill.giveUp ?_
        change (t.own.gaveUp || decide (left = 0)) = true
        rw [hlast, decide_eq_true rfl, Bool.or_true]
      next => exact hstill

-- ---------------------------------------------------------------------------
-- Sending
-- ---------------------------------------------------------------------------

/-- The channel is called with a claim. -/
theorem deliverClaimed_triple {h : Held} {envelope : DeliveryEnvelope} {links : List DeliveryLink}
    (hid : envelope.id = h.envelopeId) :
    (serviceRules server).watch.protocol.Triple
      (Mcp.deliver ⟨who, .claim h.claim h.sentTimestamp⟩ envelope links : M ι _)
      (Claimed who h false)
      (fun r t => match r with
        | [] => Clear t ∧ Ready who t
        | receipt :: _ => if receipt.ok then Clear t ∧ Ready who t else Claimed who h true t)
      (fun _ t => Clear t ∧ Ready who t) := by
  refine Rules.call fun t r ht _ _ => ⟨⟨ht.ready.who.symm, ht.ready.free, fun c sentTimestamp hp => ?_⟩, ?_⟩
  · cases hp
    exact ⟨ht.failed, h.index, by rw [ht.held, hid]⟩
  have hquit : Clear { t with own := { t.own with gaveUp := true } } ∧
      Ready who { t with own := { t.own with gaveUp := true } } :=
    ⟨⟨.inr rfl, ht.links, ht.linksLost⟩, ht.ready.who, ht.ready.free⟩
  match r with
  | .error e => exact hquit
  | .ok [] => exact hquit
  | .ok (receipt :: rest) =>
    have hown : t.own.delivered (.claim h.claim h.sentTimestamp) (.ok (receipt :: rest)) =
        if receipt.ok then { t.own with held := none, failed := false }
        else { t.own with failed := true } := rfl
    change if receipt.ok = true then
        Clear { t with own := t.own.delivered (.claim h.claim h.sentTimestamp) (.ok (receipt :: rest)) } ∧
        Ready who { t with
          own := t.own.delivered (.claim h.claim h.sentTimestamp) (.ok (receipt :: rest)) }
      else Claimed who h true { t with
        own := t.own.delivered (.claim h.claim h.sentTimestamp) (.ok (receipt :: rest)) }
    rw [hown]
    split
    · exact ⟨⟨.inl rfl, ht.links, ht.linksLost⟩, ht.ready.who, ht.ready.free⟩
    · exact ⟨ht.held, rfl, ht.links, ht.linksLost, ht.ready.who, ht.ready.free⟩

/-- A calm program between two sends. -/
theorem Calm.between {α : Type} {x : M ι α} (hx : Calm server who (fun _ => True) x fun _ _ => True) :
    (serviceRules server).watch.protocol.Triple x (fun t => Clear t ∧ Ready who t)
      (fun _ t => Clear t ∧ Ready who t) (fun _ t => Clear t ∧ Ready who t) :=
  (hx Clear clear_steady).mono (fun _ _ ht => ⟨ht, trivial⟩) (fun _ _ _ ht => ht.1)
    fun _ _ _ ht => ht

theorem claimAttempts_triple {c : ClaimFor} (hdue : Due server c) :
    (serviceRules server).watch.protocol.Triple
      (updateWithRetry server who (fun _ => .plain)
        (fun (claim : Claim) _ => .claim c claim.sentTimestamp) c.envelopeIn.id
        (claimReminder server c.signerId c.kind))
      (fun t => (Clear t ∧ c.envelopeIn ∈ t.seen) ∧ Ready who t)
      (fun r t => match r with
        | some (e, claim) => Claimed who ⟨e.id, c, claim.sentTimestamp, claim.index⟩ false t
        | none => False) (fun _ t => Clear t ∧ Ready who t) := by
  refine (updateAttempts_triple (N := fun _ => False)
    (E := fun t => (Clear t ∧ c.envelopeIn ∈ t.seen) ∧ Ready who t)
    (R := fun e claim => Claimed who ⟨e.id, c, claim.sentTimestamp, claim.index⟩ false)
    (W := fun e edited claim => Claims server c.signerId c.kind e edited claim) (fun k => ?_)
    (fun k e hid => ?_) (fun k e edited claim hid hclaims => ?_) (MAX_ATTEMPTS - 1)).mono
    (fun _ _ ht => ht) (fun r _ _ ht => ?_) fun _ _ _ ht => ⟨ht.1.1, ht.2⟩
  · have hfind : Calm server who (fun _ => True)
        ((store ⟨who, .plain⟩).findById server.config.tenant c.envelopeIn.id) _ :=
      Calm.findById ⟨rfl, rfl⟩
    refine (hfind _ (clear_steady.and (steady_seen c.envelopeIn))).mono (fun _ _ ht => ⟨ht, trivial⟩) (fun r t _ ht => ?_)
      fun _ _ _ ht => ht
    cases r with
    | none => exact ht.1
    | some e => exact ⟨(ht.2 e rfl).2.2, (ht.2 e rfl).1, ht.1, fun h => by cases h⟩
  · refine (outside_triple (claimReminder_outside c.signerId c.kind e) fun _ ht => ht.2.1.2.free).mono
      (fun _ _ ht => ht) (fun r t _ ht => ?_) fun _ _ _ ht => ht.2.1
    obtain ⟨⟨edited, claim, rfl, hclaims⟩, ht⟩ := ht
    exact ⟨hclaims, ht.1, ht.2.1⟩
  · exact (claim_triple hid hdue hclaims).mono (fun _ _ ht => ht) (fun _ _ _ ht => ht)
      fun _ _ _ ht => by split <;> exact ht
  · match r, ht with
    | some (e, claim), ht => exact ht

theorem rollbackAttempts_triple {h : Held} :
    (serviceRules server).watch.protocol.Triple
      (updateWithRetry server who (.rollback h.claim h.sentTimestamp h.index)
        (fun _ purpose => purpose) h.envelopeId
        (rollbackReminder server h.claim.signerId h.claim.kind h.index))
      (Claimed who h true) (fun _ t => Clear t ∧ Ready who t) (fun _ t => Clear t ∧ Ready who t) := by
  refine (updateAttempts_triple (N := fun t => Clear t ∧ Ready who t)
    (R := fun _ _ t => Clear t ∧ Ready who t)
    (W := fun e edited _ => TakesBack server h.claim h.index e edited)
    (fun k => findClaimed_triple) (fun k e hid => (rollbackReminder_triple e).mono
      (fun _ _ ht => ht) (fun r _ _ ht => match r, ht with
        | none, ht => ht
        | some (_, _), ht => ht) fun _ _ _ ht => ht)
    (fun k e edited _ hid hback => takeBack_triple hid hback) (MAX_ATTEMPTS - 1)).mono
    (fun _ _ ht => ht) (fun r _ _ ht => ?_) fun _ _ _ ht => ht
  match r, ht with
  | none, ht => exact ht
  | some (e, _), ht => exact ht

theorem sendOneReminder_triple {envelopeIn : McpEnvelope} {signerId : String} {kind : ReminderKind}
    {foundAt : Option Time} (hdue : Due server ⟨envelopeIn, signerId, kind, foundAt⟩) :
    (serviceRules server).watch.protocol.Triple
      (sendOneReminder server who envelopeIn signerId kind foundAt : M ι _)
      (fun t => (Clear t ∧ Ready who t) ∧ envelopeIn ∈ t.seen) (fun _ t => Clear t ∧ Ready who t)
      (fun _ t => Clear t ∧ Ready who t) := by
  unfold sendOneReminder
  refine Triple.bind ((claimAttempts_triple hdue).mono (fun _ _ ht => ⟨⟨ht.1.1, ht.2⟩, ht.1.2⟩)
    (fun _ _ _ ht => ht) fun _ _ _ ht => ht) fun r => ?_
  match r with
  | none => exact .throw fun _ _ ht => ht.elim
  | some (e, claim) =>
    refine (deliverClaimed_triple
      (h := ⟨e.id, ⟨envelopeIn, signerId, kind, foundAt⟩, claim.sentTimestamp, claim.index⟩)
      rfl).bind fun receipts => ?_
    cases receipts with
    | nil => exact .throw fun _ _ ht => ht
    | cons receipt rest =>
      dsimp only
      cases receipt.ok with
      | true =>
        refine Triple.mono (P := fun t => Clear t ∧ Ready who t) ?_ (fun _ _ ht => ht)
          (fun _ _ _ ht => ht) fun _ _ _ ht => ht
        refine (Calm.between (Calm.audit rfl rfl)).bind fun _ => ?_
        refine (Calm.between (Calm.emitPlain (fun _ => rfl) fun _ h => by cases h)).bind fun _ => ?_
        exact .pure fun _ _ ht => ht
      | false =>
        refine Triple.mono (P := Claimed who ⟨e.id, ⟨envelopeIn, signerId, kind, foundAt⟩,
          claim.sentTimestamp, claim.index⟩ true) ?_ (fun _ _ ht => ht)
          (fun _ _ _ ht => ht) fun _ _ _ ht => ht
        refine (rollbackAttempts_triple (h := ⟨e.id, ⟨envelopeIn, signerId, kind, foundAt⟩,
          claim.sentTimestamp, claim.index⟩)).bind fun _ => ?_
        refine (Calm.between (Calm.audit rfl rfl)).bind fun _ => ?_
        exact .pure fun _ _ ht => ht

/-- Nothing that was read is forgotten, whatever the outcome. -/
theorem sendOneReminder_keeps {envelopeIn : McpEnvelope} {signerId : String} {kind : ReminderKind}
    {foundAt : Option Time} {all : List McpEnvelope} (hmem : envelopeIn ∈ all)
    (hdue : Due server ⟨envelopeIn, signerId, kind, foundAt⟩) :
    (serviceRules server).watch.protocol.Triple
      (sendOneReminder server who envelopeIn signerId kind foundAt : M ι _)
      (fun t => (Clear t ∧ Ready who t) ∧ ∀ e ∈ all, e ∈ t.seen)
      (fun _ t => (Clear t ∧ Ready who t) ∧ ∀ e ∈ all, e ∈ t.seen)
      (fun _ t => (Clear t ∧ Ready who t) ∧ ∀ e ∈ all, e ∈ t.seen) :=
  (Watch.frame_triple (sendOneReminder_triple hdue) (F := fun t => ∀ e ∈ all, e ∈ t.seen)
    fun _ _ _ hseen e he => List.mem_append_right _ (hseen e he)).mono
      (fun _ _ ht => ⟨⟨ht.1, ht.2 _ hmem⟩, ht.2⟩) (fun _ _ _ ht => ht) fun _ _ _ ht => ht

theorem sendReminder_triple {signerId : Option String} :
    (serviceRules server).watch.protocol.Triple
      (sendReminder server who envelopeId signerId : M ι _)
      (fun t => Clear t ∧ Ready who t) (fun _ t => Clear t ∧ Ready who t)
      (fun _ t => Clear t ∧ Ready who t) := by
  unfold sendReminder
  refine Triple.bind (Calm.between Calm.throwIf.any) fun _ => ?_
  refine Triple.bind (Calm.between Calm.throwIf.any) fun _ => ?_
  have hfind : Calm server who (fun _ => True)
      ((store ⟨who, .plain⟩).findById server.config.tenant envelopeId) _ :=
    Calm.findById ⟨rfl, rfl⟩
  refine Triple.bind ((hfind Clear clear_steady).mono (fun _ _ ht => ⟨ht, trivial⟩)
    (fun _ _ _ ht => ht) fun _ _ _ ht => ht) fun found => ?_
  cases found with
  | none => exact .throw fun _ _ ht => ht.1
  | some e =>
    dsimp only
    refine Triple.mono (P := fun t => (Clear t ∧ Ready who t) ∧ ∀ e' ∈ [e], e' ∈ t.seen) ?_
      (fun _ _ ht => ⟨ht.1, List.forall_mem_singleton.mpr (ht.2 e rfl).1.2⟩) (fun _ _ _ ht => ht)
      fun _ _ _ ht => ht
    have hsteady : Steady fun t : Track (Duties ι) => Clear t ∧ ∀ e' ∈ [e], e' ∈ t.seen :=
      clear_steady.and fun t t' hahead hseen e' he' => hahead.seen e' (hseen e' he')
    have hpass : ∀ {α : Type} {x : M ι α}, Calm server who (fun _ => True) x (fun _ _ => True) →
        (serviceRules server).watch.protocol.Triple x
          (fun t => (Clear t ∧ Ready who t) ∧ ∀ e' ∈ [e], e' ∈ t.seen)
          (fun _ t => (Clear t ∧ Ready who t) ∧ ∀ e' ∈ [e], e' ∈ t.seen)
          (fun _ t => Clear t ∧ Ready who t) := fun hx =>
      (hx _ hsteady).mono (fun _ _ ht => ⟨⟨⟨ht.1.1, ht.2⟩, ht.1.2⟩, trivial⟩)
        (fun _ _ _ ht => ⟨⟨ht.1.1.1, ht.1.2⟩, ht.1.1.2⟩) fun _ _ _ ht => ⟨ht.1.1, ht.2⟩
    refine Triple.bind (hpass Calm.throwIf.any) fun _ => ?_
    refine Triple.bind (hpass Calm.takeRate) fun _ => ?_
    refine (Triple.mapM (R := fun _ _ => True) fun signer hsigner => ?_).mono (fun _ _ ht => ht)
      (fun _ _ _ ht => ht.1.1) fun _ _ _ ht => ht
    split
    · exact .pure fun _ _ ht => ⟨ht, trivial⟩
    next hpending =>
      have hmem : signer ∈ e.signers := by
        split at hsigner
        · exact hsigner
        · exact (List.mem_filter.mp hsigner).1
      have hdue : Due server ⟨e, signer.id, .manual, none⟩ :=
        ⟨signer, hmem, rfl, not_not.mp hpending⟩
      refine Triple.tryCatch (Triple.bind (sendOneReminder_keeps List.mem_cons_self hdue)
        fun receipt => ?_) fun error => ?_
      · exact .pure fun _ _ ht => ⟨ht, trivial⟩
      · exact .pure fun _ _ ht => ⟨ht, trivial⟩

-- ---------------------------------------------------------------------------
-- The scheduler
-- ---------------------------------------------------------------------------

theorem Calm.purgeLinks :
    Calm server who (fun _ => True)
      (updateWithRetry server who (fun _ => .plain) (fun _ purpose => purpose) envelopeId
        fun fresh : McpEnvelope =>
          if linksOf fresh = [] then return none
          else return some (eraseStoredLinks fresh none, ()) : M ι _) fun _ _ => True := by
  intro P hP
  refine (updateAttempts_triple (B := fun t => P t ∧ Ready who t) (N := fun t => P t ∧ Ready who t)
    (E := fun t => P t ∧ Ready who t) (R := fun _ _ t => P t ∧ Ready who t)
    (W := fun e edited _ => edited = eraseStoredLinks e none) (fun k => ?_) (fun k e hid => ?_)
    (fun k e edited _ hid hedited => ?_) (MAX_ATTEMPTS - 1)).mono
    (fun _ _ ht => ht.1) (fun r _ _ ht => ?_) fun _ _ _ ht => ht
  · have hfind : Calm server who (fun _ => True)
        ((store ⟨who, .plain⟩).findById server.config.tenant envelopeId) _ :=
      Calm.findById ⟨rfl, rfl⟩
    refine (hfind P hP).mono (fun _ _ ht => ⟨ht, trivial⟩) (fun r t _ ht => ?_) fun _ _ _ ht => ht
    cases r with
    | none => exact ht.1
    | some e => exact ⟨(ht.2 e rfl).2.2, (ht.2 e rfl).1, ht.1, fun h => by cases h⟩
  · split
    · exact .pure fun _ _ ht => ht.2.1
    · exact .pure fun _ _ ht => ⟨rfl, ht.1, ht.2.1⟩
  · subst hedited
    have hrewrite : Rewrite server e (eraseStoredLinks e none) .plain := .purge (.refl _)
    have hkeeps : KeepsLog e (eraseStoredLinks e none) := ⟨rfl, rfl, rfl, rfl⟩
    have howed : owed e (eraseStoredLinks e none) = [] := owed_none rfl fun h => h.2 rfl
    have hwrite : Calm server who (Holding e)
        ((store ⟨who, .plain⟩).update (eraseStoredLinks e none)) _ :=
      Calm.write rfl howed hkeeps hrewrite (fun _ ht => .inr ht) fun _ _ => .same rfl
    exact (hwrite P hP).mono (fun _ _ ht => ⟨ht.2, ht.1⟩) (fun _ _ _ ht => ht.1)
      fun _ _ _ ht => by split <;> exact ht
  · match r, ht with
    | none, ht => exact ⟨ht, trivial⟩
    | some (_, _), ht => exact ⟨ht, trivial⟩

theorem Calm.purgeStaleReminderLinks :
    Calm server who (fun _ => True) (Mcp.purgeStaleReminderLinks server who : M ι Unit)
      fun _ _ => True := by
  refine (Calm.listEnvelopes.any).bind fun all => Calm.forM (steady_const _) fun e _ => ?_
  split
  · exact .pure fun _ _ => trivial
  · exact Calm.isolated Calm.purgeLinks.discard

/-- What is due is the next of the scheduled reminders. -/
theorem due_of_computeDue {e : McpEnvelope} {at_ : Time} {entry : ReminderDueEntry}
    (h : entry ∈ computeDue e at_ server.config.durationsMs server.config.max) :
    Due server ⟨e, entry.signerId, .scheduled, some at_⟩ := by
  have hindex : entry.index = (sentOfSigner e entry.signerId).sentAt.length := by
    unfold computeDue at h
    split at h
    · cases h
    · split at h
      · cases h
      · obtain ⟨signer, -, hentry⟩ := List.mem_filterMap.mp h
        dsimp only at hentry
        split at hentry
        · cases hentry
        · split at hentry
          · cases hentry
          · split at hentry
            · cases hentry
            · split at hentry
              · cases hentry
                rfl
              · cases hentry
  change ReminderDueEntry.mk entry.signerId (sentOfSigner e entry.signerId).sentAt.length ∈ _
  rwa [← hindex]

theorem forM_triple {α : Type} {xs : List α} {g : α → M ι Unit} {P : Track (Duties ι) → Prop}
    {E : Thrown → Track (Duties ι) → Prop}
    (hg : ∀ a ∈ xs, (serviceRules server).watch.protocol.Triple (g a) P (fun _ => P) E) :
    (serviceRules server).watch.protocol.Triple (xs.forM g) P (fun _ => P) E := by
  induction xs with
  | nil => exact .pure fun _ _ ht => ht
  | cons a rest ih =>
    exact (hg a List.mem_cons_self).bind fun _ => ih fun b hb => hg b (List.mem_cons_of_mem _ hb)

theorem schedulerTick_triple {purge : Bool} :
    (serviceRules server).watch.protocol.Triple (schedulerTick server who purge : M ι Unit)
      (fun t => Clear t ∧ Ready who t) (fun _ t => Clear t ∧ Ready who t)
      (fun _ t => Clear t ∧ Ready who t) := by
  unfold schedulerTick
  refine (Calm.between Calm.now).bind fun at_ => ?_
  have hexpiry : Calm server who (fun _ => True) (expiryTick server who at_) _ := Calm.expiryTick
  have hexpiry := Calm.between hexpiry
  dsimp only
  split
  · have hlist : Calm server who (fun _ => True)
        (Mcp.listEnvelopes server.config.tenant : M ι _) _ := Calm.listEnvelopes
    refine Triple.bind ((hlist Clear clear_steady).mono (fun _ _ ht => ⟨ht, trivial⟩)
      (fun _ _ _ ht => ht) fun _ _ _ ht => ht) fun all => ?_
    refine Triple.bind (M := fun _ t => Clear t ∧ Ready who t) ((forM_triple
      (P := fun t => (Clear t ∧ Ready who t) ∧ ∀ e ∈ all, e ∈ t.seen)
      fun e he => forM_triple fun entry hentry => ?_).mono
        (fun _ _ ht => ⟨ht.1, fun e he => (ht.2 e he).1⟩) (fun _ _ _ ht => ht.1)
        fun _ _ _ ht => ht) fun _ => hexpiry
    refine Triple.tryCatch (Triple.bind (sendOneReminder_keeps he (due_of_computeDue hentry))
      fun _ => .pure fun _ _ ht => ht) fun error => .pure fun _ _ ht => ht
  · split
    · exact (Calm.between (Calm.isolated Calm.purgeStaleReminderLinks)).bind fun _ => hexpiry
    · exact hexpiry

end

end EsigSuite.Mcp.Duties
