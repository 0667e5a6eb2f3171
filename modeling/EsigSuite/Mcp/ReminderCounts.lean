import EsigSuite.Mcp.ServiceThreads
import EsigSuite.Mcp.ServiceSchedule
import Mathlib.Data.List.Perm.Subperm

/-!
# At most `max` reminders of a signer

A reminder is claimed by a write that counts against the cap, and then sent once
or taken back once. Every reminder that was sent is thus a claim that was not
taken back, and those are entries of the envelope.
-/

namespace EsigSuite.Mcp

open Lib
open EnvelopeFile (getRev setRev)

variable {ι : Type}

-- ---------------------------------------------------------------------------
-- What a write does to the entries
-- ---------------------------------------------------------------------------

namespace Purpose

/-- Whose reminder is claimed. -/
def claims : Purpose → Option String
  | .claim c _ => some c.signerId
  | _ => none

/-- Whose claim is taken back. -/
def returns : Purpose → Option String
  | .rollback c .. => some c.signerId
  | _ => none

end Purpose

/-- The reminders of a signer, of both kinds. -/
def entries (e : McpEnvelope) (signerId : String) : Nat :=
  (sentOfSigner e signerId).sentAt.length + (sentOfSigner e signerId).manualSentAt.length

section
variable {server : Server} {e e' : McpEnvelope} {signerId : String} {kind : ReminderKind}
  {sent : List Time} {purpose : Purpose}

theorem sentOfSigner_withList (other : String) :
    sentOfSigner (withList server e signerId kind sent) other =
      if other = signerId then
        withSent server e.createdAt kind (sentOfSigner e signerId) sent
      else sentOfSigner e other := by
  change (Function.update (bookOf e).delivery.reminders signerId _ other).getD {} = _
  rw [Function.update_apply]
  split
  · rfl
  · rfl

theorem listOf_withList_other {other : String} (h : other ≠ signerId) (kind' : ReminderKind) :
    listOf (withList server e signerId kind sent) other kind' = listOf e other kind' := by
  rw [listOf, sentOfSigner_withList, if_neg h, listOf]

/-- The list of the other kind stays. -/
theorem listOf_withList_kind {kind' : ReminderKind} (h : kind' ≠ kind) (other : String) :
    listOf (withList server e signerId kind sent) other kind' = listOf e other kind' := by
  by_cases hother : other = signerId
  · subst hother
    rw [listOf, sentOfSigner_withList, if_pos rfl, listOf]
    cases kind <;> cases kind' <;> first | exact absurd rfl h | rfl
  · exact listOf_withList_other hother kind'

theorem entries_withList_other {other : String} (h : other ≠ signerId) :
    entries (withList server e signerId kind sent) other = entries e other := by
  rw [entries, sentOfSigner_withList, if_neg h, entries]

theorem entries_withList :
    entries (withList server e signerId kind sent) signerId + (listOf e signerId kind).length =
      entries e signerId + sent.length := by
  rw [entries, sentOfSigner_withList, if_pos rfl, entries, listOf]
  cases kind
  · change sent.length + (sentOfSigner e signerId).manualSentAt.length +
      (sentOfSigner e signerId).sentAt.length = _
    omega
  · change (sentOfSigner e signerId).sentAt.length + sent.length +
      (sentOfSigner e signerId).manualSentAt.length = _
    omega

theorem change_book (h : Change e e') : bookOf e' = bookOf e ∧ e'.createdAt = e.createdAt := by
  cases h with
  | expire => exact ⟨rfl, rfl⟩
  | sign hlive hsigner hopen hturn image signedAt completedAt =>
    unfold Envelope.signed
    dsimp only
    split <;> exact ⟨rfl, rfl⟩
  | decline => exact ⟨rfl, rfl⟩
  | void => exact ⟨rfl, rfl⟩

theorem Rewrite.createdAt (h : Rewrite server e e' purpose) : e'.createdAt = e.createdAt := by
  cases h with
  | change hlive h hpurpose => exact (change_book h).2
  | void => rfl
  | aside h hpurpose => exact h.createdAt
  | claim => rfl
  | rollback => rfl
  | persist hsent hpending hemitted links h => exact h.createdAt
  | erase left signerId h => cases signerId <;> exact h.createdAt
  | purge h => exact h.createdAt
  | expire now hcan hemitted h => exact h.createdAt

/-- A write that is not about reminders. -/
structure NoReminder (e e' : McpEnvelope) (purpose : Purpose) : Prop where
  claims : purpose.claims = none
  returns : purpose.returns = none
  reminders : reminderStateOf e' = reminderStateOf e

/-- Only a claim and its way back are about reminders. -/
theorem Rewrite.reminders (h : Rewrite server e e' purpose) :
    (∃ c sentTimestamp, purpose = .claim c sentTimestamp ∧ e.id = c.envelopeIn.id ∧
        entries e c.signerId < server.config.max ∧ Due server c ∧
        e' = withList server e c.signerId c.kind (listOf e c.signerId c.kind ++ [sentTimestamp])) ∨
      (∃ c sentTimestamp index left, purpose = .rollback c sentTimestamp index left ∧
        e' = withList server e c.signerId c.kind ((listOf e c.signerId c.kind).eraseIdx index)) ∨
      NoReminder e e' purpose := by
  cases h with
  | change hlive h hpurpose =>
    refine .inr (.inr ?_)
    have hreminders : reminderStateOf e' = reminderStateOf e := by
      unfold reminderStateOf
      rw [(change_book h).1]
    rcases hpurpose with rfl | ⟨gate, rfl⟩ <;> exact ⟨rfl, rfl, hreminders⟩
  | void => exact .inr (.inr ⟨rfl, rfl, rfl⟩)
  | aside h hpurpose =>
    refine .inr (.inr ?_)
    rcases hpurpose with rfl | rfl | rfl <;> exact ⟨rfl, rfl, h.reminders⟩
  | claim c sentTimestamp hid hsigner hlink hmax hdue =>
    exact .inl ⟨c, sentTimestamp, rfl, hid, hmax, hdue, rfl⟩
  | rollback c sentTimestamp index left hstate =>
    exact .inr (.inl ⟨c, sentTimestamp, index, left, rfl, rfl⟩)
  | persist hsent hpending hemitted links h => exact .inr (.inr ⟨rfl, rfl, h.reminders⟩)
  | erase left signerId h =>
    exact .inr (.inr ⟨rfl, rfl, by cases signerId <;> exact h.reminders⟩)
  | purge h => exact .inr (.inr ⟨rfl, rfl, h.reminders⟩)
  | expire now hcan hemitted h => exact .inr (.inr ⟨rfl, rfl, h.reminders⟩)

theorem entries_congr (h : reminderStateOf e' = reminderStateOf e) (signerId : String) :
    entries e' signerId = entries e signerId := by
  rw [entries, entries, sentOfSigner, sentOfSigner, h]

end

-- ---------------------------------------------------------------------------
-- Claims and sends
-- ---------------------------------------------------------------------------

/-- What a permitted call does to claims and sends, and to the claim that its
thread holds. -/
inductive ClaimStep (server : Server) (t : Track (Duties ι)) (own : Duties ι) (s s' : World ι) :
    Op ι → Prop
  | same {op : Op ι} (hrows : s'.rows = s.rows ∨
        ∃ e, Fresh server t.drawn e ∧ s'.rows = s.rows ++ [setRev e 0])
      (hhistory : s'.history = s.history) (hsends : s'.sends = s.sends)
      (hheld : own.held = t.own.held) : ClaimStep server t own s s' op
  | write (tag : Tag ι) (e : McpEnvelope) (j : Nat) (cur : McpEnvelope)
      (hj : s.rows[j]? = some cur) (hedits : Edits t.drawn cur e) (hwrites : Writes server t tag cur e)
      (hrows : s'.rows = s.rows.set j (setRev e (getRev e + 1)))
      (hhistory : s'.history = s.history ++ [⟨tag, cur, setRev e (getRev e + 1)⟩])
      (hsends : s'.sends = s.sends) (hheld : own.held = t.own.heldAfter e tag.purpose) :
      ClaimStep server t own s s' (.update tag e)
  | send (tag : Tag ι) (envelope : DeliveryEnvelope) (links : List DeliveryLink) (ok : Bool)
      (hwho : tag.who = t.own.who) (hrows : s'.rows = s.rows) (hhistory : s'.history = s.history)
      (hsends : s'.sends = s.sends ++ [⟨tag, envelope.id, ok⟩])
      (hclaim : ∀ c sentTimestamp, tag.purpose = .claim c sentTimestamp →
        ∃ index, t.own.held = some ⟨envelope.id, c, sentTimestamp, index⟩)
      (hheld : own.held = if tag.purpose.claims.isSome && ok then none else t.own.held) :
      ClaimStep server t own s s' (.deliver tag envelope links)

section
variable {server : Server} {s s' : World ι} {ts : ι → Track (Duties ι)} {i : ι} {op : Op ι}
  {r : Res op}

theorem next_who (t : Track (Duties ι)) (webhook : Bool) (op : Op ι) (r : Res op) :
    (Duties.next webhook t op r).who = t.own.who := by
  cases op with
  | insert e => cases r <;> rfl
  | findByTokenHash tokenHash =>
    match r with
    | .ok none | .ok (some _) | .error _ => rfl
  | findById tag tenantId id =>
    match r with
    | .ok none | .ok (some _) | .error _ => rfl
  | update tag e => cases r <;> rfl
  | audit entry => cases r <;> rfl
  | enqueue event => cases r <;> rfl
  | deliver tag envelope links =>
    obtain ⟨who, purpose⟩ := tag
    match r with
    | .error _ | .ok [] => cases purpose <;> rfl
    | .ok (receipt :: _) =>
      cases purpose <;> first | rfl | skip
      change (if receipt.ok then _ else _ : Duties ι).who = _
      split <;> rfl
  | _ => rfl

/-- Only writes and sends of claims change what is held. -/
theorem next_held (t : Track (Duties ι)) (webhook : Bool) (op : Op ι) (r : Res op)
    (hupdate : ∀ tag e, op ≠ .update tag e) (hdeliver : ∀ tag envelope links, op ≠ .deliver tag envelope links) :
    (Duties.next webhook t op r).held = t.own.held := by
  cases op with
  | insert e => cases r <;> rfl
  | findByTokenHash tokenHash =>
    match r with
    | .ok none | .ok (some _) | .error _ => rfl
  | findById tag tenantId id =>
    match r with
    | .ok none | .ok (some _) | .error _ => rfl
  | update tag e => exact absurd rfl (hupdate tag e)
  | audit entry => cases r <;> rfl
  | enqueue event => cases r <;> rfl
  | deliver tag envelope links => exact absurd rfl (hdeliver tag envelope links)
  | _ => rfl

theorem same_sends (hexec : exec op s r s')
    (hdeliver : ∀ tag envelope links, op ≠ .deliver tag envelope links) : s'.sends = s.sends := by
  cases op with
  | random | randomUUID => obtain ⟨-, rfl⟩ := hexec; rfl
  | update tag e =>
    rcases hexec with ⟨⟨j, cur, -, -, -, -, rfl⟩, -⟩ | ⟨rfl, -⟩ <;> rfl
  | deliver tag envelope links => exact absurd rfl (hdeliver tag envelope links)
  | enqueue event => rcases hexec with ⟨⟨_, rfl⟩, -⟩ | ⟨rfl, -⟩ <;> rfl
  | insert | findById | findByTokenHash | listEnvelopes | audit =>
    rcases hexec with ⟨rfl, -⟩ | ⟨rfl, -⟩ <;> rfl
  | queue process op =>
    obtain ⟨-, hexec⟩ := hexec
    cases op with
    | enterTick => obtain ⟨-, rfl⟩ := hexec; rfl
    | leaveTick => cases hexec; rfl
    | _ => rcases hexec with ⟨rfl, -⟩ | ⟨rfl, -⟩ <;> rfl
  | _ => cases hexec; rfl

theorem ClaimStep.of_quiet (hbase : Base s ts) (hexec : exec op s r s')
    (hpermits : (serviceRules server).permits (ts i) op)
    (hdeliver : ∀ tag envelope links, op ≠ .deliver tag envelope links)
    (hupdate : ∀ tag e, op ≠ .update tag e) :
    ClaimStep server (ts i) ((serviceRules server).track (ts i) op r).own s s' op := by
  have hheld : ((serviceRules server).track (ts i) op r).own.held = (ts i).own.held :=
    next_held (ts i) server.config.webhook op r hupdate hdeliver
  cases RowStep.of_exec hbase hexec hpermits with
  | same hrows hhistory => exact .same (.inl hrows) hhistory (same_sends hexec hdeliver) hheld
  | insert e hfresh hs' =>
    subst hs'
    exact .same (.inr ⟨e, hfresh, rfl⟩) rfl rfl hheld
  | update tag e => exact absurd rfl (hupdate tag e)

theorem ClaimStep.of_exec (hbase : Base s ts) (hexec : exec op s r s')
    (hpermits : (serviceRules server).permits (ts i) op) :
    ClaimStep server (ts i) ((serviceRules server).track (ts i) op r).own s s' op := by
  cases op with
  | update tag e =>
    rcases hexec with ⟨hswap, hr⟩ | ⟨hs', error, hr⟩
    · obtain ⟨j, cur, hj, -, hedits, hwrites, hs'⟩ := hbase.swapped hpermits hswap
      subst hs'
      subst hr
      exact .write tag e j cur hj hedits hwrites rfl rfl rfl rfl
    · subst hs'
      subst hr
      exact .same (.inl rfl) rfl rfl rfl
  | deliver tag envelope links =>
    obtain ⟨ok, hs', hok⟩ := hexec
    subst hs'
    refine .send tag envelope links ok hpermits.1 rfl rfl rfl (fun c sentTimestamp hp => ?_) ?_
    · obtain ⟨-, index, hheld⟩ := hpermits.2.2 c sentTimestamp hp
      exact ⟨index, hheld⟩
    · change ((ts i).own.delivered tag.purpose r).held = _
      obtain ⟨who, purpose⟩ := tag
      match r, hok with
      | .error _, hok | .ok [], hok =>
        have hno : ok = false := by
          cases ok with
          | false => rfl
          | true => obtain ⟨receipt, rest, hr, -⟩ := hok.mp rfl; cases hr
        rw [hno, Bool.and_false]
        cases purpose <;> rfl
      | .ok (receipt :: rest), hok =>
        have hgood : ok = receipt.ok := by
          cases hreceipt : receipt.ok with
          | true => exact hok.mpr ⟨receipt, rest, rfl, hreceipt⟩
          | false =>
            cases ok with
            | false => rfl
            | true =>
              obtain ⟨receipt', rest', hr, htrue⟩ := hok.mp rfl
              cases hr
              exact absurd htrue (by rw [hreceipt]; exact Bool.false_ne_true)
        cases purpose <;> first | rfl | skip
        rw [hgood]
        change (if receipt.ok then _ else _ : Duties ι).held = if true && receipt.ok then _ else _
        rw [Bool.true_and]
        split <;> rfl
  | _ => exact .of_quiet hbase hexec hpermits (fun _ _ _ h => by cases h) fun _ _ h => by cases h

end

-- ---------------------------------------------------------------------------
-- Counts
-- ---------------------------------------------------------------------------

section
variable (envelopeId signerId : String)

/-- The reminder was sent to the signer. -/
def Send.reminds (d : Send ι) : Bool :=
  d.ok && d.envelopeId == envelopeId && d.tag.purpose.claims == some signerId

def reminded (s : World ι) : List (Send ι) := s.sends.filter (·.reminds envelopeId signerId)

/-- The writer, if its write is about a reminder of the signer. -/
def tally (w : Write ι) (of : Option String) : List ι :=
  if w.new.id = envelopeId ∧ of = some signerId then [w.tag.who] else []

def claimersOf (w : Write ι) : List ι := tally envelopeId signerId w w.tag.purpose.claims

def returnersOf (w : Write ι) : List ι := tally envelopeId signerId w w.tag.purpose.returns

def claimers (s : World ι) : List ι := s.history.flatMap (claimersOf envelopeId signerId)

def returners (s : World ι) : List ι := s.history.flatMap (returnersOf envelopeId signerId)

/-- The claims of the signer that a thread holds: one or none. -/
def holds (held : Option Held) : Nat :=
  if held.any fun h => h.envelopeId == envelopeId && h.claim.signerId == signerId then 1 else 0

end

section
variable {server : Server} {envelopeId signerId : String} {t : Track (Duties ι)} {tag : Tag ι}
  {cur e : McpEnvelope}

theorem tally_none (w : Write ι) : tally envelopeId signerId w none = [] :=
  if_neg fun h => by cases h.2

theorem tally_some (w : Write ι) (id : String) :
    (tally envelopeId signerId w (some id)).length =
      if w.new.id = envelopeId ∧ id = signerId then 1 else 0 := by
  unfold tally
  simp only [Option.some.injEq]
  split <;> rfl

theorem tally_count [DecidableEq ι] (w : Write ι) (of : Option String) (i : ι) :
    (tally envelopeId signerId w of).count i =
      if i = w.tag.who then (tally envelopeId signerId w of).length else 0 := by
  unfold tally
  split
  · rw [List.count_singleton, List.length_singleton]
    by_cases hi : i = w.tag.who
    · rw [if_pos hi, if_pos (beq_iff_eq.mpr hi.symm)]
    · rw [if_neg hi, if_neg fun h => hi (beq_iff_eq.mp h).symm]
  · rw [List.count_nil, List.length_nil, ite_self]

/-- What a write takes from the held claims and adds to them, it adds to the
entries and takes from them. -/
theorem write_counts (envelopeId signerId : String) (hwrites : Writes server t tag cur e) (hid : e.id = cur.id) (rev : Nat) :
    let w : Write ι := ⟨tag, cur, setRev e rev⟩
    let claimed := (claimersOf envelopeId signerId w).length
    let returned := (returnersOf envelopeId signerId w).length
    holds envelopeId signerId (t.own.heldAfter e tag.purpose) + returned ≤
        holds envelopeId signerId t.own.held + claimed ∧
      (e.id = envelopeId →
        entries cur signerId + claimed ≤ entries e signerId + returned ∧
        (claimed = 0 → entries e signerId ≤ entries cur signerId) ∧
        (claimed ≠ 0 → entries e signerId ≤ server.config.max)) := by
  intro w claimed returned
  obtain ⟨who, purpose⟩ := tag
  rcases hwrites.rewrite.reminders with ⟨c, sentTimestamp, hpurpose, -, hmax, -, hedited⟩ |
    ⟨c, sentTimestamp, index, left, hpurpose, hedited⟩ | haside
  · obtain rfl : purpose = _ := hpurpose
    have hreturned : returned = 0 := congrArg List.length (tally_none w)
    have hclaimed : claimed = if e.id = envelopeId ∧ c.signerId = signerId then 1 else 0 :=
      tally_some w c.signerId
    have hholds : holds envelopeId signerId (t.own.heldAfter e (.claim c sentTimestamp)) = claimed := by
      rw [hclaimed, holds, Duties.heldAfter, Option.any_some]
      simp only [Bool.and_eq_true, beq_iff_eq]
    refine ⟨by rw [hholds, hreturned]; omega, fun hhere => ?_⟩
    rw [hclaimed, hreturned, hedited]
    by_cases hsigner : c.signerId = signerId
    · subst hsigner
      have hcount : entries (withList server cur c.signerId c.kind
          (listOf cur c.signerId c.kind ++ [sentTimestamp])) c.signerId + _ = _ := entries_withList
      rw [List.length_append, List.length_singleton] at hcount
      rw [if_pos ⟨hedited ▸ hhere, rfl⟩]
      exact ⟨by omega, fun h => absurd h Nat.one_ne_zero, fun _ => by omega⟩
    · rw [if_neg fun h => hsigner h.2, entries_withList_other (Ne.symm hsigner)]
      exact ⟨le_rfl, fun _ => le_rfl, fun h => absurd rfl h⟩
  · obtain rfl : purpose = _ := hpurpose
    have hclaimed : claimed = 0 := congrArg List.length (tally_none w)
    have hreturned : returned = if e.id = envelopeId ∧ c.signerId = signerId then 1 else 0 :=
      tally_some w c.signerId
    have hheld : t.own.held = some ⟨cur.id, c, sentTimestamp, index⟩ :=
      (hwrites.rollsBack c sentTimestamp index left rfl).1
    have hholds : holds envelopeId signerId t.own.held = returned := by
      rw [hheld, hreturned, holds, Option.any_some, hid]
      simp only [Bool.and_eq_true, beq_iff_eq]
    have hnone : holds envelopeId signerId
        (t.own.heldAfter e (.rollback c sentTimestamp index left)) = 0 := rfl
    refine ⟨by rw [hholds, hclaimed, hnone]; omega, fun hhere => ?_⟩
    rw [hclaimed, hreturned, hedited]
    by_cases hsigner : c.signerId = signerId
    · subst hsigner
      have hcount : entries (withList server cur c.signerId c.kind
          ((listOf cur c.signerId c.kind).eraseIdx index)) c.signerId + _ = _ := entries_withList
      have herased := List.length_eraseIdx_le (listOf cur c.signerId c.kind) index
      have hone : (listOf cur c.signerId c.kind).length ≤
          ((listOf cur c.signerId c.kind).eraseIdx index).length + 1 := by
        rw [List.length_eraseIdx]
        split <;> omega
      rw [if_pos ⟨hedited ▸ hhere, rfl⟩]
      exact ⟨by omega, fun _ => by omega, fun h => absurd rfl h⟩
    · rw [if_neg fun h => hsigner h.2, entries_withList_other (Ne.symm hsigner)]
      exact ⟨le_rfl, fun _ => le_rfl, fun h => absurd rfl h⟩
  · have hclaimed : claimed = 0 := by
      change (tally envelopeId signerId w purpose.claims).length = 0
      rw [haside.claims, tally_none, List.length_nil]
    have hreturned : returned = 0 := by
      change (tally envelopeId signerId w purpose.returns).length = 0
      rw [haside.returns, tally_none, List.length_nil]
    have hheld : t.own.heldAfter e purpose = t.own.held := by
      obtain ⟨hclaims, hreturns, -⟩ := haside
      cases purpose <;> first | rfl | exact absurd hclaims (Option.some_ne_none _) |
        exact absurd hreturns (Option.some_ne_none _)
    rw [hclaimed, hreturned, entries_congr haside.reminders]
    exact ⟨by rw [hheld], fun _ => ⟨le_rfl, fun _ => le_rfl, fun h => absurd rfl h⟩⟩

/-- For one signer of one envelope that has `start` reminders already. -/
structure Capped [DecidableEq ι] (max start : Nat) (envelopeId signerId : String) (s : World ι)
    (ts : ι → Track (Duties ι)) : Prop where
  who : ∀ i, (ts i).own.who = i
  /-- What a thread has claimed it holds, has sent or has taken back. -/
  settled : ∀ i, ((reminded envelopeId signerId s).map (·.tag.who)).count i +
    (returners envelopeId signerId s).count i + holds envelopeId signerId (ts i).own.held ≤
      (claimers envelopeId signerId s).count i
  stored : ∀ row ∈ s.rows, row.id = envelopeId →
    start + (claimers envelopeId signerId s).length ≤
      entries row signerId + (returners envelopeId signerId s).length
  begun : start ≠ 0 → ∃ row ∈ s.rows, row.id = envelopeId
  capped : claimers envelopeId signerId s ≠ [] →
    ∃ row ∈ s.rows, row.id = envelopeId ∧ entries row signerId ≤ max

section
variable [DecidableEq ι] {s s' : World ι} {ts : ι → Track (Duties ι)} {i : ι} {max start : Nat}

theorem Capped.same (h : Capped max start envelopeId signerId s ts) {t : Track (Duties ι)}
    (hwho : t.own.who = i) (hheld : t.own.held = (ts i).own.held) (hhistory : s'.history = s.history)
    (hsends : s'.sends = s.sends)
    (hrows : s'.rows = s.rows ∨
      ∃ e, s'.rows = s.rows ++ [e] ∧ (∀ row ∈ s.rows, row.id ≠ e.id)) :
    Capped max start envelopeId signerId s' (Function.update ts i t) := by
  have hclaimers : claimers envelopeId signerId s' = claimers envelopeId signerId s := by
    rw [claimers, claimers, hhistory]
  have hreturners : returners envelopeId signerId s' = returners envelopeId signerId s := by
    rw [returners, returners, hhistory]
  have hreminded : reminded envelopeId signerId s' = reminded envelopeId signerId s := by
    rw [reminded, reminded, hsends]
  have hkept : ∀ row ∈ s.rows, row ∈ s'.rows := by
    rcases hrows with hrows | ⟨e, hrows, -⟩ <;> rw [hrows]
    · exact fun _ h => h
    · exact fun _ h => List.mem_append_left _ h
  refine ⟨?_, ?_, ?_, fun hstart => ?_, ?_⟩
  · exact (Function.forall_update_iff ts fun i t => t.own.who = i).mpr ⟨hwho, fun j _ => h.who j⟩
  · rw [hclaimers, hreturners, hreminded]
    refine (Function.forall_update_iff ts fun i t => _ + holds envelopeId signerId t.own.held ≤ _).mpr
      ⟨?_, fun j _ => h.settled j⟩
    rw [hheld]
    exact h.settled i
  · rw [hclaimers, hreturners]
    rcases hrows with hrows | ⟨e, hrows, hnew⟩ <;> rw [hrows]
    · exact h.stored
    · refine List.forall_mem_append.mpr ⟨h.stored, List.forall_mem_singleton.mpr fun hid => ?_⟩
      have hnone : claimers envelopeId signerId s = [] := by
        by_contra hsome
        obtain ⟨row, hrow, hrowid, -⟩ := h.capped hsome
        exact hnew row hrow (hrowid.trans hid.symm)
      have hzero : start = 0 := by
        by_contra hstart
        obtain ⟨row, hrow, hrowid⟩ := h.begun hstart
        exact hnew row hrow (hrowid.trans hid.symm)
      rw [hnone, hzero]
      exact Nat.zero_le _
  · obtain ⟨row, hrow, hid⟩ := h.begun hstart
    exact ⟨row, hkept row hrow, hid⟩
  · rw [hclaimers]
    intro hsome
    obtain ⟨row, hrow, hrest⟩ := h.capped hsome
    exact ⟨row, hkept row hrow, hrest⟩

theorem Capped.write (h : Capped max start envelopeId signerId s ts) {j rev : Nat} {t : Track (Duties ι)}
    (hids : (s.rows.map (·.id)).Nodup) (hj : s.rows[j]? = some cur) (hid : e.id = cur.id)
    (hwho : t.own.who = i) (htag : tag.who = i)
    (hcounts : holds envelopeId signerId t.own.held +
          (returnersOf envelopeId signerId (⟨tag, cur, setRev e rev⟩ : Write ι)).length ≤
        holds envelopeId signerId (ts i).own.held +
          (claimersOf envelopeId signerId (⟨tag, cur, setRev e rev⟩ : Write ι)).length)
    (hentries : e.id = envelopeId →
      entries cur signerId +
          (claimersOf envelopeId signerId (⟨tag, cur, setRev e rev⟩ : Write ι)).length ≤
        entries e signerId +
          (returnersOf envelopeId signerId (⟨tag, cur, setRev e rev⟩ : Write ι)).length ∧
      ((claimersOf envelopeId signerId (⟨tag, cur, setRev e rev⟩ : Write ι)).length = 0 →
        entries e signerId ≤ entries cur signerId) ∧
      ((claimersOf envelopeId signerId (⟨tag, cur, setRev e rev⟩ : Write ι)).length ≠ 0 →
        entries e signerId ≤ max)) :
    Capped max start envelopeId signerId
      { s with
        rows := s.rows.set j (setRev e rev), history := s.history ++ [⟨tag, cur, setRev e rev⟩] }
      (Function.update ts i t) := by
  set w : Write ι := ⟨tag, cur, setRev e rev⟩ with hw
  have hcur : cur ∈ s.rows := List.mem_of_getElem? hj
  have hnewid : (setRev e rev).id = cur.id := hid
  have hnew : setRev e rev ∈ s.rows.set j (setRev e rev) :=
    List.mem_set (List.getElem?_eq_some_iff.mp hj).1 _
  have hclaimers : ∀ rows, claimers envelopeId signerId { s with rows, history := s.history ++ [w] } =
      claimers envelopeId signerId s ++ claimersOf envelopeId signerId w := fun rows => by
    simp only [claimers, List.flatMap_append, List.flatMap_singleton]
  have hreturners : ∀ rows, returners envelopeId signerId { s with rows, history := s.history ++ [w] } =
      returners envelopeId signerId s ++ returnersOf envelopeId signerId w := fun rows => by
    simp only [returners, List.flatMap_append, List.flatMap_singleton]
  have helsewhere : e.id ≠ envelopeId → claimersOf envelopeId signerId w = [] := fun hother =>
    if_neg fun hhere => hother hhere.1
  have hnowhere : e.id ≠ envelopeId → returnersOf envelopeId signerId w = [] := fun hother =>
    if_neg fun hhere => hother hhere.1
  refine ⟨?_, fun k => ?_, fun row hrow hrowid => ?_, fun hstart => ?_, ?_⟩
  · exact (Function.forall_update_iff ts fun i t => t.own.who = i).mpr ⟨hwho, fun j _ => h.who j⟩
  · rw [hclaimers, hreturners, List.count_append, List.count_append]
    have hsettled := h.settled k
    have hclaimed : (claimersOf envelopeId signerId w).count k = _ := tally_count w _ k
    have hreturned : (returnersOf envelopeId signerId w).count k = _ := tally_count w _ k
    rw [hclaimed, hreturned]
    by_cases hk : k = i
    · subst hk
      rw [Function.update_self, if_pos htag.symm, if_pos htag.symm]
      change _ + (_ + (returnersOf envelopeId signerId w).length) + _ ≤
        _ + (claimersOf envelopeId signerId w).length
      change List.count k (List.map _ (reminded envelopeId signerId s)) + _ + _ ≤ _
      omega
    · rw [Function.update_of_ne hk, if_neg fun hsame => hk (hsame.trans htag),
        if_neg fun hsame => hk (hsame.trans htag)]
      exact hsettled
  · rw [hclaimers, hreturners, List.length_append, List.length_append]
    rcases mem_set_cases hids hj hnewid hrow with rfl | ⟨hold, hother⟩
    · obtain ⟨hle, -⟩ := hentries hrowid
      have hstored := h.stored cur hcur (hid.symm.trans hrowid)
      change _ ≤ entries e signerId + _
      omega
    · have hne : e.id ≠ envelopeId := fun hhere => hother (hrowid.trans (hhere.symm.trans hid))
      rw [helsewhere hne, hnowhere hne]
      exact h.stored row hold hrowid
  · obtain ⟨row, hrow, hrowid⟩ := h.begun hstart
    by_cases hhere : e.id = envelopeId
    · exact ⟨_, hnew, hhere⟩
    · exact ⟨row, mem_set_of_ne hj hrow (fun hsame => hhere (hid.trans (hsame.symm.trans hrowid))) _,
        hrowid⟩
  · rw [hclaimers]
    intro hsome
    by_cases hhere : e.id = envelopeId
    · obtain ⟨-, hless, hmax⟩ := hentries hhere
      refine ⟨_, hnew, hhere, ?_⟩
      change entries e signerId ≤ max
      by_cases hclaimed : (claimersOf envelopeId signerId w).length = 0
      · rw [List.eq_nil_of_length_eq_zero hclaimed, List.append_nil] at hsome
        obtain ⟨row, hrow, hrowid, hcapped⟩ := h.capped hsome
        rw [eq_of_key hids hrow hcur (hrowid.trans (hhere.symm.trans hid))] at hcapped
        exact (hless hclaimed).trans hcapped
      · exact hmax hclaimed
    · rw [helsewhere hhere, List.append_nil] at hsome
      obtain ⟨row, hrow, hrowid, hcapped⟩ := h.capped hsome
      exact ⟨row, mem_set_of_ne hj hrow (fun hsame => hhere (hid.trans (hsame.symm.trans hrowid))) _,
        hrowid, hcapped⟩

theorem Capped.send (h : Capped max start envelopeId signerId s ts) {id : String} {ok : Bool}
    {t : Track (Duties ι)} (hwho : t.own.who = i) (htag : tag.who = i)
    (hclaim : ∀ c sentTimestamp, tag.purpose = .claim c sentTimestamp →
      ∃ index, (ts i).own.held = some ⟨id, c, sentTimestamp, index⟩)
    (hheld : t.own.held = if tag.purpose.claims.isSome && ok then none else (ts i).own.held)
    (hrows : s'.rows = s.rows) (hhistory : s'.history = s.history)
    (hsends : s'.sends = s.sends ++ [⟨tag, id, ok⟩]) :
    Capped max start envelopeId signerId s' (Function.update ts i t) := by
  have hclaimers : claimers envelopeId signerId s' = claimers envelopeId signerId s := by
    rw [claimers, claimers, hhistory]
  have hreturners : returners envelopeId signerId s' = returners envelopeId signerId s := by
    rw [returners, returners, hhistory]
  refine ⟨?_, fun k => ?_, ?_, hrows ▸ h.begun, ?_⟩
  · exact (Function.forall_update_iff ts fun i t => t.own.who = i).mpr ⟨hwho, fun j _ => h.who j⟩
  · have hsettled := h.settled k
    have hsent : reminded envelopeId signerId s' = reminded envelopeId signerId s ++
        [(⟨tag, id, ok⟩ : Send ι)].filter (·.reminds envelopeId signerId) := by
      rw [reminded, hsends, List.filter_append, reminded]
    rw [hclaimers, hreturners, hsent, List.map_append, List.count_append]
    by_cases hhit : (⟨tag, id, ok⟩ : Send ι).reminds envelopeId signerId = true
    · rw [List.filter_cons_of_pos hhit, List.filter_nil, List.map_singleton]
      simp only [List.count_singleton, beq_iff_eq]
      obtain ⟨⟨rfl, hid⟩, hsigner⟩ := by
        simpa only [Send.reminds, Bool.and_eq_true, beq_iff_eq] using hhit
      by_cases hk : k = i
      · subst hk
        have hnone : holds envelopeId signerId t.own.held = 0 := by
          rw [hheld, hsigner]
          rfl
        have hone : holds envelopeId signerId (ts k).own.held = 1 := by
          obtain ⟨who, purpose⟩ := tag
          cases purpose with
          | claim c sentTimestamp =>
            obtain ⟨index, hhad⟩ := hclaim c sentTimestamp rfl
            have hsame : c.signerId = signerId := Option.some.inj hsigner
            rw [hhad, holds, Option.any_some, if_pos]
            rw [Bool.and_eq_true, beq_iff_eq, beq_iff_eq]
            exact ⟨hid, hsame⟩
          | _ => cases hsigner
        rw [Function.update_self, hnone, if_pos htag]
        omega
      · rw [Function.update_of_ne hk, if_neg fun hsame => hk (hsame.symm.trans htag)]
        exact hsettled
    · rw [List.filter_cons_of_neg hhit, List.filter_nil, List.map_nil, List.count_nil, Nat.add_zero]
      by_cases hk : k = i
      · subst hk
        have hle : holds envelopeId signerId t.own.held ≤ holds envelopeId signerId (ts k).own.held := by
          rw [hheld]
          split
          · exact Nat.zero_le _
          · exact le_rfl
        rw [Function.update_self]
        omega
      · rw [Function.update_of_ne hk]
        exact hsettled
  · rw [hclaimers, hreturners, hrows]
    exact h.stored
  · rw [hclaimers, hrows]
    exact h.capped

theorem Capped.step (h : Capped server.config.max start envelopeId signerId s ts) (hbase : Base s ts)
    {t : Track (Duties ι)} (hwho : t.own.who = (ts i).own.who)
    (hstep : ClaimStep server (ts i) t.own s s' op) :
    Capped server.config.max start envelopeId signerId s' (Function.update ts i t) := by
  have hi := hwho.trans (h.who i)
  cases hstep with
  | same hrows hhistory hsends hheld =>
    refine h.same hi hheld hhistory hsends (hrows.imp id ?_)
    rintro ⟨e, hfresh, hrows⟩
    have hdrawn : e.id ∈ (ts i).drawn := hfresh.ids.subset List.mem_cons_self
    exact ⟨_, hrows, fun row hrow hsame => hbase.row_unused i row hrow (hsame ▸ hdrawn)⟩
  | write tag e j cur hj hedits hwrites hrows hhistory hsends hheld =>
    obtain ⟨hcounts, hentries⟩ := write_counts envelopeId signerId hwrites hedits.id
      (getRev e + 1)
    rw [← hheld] at hcounts
    have hwrite := h.write hbase.ids hj hedits.id hi (hwrites.who.trans (h.who i)) hcounts hentries
    exact
      { who := hwrite.who
        settled := by
          have hsettled := hwrite.settled
          simpa only [reminded, returners, claimers, hhistory, hsends] using hsettled
        stored := by
          have hstored := hwrite.stored
          simpa only [returners, claimers, hhistory, hrows] using hstored
        begun := hrows ▸ hwrite.begun
        capped := by
          have hcapped := hwrite.capped
          simpa only [claimers, hhistory, hrows] using hcapped }
  | send tag envelope links ok htag hrows hhistory hsends hclaim hheld =>
    exact h.send hi (htag.trans (h.who i)) hclaim hheld hrows hhistory hsends

/-- Every reminder that was sent is a claim that was not taken back. -/
theorem Capped.count (h : Capped max start envelopeId signerId s ts) :
    (reminded envelopeId signerId s).length + (returners envelopeId signerId s).length ≤
      (claimers envelopeId signerId s).length := by
  have hsub : (((reminded envelopeId signerId s).map (·.tag.who)) ++ returners envelopeId signerId s).Subperm
      (claimers envelopeId signerId s) :=
    List.subperm_ext_iff.mpr fun i _ => by
      rw [List.count_append]
      exact (Nat.le_add_right _ _).trans (h.settled i)
  have hle := hsub.length_le
  rwa [List.length_append, List.length_map] at hle

theorem Capped.le (h : Capped max start envelopeId signerId s ts)
    (hsome : reminded envelopeId signerId s ≠ []) :
    start + (reminded envelopeId signerId s).length ≤ max := by
  have hcount := h.count
  have hpos := List.length_pos_iff.mpr hsome
  have hclaimed : claimers envelopeId signerId s ≠ [] := List.length_pos_iff.mp (by omega)
  obtain ⟨row, hrow, hid, hmax⟩ := h.capped hclaimed
  have hstored := h.stored row hrow hid
  omega

/-- Whatever is called, in any order and whatever fails: what the envelope says of
the signer at the start and the reminders that are sent from then on are at most
`max`. -/
theorem reminders_capped {calls : ι → Call}
    {c : World ι × (ι → Prog (Op ι) Res (Except Thrown Unit))} (hstart : Starts s)
    (hhistory : s.history = []) (hsends : s.sends = [])
    (hrun : Run exec (serve server calls s) c) (envelopeId signerId : String) :
    (reminded envelopeId signerId c.1).length ≤ server.config.max ∧
      ∀ e ∈ s.rows, e.id = envelopeId → reminded envelopeId signerId c.1 ≠ [] →
        entries e signerId + (reminded envelopeId signerId c.1).length ≤ server.config.max := by
  have hbegun : Serving server (serve server calls s) started := .start hstart calls
  have hcapped : ∀ start, (∀ row ∈ s.rows, row.id = envelopeId → start ≤ entries row signerId) →
      (start ≠ 0 → ∃ row ∈ s.rows, row.id = envelopeId) →
      ∃ ts, Capped server.config.max start envelopeId signerId c.1 ts := by
    intro start hle hexists
    have hnone : claimers envelopeId signerId s = [] := by rw [claimers, hhistory]; rfl
    have hbefore : Capped server.config.max start envelopeId signerId s started :=
      { who := fun i => rfl
        settled := fun i => by
          rw [reminded, hsends, returners, hhistory]
          exact Nat.zero_le _
        stored := fun row hrow hid => by
          rw [hnone]
          exact (hle row hrow hid).trans (Nat.le_add_right _ _)
        begun := hexists
        capped := fun hsome => absurd hnone hsome }
    obtain ⟨ts, -, h⟩ := hbegun.run (J := fun s ts => Capped server.config.max start envelopeId signerId s ts)
      (fun _ _ _ _ h => h) (fun s ts i op r s' hbase h hexec hpermits =>
        h.step hbase (next_who (ts i) server.config.webhook op r) (.of_exec hbase hexec hpermits))
      hbefore hrun
    exact ⟨ts, h⟩
  refine ⟨?_, fun e he hid hsome => ?_⟩
  · by_cases hsome : reminded envelopeId signerId c.1 = []
    · rw [hsome]
      exact Nat.zero_le _
    · obtain ⟨ts, h⟩ := hcapped 0 (fun _ _ _ => Nat.zero_le _) fun h => absurd rfl h
      have hle := h.le hsome
      omega
  · obtain ⟨ts, h⟩ := hcapped (entries e signerId)
      (fun row hrow hrowid => by rw [eq_of_key hstart.ids hrow he (hrowid.trans hid.symm)])
      fun _ => ⟨e, he, hid⟩
    exact h.le hsome

end

end

namespace ReminderSample

open ServiceSample (server envelope)

/-- Two passes of the scheduler. -/
def calls (_ : Bool) : Call := .schedulerTick false

/-- One signer, who can be reminded. -/
def start : World Bool :=
  { rows := [envelope { delivery := { links := [("ann", "link")] } }], drawn := ["envelope"] }

theorem starts : Starts start where
  ids := by decide
  row_drawn := by decide
  log_drawn := by decide

/-- A pass looks at the envelopes. -/
def looking (who : Bool) (time : Time) : List (Bool × Turn) := [(who, { time }), (who, {})]

/-- It claims a reminder, and sends it or not. -/
def sending (who : Bool) (time : Time) (ok : Bool) : List (Bool × Turn) :=
  [(who, {}), (who, { time }), (who, {}), (who, { ok })]

def begun : World Bool × (Bool → Prog (Op Bool) Res (Except Thrown Unit)) :=
  serve ServiceSample.server calls start

/-- Both have looked when the first is due. -/
def overlapping : List (Bool × Turn) :=
  looking false 15 ++ looking true 15 ++ sending false 15 true ++ sending true 15 true

end ReminderSample

theorem reminders_capped_sample :
    let sent := reminded "envelope" "ann" (turned ReminderSample.overlapping ReminderSample.begun).1
    sent.length ≤ 3 ∧ sent.length = 2 :=
  ⟨(reminders_capped ReminderSample.starts rfl rfl (turned_run (by decide +kernel)) "envelope" "ann").1,
    by decide +kernel⟩

end EsigSuite.Mcp
