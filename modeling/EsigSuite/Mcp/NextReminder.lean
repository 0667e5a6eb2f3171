import EsigSuite.Mcp.ServiceSchedule
import Mathlib.Order.Bounds.Basic

/-!
# The next reminder

`nextAt` is kept by the sends and their rollbacks, `computeDue` looks at the
envelope. The two agree where the cap is not used up by manual sends and the
signer can still be reminded.
-/

namespace EsigSuite.Mcp

open Lib

variable {ι : Type} {server : Server} {e : McpEnvelope} {signerId : String}

-- ---------------------------------------------------------------------------
-- Reachable reminder states
-- ---------------------------------------------------------------------------

/-- A reminder is claimed, a claim is taken back, or anything happens that is
not about reminders. -/
inductive ReminderStep (server : Server) : McpEnvelope → McpEnvelope → Prop
  | claim {e e' : McpEnvelope} {s s' : World Unit} {signerId : String} {kind : ReminderKind} {claim : Claim} :
    (claimReminder server signerId kind e).run.Eval exec s (.ok (some (e', claim))) s' →
    ReminderStep server e e'
  | rollback {e e' : McpEnvelope} {s s' : World Unit} {signerId : String} {kind : ReminderKind} {index : Nat} :
    (rollbackReminder server signerId kind index e).run.Eval exec s (.ok (some (e', ()))) s' →
    ReminderStep server e e'
  | other {e e' : McpEnvelope} : e'.createdAt = e.createdAt →
    (bookOf e').delivery.reminders = (bookOf e).delivery.reminders → ReminderStep server e e'

/-- No reminder of an envelope that is created has been sent. -/
def NeverReminded (e : McpEnvelope) : Prop := (bookOf e).delivery.reminders = fun _ => none

def ReminderReachable (server : Server) (e : McpEnvelope) : Prop :=
  ∃ e₀, NeverReminded e₀ ∧ Relation.ReflTransGen (ReminderStep server) e₀ e

/-- Every recorded `nextAt` is the one of the scheduled sends. -/
def NextAtKept (server : Server) (e : McpEnvelope) : Prop :=
  ∀ signerId state, reminderStateOf e signerId = some state →
    state.nextAt = reminderNextAt server.config.durationsMs server.config.max e.createdAt
      state.sentAt.length

theorem reminderStateOf_withReminderState (e : McpEnvelope) (id signerId : String)
    (state : SignerReminderState) :
    reminderStateOf (withReminderState e id state) signerId =
      if signerId = id then some state else reminderStateOf e signerId := by
  change Function.update (bookOf e).delivery.reminders id (some state) signerId = _
  rw [Function.update_apply]
  rfl

theorem NextAtKept.withSent (h : NextAtKept server e) (id : String) (kind : ReminderKind)
    (state : SignerReminderState) (sent : List Time) :
    NextAtKept server (withReminderState e id (withSent server e.createdAt kind state sent)) := by
  intro signerId state' hstate
  rw [reminderStateOf_withReminderState] at hstate
  split at hstate
  next =>
    injection hstate with hstate
    subst hstate
    rfl
  next => exact h signerId state' hstate

/-- What a claim writes. -/
theorem claimReminder_written {e' : McpEnvelope} {s s' : World ι} {kind : ReminderKind} {claim : Claim}
    (h : (claimReminder server signerId kind e).run.Eval exec s (.ok (some (e', claim))) s') :
    ∃ sent, e' = withReminderState e signerId
      (withSent server e.createdAt kind ((reminderStateOf e signerId).getD {}) sent) := by
  unfold claimReminder at h
  split at h
  next => cases h.1
  next signer _ =>
    split at h
    next => cases h.1
    next link _ =>
      cases hurl : server.decryptLink link with
      | error thrown =>
        rw [hurl] at h
        cases h.1
      | ok url =>
        rw [hurl] at h
        by_cases hmax : ((reminderStateOf e signerId).getD {}).sentAt.length +
            ((reminderStateOf e signerId).getD {}).manualSentAt.length ≥ server.config.max
        · simp only [throwIf, if_pos hmax] at h
          cases h.1
        · simp only [throwIf, if_neg hmax] at h
          obtain ⟨time, s₁, -, heq, -⟩ := h
          injection heq with heq
          injection heq with heq
          exact ⟨_, (congrArg Prod.fst heq).symm⟩

theorem ReminderStep.kept {e' : McpEnvelope} (h : ReminderStep server e e') (hkept : NextAtKept server e) :
    NextAtKept server e' := by
  cases h with
  | claim h =>
    obtain ⟨sent, rfl⟩ := claimReminder_written h
    exact hkept.withSent _ _ _ sent
  | rollback h =>
    unfold rollbackReminder at h
    split at h
    next => cases h.1
    next state hstate =>
      injection h.1 with heq
      injection heq with heq
      obtain rfl : _ = e' := congrArg Prod.fst heq
      exact hkept.withSent _ _ _ _
  | other hcreated hreminders =>
    intro signerId state hstate
    rw [hcreated]
    exact hkept signerId state (by rw [← hstate, reminderStateOf, reminderStateOf, hreminders])

theorem ReminderReachable.kept (h : ReminderReachable server e) : NextAtKept server e := by
  obtain ⟨e₀, hstart, hsteps⟩ := h
  induction hsteps with
  | refl =>
    intro signerId state hstate
    rw [reminderStateOf, hstart] at hstate
    cases hstate
  | tail _ hstep ih => exact hstep.kept ih

-- ---------------------------------------------------------------------------
-- When a reminder is due
-- ---------------------------------------------------------------------------

/-- `computeDue` reports a scheduled reminder for the signer. -/
def DueAt (server : Server) (e : McpEnvelope) (signerId : String) (at_ : Time) : Prop :=
  ∃ index, ⟨signerId, index⟩ ∈ computeDue e at_ server.config.durationsMs server.config.max

/-- The envelope is open and the signer pending. -/
def CanBeReminded (e : McpEnvelope) (signerId : String) : Prop :=
  (e.status ≠ .voided ∧ e.status ≠ .expired ∧ e.status ≠ .completed) ∧
    ∃ signer ∈ e.signers, signer.id = signerId ∧ signer.status = .pending

/-- Neither the schedule nor the cap is used up, the cap counting sends of both
kinds. -/
def SendsLeft (server : Server) (sent : SignerReminderState) : Prop :=
  sent.sentAt.length < server.config.durationsMs.length ∧
    sent.sentAt.length + sent.manualSentAt.length < server.config.max

/-- When the next entry of the schedule is due. -/
def scheduledFor (server : Server) (e : McpEnvelope) (signerId : String) : Time :=
  e.createdAt + server.config.durationsMs.getD (sentOfSigner e signerId).sentAt.length 0

theorem dueAt_iff (at_ : Time) :
    DueAt server e signerId at_ ↔ CanBeReminded e signerId ∧
      SendsLeft server (sentOfSigner e signerId) ∧ scheduledFor server e signerId ≤ at_ := by
  unfold DueAt computeDue
  by_cases hempty : server.config.durationsMs = []
  · rw [if_pos hempty]
    refine iff_of_false ?_ ?_
    · rintro ⟨_, h⟩
      cases h
    · rintro ⟨-, hleft, -⟩
      rw [SendsLeft, hempty] at hleft
      exact absurd hleft.1 (Nat.not_lt_zero _)
  rw [if_neg hempty]
  by_cases hclosed : e.status = .voided ∨ e.status = .expired ∨ e.status = .completed
  · rw [if_pos hclosed]
    refine iff_of_false ?_ ?_
    · rintro ⟨_, h⟩
      cases h
    · rintro ⟨⟨hopen, -⟩, -⟩
      rcases hclosed with h | h | h
      · exact hopen.1 h
      · exact hopen.2.1 h
      · exact hopen.2.2 h
  rw [if_neg hclosed]
  simp only [not_or] at hclosed
  simp only [List.mem_filterMap]
  constructor
  · rintro ⟨index, signer, hmem, h⟩
    split at h
    next => cases h
    next hpending =>
      split at h
      next => cases h
      next hlength =>
        split at h
        next => cases h
        next hmax =>
          split at h
          next hdue =>
            injection h with h
            injection h with hid hindex
            subst hid
            exact ⟨⟨hclosed, signer, hmem, rfl, not_not.mp hpending⟩,
              ⟨Nat.lt_of_not_ge hlength, Nat.lt_of_not_ge hmax⟩, hdue⟩
          next => cases h
  · rintro ⟨⟨-, signer, hmem, rfl, hpending⟩, ⟨hlength, hmax⟩, hdue⟩
    refine ⟨(sentOfSigner e signer.id).sentAt.length, signer, hmem, ?_⟩
    unfold sentOfSigner at hlength hmax ⊢
    rw [if_neg (not_not.mpr hpending), if_neg (Nat.not_le_of_lt hlength),
      if_neg (Nat.not_le_of_lt hmax)]
    exact if_pos hdue

/-- From `since` on, if the signer can be reminded again, the earliest report of
`computeDue` is at the scheduled time, or at once. -/
theorem isLeast_dueAt (since : Time) (hopen : CanBeReminded e signerId)
    (hleft : SendsLeft server (sentOfSigner e signerId)) :
    IsLeast {t | since ≤ t ∧ DueAt server e signerId t}
      (max since (scheduledFor server e signerId)) := by
  refine ⟨⟨le_max_left _ _, (dueAt_iff _).mpr ⟨hopen, hleft, le_max_right _ _⟩⟩, ?_⟩
  rintro t ⟨hsince, hdue⟩
  exact max_le hsince ((dueAt_iff t).mp hdue).2.2

-- ---------------------------------------------------------------------------
-- What is reported
-- ---------------------------------------------------------------------------

/-- The `nextAt` that is recorded for a signer. -/
def nextAtOf (e : McpEnvelope) (signerId : String) : Option Time :=
  (reminderStateOf e signerId).bind (·.nextAt)

/-- From `since` on, `nextAt` is set iff a scheduled reminder is reported at some
time, and is then the earliest such time. -/
def NextAtExact (server : Server) (e : McpEnvelope) (signerId : String) (since : Time) : Prop :=
  ((nextAtOf e signerId).isSome ↔ ∃ t, since ≤ t ∧ DueAt server e signerId t) ∧
    ∀ at_, nextAtOf e signerId = some at_ →
      IsLeast {t | since ≤ t ∧ DueAt server e signerId t} at_

/-- Where something is recorded, the scheduled sends have used up the schedule or
the cap, or a reminder is still to come. Where nothing is, none is. -/
def NextAtHolds (server : Server) (e : McpEnvelope) (signerId : String) (since : Time) : Prop :=
  match reminderStateOf e signerId with
  | some state =>
    min server.config.max server.config.durationsMs.length ≤ state.sentAt.length ∨
      (CanBeReminded e signerId ∧
        state.sentAt.length + state.manualSentAt.length < server.config.max ∧
        since ≤ scheduledFor server e signerId)
  | none => ¬ (CanBeReminded e signerId ∧ SendsLeft server {})

theorem exists_dueAt_iff (since : Time) :
    (∃ t, since ≤ t ∧ DueAt server e signerId t) ↔
      CanBeReminded e signerId ∧ SendsLeft server (sentOfSigner e signerId) := by
  constructor
  · rintro ⟨t, -, hdue⟩
    exact ⟨((dueAt_iff t).mp hdue).1, ((dueAt_iff t).mp hdue).2.1⟩
  · rintro ⟨hopen, hleft⟩
    exact ⟨_, (isLeast_dueAt since hopen hleft).1⟩

/-- A `nextAt` that is reported with sends left is the earliest report unless it
is in the past. -/
theorem isLeast_iff_not_overdue (since : Time) (hopen : CanBeReminded e signerId)
    (hleft : SendsLeft server (sentOfSigner e signerId)) :
    IsLeast {t | since ≤ t ∧ DueAt server e signerId t} (scheduledFor server e signerId) ↔
      since ≤ scheduledFor server e signerId := by
  constructor
  · intro h
    exact h.1.1
  · intro h
    have hleast := isLeast_dueAt since hopen hleft
    rwa [max_eq_right h] at hleast

/-- The recorded `nextAt` says what `computeDue` will report exactly under the
condition. -/
theorem nextAt_exact_iff (h : ReminderReachable server e) (signerId : String) (since : Time) :
    NextAtExact server e signerId since ↔ NextAtHolds server e signerId since := by
  unfold NextAtExact NextAtHolds
  rw [exists_dueAt_iff]
  cases hstate : reminderStateOf e signerId with
  | none =>
    have hsent : sentOfSigner e signerId = {} := by rw [sentOfSigner, hstate]; rfl
    have hnext : nextAtOf e signerId = none := by rw [nextAtOf, hstate]; rfl
    rw [hsent, hnext]
    simp
  | some state =>
    have hsent : sentOfSigner e signerId = state := by rw [sentOfSigner, hstate]; rfl
    have hnext : nextAtOf e signerId = state.nextAt := by rw [nextAtOf, hstate]; rfl
    have hfor : scheduledFor server e signerId =
        e.createdAt + server.config.durationsMs.getD state.sentAt.length 0 := by
      rw [scheduledFor, hsent]
    rw [hnext, h.kept signerId state hstate, reminderNextAt]
    by_cases hcount : state.sentAt.length < min server.config.max server.config.durationsMs.length
    · rw [if_pos hcount, ← hfor, hsent]
      have hlength := (Nat.lt_min.mp hcount).2
      constructor
      · rintro ⟨hset, hleast⟩
        obtain ⟨hopen, hleft⟩ := hset.mp rfl
        refine .inr ⟨hopen, hleft.2, ?_⟩
        exact (isLeast_iff_not_overdue since hopen (hsent ▸ hleft)).mp (hleast _ rfl)
      · rintro (hdone | ⟨hopen, hmax, hsince⟩)
        · exact absurd hcount (Nat.not_lt_of_le hdone)
        · have hleft : SendsLeft server state := ⟨hlength, hmax⟩
          refine ⟨iff_of_true rfl ⟨hopen, hleft⟩, fun at_ hat => ?_⟩
          injection hat with hat
          rw [← hat]
          exact (isLeast_iff_not_overdue since hopen (hsent.symm ▸ hleft)).mpr hsince
    · rw [if_neg hcount, hsent]
      have hdone := Nat.le_of_not_lt hcount
      refine iff_of_true ⟨iff_of_false (by simp) ?_, fun at_ hat => by cases hat⟩ (.inl hdone)
      rintro ⟨-, hlength, hmax⟩
      exact hcount (Nat.lt_min.mpr ⟨Nat.lt_of_le_of_lt (Nat.le_add_right _ _) hmax, hlength⟩)

namespace ServiceSample

/-- One signer with a stored link, and nothing sent. -/
def linked : McpEnvelope := envelope { delivery := { links := [("ann", "link")] } }

/-- A server that reminds a signer once. -/
def once : Server :=
  { ServiceSample.server with config := { ServiceSample.server.config with max := 1 } }

/-- The envelope after one send. -/
def reminded (server : Server) (kind : ReminderKind) (at_ : Time) : McpEnvelope :=
  withReminderState linked "ann" (withSent server 0 kind {} [at_])

theorem reminded_reachable (server : Server) (kind : ReminderKind) (at_ : Time)
    (hmax : 0 < server.config.max) (hlink : server.decryptLink "link" = .ok "link") :
    ReminderReachable server (reminded server kind at_) := by
  have hsigner : signerById linked "ann" = linked.signers.head? := by decide
  have hstored : (linkOf linked "ann").filter (· ≠ "") = some "link" := by decide
  have hclaim : (claimReminder server "ann" kind linked).run.Eval exec ({} : World Unit)
      (.ok (some (reminded server kind at_,
        { link := ⟨"ann", "Ann", "ann@acme.test", "link"⟩, title := "Lease", message := none,
          expiresAt := some 100, sentTimestamp := at_, index := 0 }))) {} := by
    unfold claimReminder
    rw [hsigner, hstored]
    have hleft : ¬ ((reminderStateOf linked "ann").getD {}).sentAt.length +
        ((reminderStateOf linked "ann").getD {}).manualSentAt.length ≥ server.config.max :=
      Nat.not_le_of_lt hmax
    simp only [hlink, throwIf, if_neg hleft]
    refine ⟨at_, {}, rfl, ?_, rfl⟩
    cases kind <;> rfl
  exact ⟨linked, rfl, .single (.claim hclaim)⟩

end ServiceSample

/-- A manual send that uses up the cap leaves `nextAt` set. -/
theorem capped_nextAt_set :
    ¬ ∀ (server : Server) (e : McpEnvelope), ReminderReachable server e →
      ∀ signerId since, NextAtExact server e signerId since := by
  intro h
  have hreached := ServiceSample.reminded_reachable ServiceSample.once .manual 5
    (by decide) rfl
  obtain ⟨hset, -⟩ := h _ _ hreached "ann" 0
  obtain ⟨-, -, hmax⟩ := (exists_dueAt_iff 0).mp (hset.mp rfl)
  exact absurd hmax (by decide)

theorem nextAt_exact_sample :
    NextAtExact ServiceSample.server (ServiceSample.reminded ServiceSample.server .scheduled 10)
      "ann" 10 :=
  (nextAt_exact_iff (ServiceSample.reminded_reachable _ .scheduled 10 (by decide) rfl) "ann" 10).mpr
    (.inr ⟨⟨by decide, _, List.mem_singleton.mpr rfl, rfl, rfl⟩, by decide, by decide⟩)

end EsigSuite.Mcp
