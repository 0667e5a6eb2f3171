import EsigSuite.Mcp.ServiceEvents

/-!
# Answers for a schedule

A turn of a schedule says whether the call fails and what the clock and the
outside say, and `answer` is then the effect of the call.
-/

namespace EsigSuite.Mcp

open Lib
open EnvelopeFile (getRev setRev)

variable {ι : Type}

structure Turn where
  fails : Bool := false
  time : Time := 0
  text : String := ""
  ok : Bool := true
  deriving DecidableEq

def failure : Thrown := .error "failed"

/-- A call that may fail. -/
def attempted {α : Type} (turn : Turn) (s : World ι) (done : Except Thrown α × World ι) :
    Except Thrown α × World ι :=
  if turn.fails then (.error failure, s) else done

/-- The row that an update would replace. -/
def swapIndex (s : World ι) (e : McpEnvelope) : Option Nat :=
  s.rows.findIdx? fun cur => cur.id == e.id && cur.tenantId == e.tenantId && getRev cur == getRev e

def swap (tag : Tag ι) (e : McpEnvelope) (s : World ι) : Except Thrown McpEnvelope × World ι :=
  match swapIndex s e with
  | none => (.error failure, s)
  | some i =>
    match s.rows[i]? with
    | none => (.error failure, s)
    | some cur =>
      (.ok (setRev e (getRev e + 1)),
        { s with rows := s.rows.set i (setRev e (getRev e + 1)),
                 history := s.history ++ [⟨tag, cur, setRev e (getRev e + 1)⟩] })

def QueueOp.answer (turn : Turn) : (op : QueueOp) → World ι → op.Res × World ι
  | .enterTick, s => (s.ticking, { s with ticking := true })
  | .leaveTick, s => ((), { s with ticking := false })
  | .readQueueFiles, s => attempted turn s (.ok s.queue, s)
  | .sendWebhook event, s => attempted turn s (.ok (), { s with delivered := s.delivered ++ [event] })
  | .writeDelivered _, s => attempted turn s (.ok (), s)
  | .writeQueueFile file, s => attempted turn s (.ok (), s.withFile file)
  | .rm eventId, s =>
    attempted turn s (.ok (), { s with queue := s.queue.filter (·.event.id != eventId) })

/-- What is called, with its effect. -/
def answer (turn : Turn) : (op : Op ι) → World ι → Res op × World ι
  | .now, s => (turn.time, s)
  | .encryptLink _, s => (turn.text, s)
  | .random, s | .randomUUID, s => (turn.text, { s with drawn := turn.text :: s.drawn })
  | .insert e, s => attempted turn s (.ok (setRev e 0), { s with rows := s.rows ++ [setRev e 0] })
  | .update tag e, s => attempted turn s (swap tag e s)
  | .findById _ tenantId id, s =>
    attempted turn s (.ok (s.rows.find? fun e => e.tenantId == tenantId && e.id == id), s)
  | .findByTokenHash tokenHash, s => attempted turn s (.ok (rowOf s.rows tokenHash), s)
  | .listEnvelopes tenantId, s =>
    attempted turn s (.ok (s.rows.filter (·.tenantId == tenantId)), s)
  | .audit entry, s => attempted turn s (.ok (), { s with audits := s.audits ++ [entry] })
  | .deliver tag envelope links, s =>
    (.ok (links.map fun l => { signerId := l.signerId, channel := "email", ok := turn.ok }),
      { s with sends := s.sends ++ [⟨tag, envelope.id, turn.ok && !links.isEmpty⟩] })
  | .enqueue event, s =>
    attempted turn s (.ok (),
      { s.withFile ⟨event, 0, turn.time, .pending⟩ with enqueued := s.enqueued ++ [event] })
  | .queue _ op, s => op.answer turn s
  | .restart, s => ((), { s with process := s.process + 1, ticking := false })
  | .admission, s => attempted turn s (.ok [], s)
  | .takeRate, s => attempted turn s (.ok (), s)
  | .produce _, s => (.error failure, s)
  | .persistIdentityBlob _, s => (.error failure, s)
  | .badge _, s => (.error (.other ""), s)
  | .verifyCredential _, s => (.error (.other ""), s)

-- ---------------------------------------------------------------------------
-- The answers are those of the calls
-- ---------------------------------------------------------------------------

theorem attempted_failed {α : Type} {turn : Turn} {s : World ι} {done : Except Thrown α × World ι}
    (h : turn.fails = true) :
    Failed (attempted turn s done).1 s (attempted turn s done).2 := by
  rw [attempted, if_pos h]
  exact ⟨rfl, failure, rfl⟩

theorem attempted_done {α : Type} {turn : Turn} {s : World ι} {done : Except Thrown α × World ι}
    (h : turn.fails = false) : attempted turn s done = done := by
  rw [attempted, h]
  rfl

/-- A call that does what it answers or fails. -/
theorem attempted_sound {α : Type} (turn : Turn) (s s' : World ι) (a : α) :
    ((attempted turn s (.ok a, s')).2 = s' ∧ (attempted turn s (.ok a, s')).1 = .ok a) ∨
      Failed (attempted turn s (.ok a, s')).1 s (attempted turn s (.ok a, s')).2 := by
  cases h : turn.fails with
  | true => exact .inr (attempted_failed h)
  | false =>
    rw [attempted_done h]
    exact .inl ⟨rfl, rfl⟩

theorem swap_sound (tag : Tag ι) (e : McpEnvelope) (s : World ι) :
    (Swapped tag e s (swap tag e s).2 ∧ (swap tag e s).1 = .ok (setRev e (getRev e + 1))) ∨
      Failed (swap tag e s).1 s (swap tag e s).2 := by
  unfold swap
  split
  next => exact .inr ⟨rfl, _, rfl⟩
  next i hindex =>
    split
    next => exact .inr ⟨rfl, _, rfl⟩
    next cur hcur =>
      obtain ⟨hi, hkey, -⟩ := List.findIdx?_eq_some_iff_getElem.mp hindex
      rw [List.getElem?_eq_getElem hi, Option.some.injEq] at hcur
      subst hcur
      simp only [Bool.and_eq_true, beq_iff_eq] at hkey
      exact .inl ⟨⟨i, _, List.getElem?_eq_getElem hi, hkey.1.1, hkey.1.2, hkey.2, rfl⟩, rfl⟩

theorem attempted_swap_sound (turn : Turn) (tag : Tag ι) (e : McpEnvelope) (s : World ι) :
    (Swapped tag e s (attempted turn s (swap tag e s)).2 ∧
      (attempted turn s (swap tag e s)).1 = .ok (setRev e (getRev e + 1))) ∨
      Failed (attempted turn s (swap tag e s)).1 s (attempted turn s (swap tag e s)).2 := by
  cases h : turn.fails with
  | true => exact .inr (attempted_failed h)
  | false =>
    rw [attempted_done h]
    exact swap_sound tag e s

theorem QueueOp.answer_sound (turn : Turn) (op : QueueOp) (s : World ι) :
    op.exec s (op.answer turn s).1 (op.answer turn s).2 := by
  cases op with
  | enterTick => exact ⟨rfl, rfl⟩
  | leaveTick => rfl
  | readQueueFiles =>
    rcases attempted_sound turn s s s.queue with ⟨hs, hr⟩ | hfailed
    · exact .inl ⟨hs, s.queue, hr, ⟨s.queue, .refl _, .refl _⟩⟩
    · exact .inr hfailed
  | _ => exact attempted_sound _ _ _ _

/-- Identifiers are new, and queue calls are those of the process that runs. -/
def Turn.suits (turn : Turn) : Op ι → World ι → Bool
  | .random, s | .randomUUID, s => turn.text ∉ s.drawn
  | .queue process _, s => process == s.process
  | _, _ => true

theorem answer_sound (turn : Turn) (op : Op ι) (s : World ι) (h : turn.suits op s = true) :
    exec op s (answer turn op s).1 (answer turn op s).2 := by
  cases op with
  | random | randomUUID =>
    have hnew : turn.text ∉ s.drawn := of_decide_eq_true h
    exact ⟨hnew, rfl⟩
  | update tag e => exact attempted_swap_sound turn tag e s
  | deliver tag envelope links =>
    refine ⟨turn.ok && !links.isEmpty, rfl, ?_⟩
    cases links with
    | nil =>
      refine ⟨fun hok => by simp at hok, fun ⟨_, _, hr, _⟩ => ?_⟩
      cases hr
    | cons l rest =>
      simp only [List.isEmpty_cons, Bool.not_false, Bool.and_true]
      exact ⟨fun hok => ⟨_, _, rfl, hok⟩, fun ⟨_, _, hr, hok⟩ => by cases hr; exact hok⟩
  | queue process op => exact ⟨beq_iff_eq.mp h, op.answer_sound turn s⟩
  | enqueue event => exact (attempted_sound _ _ _ _).imp_left fun h => ⟨⟨turn.time, h.1⟩, h.2⟩
  | insert | findById | findByTokenHash | listEnvelopes | audit => exact attempted_sound _ _ _ _
  | takeRate => exact (attempted_sound turn s s ()).elim (·.1) (·.1)
  | admission => exact (attempted_sound turn s s ([] : List Nat)).elim (·.1) (·.1)
  | _ => rfl

/-- The configuration after some turns. -/
abbrev turned [DecidableEq ι] {α : Type} (turns : List (ι × Turn))
    (c : World ι × (ι → Prog (Op ι) Res α)) : World ι × (ι → Prog (Op ι) Res α) :=
  Schedule.run answer turns c

theorem turned_run [DecidableEq ι] {α : Type} {turns : List (ι × Turn)}
    {c : World ι × (ι → Prog (Op ι) Res α)}
    (h : Schedule.checked answer Turn.suits turns c = true) :
    Run exec c (turned turns c) :=
  Schedule.run_checked answer_sound h

/-- A schedule whose calls all meet a condition. -/
theorem turned_guarded [DecidableEq ι] {α : Type} {C : Op ι → World ι → Prop}
    [∀ op s, Decidable (C op s)] {turns : List (ι × Turn)} {c : World ι × (ι → Prog (Op ι) Res α)}
    (h : Schedule.checked answer (fun turn op s => turn.suits op s && decide (C op s)) turns c = true) :
    Run (Guarded exec C) c (turned turns c) :=
  Schedule.run_checked (fun turn op s hcheck =>
    ⟨answer_sound turn op s (Bool.and_eq_true_iff.mp hcheck).1,
      of_decide_eq_true (Bool.and_eq_true_iff.mp hcheck).2⟩) h

-- ---------------------------------------------------------------------------
-- A server and an envelope
-- ---------------------------------------------------------------------------

namespace ServiceSample

def server : Server where
  config :=
    { tenant := "acme", maxSigners := 5, identityMinLevel := .none, uuaidRegistryUrl := none,
      uuaidRegistrySigningKey := none, identityChallengeTtlSec := 600,
      baseUrl := "https://sign.acme.test", delivery := "email", durationsMs := [10, 20], max := 3,
      webhook := true }
  hashToken := id
  assertImageDataUrl := some
  checks :=
    { isWellFormedUuaidAssertion := fun _ => true
      verifyChallengeProof := fun _ _ => .error "no proof"
      publicKeyFromProof := fun _ => []
      publicKeyFromCredentialKey := fun _ => none
      isFoundationAgent := fun _ => false
      uuaidFromEd25519Key := fun _ => ""
      verifyRegistryBadge := fun _ _ _ => .error "no badge"
      hexToBytes := fun _ => none }
  sha256 := id
  sanitizeEnvelopeHtml := id
  decryptLink := .ok

def envelope (book : Bookkeeping) : McpEnvelope where
  id := "envelope"
  tenantId := "acme"
  title := "Lease"
  html := "<p>Lease</p>"
  status := .sent
  signers :=
    [{ id := "ann", name := "Ann", email := "ann@acme.test", roleLabel := none, order := 1,
       status := .pending, tokenHash := "a" }]
  createdAt := 0
  expiresAt := some 100
  metadata := some { htmlSha256 := none, identity := {}, rest := { other := book } }
  mcpRev := some 0

end ServiceSample

end EsigSuite.Mcp
