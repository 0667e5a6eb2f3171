import EsigSuite.Email.Framing

/-!
# Replies across the change to TLS

`SmtpClient` cuts the replies out of one text of everything it has received, and
`bind` keeps that text when the socket is replaced. What a server has sent in plain
text behind its answer to STARTTLS is read on as if it had come over TLS.
-/

namespace EsigSuite.Email

open Lib

-- ---------------------------------------------------------------------------
-- The client
-- ---------------------------------------------------------------------------

/-- The promises of `readReply` are settled in the order they were made: those that
wait, and those settled that nobody has taken yet. -/
structure SmtpClient where
  buffer : JsString := []
  pending : Nat := 0
  settled : List (Except JsString SmtpReply) := []

namespace SmtpClient

def flushFrom (settled : List (Except JsString SmtpReply)) : Nat → JsString → SmtpClient
  | 0, buffer => ⟨buffer, 0, settled⟩
  | pending + 1, buffer =>
    match parseReply buffer with
    | none => ⟨buffer, pending + 1, settled⟩
    | some (reply, rest) => flushFrom (settled ++ [.ok reply]) pending rest

def flush (client : SmtpClient) : SmtpClient := flushFrom client.settled client.pending client.buffer

/-- What the listener for data does. -/
def data (client : SmtpClient) (chunk : JsString) : SmtpClient :=
  flush { client with buffer := client.buffer ++ chunk }

def rejectAll (client : SmtpClient) (e : JsString) : SmtpClient :=
  { client with pending := 0, settled := client.settled ++ List.replicate client.pending (.error e) }

def readReply (client : SmtpClient) : SmtpClient := flush { client with pending := client.pending + 1 }

/-- Only the listeners move to the other socket. -/
def bind (client : SmtpClient) : SmtpClient := client

end SmtpClient

-- ---------------------------------------------------------------------------
-- A conversation and its network
-- ---------------------------------------------------------------------------

inductive Turn
  | ready (program : Prog SmtpOp SmtpOp.Res (Except JsString JsString))
  | reading (k : Except JsString SmtpReply → Prog SmtpOp SmtpOp.Res (Except JsString JsString))

/-- `received` and `taken` are what came over the socket in use and the replies that
were handed out since it is in use. -/
structure Session where
  client : SmtpClient
  turn : Turn
  received : JsString
  taken : List SmtpReply

/-- The network delivers or breaks, or the conversation goes on, with the outcome of
the connection where it makes one. -/
inductive Event
  | data (chunk : JsString)
  | broken (e : JsString)
  | proceed (failure : Option JsString)

namespace Session

def start (program : Smtp JsString) : Session := ⟨{}, .ready program.run, [], []⟩

/-- The reply of a settled promise. -/
def repliesOf (settled : List (Except JsString SmtpReply)) : List SmtpReply :=
  settled.filterMap fun r => r.toOption

def proceed (s : Session) (failure : Option JsString) : Option Session :=
  match s.turn with
  | .ready (.pure _) => none
  | .ready (.call (.connect _) k) =>
    some { client := {}, turn := .ready (k failure), received := [], taken := [] }
  | .ready (.call .upgradeToTls k) =>
    some { client := s.client.bind, turn := .ready (k failure), received := [], taken := [] }
  | .ready (.call (.write _) k) => some { s with turn := .ready (k ()) }
  | .ready (.call .readReply k) => some { s with client := s.client.readReply, turn := .reading k }
  | .reading k =>
    match s.client.settled with
    | [] => none
    | r :: settled =>
      some { s with
        client := { s.client with settled := settled }
        turn := .ready (k r)
        taken := s.taken ++ repliesOf [r] }

def step (s : Session) : Event → Option Session
  | .data chunk =>
    some { s with client := s.client.data chunk, received := s.received ++ chunk }
  | .broken e => some { s with client := s.client.rejectAll e }
  | .proceed failure => s.proceed failure

def run (s : Session) : List Event → Option Session
  | [] => some s
  | e :: events => (s.step e).bind fun s' => s'.run events

/-- The socket is about to be replaced. -/
def upgrading (s : Session) : Bool :=
  match s.turn with
  | .ready (.call .upgradeToTls _) => true
  | _ => false

theorem run_append (s : Session) (es es' : List Event) :
    s.run (es ++ es') = (s.run es).bind fun s' => s'.run es' := by
  induction es generalizing s with
  | nil => rfl
  | cons e es ih =>
    rw [List.cons_append, run, run, Option.bind_assoc]
    exact Option.bind_congr fun s' _ => ih s'

end Session

-- ---------------------------------------------------------------------------
-- Replies of a stream
-- ---------------------------------------------------------------------------

/-- The replies are the first of a stream, and the rest is what follows them. -/
inductive Reads : JsString → List SmtpReply → JsString → Prop
  | nil (stream : JsString) : Reads stream [] stream
  | cons {stream stream' rest : JsString} {reply : SmtpReply} {replies : List SmtpReply} :
    parseReply stream = some (reply, stream') → Reads stream' replies rest →
    Reads stream (reply :: replies) rest

theorem parseFrom_append {lines : List JsString} {line s rest : JsString} {reply : SmtpReply}
    (h : parseFrom lines line s = some (reply, rest)) (t : JsString) :
    parseFrom lines line (s ++ t) = some (reply, rest ++ t) := by
  induction s generalizing lines line with
  | nil => cases h
  | cons c s ih =>
    rw [List.cons_append, parseFrom]
    rw [parseFrom] at h
    split at h
    · next hc =>
      rw [if_pos hc]
      dsimp only at h ⊢
      split at h
      · next hcont => rw [if_pos hcont, ih h]
      · next hcont =>
        rw [if_neg hcont]
        cases h
        rfl
    · next hc => rw [if_neg hc, ih h]

theorem Reads.append {stream rest : JsString} {replies : List SmtpReply}
    (h : Reads stream replies rest) (t : JsString) : Reads (stream ++ t) replies (rest ++ t) := by
  induction h with
  | nil stream => exact .nil _
  | cons hparse _ ih => exact .cons (parseFrom_append hparse t) ih

theorem Reads.trans {stream mid rest : JsString} {replies replies' : List SmtpReply}
    (h : Reads stream replies mid) (h' : Reads mid replies' rest) :
    Reads stream (replies ++ replies') rest := by
  induction h with
  | nil stream => exact h'
  | cons hparse _ ih => exact .cons hparse (ih h')

theorem Reads.flushFrom {stream buffer : JsString} {settled : List (Except JsString SmtpReply)}
    {taken : List SmtpReply} (h : Reads stream (taken ++ Session.repliesOf settled) buffer) (n : Nat) :
    Reads stream (taken ++ Session.repliesOf (SmtpClient.flushFrom settled n buffer).settled)
      (SmtpClient.flushFrom settled n buffer).buffer := by
  induction n generalizing settled buffer with
  | zero => exact h
  | succ n ih =>
    rw [SmtpClient.flushFrom]
    split
    · exact h
    · next reply rest hparse =>
      refine ih ?_
      have hnext := h.trans (.cons hparse (.nil rest))
      rwa [List.append_assoc, show [reply] = Session.repliesOf [.ok reply] from rfl,
        Session.repliesOf, Session.repliesOf, ← List.filterMap_append] at hnext

-- ---------------------------------------------------------------------------
-- One reader at a time
-- ---------------------------------------------------------------------------

/-- Only a conversation that waits for a reply has a promise. -/
def Session.Orderly (s : Session) : Prop :=
  match s.turn with
  | .ready _ => s.client.pending = 0 ∧ s.client.settled = []
  | .reading _ => (s.client.pending = 1 ∧ s.client.settled = []) ∨
      (s.client.pending = 0 ∧ s.client.settled.length = 1)

theorem SmtpClient.flushFrom_one {buffer : JsString} :
    let client := SmtpClient.flushFrom [] 1 buffer
    (client.pending = 1 ∧ client.settled = []) ∨ (client.pending = 0 ∧ client.settled.length = 1) := by
  rw [SmtpClient.flushFrom]
  split
  · exact .inl ⟨rfl, rfl⟩
  · exact .inr ⟨rfl, rfl⟩

namespace Session

theorem step_orderly {s s' : Session} {e : Event} (hs : s.Orderly) (h : s.step e = some s') :
    s'.Orderly := by
  obtain ⟨⟨buffer, pending, settled⟩, turn, received, taken⟩ := s
  cases e with
  | data chunk =>
    cases h
    cases turn with
    | ready program =>
      obtain ⟨rfl, rfl⟩ := hs
      exact ⟨rfl, rfl⟩
    | reading k =>
      obtain ⟨rfl, rfl⟩ | ⟨rfl, hone⟩ := hs
      · exact SmtpClient.flushFrom_one
      · exact .inr ⟨rfl, hone⟩
  | broken e =>
    cases h
    cases turn with
    | ready program =>
      obtain ⟨rfl, rfl⟩ := hs
      exact ⟨rfl, rfl⟩
    | reading k =>
      obtain ⟨rfl, rfl⟩ | ⟨rfl, hone⟩ := hs
      · exact .inr ⟨rfl, rfl⟩
      · exact .inr ⟨rfl, by simpa [SmtpClient.rejectAll] using hone⟩
  | proceed failure =>
    cases turn with
    | ready program =>
      obtain ⟨rfl, rfl⟩ := hs
      cases program with
      | pure a => cases h
      | call op k =>
        cases op with
        | readReply =>
          cases h
          exact SmtpClient.flushFrom_one
        | _ =>
          cases h
          exact ⟨rfl, rfl⟩
    | reading k =>
      cases settled with
      | nil => cases h
      | cons r settled =>
        cases h
        obtain ⟨-, hnil⟩ | ⟨rfl, hone⟩ := hs
        · cases hnil
        · exact ⟨rfl, List.eq_nil_of_length_eq_zero (Nat.succ.inj hone)⟩

theorem run_orderly {s s' : Session} {es : List Event} (hs : s.Orderly) (h : s.run es = some s') :
    s'.Orderly := by
  induction es generalizing s with
  | nil => exact Option.some.inj h ▸ hs
  | cons e es ih =>
    obtain ⟨s₁, hstep, hrest⟩ := Option.bind_eq_some_iff.mp h
    exact ih (step_orderly hs hstep) hrest

end Session

-- ---------------------------------------------------------------------------
-- What is read over one socket
-- ---------------------------------------------------------------------------

/-- The socket in use stays in use. -/
def SmtpOp.Keeps (op : SmtpOp) : Prop := op ≠ .upgradeToTls ∧ ∀ tls, op ≠ .connect tls

/-- The rest of a conversation replaces no socket. -/
def Turn.Keeps : Turn → Prop
  | .ready program => program.Calls SmtpOp.Keeps
  | .reading k => ∀ r, (k r).Calls SmtpOp.Keeps

namespace Session

/-- `leftover` was in the buffer when the socket came into use. -/
structure ReadsOn (leftover : JsString) (s : Session) : Prop where
  reads : Reads (leftover ++ s.received) (s.taken ++ repliesOf s.client.settled) s.client.buffer
  keeps : s.turn.Keeps

theorem repliesOf_append (xs ys : List (Except JsString SmtpReply)) :
    repliesOf (xs ++ ys) = repliesOf xs ++ repliesOf ys := List.filterMap_append

theorem repliesOf_errors (n : Nat) (e : JsString) : repliesOf (List.replicate n (.error e)) = [] := by
  rw [repliesOf, List.filterMap_eq_nil_iff]
  intro r hr
  rw [List.eq_of_mem_replicate hr]
  rfl

theorem step_reads {leftover : JsString} {s s' : Session} {e : Event} (hs : s.ReadsOn leftover)
    (h : s.step e = some s') : s'.ReadsOn leftover := by
  obtain ⟨client, turn, received, taken⟩ := s
  obtain ⟨hreads, hkeeps⟩ := hs
  cases e with
  | data chunk =>
    cases h
    have hmore := hreads.append chunk
    rw [List.append_assoc] at hmore
    exact ⟨hmore.flushFrom _, hkeeps⟩
  | broken e =>
    cases h
    refine ⟨?_, hkeeps⟩
    simpa only [SmtpClient.rejectAll, repliesOf_append, repliesOf_errors, List.append_nil] using hreads
  | proceed failure =>
    cases turn with
    | ready program =>
      cases program with
      | pure a => cases h
      | call op k =>
        cases op with
        | connect tls => exact (hkeeps.1.2 tls rfl).elim
        | upgradeToTls => exact (hkeeps.1.1 rfl).elim
        | write raw =>
          cases h
          exact ⟨hreads, hkeeps.2 _⟩
        | readReply =>
          cases h
          exact ⟨hreads.flushFrom _, hkeeps.2⟩
    | reading k =>
      obtain ⟨buffer, pending, settled⟩ := client
      cases settled with
      | nil => cases h
      | cons r settled =>
        cases h
        refine ⟨?_, hkeeps r⟩
        rwa [List.append_assoc, ← repliesOf_append]

theorem run_reads {leftover : JsString} {s s' : Session} {es : List Event}
    (hs : s.ReadsOn leftover) (h : s.run es = some s') : s'.ReadsOn leftover := by
  induction es generalizing s with
  | nil => exact Option.some.inj h ▸ hs
  | cons e es ih =>
    obtain ⟨s₁, hstep, hrest⟩ := Option.bind_eq_some_iff.mp h
    exact ih (step_reads hs hstep) hrest

end Session

-- ---------------------------------------------------------------------------
-- The one upgrade of a conversation
-- ---------------------------------------------------------------------------

/-- A program that replaces the socket goes on as `k` says. -/
inductive Upgrades (k : Option JsString → Prog SmtpOp SmtpOp.Res (Except JsString JsString)) :
    Prog SmtpOp SmtpOp.Res (Except JsString JsString) → Prop
  | pure (a : Except JsString JsString) : Upgrades k (.pure a)
  | upgrade : Upgrades k (.call .upgradeToTls k)
  | call {op : SmtpOp} {next : op.Res → Prog SmtpOp SmtpOp.Res (Except JsString JsString)} :
    op ≠ .upgradeToTls → (∀ r, Upgrades k (next r)) → Upgrades k (.call op next)

section
variable {α β : Type} {k : Option JsString → Prog SmtpOp SmtpOp.Res (Except JsString JsString)}

theorem Upgrades.bind {x : Prog SmtpOp SmtpOp.Res α}
    {f : α → Prog SmtpOp SmtpOp.Res (Except JsString JsString)}
    (hx : x.Calls (· ≠ .upgradeToTls)) (hf : ∀ a, Upgrades k (f a)) : Upgrades k (x.bind f) := by
  induction x with
  | pure a => exact hf a
  | call op next ih => exact .call hx.1 fun r => ih r (hx.2 r)

theorem Upgrades.of_calls {x : Prog SmtpOp SmtpOp.Res (Except JsString JsString)}
    (hx : x.Calls (· ≠ .upgradeToTls)) : Upgrades k x :=
  Prog.bind_pure x ▸ Upgrades.bind hx .pure

/-- The first part of a program inside `x`. -/
theorem Upgrades.behind {x : Smtp α} {f : α → Smtp β}
    {g : Except JsString β → Prog SmtpOp SmtpOp.Res (Except JsString JsString)}
    (hx : Calls.All (· ≠ .upgradeToTls) x) (herror : ∀ e, Upgrades k (g (.error e)))
    (hf : ∀ a, Upgrades k ((f a).run.bind g)) : Upgrades k ((x >>= f).run.bind g) := by
  show Upgrades k ((Prog.bind x.run (ExceptT.bindCont f)).bind g)
  rw [Prog.bind_assoc]
  refine Upgrades.bind hx fun r => ?_
  cases r with
  | ok a => exact hf a
  | error e => exact herror e

end

/-- `send` behind the point where the socket is replaced. -/
def resumed (opts : SmtpTransportOptions) (host : MailHost) (msg : EmailMessage)
    (failure : Option JsString) : Prog SmtpOp SmtpOp.Res (Except JsString JsString) :=
  let greeted : Smtp Unit := do
    match failure with
    | some e => throw e
    | none => return ()
  ExceptT.run <| tryCatchThe JsString
    ((greeted >>= fun _ => Smtp.ehlo opts host >>= fun _ => return ()) >>= fun _ =>
      Smtp.deliver opts host msg)
    fun e => throw (redactAll e (secretsToRedact opts))

section
variable (opts : SmtpTransportOptions) (host : MailHost) (msg : EmailMessage)

theorem resumed_keeps (failure : Option JsString) :
    (resumed opts host msg failure).Calls SmtpOp.Keeps := by
  have hread : SmtpOp.Keeps .readReply := ⟨nofun, nofun⟩
  have hwrite : ∀ raw, SmtpOp.Keeps (.write raw) := fun _ => ⟨nofun, nofun⟩
  refine Calls.All.tryCatch (Calls.All.bind (Calls.All.bind ?_ fun _ =>
    Calls.All.bind (ehlo_calls hread fun _ _ => hwrite _) fun _ => Calls.All.pure _)
    fun _ => deliver_calls hread (fun _ _ => hwrite _) (hwrite _)) fun _ => Calls.All.throw _
  cases failure with
  | none => exact Calls.All.pure _
  | some e => exact Calls.All.throw _

/-- What follows the part of `send` that secures the connection. -/
def delivered : Except JsString Unit → Prog SmtpOp SmtpOp.Res (Except JsString JsString)
  | .ok _ => ExceptT.run <| tryCatchThe JsString (Smtp.deliver opts host msg) fun e =>
      throw (redactAll e (secretsToRedact opts))
  | .error e => .pure (.error (redactAll e (secretsToRedact opts)))

theorem tryCatch_deliver (x : Smtp Unit) :
    ExceptT.run (tryCatchThe JsString (x >>= fun _ => Smtp.deliver opts host msg) fun e =>
      throw (redactAll e (secretsToRedact opts))) = x.run.bind (delivered opts host msg) := by
  show Prog.bind (Prog.bind x.run _) _ = _
  rw [Prog.bind_assoc]
  refine congrArg _ (funext fun r => ?_)
  cases r <;> rfl

theorem send_upgrades : Upgrades (resumed opts host msg) (Smtp.send opts host msg).run := by
  have hread : SmtpOp.readReply ≠ .upgradeToTls := nofun
  have hwrite : ∀ raw, SmtpOp.write raw ≠ .upgradeToTls := nofun
  have hehlo : Calls.All (· ≠ .upgradeToTls) (Smtp.ehlo opts host) :=
    ehlo_calls hread fun _ _ => hwrite _
  have herror : ∀ e, Upgrades (resumed opts host msg) (delivered opts host msg (.error e)) :=
    fun e => .pure _
  rw [Smtp.send, tryCatch_deliver]
  refine Upgrades.behind (orThrow_calls nofun) herror fun _ => ?_
  refine Upgrades.behind (expect_calls hread) herror fun _ => ?_
  refine Upgrades.behind hehlo herror fun _ => ?_
  split
  · refine Upgrades.behind (writeRaw_calls (hwrite _)) herror fun _ => ?_
    refine Upgrades.behind (expect_calls hread) herror fun _ => ?_
    have hupgrade : (ExceptT.run (Smtp.orThrow .upgradeToTls id >>= fun _ =>
        Smtp.ehlo opts host >>= fun _ => return ())).bind (delivered opts host msg) =
        .call .upgradeToTls (resumed opts host msg) := by
      refine congrArg (Prog.call SmtpOp.upgradeToTls) (funext fun failure => ?_)
      refine Eq.trans ?_ (tryCatch_deliver opts host msg _).symm
      cases failure <;> rfl
    exact hupgrade ▸ .upgrade
  · exact Upgrades.of_calls (Calls.All.tryCatch
      (deliver_calls hread (fun _ _ => hwrite _) (hwrite _)) fun _ => Calls.All.throw _)

end

namespace Session

/-- `Upgrades` of the rest of a conversation. -/
def UpgradesOn (k : Option JsString → Prog SmtpOp SmtpOp.Res (Except JsString JsString)) (s : Session) :
    Prop :=
  match s.turn with
  | .ready program => Upgrades k program
  | .reading next => ∀ r, Upgrades k (next r)

section
variable {k : Option JsString → Prog SmtpOp SmtpOp.Res (Except JsString JsString)} {s s' : Session}

theorem step_upgrades (hk : ∀ failure, Upgrades k (k failure)) {e : Event} (hs : s.UpgradesOn k)
    (h : s.step e = some s') : s'.UpgradesOn k := by
  obtain ⟨client, turn, received, taken⟩ := s
  cases e with
  | data chunk =>
    cases h
    exact hs
  | broken e =>
    cases h
    exact hs
  | proceed failure =>
    cases turn with
    | ready program =>
      cases (hs : Upgrades k program) with
      | pure a => cases h
      | upgrade =>
        cases h
        exact hk failure
      | @call op next hop hnext =>
        cases op with
        | connect tls =>
          cases h
          exact hnext failure
        | upgradeToTls => exact (hop rfl).elim
        | write raw =>
          cases h
          exact hnext ()
        | readReply =>
          cases h
          exact hnext
    | reading next =>
      obtain ⟨buffer, pending, settled⟩ := client
      cases settled with
      | nil => cases h
      | cons r settled =>
        cases h
        exact hs r

theorem run_upgrades (hk : ∀ failure, Upgrades k (k failure)) {es : List Event} (hs : s.UpgradesOn k)
    (h : s.run es = some s') : s'.UpgradesOn k := by
  induction es generalizing s with
  | nil => exact Option.some.inj h ▸ hs
  | cons e es ih =>
    obtain ⟨s₁, hstep, hrest⟩ := Option.bind_eq_some_iff.mp h
    exact ih (step_upgrades hk hs hstep) hrest

end

/-- What `proceed` makes of a session whose socket is replaced. -/
def after (buffer : JsString) (program : Prog SmtpOp SmtpOp.Res (Except JsString JsString)) : Session :=
  ⟨⟨buffer, 0, []⟩, .ready program, [], []⟩

theorem proceed_upgrading {opts : SmtpTransportOptions} {host : MailHost} {msg : EmailMessage}
    {es : List Event} {s : Session} (h : (start (Smtp.send opts host msg)).run es = some s)
    (hs : s.upgrading) (failure : Option JsString) :
    s.step (.proceed failure) = some (after s.client.buffer (resumed opts host msg failure)) := by
  have horderly : s.Orderly := run_orderly (s := start (Smtp.send opts host msg)) ⟨rfl, rfl⟩ h
  have hresumed (f : Option JsString) : Upgrades (resumed opts host msg) (resumed opts host msg f) :=
    Upgrades.of_calls ((resumed_keeps opts host msg f).mono fun _ hop => hop.1)
  have hupgrades := run_upgrades hresumed (s := start (Smtp.send opts host msg))
    (send_upgrades opts host msg) h
  obtain ⟨⟨buffer, pending, settled⟩, turn, received, taken⟩ := s
  cases turn with
  | reading next => cases hs
  | ready program =>
    obtain ⟨rfl, rfl⟩ := horderly
    cases (hupgrades : Upgrades (resumed opts host msg) program) with
    | pure a => cases hs
    | upgrade => rfl
    | @call op next hop hnext =>
      cases op with
      | upgradeToTls => exact (hop rfl).elim
      | _ => cases hs

end Session

-- ---------------------------------------------------------------------------
-- Text left behind
-- ---------------------------------------------------------------------------

/-- Two lines that end any reply that has begun. -/
def endings : JsString := js "a\na\n"

theorem Reads.split {stream rest : JsString} {xs ys : List SmtpReply}
    (h : Reads stream (xs ++ ys) rest) : ∃ mid, Reads stream xs mid := by
  induction xs generalizing stream with
  | nil => exact ⟨stream, .nil _⟩
  | cons x xs ih =>
    cases h with
    | cons hparse hrest =>
      obtain ⟨mid, hmid⟩ := ih hrest
      exact ⟨mid, .cons hparse hmid⟩

theorem chopped_letter (line : JsString) : chopped (line ++ js "a") = line ++ js "a" := by
  rw [chopped, if_neg]
  rw [List.getLast?_append_of_ne_nil _ (by decide)]
  decide

theorem intercalate_lines_ne {lines : List JsString} {line : JsString} (h : lines ≠ []) :
    [10].intercalate (lines ++ [line]) ≠ js "a" := by
  have hmem : (10 : UInt16) ∈ [10].intercalate (lines ++ [line]) := by
    obtain ⟨first, lines, rfl⟩ := List.exists_cons_of_ne_nil h
    cases lines <;> simp [List.intercalate, List.intersperse]
  intro heq
  rw [heq] at hmem
  exact absurd hmem (by decide)

/-- Text that was left makes the next reply another one. -/
theorem parseFrom_endings {lines : List JsString} {line s : JsString}
    (h : parseFrom lines line s = none) (hleft : lines ≠ [] ∨ line ≠ [] ∨ s ≠ []) :
    ∃ reply rest, parseFrom lines line (s ++ endings) = some (reply, rest) ∧ reply.raw ≠ js "a" := by
  induction s generalizing lines line with
  | nil =>
    have hendings : endings = 97 :: 10 :: 97 :: 10 :: [] := by decide
    have hstart : parseFrom lines line endings =
        if continues (line ++ js "a") then parseFrom (lines ++ [line ++ js "a"]) [] (js "a\n")
        else some (⟨codeOf (line ++ js "a"), [10].intercalate (lines ++ [line ++ js "a"])⟩, js "a\n") := by
      rw [hendings, parseFrom, if_neg (by decide), parseFrom, if_pos rfl]
      dsimp only
      rw [show line ++ [97] = line ++ js "a" from rfl, chopped_letter]
      rfl
    rw [List.nil_append, hstart]
    split
    · exact ⟨_, _, rfl, intercalate_lines_ne (by simp)⟩
    · refine ⟨_, _, rfl, ?_⟩
      rcases eq_or_ne lines [] with rfl | hlines
      · have hline : line ≠ [] := by simpa using hleft
        have hraw : [10].intercalate ([] ++ [line ++ js "a"]) = line ++ js "a" := by
          simp [List.intercalate]
        intro heq
        have hlength := congrArg List.length (hraw.symm.trans heq)
        rw [List.length_append] at hlength
        exact hline (List.eq_nil_of_length_eq_zero (Nat.add_eq_right.mp hlength))
      · exact intercalate_lines_ne hlines
  | cons c s ih =>
    rw [parseFrom] at h
    rw [List.cons_append, parseFrom]
    split at h
    · next hc =>
      rw [if_pos hc]
      dsimp only at h ⊢
      split at h
      · next hcont =>
        rw [if_pos hcont]
        exact ih h (.inl (by simp))
      · cases h
    · next hc =>
      rw [if_neg hc]
      exact ih h (.inr (.inl (by simp)))

-- ---------------------------------------------------------------------------
-- The replies of an upgraded conversation
-- ---------------------------------------------------------------------------

namespace Session

/-- In every way on, the replies are those of what comes over the new socket. -/
def ReadsTls (s : Session) : Prop :=
  ∀ failure later s', s.run (.proceed failure :: later) = some s' →
    ∃ rest, Reads s'.received s'.taken rest

section
variable {opts : SmtpTransportOptions} {host : MailHost} {msg : EmailMessage} {es : List Event}
  {s : Session}

theorem readsTls_of_empty (h : (start (Smtp.send opts host msg)).run es = some s)
    (hs : s.upgrading) (hbuffer : s.client.buffer = []) : s.ReadsTls := by
  intro failure later s' hrun
  rw [run, proceed_upgrading h hs failure, Option.bind_some, hbuffer] at hrun
  have hafter : (after [] (resumed opts host msg failure)).ReadsOn [] :=
    ⟨.nil _, resumed_keeps opts host msg failure⟩
  exact (run_reads hafter hrun).reads.split

/-- The conversation asks for a reply before anything else is decided. -/
theorem run_after (buffer : JsString) (later : List Event) :
    ∃ next, (after buffer (resumed opts host msg none)).run (.proceed none :: .proceed none :: later) =
      Session.run ⟨SmtpClient.flushFrom [] 1 buffer, .reading next, [], []⟩ later :=
  ⟨_, rfl⟩

theorem empty_of_readsTls (h : (start (Smtp.send opts host msg)).run es = some s)
    (hs : s.upgrading) (hreads : s.ReadsTls) : s.client.buffer = [] := by
  by_contra hbuffer
  have hlater (later : List Event) : ∃ next,
      s.run (.proceed none :: .proceed none :: .proceed none :: later) =
        Session.run ⟨SmtpClient.flushFrom [] 1 s.client.buffer, .reading next, [], []⟩ later := by
    rw [run, proceed_upgrading h hs none, Option.bind_some]
    exact run_after _ _
  cases hparse : parseReply s.client.buffer with
  | some found =>
    -- a whole reply was left: it is taken before anything comes over TLS
    obtain ⟨reply, rest⟩ := found
    obtain ⟨next, hrun⟩ := hlater [.proceed none]
    rw [SmtpClient.flushFrom, hparse] at hrun
    obtain ⟨rest', hreads⟩ := hreads none _ _ hrun
    cases hreads with
    | cons hnone _ => cases hnone
  | none =>
    -- what was left begins the first reply that comes over TLS
    obtain ⟨reply, rest, hfound, hraw⟩ := parseFrom_endings hparse (.inr (.inr hbuffer))
    obtain ⟨next, hrun⟩ := hlater [.data endings, .proceed none]
    rw [SmtpClient.flushFrom, hparse] at hrun
    have hflush : SmtpClient.data ⟨s.client.buffer, 1, []⟩ endings = ⟨rest, 0, [.ok reply]⟩ := by
      show SmtpClient.flushFrom [] 1 (s.client.buffer ++ endings) = _
      rw [SmtpClient.flushFrom, show parseReply (s.client.buffer ++ endings) = _ from hfound]
      rfl
    have hrun' : s.run (.proceed none :: .proceed none :: .proceed none ::
        [.data endings, .proceed none]) =
        some ⟨⟨rest, 0, []⟩, .ready (next (.ok reply)), endings, [reply]⟩ := by
      rw [hrun, run]
      show Session.run ⟨SmtpClient.data ⟨s.client.buffer, 1, []⟩ endings, _, _, _⟩ _ = _
      rw [hflush]
      rfl
    obtain ⟨rest', hreads⟩ := hreads none _ _ hrun'
    cases hreads with
    | cons hfirst _ =>
      have hendings : parseReply endings = some (⟨none, js "a"⟩, js "a\n") := by decide
      cases hendings.symm.trans hfirst
      exact hraw rfl

end

/-- Two conversations that come to the change of socket with nothing left go on
alike, whatever came before. -/
theorem run_alike {opts : SmtpTransportOptions} {host : MailHost} {msg : EmailMessage}
    {es₁ es₂ : List Event} {s₁ s₂ : Session}
    (h₁ : (start (Smtp.send opts host msg)).run es₁ = some s₁) (hs₁ : s₁.upgrading)
    (h₂ : (start (Smtp.send opts host msg)).run es₂ = some s₂) (hs₂ : s₂.upgrading)
    (hleft : s₁.client.buffer = s₂.client.buffer) (failure : Option JsString) (later : List Event) :
    s₁.run (.proceed failure :: later) = s₂.run (.proceed failure :: later) := by
  rw [run, run, proceed_upgrading h₁ hs₁, proceed_upgrading h₂ hs₂, hleft]

end Session

/-- The replies after the change of socket are those that come over TLS if and only
if no text was left behind the answer to STARTTLS, and then what was sent before does
not matter for what follows. -/
theorem readsTls_iff (opts : SmtpTransportOptions) (host : MailHost) (msg : EmailMessage)
    (es : List Event) (s : Session)
    (h : (Session.start (Smtp.send opts host msg)).run es = some s) (hs : s.upgrading) :
    (s.ReadsTls ↔ s.client.buffer = []) ∧
    ∀ es' s', (Session.start (Smtp.send opts host msg)).run es' = some s' → s'.upgrading →
      s.client.buffer = [] → s'.client.buffer = [] →
      ∀ failure later, s.run (.proceed failure :: later) = s'.run (.proceed failure :: later) :=
  ⟨⟨Session.empty_of_readsTls h hs, Session.readsTls_of_empty h hs⟩,
    fun _ _ h' hs' hleft hleft' => Session.run_alike h hs h' hs' (hleft.trans hleft'.symm)⟩

namespace Sample

def host : MailHost where
  hostname := js "mcp"
  date := js "Thu, 27 Aug 2026 10:00:00 GMT"
  boundaryBytes := [1, 2, 3]
  messageIdBytes := [4, 5, 6]
  hostname_line := by decide
  date_line := by decide

def opts : SmtpTransportOptions where
  port := 587

def msg : EmailMessage where
  from_ := js "a@x"
  to_ := js "b@y"
  subject := js "s"
  text := js "t"
  html := js "h"

/-- The conversation up to STARTTLS, with the text that comes as its answer. -/
def upTo (answer : JsString) : List Event :=
  [.proceed none, .proceed none, .data (js "220 mx\r\n"), .proceed none,
    .proceed none, .proceed none, .data (js "250 mx\r\n"), .proceed none,
    .proceed none, .proceed none, .data answer, .proceed none]

def conversation (answer : JsString) : Option Session :=
  (Session.start (Smtp.send opts host msg)).run (upTo answer)

end Sample

theorem readsTls_sample : ∃ s, Sample.conversation (js "220 go\r\n") = some s ∧ s.ReadsTls := by
  have hrun : (Sample.conversation (js "220 go\r\n")).map
      (fun s => (s.upgrading, s.client.buffer)) = some (true, []) := by decide +kernel
  obtain ⟨s, hs, hstate⟩ := Option.map_eq_some_iff.mp hrun
  obtain ⟨hupgrading, hbuffer⟩ := Prod.mk.inj hstate
  exact ⟨s, hs, (readsTls_iff _ _ _ _ s hs hupgrading).1.mpr hbuffer⟩

/-- A reply that the attacker puts behind the answer is the first one that is taken
after the change, with nothing received over TLS. -/
theorem forged_reply_taken : ¬ ∀ opts host msg es s,
    (Session.start (Smtp.send opts host msg)).run es = some s → s.upgrading → s.ReadsTls := by
  intro hall
  have hrun : (Sample.conversation (js "220 go\r\n250 forged\r\n")).map Session.upgrading = some true := by
    decide +kernel
  obtain ⟨s, hs, hupgrading⟩ := Option.map_eq_some_iff.mp hrun
  have htaken : ((Sample.conversation (js "220 go\r\n250 forged\r\n")).bind fun s =>
      s.run [.proceed none, .proceed none, .proceed none, .proceed none]).map
        (fun s => (s.received, s.taken)) = some ([], [⟨some 250, js "250 forged"⟩]) := by decide +kernel
  rw [hs, Option.bind_some] at htaken
  obtain ⟨s', hs', hstate⟩ := Option.map_eq_some_iff.mp htaken
  obtain ⟨rest, hreads⟩ := hall _ _ _ _ s hs hupgrading none _ s' hs'
  rw [(Prod.mk.inj hstate).1, (Prod.mk.inj hstate).2] at hreads
  cases hreads with
  | cons hnone _ => cases hnone

end EsigSuite.Email
