import EsigSuite.Lib.Async
import EsigSuite.Provisioning.Jobs

/-!
# The calls of the orchestrator

What the code of `orchestrator.ts` calls: the store, the clock, and whatever the
deployment adds to them. Each call is atomic. A call of the store may fail
without effect, and its answer may be lost.
-/

namespace EsigSuite.Provisioning

open Lib

/-- The calls that a deployment adds to those of the store. -/
structure Outside where
  Call : Type
  Answer : Call → Type

inductive Op (E : Outside)
  | clock
  | getOrder (subscriptionId : String)
  /-- `event` is what the order was reduced with, for the log only. -/
  | putOrder (event : OrderEvent) (order : OrderRecord) (expectedVersion : Option Nat)
  | getJob (subscriptionId : String)
  | putJob (job : ProvisioningJob) (expectedVersion : Option Nat)
  | acquireJobExecutionLease (subscriptionId ownerId : String) (now leaseDurationMs : Int)
  | renewJobExecutionLease (lease : JobExecutionLease) (now leaseDurationMs : Int)
  | releaseJobExecutionLease (lease : JobExecutionLease)
  | getCredentialHandoffPointer (subscriptionId handoffId : String)
  | beginCredentialHandoff (pointer : CredentialHandoffPointer) (lease : JobExecutionLease)
      (now : Int) (expectedPublicationGeneration : Option Nat)
  | bindCredentialHandoff (input : CredentialHandoffMutationInput)
      (publication : CredentialSecretPublication)
  | publishCredentialHandoff (input : CredentialHandoffMutationInput)
  | revokeCredentialHandoff (input : CredentialHandoffMutationInput)
  | listResources (subscriptionId : String)
  | putResource (resource : ResourceRecord)
  | outside (call : E.Call)

abbrev Answer (α : Type) := Except SafeProvisioningError α

def Op.Res {E : Outside} : Op E → Type
  | .clock => Int
  | .getOrder _ => Answer (Option OrderRecord)
  | .putOrder .. => Answer OrderRecord
  | .getJob _ => Answer (Option ProvisioningJob)
  | .putJob .. => Answer ProvisioningJob
  | .acquireJobExecutionLease .. => Answer JobExecutionLeaseClaimResult
  | .renewJobExecutionLease .. => Answer JobExecutionLease
  | .releaseJobExecutionLease _ => Answer Unit
  | .getCredentialHandoffPointer .. => Answer (Option CredentialHandoffPointer)
  | .beginCredentialHandoff .. | .bindCredentialHandoff .. | .publishCredentialHandoff _
  | .revokeCredentialHandoff _ => Answer CredentialHandoffPointer
  | .listResources _ => Answer (List ResourceRecord)
  | .putResource _ => Answer Unit
  | .outside call => E.Answer call

-- ---------------------------------------------------------------------------
-- What a call does
-- ---------------------------------------------------------------------------

structure System (X : Type) where
  store : InMemoryProvisioningStore
  /-- The events that orders were stored for, the latest last. -/
  reduced : List OrderEvent
  outside : X

namespace System

variable {X : Type} (s : System X)

def through (outcome : Outcome InMemoryProvisioningStore α) : Answer α × System X :=
  (outcome.1, { s with store := outcome.2 })

def read (value : α) : Answer α × System X := (.ok value, s)

def putOrder (event : OrderEvent) (order : OrderRecord) (expectedVersion : Option Nat) :
    Answer OrderRecord × System X :=
  match s.store.putOrder order expectedVersion with
  | (.ok stored, store) => (.ok stored, { s with store, reduced := s.reduced ++ [event] })
  | (.error e, store) => (.error e, { s with store })

/-- The call is answered, fails without effect, or its answer is lost. -/
def Answered (outcome : Answer α × System X) (r : Answer α) (s' : System X) : Prop :=
  (r = outcome.1 ∧ s' = outcome.2) ∨ ((∃ e, r = .error e) ∧ (s' = s ∨ s' = outcome.2))

end System

section
variable {E : Outside} {X : Type}

/-- What the calls of a deployment do, while the store is as it is. -/
abbrev Outside.Exec (E : Outside) (X : Type) :=
  (call : E.Call) → InMemoryProvisioningStore → X → E.Answer call → X → Prop

/-- The hashes and the collation of the runtime. -/
structure Runtime where
  hashing : Hashing
  collation : Collation

def Op.exec (rt : Runtime) (outside : E.Exec X) :
    (op : Op E) → System X → op.Res → System X → Prop
  | .clock, s, _, s' => s' = s
  | .getOrder subscriptionId, s, r, s' => s.Answered (s.read (s.store.getOrder subscriptionId)) r s'
  | .putOrder event order expectedVersion, s, r, s' =>
    s.Answered (s.putOrder event order expectedVersion) r s'
  | .getJob subscriptionId, s, r, s' => s.Answered (s.read (s.store.getJob subscriptionId)) r s'
  | .putJob job expectedVersion, s, r, s' =>
    s.Answered (s.through (s.store.putJob rt.hashing job expectedVersion)) r s'
  | .acquireJobExecutionLease subscriptionId ownerId now leaseDurationMs, s, r, s' =>
    s.Answered
      (s.through (s.store.acquireJobExecutionLease subscriptionId ownerId now leaseDurationMs)) r s'
  | .renewJobExecutionLease lease now leaseDurationMs, s, r, s' =>
    s.Answered (s.through (s.store.renewJobExecutionLease lease now leaseDurationMs)) r s'
  | .releaseJobExecutionLease lease, s, r, s' =>
    s.Answered (s.through (s.store.releaseJobExecutionLease lease)) r s'
  | .getCredentialHandoffPointer subscriptionId handoffId, s, r, s' =>
    s.Answered (s.read (s.store.getCredentialHandoffPointer subscriptionId handoffId)) r s'
  | .beginCredentialHandoff pointer lease now expected, s, r, s' =>
    s.Answered (s.through (s.store.beginCredentialHandoff pointer lease now expected)) r s'
  | .bindCredentialHandoff input publication, s, r, s' =>
    s.Answered (s.through (s.store.bindCredentialHandoff input publication)) r s'
  | .publishCredentialHandoff input, s, r, s' =>
    s.Answered (s.through (s.store.publishCredentialHandoff input)) r s'
  | .revokeCredentialHandoff input, s, r, s' =>
    s.Answered (s.through (s.store.revokeCredentialHandoff input)) r s'
  | .listResources subscriptionId, s, r, s' =>
    s.Answered (s.read (s.store.listResources rt.collation subscriptionId)) r s'
  | .putResource resource, s, r, s' =>
    s.Answered (s.through (s.store.putResource rt.hashing resource)) r s'
  | .outside call, s, r, s' =>
    ∃ x, outside call s.store s.outside r x ∧ s' = { s with outside := x }

/-- Calls that are answered, unless they fail without effect. The clock stands
still. -/
def Op.answer (rt : Runtime) (outside : (call : E.Call) → System X → E.Answer call × X)
    (now : Int) (failure : Option SafeProvisioningError) : (op : Op E) → System X → op.Res × System X :=
  let answered {α : Type} (s : System X) (outcome : Answer α × System X) : Answer α × System X :=
    match failure with
    | none => outcome
    | some e => (.error e, s)
  fun
  | .clock, s => (now, s)
  | .getOrder subscriptionId, s => answered s (s.read (s.store.getOrder subscriptionId))
  | .putOrder event order expectedVersion, s => answered s (s.putOrder event order expectedVersion)
  | .getJob subscriptionId, s => answered s (s.read (s.store.getJob subscriptionId))
  | .putJob job expectedVersion, s =>
    answered s (s.through (s.store.putJob rt.hashing job expectedVersion))
  | .acquireJobExecutionLease subscriptionId ownerId now leaseDurationMs, s =>
    answered s
      (s.through (s.store.acquireJobExecutionLease subscriptionId ownerId now leaseDurationMs))
  | .renewJobExecutionLease lease now leaseDurationMs, s =>
    answered s (s.through (s.store.renewJobExecutionLease lease now leaseDurationMs))
  | .releaseJobExecutionLease lease, s =>
    answered s (s.through (s.store.releaseJobExecutionLease lease))
  | .getCredentialHandoffPointer subscriptionId handoffId, s =>
    answered s (s.read (s.store.getCredentialHandoffPointer subscriptionId handoffId))
  | .beginCredentialHandoff pointer lease now expected, s =>
    answered s (s.through (s.store.beginCredentialHandoff pointer lease now expected))
  | .bindCredentialHandoff input publication, s =>
    answered s (s.through (s.store.bindCredentialHandoff input publication))
  | .publishCredentialHandoff input, s =>
    answered s (s.through (s.store.publishCredentialHandoff input))
  | .revokeCredentialHandoff input, s =>
    answered s (s.through (s.store.revokeCredentialHandoff input))
  | .listResources subscriptionId, s =>
    answered s (s.read (s.store.listResources rt.collation subscriptionId))
  | .putResource resource, s =>
    answered s (s.through (s.store.putResource rt.hashing resource))
  | .outside call, s => ((outside call s).1, { s with outside := (outside call s).2 })

theorem Op.answer_exec (rt : Runtime) {exec : E.Exec X}
    {outside : (call : E.Call) → System X → E.Answer call × X}
    (houtside : ∀ call s, exec call s.store s.outside (outside call s).1 (outside call s).2)
    (now : Int) (failure : Option SafeProvisioningError) (op : Op E) (s : System X) :
    op.exec rt exec s (op.answer rt outside now failure s).1 (op.answer rt outside now failure s).2 := by
  have hanswered {α : Type} (outcome : Answer α × System X) :
      s.Answered outcome
        (match failure with
          | none => outcome
          | some e => (.error e, s)).1
        (match failure with
          | none => outcome
          | some e => (.error e, s)).2 := by
    cases failure with
    | none => exact .inl ⟨rfl, rfl⟩
    | some e => exact .inr ⟨⟨e, rfl⟩, .inl rfl⟩
  cases op with
  | clock => rfl
  | outside call => exact ⟨_, houtside call s, rfl⟩
  | _ => exact hanswered _

-- ---------------------------------------------------------------------------
-- Programs
-- ---------------------------------------------------------------------------

/-- What is thrown inside the orchestrator. -/
inductive Thrown
  | failure (error : SafeProvisioningError)
  | jobVersionConflict
  | executionLeaseLost
  deriving DecidableEq, Repr

def sanitizeProvisioningError : Thrown → SafeProvisioningError
  | .failure e => e
  | .jobVersionConflict | .executionLeaseLost => ⟨.UNEXPECTED_FAILURE, false⟩

abbrev M (E : Outside) := ExceptT Thrown (Prog (Op E) Op.Res)

def ask (x : Prog (Op E) Op.Res (Answer α)) : M E α := (ExceptT.mk x).adapt .failure

def fail (code : SafeErrorCode) (retryable : Bool) : M E α :=
  throwThe Thrown (.failure ⟨code, retryable⟩)

def orThrow : Except SafeProvisioningError α → M E α
  | .ok a => pure a
  | .error e => throwThe Thrown (.failure e)

/-- What is thrown becomes a value, as in `try`. -/
def attempt (x : M E α) : M E (Except Thrown α) := ExceptT.lift x.run

/-- What was caught is thrown again. -/
def rethrow : Except Thrown α → M E α
  | .ok a => pure a
  | .error e => throwThe Thrown e

def clock : M E Int := ExceptT.lift (Prog.perform (Op.clock : Op E))

namespace Store

def getOrder (subscriptionId : String) : M E (Option OrderRecord) :=
  ask (Prog.perform (Op.getOrder subscriptionId : Op E))

def putOrder (event : OrderEvent) (order : OrderRecord) (expectedVersion : Option Nat) :
    M E OrderRecord :=
  ask (Prog.perform (Op.putOrder event order expectedVersion : Op E))

def getJob (subscriptionId : String) : M E (Option ProvisioningJob) :=
  ask (Prog.perform (Op.getJob subscriptionId : Op E))

def putJob (job : ProvisioningJob) (expectedVersion : Option Nat) : M E ProvisioningJob :=
  ask (Prog.perform (Op.putJob job expectedVersion : Op E))

def acquireJobExecutionLease (subscriptionId ownerId : String) (now leaseDurationMs : Int) :
    M E JobExecutionLeaseClaimResult :=
  ask (Prog.perform
    (Op.acquireJobExecutionLease subscriptionId ownerId now leaseDurationMs : Op E))

def renewJobExecutionLease (lease : JobExecutionLease) (now leaseDurationMs : Int) :
    M E JobExecutionLease :=
  ask (Prog.perform (Op.renewJobExecutionLease lease now leaseDurationMs : Op E))

def releaseJobExecutionLease (lease : JobExecutionLease) : M E Unit :=
  ask (Prog.perform (Op.releaseJobExecutionLease lease : Op E))

def getCredentialHandoffPointer (subscriptionId handoffId : String) :
    M E (Option CredentialHandoffPointer) :=
  ask (Prog.perform (Op.getCredentialHandoffPointer subscriptionId handoffId : Op E))

def beginCredentialHandoff (pointer : CredentialHandoffPointer) (lease : JobExecutionLease)
    (now : Int) (expectedPublicationGeneration : Option Nat) : M E CredentialHandoffPointer :=
  ask (Prog.perform
    (Op.beginCredentialHandoff pointer lease now expectedPublicationGeneration : Op E))

def bindCredentialHandoff (input : CredentialHandoffMutationInput)
    (publication : CredentialSecretPublication) : M E CredentialHandoffPointer :=
  ask (Prog.perform (Op.bindCredentialHandoff input publication : Op E))

def publishCredentialHandoff (input : CredentialHandoffMutationInput) :
    M E CredentialHandoffPointer :=
  ask (Prog.perform (Op.publishCredentialHandoff input : Op E))

def revokeCredentialHandoff (input : CredentialHandoffMutationInput) :
    M E CredentialHandoffPointer :=
  ask (Prog.perform (Op.revokeCredentialHandoff input : Op E))

def listResources (subscriptionId : String) : M E (List ResourceRecord) :=
  ask (Prog.perform (Op.listResources subscriptionId : Op E))

def putResource (resource : ResourceRecord) : M E Unit :=
  ask (Prog.perform (Op.putResource resource : Op E))

end Store

-- ---------------------------------------------------------------------------
-- Rules
-- ---------------------------------------------------------------------------

section
variable {σ : Type} {p : Protocol (Op E) Op.Res σ} {P : σ → Prop} {R : Thrown → σ → Prop}
  {x : M E α} {y : Prog (Op E) Op.Res (Answer α)} {Q : α → σ → Prop} {C : Op E → Prop}

theorem ask_triple (h : p.Holds y P fun
    | .ok a => Q a
    | .error e => R (.failure e)) : p.Triple (ask y) P Q R :=
  .adapt (h.post fun
    | .ok _, _, _, h => h
    | .error _, _, _, h => h)

theorem attempt_triple {R' : Thrown → σ → Prop} (h : p.Triple x P Q R) :
    p.Triple (attempt x) P (fun
      | .ok a => Q a
      | .error e => R e) R' :=
  .lift (h.post fun
    | .ok _, _, _, h => h
    | .error _, _, _, h => h)

theorem orThrow_triple {value : Except SafeProvisioningError α}
    (h : ∀ s, p.inv s → P s → match value with
      | .ok a => Q a s
      | .error e => R (.failure e) s) : p.Triple (orThrow value) P Q R := by
  cases value with
  | ok a => exact .pure h
  | error e => exact .throw h

theorem fail_triple {code : SafeErrorCode} {retryable : Bool}
    (h : ∀ s, p.inv s → P s → R (.failure ⟨code, retryable⟩) s) :
    p.Triple (fail code retryable : M E α) P Q R :=
  .throw h

theorem rethrow_triple {result : Except Thrown α}
    (h : ∀ s, p.inv s → P s → match result with
      | .ok a => Q a s
      | .error e => R e s) : p.Triple (rethrow result : M E α) P Q R := by
  cases result with
  | ok a => exact .pure h
  | error e => exact .throw h

theorem ask_calls (hy : y.Calls C) : Calls.All C (ask y) :=
  .adapt hy

theorem attempt_calls (hx : Calls.All C x) : Calls.All C (attempt x) := .lift hx

theorem orThrow_calls (value : Except SafeProvisioningError α) :
    Calls.All C (orThrow value : M E α) := by
  cases value <;> trivial

theorem fail_calls (code : SafeErrorCode) (retryable : Bool) :
    Calls.All C (fail code retryable : M E α) := trivial

theorem rethrow_calls (result : Except Thrown α) : Calls.All C (rethrow result : M E α) := by
  cases result <;> trivial

end

end

end EsigSuite.Provisioning
