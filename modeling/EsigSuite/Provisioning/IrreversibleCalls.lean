import EsigSuite.Provisioning.ProviderCalls
import EsigSuite.Provisioning.SampleRuntime

/-!
# Irreversible calls

`compensate` and `compensateUnknown` end a tenant for good. They are made for
canceled and refunded orders only, as long as no worker compensates a step with
an order that it has read as pending or active.
-/

namespace EsigSuite.Provisioning

open Lib
open Lib.Calls (All)
open Lib.Protocol (Triple)

/-- The order that a step is compensated with. -/
def compensatedWith : Op deployment → Option OrderRecord
  | .outside (.compensating order) => some order
  | _ => none

/-- A worker compensates steps with past due, canceled and refunded orders. -/
def CompensatesDue (op : Op deployment) (_ : System (List Invocation)) : Prop :=
  ∀ order ∈ compensatedWith op, order.billingState = .past_due ∨ isTerminalBilling order = true

instance (op : Op deployment) (s : System (List Invocation)) : Decidable (CompensatesDue op s) :=
  inferInstanceAs (Decidable (∀ _ ∈ _, _))

/-- A canceled or refunded order is stored for the subscription. -/
def StoredTerminal (subscriptionId : String) (s : System X) : Prop :=
  ∃ order, s.store.getOrder subscriptionId = some order ∧ isTerminalBilling order = true

/-- Every irreversible call was made for an order that is canceled or refunded
and was so then. -/
structure Finality (s : System (List Invocation)) : Prop where
  keyed : ∀ subscriptionId order, s.store.getOrder subscriptionId = some order →
    order.subscriptionId = subscriptionId
  invoked : ∀ i ∈ s.outside, i.call.irreversible = true →
    i.billingState.any (·.terminal) = true ∧ StoredTerminal i.call.request.subscriptionId s

/-- What every step keeps. -/
def StaysTerminal (s s' : System (List Invocation)) : Prop :=
  ∀ subscriptionId, StoredTerminal subscriptionId s → StoredTerminal subscriptionId s'

section
variable (rt : Runtime)

def finalityProtocol : Protocol (Op deployment) Op.Res (System (List Invocation)) where
  exec := Guarded (Op.exec rt logged) CompensatesDue
  inv := Finality
  rely := StaysTerminal
  guar := StaysTerminal

end

-- ---------------------------------------------------------------------------
-- Calls
-- ---------------------------------------------------------------------------

variable {rt : Runtime} {s s' : System (List Invocation)}

theorem exec_keyed {op : Op deployment} {r : op.Res} (h : op.exec rt logged s r s')
    (hkeyed : ∀ id order, s.store.getOrder id = some order → order.subscriptionId = id) :
    ∀ id order, s'.store.getOrder id = some order → order.subscriptionId = id := by
  intro id order horder
  rcases exec_orders h with hsame | ⟨stored, hstored, -⟩
  · exact hkeyed id order ((congrFun hsame id).symm.trans horder)
  · rw [hstored, setOrder_getOrder] at horder
    split at horder
    · rename_i hid
      rw [hid, Option.some.inj horder]
    · exact hkeyed id order horder

theorem exec_terminal {op : Op deployment} {r : op.Res} (h : op.exec rt logged s r s') :
    StaysTerminal s s' := by
  rintro id ⟨order, horder, hterminal⟩
  rcases exec_orders h with hsame | ⟨stored, hstored, hkeeps⟩
  · exact ⟨order, (congrFun hsame id).trans horder, hterminal⟩
  · by_cases hid : id = stored.subscriptionId
    · refine ⟨stored, ?_, hkeeps order (hid ▸ horder) hterminal⟩
      rw [hstored, setOrder_getOrder, if_pos hid]
    · refine ⟨order, ?_, hterminal⟩
      rw [hstored, setOrder_getOrder, if_neg hid]
      exact horder

/-- The calls that are irreversible for some subscriptions at most. -/
def AllowedFor (ids : String → Prop) : Op deployment → Prop
  | .outside (.provider call) => call.irreversible = true → ids call.request.subscriptionId
  | _ => True

/-- The subscription of an order in hand, if that is canceled or refunded. -/
def finalFor (order : OrderRecord) (id : String) : Prop :=
  id = order.subscriptionId ∧ isTerminalBilling order = true

def AllTerminal (ids : String → Prop) (s : System (List Invocation)) : Prop :=
  ∀ id, ids id → StoredTerminal id s

theorem allTerminal_kept (ids : String → Prop) : (finalityProtocol rt).Kept (AllTerminal ids) :=
  ⟨fun _ _ _ _ hstays h id hid => hstays _ (h id hid),
    fun _ _ _ _ hstays h id hid => hstays _ (h id hid)⟩

theorem allowed_step {ids : String → Prop} {op : Op deployment} (hallowed : AllowedFor ids op)
    {r : op.Res} (hinv : Finality s) (hids : AllTerminal ids s)
    (h : (finalityProtocol rt).exec op s r s') :
    Finality s' ∧ StaysTerminal s s' ∧ AllTerminal ids s' := by
  have hstays := exec_terminal h.1
  refine ⟨⟨exec_keyed h.1 hinv.keyed, fun i hi hirreversible => ?_⟩, hstays,
    fun id hid => hstays id (hids id hid)⟩
  have hkept : i ∈ s.outside → i.billingState.any (·.terminal) = true ∧
      StoredTerminal i.call.request.subscriptionId s' := fun hi =>
    (hinv.invoked i hi hirreversible).imp (fun h => h) (hstays i.call.request.subscriptionId)
  by_cases hop : op.inside = true
  · exact hkept (exec_outside h.1 hop ▸ hi)
  cases op with
  | outside call =>
    obtain ⟨x, hx, rfl⟩ := h.1
    cases call with
    | provider call =>
      obtain rfl : x = s.outside ++ [invocation call s.store] := hx
      rcases List.mem_append.mp hi with hi | hi
      · exact hkept hi
      · obtain rfl := List.mem_singleton.mp hi
        obtain ⟨stored, hstored, hfinal⟩ := hids _ (hallowed hirreversible)
        refine ⟨?_, stored, hstored, hfinal⟩
        simp only [invocation, hstored, Option.map_some, Option.any_some]
        exact hfinal
    | _ =>
      obtain rfl : x = s.outside := hx
      exact hkept hi
  | _ => exact absurd rfl hop

-- ---------------------------------------------------------------------------
-- Tasks
-- ---------------------------------------------------------------------------

theorem allowed_triple {ids : String → Prop} {x : M deployment α} (hx : All (AllowedFor ids) x) :
    (finalityProtocol rt).Triple x (AllTerminal ids) (fun _ => AllTerminal ids)
      (fun _ => AllTerminal ids) :=
  .of_calls hx (allTerminal_kept ids).1 fun _ hallowed _ _ _ hinv hids hexec =>
    allowed_step hallowed hinv hids hexec

theorem allowed_admits (ids : String → Prop) :
    Admits [.jobs, .executionLeases, .credentialHandoffs, .resources] (AllowedFor ids) := by
  intro op hinside _
  cases op with
  | outside => cases hinside
  | _ => trivial

/-- A program without irreversible calls. -/
theorem harmless_triple {x : M deployment α} (hx : All (AllowedFor fun _ => False) x) :
    (finalityProtocol rt).Triple x (fun _ => True) (fun _ _ => True) (fun _ _ => True) :=
  (allowed_triple hx).mono (fun _ _ _ _ h => h.elim) (fun _ _ _ _ => trivial)
    fun _ _ _ _ => trivial

/-- What an order that is read says of the stored one from then on. -/
theorem getOrder_final (id : String) :
    (finalityProtocol rt).Triple (Store.getOrder id : M deployment _) (fun _ => True)
      (fun o s => True ∧ ∀ order, o = some order → AllTerminal (finalFor order) s)
      (fun _ _ => True) := by
  refine ask_triple (.perform (fun s r s' hinv _ hexec => ?_) fun r => ?_)
  · obtain rfl := read_eq hexec.1
    refine ⟨hinv, fun _ h => h, ?_⟩
    rcases hexec.1 with ⟨rfl, -⟩ | ⟨⟨e, rfl⟩, -⟩
    · refine ⟨trivial, ?_⟩
      rintro order horder id' ⟨rfl, hterminal⟩
      refine ⟨order, ?_, hterminal⟩
      rw [hinv.keyed id order horder]
      exact horder
    · trivial
  · match r with
    | .ok o =>
      exact fun _ _ _ _ hstays h => ⟨trivial, fun order ho id hid => hstays id (h.2 order ho id hid)⟩
    | .error _ => exact Protocol.stable_const _

/-- The driver is told the order, which has to be due. -/
theorem compensateStep_final (worker : Worker) (input : StepInput) :
    (finalityProtocol rt).Triple ((worker.driver rt).compensateStep input)
      (AllTerminal (finalFor input.order)) (fun _ => AllTerminal (finalFor input.order))
      (fun _ => AllTerminal (finalFor input.order)) := by
  refine Triple.bind (M := fun _ s => (input.order.billingState = .past_due ∨
    isTerminalBilling input.order = true) ∧ AllTerminal (finalFor input.order) s)
    (.lift (.perform (fun s r s' hinv hids hexec => ?_) fun _ => ?_)) fun _ => .given fun hdue => ?_
  · have hallowed : AllowedFor (finalFor input.order) (.outside (.compensating input.order)) := trivial
    obtain ⟨hinv', hstays, hids'⟩ := allowed_step hallowed hinv hids hexec
    exact ⟨hinv', hstays, hexec.2 _ rfl, hids'⟩
  · exact (Protocol.stable_const _).and (allTerminal_kept _).1
  · refine allowed_triple (ProviderProvisioningDriver.compensateStep_calls _ rt input ?_ ?_)
    · intro _
      exact ⟨fun _ => ask_calls (.perform nofun), ask_calls (.perform nofun)⟩
    · intro hdisabled
      have hfinal : finalFor input.order input.order.subscriptionId := by
        refine ⟨rfl, hdue.resolve_left fun hpast => hdisabled ?_⟩
        simp [ProviderProvisioningDriver.targetStatus, hpast]
      exact ⟨fun _ => ask_calls (.perform fun _ => hfinal), ask_calls (.perform fun _ => hfinal)⟩

theorem executeStep_harmless (worker : Worker) (input : StepInput) :
    All (AllowedFor fun _ => False) ((worker.driver rt).executeStep input) :=
  ProviderProvisioningDriver.executeStep_calls _ rt input
    (fun _ => ask_calls (.perform nofun)) (fun _ => ask_calls (.perform nofun))
    (fun _ => ask_calls (.perform nofun)) (fun _ => ask_calls (.perform nofun))

theorem handoff_harmless (worker : Worker) :
    ∀ handoff, (worker.input rt).credentialHandoff = some handoff →
      HandoffCalls (AllowedFor fun _ => False) handoff := by
  intro handoff hsome
  obtain ⟨describe, -, rfl⟩ := Option.map_eq_some_iff.mp hsome
  exact ⟨fun _ => ask_calls (.perform trivial), fun _ => ask_calls (.perform trivial)⟩

theorem worker_spec (worker : Worker) (lease : JobExecutionLease) :
    RunSpec (finalityProtocol rt) rt { worker.input rt with lease } (fun _ => True)
      (fun order => AllTerminal (finalFor order)) (fun _ _ => True) := by
  have hinside := allowed_admits fun _ : String => False
  have hjob {α : Type} {order : OrderRecord} {x : M deployment α}
      (hx : All (AllowedFor fun _ => False) x) :
      (finalityProtocol rt).Triple x (fun s => True ∧ AllTerminal (finalFor order) s ∧ True)
        (fun _ _ => True ∧ True) (fun _ _ => True) :=
    (harmless_triple hx).mono (fun _ _ _ => trivial) (fun _ _ _ _ => ⟨trivial, trivial⟩)
      fun _ _ _ h => h
  have hsave (job next : ProvisioningJob) :
      (finalityProtocol rt).Triple (saveUpdatedJob job next : M deployment _)
        (fun _ => True ∧ True) (fun _ _ => True ∧ True) (fun _ _ => True) :=
    (harmless_triple (saveUpdatedJob_calls (hinside.mono rfl) job next)).mono (fun _ _ _ => trivial)
      (fun _ _ _ _ => ⟨trivial, trivial⟩) fun _ _ _ h => h
  exact {
    order_kept := fun order => allTerminal_kept _
    job_kept := fun _ => Protocol.kept_const True
    owned := harmless_triple (assertOwned_calls (hinside.mono rfl) _)
    readOrder := getOrder_final _
    readJob := (harmless_triple (getJob_calls (hinside.mono rfl) _)).mono (fun _ _ h => h)
      (fun _ _ _ _ => ⟨trivial, fun _ _ => trivial⟩) fun _ _ _ h => h
    transition := fun _ job _ => hjob (transitionToCompensation_calls (hinside.mono rfl) job _)
    start := fun job started _ _ => hsave job started
    failure := fun job _ failed _ => hsave job failed
    provisioningRound := fun order job _ _ => (harmless_triple (provisioningRound_calls hinside _
        (executeStep_harmless worker) (handoff_harmless worker) order job)).mono
      (fun _ _ _ => trivial) (fun _ _ _ _ => ⟨trivial, fun _ _ => trivial⟩) fun _ _ _ h => h
    compensationRound := fun order job _ => (compensationRound_triple
        (allowed_admits (finalFor order)) allowed_triple
        (fun stepInput hstep => hstep ▸ compensateStep_final worker stepInput) job).mono
      (fun _ _ h => h.2.1) (fun _ _ _ _ => ⟨trivial, fun _ _ => trivial⟩) fun _ _ _ _ => trivial }

theorem task_triple (task : Task) :
    (finalityProtocol rt).Triple (task.run rt) (fun _ => True) (fun _ _ => True)
      (fun _ _ => True) := by
  have hinside := allowed_admits fun _ : String => False
  cases task with
  | event event retryPolicy =>
    exact .map (harmless_triple (processClaimedStripeEvent_calls (hinside.mono rfl)
      (fun _ _ _ => trivial) event retryPolicy))
  | job worker =>
    have hstore {α : Type} {x : M deployment α} (hx : All (AllowedFor fun _ => False) x) :
        (finalityProtocol rt).Triple x (fun _ => True) (fun _ _ => True) (fun _ _ => True) :=
      harmless_triple hx
    refine .map (runProvisioningJob_triple (L := fun _ _ => True) (J := fun _ _ _ => True)
      (I := fun _ order => AllTerminal (finalFor order)) ?_ ?_ ?_ ?_ ?_)
    · exact hstore (clock_calls (hinside.mono rfl))
    · intro now
      exact (hstore (ask_calls (.perform trivial))).mono (fun _ _ h => h)
        (fun _ _ _ _ => ⟨trivial, fun _ _ => trivial⟩) fun _ _ _ h => h
    · exact hstore (getJob_calls (hinside.mono rfl) _)
    · intro lease
      exact (hstore (ask_calls (.perform trivial))).mono (fun _ _ _ => trivial) (fun _ _ _ h => h)
        fun _ _ _ h => h
    · intro lease
      simpa only [and_self] using worker_spec worker lease

-- ---------------------------------------------------------------------------
-- Every interleaving
-- ---------------------------------------------------------------------------

theorem finalityProtocol_compatible {ι : Type} (rt : Runtime) :
    Protocol.Compatible (Guarded (Op.exec rt logged) CompensatesDue) Finality
      (fun _ : ι => finalityProtocol rt) where
  exec_eq _ := rfl
  inv_eq _ := rfl
  guar_rely _ _ _ _ _ _ _ h := h

/-- Irreversible calls are made while the stored order is canceled or refunded,
and a subscription whose order is not never had one. -/
theorem irreversible_calls_final {ι : Type} [DecidableEq ι] {tasks : ι → Task}
    {c : System (List Invocation) × (ι → Prog (Op deployment) Op.Res (Except Thrown TaskResult))}
    (hrun : Run (Guarded (Op.exec rt logged) CompensatesDue)
      (⟨.initial, [], []⟩, fun i => (tasks i).run rt) c) :
    (∀ i ∈ c.1.outside, i.call.irreversible = true → i.billingState.any (·.terminal) = true) ∧
      ∀ id order, c.1.store.getOrder id = some order → isTerminalBilling order = false →
        ∀ i ∈ c.1.outside, i.call.request.subscriptionId = id → i.call.irreversible = false := by
  have hstart : Protocol.Ready Finality (fun _ : ι => finalityProtocol rt) (fun _ _ _ => True)
      (⟨.initial, [], []⟩, fun i => (tasks i).run rt) := by
    refine ⟨⟨fun id order horder => ?_, fun i hi => absurd hi List.not_mem_nil⟩, fun i => ?_⟩
    · exact absurd horder.symm (Option.some_ne_none order)
    · exact ⟨fun _ => True, Protocol.stable_const _, trivial,
        Protocol.Holds.post (task_triple (tasks i)) fun _ _ _ _ => trivial⟩
  obtain ⟨⟨hkeyed, hinvoked⟩, -⟩ := hstart.run (finalityProtocol_compatible rt) hrun
  refine ⟨fun i hi hirreversible => (hinvoked i hi hirreversible).1, ?_⟩
  intro id order horder hopen i hi hid
  by_contra hirreversible
  obtain ⟨stored, hstored, hterminal⟩ := (hinvoked i hi (by simpa using hirreversible)).2
  obtain rfl : order = stored := by
    rw [hid] at hstored
    exact Option.some.inj (horder.symm.trans hstored)
  exact Bool.false_ne_true (hopen.symm.trans hterminal)

-- ---------------------------------------------------------------------------
-- A suspension and an incomplete payment
-- ---------------------------------------------------------------------------

namespace Sample

def paymentFailed : OrderEvent := event "evt_2" 2 .invoicePaymentFailed none

def incomplete : OrderEvent :=
  event "evt_3" 3 (.subscriptionUpdated ⟨.pending, by decide⟩) none

def deleted : OrderEvent := event "evt_4" 4 .subscriptionDeleted none

def worker : Worker where
  mode := .shared
  region := "eu-west-1"
  codec := ⟨fun _ => none, fun _ => none, fun _ _ => nofun⟩
  describePublication := none
  subscriptionId := "sub_1"
  now := 0
  executionOwnerId := "worker_1"
  executionLeaseDurationMs := 60000

/-- Four events, and two runs of the job. -/
inductive Delivery
  | paid
  | failed
  | incomplete
  | deleted
  | run (second : Bool)
  deriving DecidableEq

def handled (event : OrderEvent) : Task := .event (.accepted event) DEFAULT_RETRY_POLICY

def Delivery.task : Delivery → Task
  | .paid => handled starterPaid
  | .failed => handled paymentFailed
  | .incomplete => handled Sample.incomplete
  | .deleted => handled Sample.deleted
  | .run _ => .job worker

def UNAVAILABLE : SafeProvisioningError := ⟨.PROVIDER_UNAVAILABLE, true⟩

/-- A provider that has no tenant and makes none. -/
def withoutTenant : (call : ProviderCall) → call.Answer
  | .provision .. | .resume .. => (.error UNAVAILABLE : Answer ProvisioningResult)
  | .reissueCredential .. => (.error UNAVAILABLE : Answer (ProviderResources × OneTimeCredential))
  | .markReady .. | .suspend .. | .compensate .. => (.error UNAVAILABLE : Answer ProviderResources)
  | .compensateUnknown _ | .suspendUnknown _ =>
    (.ok ⟨.shared, "f7f2bc60-c348-5809-a390-046827a6f3dd", .absent⟩ : Answer UnknownResult)

def answerLogged : (call : DeploymentCall) → System (List Invocation) →
    call.Answer × List Invocation
  | .provider call, s => (withoutTenant call, s.outside ++ [invocation call s.store])
  | .compensating _, s => ((), s.outside)
  | .createImmutable _, s => (.error UNAVAILABLE, s.outside)
  | .verifyPublication _, s => (.error UNAVAILABLE, s.outside)

theorem answerLogged_exec (call : DeploymentCall) (s : System (List Invocation)) :
    logged call s.store s.outside (answerLogged call s).1 (answerLogged call s).2 := by
  cases call <;> rfl

def delivered : System (List Invocation) ×
    (Delivery → Prog (Op deployment) Op.Res (Except Thrown TaskResult)) :=
  (⟨.initial, [], []⟩, fun i => i.task.run runtime)

/-- The first worker starts the job and loses its lease. -/
def interrupted : Turns Delivery :=
  calls .paid 4 ++ calls (.run false) 8 ++ [(.run false, some RETRYABLE_CONFLICT)] ++
    calls (.run false) 3

/-- The job is suspended, and compensated when the order is pending. -/
def afterIncomplete : System (List Invocation) ×
    (Delivery → Prog (Op deployment) Op.Res (Except Thrown TaskResult)) :=
  Schedule.run (Op.answer runtime answerLogged 0)
    (interrupted ++ calls .failed 5 ++ calls .incomplete 5 ++ calls (.run true) 40) delivered

/-- The job is compensated when the order is canceled. -/
def untilDeleted : Turns Delivery := interrupted ++ calls .deleted 5 ++ calls (.run true) 40

def afterDeleted : System (List Invocation) ×
    (Delivery → Prog (Op deployment) Op.Res (Except Thrown TaskResult)) :=
  Schedule.run (Op.answer runtime answerLogged 0) untilDeleted delivered

theorem afterDeleted_run :
    Run (Guarded (Op.exec runtime logged) CompensatesDue) delivered afterDeleted :=
  Schedule.run_guarded (Op.answer_exec runtime answerLogged_exec 0) (by decide +kernel)

theorem afterIncomplete_run : Run (Op.exec runtime logged) delivered afterIncomplete :=
  Schedule.run_sound (Op.answer_exec runtime answerLogged_exec 0) _ _

end Sample

open Sample in
theorem irreversible_calls_final_sample :
    afterDeleted.1.outside.map (fun i => (i.call.irreversible, i.billingState)) =
        [(true, some .canceled)] ∧
      ∀ i ∈ afterDeleted.1.outside, i.call.irreversible = true →
        i.billingState.any (·.terminal) = true :=
  ⟨by decide +kernel, (irreversible_calls_final afterDeleted_run).1⟩

open Sample in
/-- The job of a suspension is compensated for a pending order: the tenant is
disabled for good, and the suspension is done. -/
theorem pending_compensated : Run (Op.exec runtime logged) delivered afterIncomplete ∧
    afterIncomplete.1.outside.map (fun i => (i.call.irreversible, i.billingState)) =
        [(true, some .pending)] ∧
      (afterIncomplete.1.store.getJob "sub_1").map (fun job => (job.operation, job.state)) =
        some (.suspension, .disabled) :=
  ⟨afterIncomplete_run, by decide +kernel⟩

end EsigSuite.Provisioning
