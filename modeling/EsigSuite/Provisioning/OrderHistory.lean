import EsigSuite.Provisioning.OrchestratorCalls
import EsigSuite.Provisioning.SampleRuntime
import Mathlib.Data.List.Induction

/-!
# The history of an order

Handlers of the events of one subscription, interleaved in any way. The stored
order is what its events give when they are reduced in the order in which they
were stored, and its version counts them: a compare-and-swap that goes through
was computed from the whole history.
-/

namespace EsigSuite.Provisioning

open Lib
open Lib.Protocol (Triple)

-- ---------------------------------------------------------------------------
-- The order of a history
-- ---------------------------------------------------------------------------

section
variable (c : Collation)

/-- The order that is stored for an event. -/
def storedNext (current : Option OrderRecord) (event : OrderEvent) : Option OrderRecord :=
  match current with
  | none => some (createOrder event)
  | some current => some { nextOrder c current event with version := current.version + 1 }

def storedOrder (history : List OrderEvent) : Option OrderRecord :=
  history.foldl (storedNext c) none

theorem storedOrder_append (history : List OrderEvent) (event : OrderEvent) :
    storedOrder c (history ++ [event]) = storedNext c (storedOrder c history) event := by
  simp [storedOrder, List.foldl_append]

/-- The version counts the events after the first. -/
theorem storedOrder_version (history : List OrderEvent) :
    ((storedOrder c history).elim 0 fun o => o.version + 1) = history.length := by
  induction history using List.reverseRecOn with
  | nil => rfl
  | append_singleton history event ih =>
    rw [storedOrder_append, List.length_append, List.length_singleton, ← ih]
    cases storedOrder c history <;> rfl

theorem storedOrder_none (h : storedOrder c history = none) : history = [] := by
  have hlength := storedOrder_version c history
  rw [h] at hlength
  exact List.eq_nil_of_length_eq_zero hlength.symm

theorem storedOrder_some (h : storedOrder c history = some o) : o.version + 1 = history.length := by
  have hlength := storedOrder_version c history
  rwa [h] at hlength

/-- The stored order, its version apart, is the reduction of its history. -/
theorem reduceAll_history (h : OneSubscription s (history.map .accepted)) :
    reduceAll c (history.map .accepted) =
      .ok ((storedOrder c history).map fun o => { o with version := 0 }) := by
  have haccepted : acceptedEvents (history.map .accepted) = history := by
    simp [acceptedEvents, List.filterMap_map]
  rw [reduceAll_eq c h, haccepted]
  congr 1
  clear h haccepted
  induction history using List.reverseRecOn with
  | nil => rfl
  | append_singleton history event ih =>
    rw [storedOrder_append, List.foldl_append, List.foldl_cons, List.foldl_nil, ih]
    cases storedOrder c history <;> rfl

end

-- ---------------------------------------------------------------------------
-- The protocol
-- ---------------------------------------------------------------------------

section
variable {ι X : Type} {E : Outside} (rt : Runtime) (outside : E.Exec X) (subscriptionId : String)
  (events : ι → OrderEvent)

/-- The history is one of events that were handled, and the stored order is its
reduction. -/
structure Historic (s : System X) : Prop where
  handled : ∀ e ∈ s.reduced, ∃ i, events i = e
  valid : ∀ e ∈ s.reduced, NormalizedStripeEvent.valid (.accepted e) = true
  stored : s.store.orders subscriptionId = storedOrder rt.collation s.reduced

def historyProtocol : Protocol (Op E) Op.Res (System X) where
  exec := Op.exec rt outside
  inv := Historic rt subscriptionId events
  rely s s' := s.reduced <+: s'.reduced
  guar s s' := s.reduced <+: s'.reduced

theorem historyProtocol_compatible {κ : Type} : Protocol.Compatible (Op.exec rt outside)
    (Historic rt subscriptionId events)
    fun _ : κ => historyProtocol rt outside subscriptionId events where
  exec_eq _ := rfl
  inv_eq _ := rfl
  guar_rely _ _ _ _ _ _ _ h := h

variable {rt outside subscriptionId events} {s s' : System X}

/-- What was read is the order of an earlier history. -/
def ReadOrder (rt : Runtime) (current : Option OrderRecord) (s : System X) : Prop :=
  ∃ history, history <+: s.reduced ∧ storedOrder rt.collation history = current

def Reduced (event : OrderEvent) (s : System X) : Prop := event ∈ s.reduced

theorem kept_of_prefix {P : System X → Prop}
    (h : ∀ s s' : System X, s.reduced <+: s'.reduced → P s → P s') :
    (historyProtocol rt outside subscriptionId events).Kept P :=
  ⟨fun s s' _ _ => h s s', fun s s' _ _ => h s s'⟩

theorem readOrder_kept (current : Option OrderRecord) :
    (historyProtocol rt outside subscriptionId events).Kept (ReadOrder rt current) := by
  refine kept_of_prefix fun s s' hgrows h => ?_
  obtain ⟨history, hleading, hcurrent⟩ := h
  exact ⟨history, hleading.trans hgrows, hcurrent⟩

theorem reduced_kept (event : OrderEvent) :
    (historyProtocol rt outside subscriptionId events).Kept (Reduced event) :=
  kept_of_prefix fun _ _ hgrows h => hgrows.mem h

/-- A call that stores no order. -/
theorem historic_frame {op : Op E} {r : op.Res} (h : Historic rt subscriptionId events s)
    (hop : op.writes ≠ some .orders) (hexec : op.exec rt outside s r s') :
    Historic rt subscriptionId events s' ∧ s'.reduced = s.reduced := by
  have horders := (exec_agree hexec).orders hop
  have hreduced := exec_reduced hexec hop
  refine ⟨⟨?_, ?_, ?_⟩, hreduced⟩
  · rw [hreduced]; exact h.handled
  · rw [hreduced]; exact h.valid
  · rw [hreduced, horders]; exact h.stored

theorem other_calls {P : System X → Prop} {x : M E α}
    (hx : Calls.All (fun op => op.writes ≠ some .orders) x)
    (hP : (historyProtocol rt outside subscriptionId events).Kept P) :
    (historyProtocol rt outside subscriptionId events).Triple x P (fun _ => P) (fun _ => P) := by
  refine .of_calls hx hP.1 fun op hop s r s' hinv hPs hexec => ?_
  obtain ⟨hinv', hreduced⟩ := historic_frame hinv hop hexec
  have hgrows : s.reduced <+: s'.reduced := hreduced ▸ List.prefix_rfl
  exact ⟨hinv', hgrows, hP.2 s s' hinv hinv' hgrows hPs⟩

-- ---------------------------------------------------------------------------
-- The compare-and-swap
-- ---------------------------------------------------------------------------

/-- What the reducer makes of the order that was read. -/
theorem reduceBillingEvent_ok {current : Option OrderRecord}
    (h : reduceBillingEvent c current (.accepted event) = .ok reduction) :
    NormalizedStripeEvent.valid (.accepted event) = true ∧
      (∀ o, current = some o → o.subscriptionId = event.subscriptionId) ∧
        reduction.order = acceptEvent c current event := by
  unfold reduceBillingEvent at h
  split at h
  · cases h
  · rename_i hvalid
    cases current with
    | none =>
      cases h
      exact ⟨by simpa using hvalid, fun o ho => absurd ho.symm (Option.some_ne_none o), rfl⟩
    | some o =>
      dsimp only at h
      split at h
      · cases h
      · rename_i hsame
        cases h
        refine ⟨by simpa using hvalid, ?_, rfl⟩
        rintro o' ⟨⟩
        exact not_not.mp hsame

/-- The write goes through on the history it was computed from. -/
theorem putOrder_history {current : Option OrderRecord} {order : OrderRecord} {i : ι}
    (hsame : ∀ i, (events i).subscriptionId = subscriptionId)
    (h : Historic rt subscriptionId events s) (hread : ReadOrder rt current s)
    (hvalid : NormalizedStripeEvent.valid (.accepted (events i)) = true)
    (hcurrent : ∀ o, current = some o → o.subscriptionId = (events i).subscriptionId)
    (horder : acceptEvent rt.collation current (events i) = some order)
    (hput : s.store.putOrder order (current.map (·.version)) = (.ok stored, store)) :
    Historic rt subscriptionId events
      { s with store, reduced := s.reduced ++ [events i] } := by
  obtain ⟨history, hleading, hhistory⟩ := hread
  have hid : order.subscriptionId = subscriptionId :=
    (acceptEvent_subscriptionId rt.collation rfl hcurrent order horder).trans (hsame i)
  have hnext : history = s.reduced ∧ store = s.store.setOrder stored ∧
      stored.subscriptionId = subscriptionId ∧ some stored = storedNext rt.collation current (events i) := by
    rcases s.store.putOrder_cases order (current.map (·.version)) with
      ⟨e, he⟩ | ⟨hnone, hexpected, -, he⟩ | ⟨existing, hexisting, hexpected, hreplaces, he⟩ <;>
      rw [he] at hput <;> cases hput
    · rw [hid, h.stored] at hnone
      have hempty := storedOrder_none rt.collation hnone
      have hcurrent : current = none := Option.map_eq_none_iff.mp hexpected
      subst hcurrent
      cases horder
      refine ⟨?_, rfl, hid, rfl⟩
      rw [storedOrder_none rt.collation hhistory, hempty]
    · obtain ⟨o, ho, hversion⟩ := Option.map_eq_some_iff.mp hexpected
      subst ho
      rw [hid, h.stored] at hexisting
      have hlength : history.length = s.reduced.length := by
        rw [← storedOrder_some rt.collation hhistory, ← storedOrder_some rt.collation hexisting,
          hversion]
      have hall := hleading.eq_of_length hlength
      rw [hall, hexisting] at hhistory
      cases hhistory
      cases horder
      exact ⟨hall, rfl, hid, rfl⟩
  obtain ⟨rfl, rfl, hstoredId, hnext⟩ := hnext
  refine ⟨?_, ?_, ?_⟩
  · intro e he
    rcases List.mem_append.mp he with he | he
    · exact h.handled e he
    · exact ⟨i, (List.mem_singleton.mp he).symm⟩
  · intro e he
    rcases List.mem_append.mp he with he | he
    · exact h.valid e he
    · rw [List.mem_singleton.mp he]
      exact hvalid
  · change Function.update s.store.orders stored.subscriptionId (some stored) subscriptionId = _
    rw [hstoredId, Function.update_self, hnext, storedOrder_append, hhistory]

-- ---------------------------------------------------------------------------
-- A handler
-- ---------------------------------------------------------------------------

theorem getOrder_history (hid : id' = subscriptionId) :
    (historyProtocol rt outside subscriptionId events).Triple (Store.getOrder id' : M E _)
      (fun _ => True) (fun current => ReadOrder rt current) (fun _ _ => True) := by
  subst hid
  refine ask_triple (.perform (fun s r s' hinv _ hexec => ?_) fun r => ?_)
  · obtain rfl := read_eq hexec
    refine ⟨hinv, List.prefix_rfl, ?_⟩
    rcases hexec with ⟨rfl, -⟩ | ⟨⟨e, rfl⟩, -⟩
    · exact ⟨s'.reduced, List.prefix_rfl, hinv.stored.symm⟩
    · trivial
  · match r with
    | .ok current => exact (readOrder_kept current).1
    | .error _ => exact Protocol.stable_const _

theorem putOrder_triple {i : ι} {current : Option OrderRecord} {order : OrderRecord}
    (hsame : ∀ i, (events i).subscriptionId = subscriptionId)
    (hvalid : NormalizedStripeEvent.valid (.accepted (events i)) = true)
    (hcurrent : ∀ o, current = some o → o.subscriptionId = (events i).subscriptionId)
    (horder : acceptEvent rt.collation current (events i) = some order) :
    (historyProtocol rt outside subscriptionId events).Triple
      (Store.putOrder (events i) order (current.map (·.version)) : M E _) (ReadOrder rt current)
      (fun _ => Reduced (events i)) (fun _ _ => True) := by
  refine ask_triple (.perform (fun s r s' hinv hread hexec => ?_) fun r => ?_)
  · cases hput : s.store.putOrder order (current.map (·.version)) with
    | mk result store =>
      cases result with
      | error e =>
        have heffect : s.putOrder (events i) order (current.map (·.version)) =
            (.error e, { s with store }) := by simp only [System.putOrder, hput]
        have hstore : store = s.store := by
          rcases s.store.putOrder_cases order (current.map (·.version)) with
            ⟨e, he⟩ | ⟨-, -, -, he⟩ | ⟨existing, -, -, -, he⟩ <;> rw [he] at hput <;> cases hput
          rfl
        subst hstore
        have hs : s' = s := by
          rcases System.Answered.cases hexec with h | h
          · exact h
          · rw [h, heffect]
        subst hs
        refine ⟨hinv, List.prefix_rfl, ?_⟩
        rcases hexec with ⟨rfl, -⟩ | ⟨⟨e, rfl⟩, -⟩
        · rw [heffect]; trivial
        · trivial
      | ok stored =>
        have heffect : s.putOrder (events i) order (current.map (·.version)) =
            (.ok stored, { s with store, reduced := s.reduced ++ [events i] }) := by
          simp only [System.putOrder, hput]
        have hnext := putOrder_history hsame hinv hread hvalid hcurrent horder hput
        rcases hexec with ⟨rfl, rfl⟩ | ⟨⟨e, rfl⟩, rfl | rfl⟩
        · rw [heffect]
          exact ⟨hnext, List.prefix_append _ _, by simp [Reduced]⟩
        · exact ⟨hinv, List.prefix_rfl, trivial⟩
        · rw [heffect]
          exact ⟨hnext, List.prefix_append _ _, trivial⟩
  · cases r with
    | ok _ => exact (reduced_kept _).1
    | error _ => exact Protocol.stable_const _

/-- Each attempt reduces the order that was read last. -/
theorem reduceAttempts_triple {i : ι} (hsame : ∀ i, (events i).subscriptionId = subscriptionId)
    (attempts : Nat) (current : Option OrderRecord) :
    (historyProtocol rt outside subscriptionId events).Triple
      (reduceAttempts rt (events i) attempts current : M E _) (ReadOrder rt current)
      (fun _ => Reduced (events i)) (fun _ _ => True) := by
  induction attempts generalizing current with
  | zero => exact fail_triple fun _ _ _ => trivial
  | succ attempts ih =>
    refine Triple.bind (orThrow_triple (Q := fun reduction s =>
      reduceBillingEvent rt.collation current (.accepted (events i)) = .ok reduction ∧
        ReadOrder rt current s) fun s _ h => ?_) fun reduction => ?_
    · cases reduceBillingEvent rt.collation current (.accepted (events i)) with
      | error e => trivial
      | ok reduction => exact ⟨rfl, h⟩
    refine .given fun hreduction => ?_
    obtain ⟨hvalid, hcurrent, horder⟩ := reduceBillingEvent_ok hreduction
    cases hnext : acceptEvent rt.collation current (events i) with
    | none => cases current <;> cases hnext
    | some order =>
      rw [horder, hnext]
      refine Triple.bind (attempt_triple (putOrder_triple hsame hvalid hcurrent hnext)) fun r => ?_
      match r with
      | .ok stored => exact .pure fun _ _ h => h
      | .error e =>
        dsimp only
        split
        · exact .throw fun _ _ _ => trivial
        split
        · exact fail_triple fun _ _ _ => trivial
        · refine (getOrder_history ?_).bind ih
          exact (acceptEvent_subscriptionId rt.collation rfl hcurrent order hnext).trans (hsame i)

theorem processOrderEvent_triple {i : ι}
    (hsame : ∀ i, (events i).subscriptionId = subscriptionId) (retryPolicy : RetryPolicy) :
    (historyProtocol rt outside subscriptionId events).Triple
      (processOrderEvent rt (events i) retryPolicy : M E _) (fun _ => True)
      (fun _ => Reduced (events i)) (fun _ _ => True) := by
  have hreduce : (historyProtocol rt outside subscriptionId events).Triple
      (reduceAndStoreOrder rt (events i) : M E _) (fun _ => True) (fun _ => Reduced (events i))
      (fun _ _ => True) :=
    (getOrder_history (hsame i)).bind fun current => reduceAttempts_triple hsame _ current
  refine hreduce.bind fun order => ?_
  match order with
  | none => exact .pure fun _ _ h => h
  | some order =>
    have hjobs : Admits [.jobs] fun op : Op E => op.writes ≠ some .orders := by
      intro op _ hwrites horders
      rw [horders] at hwrites
      cases hwrites
    refine Triple.mono (other_calls (reconcileJob_calls hjobs _ _ _) (reduced_kept (events i)))
      (fun _ _ h => h) (fun _ _ _ h => h) fun _ _ _ _ => trivial

-- ---------------------------------------------------------------------------
-- Every interleaving
-- ---------------------------------------------------------------------------

/-- What the history of an order says of it. -/
structure OrderHistory (rt : Runtime) (subscriptionId : String) (events : ι → OrderEvent)
    (s : System X) : Prop where
  /-- Only events that were handled are in it. -/
  handled : ∀ e ∈ s.reduced, ∃ i, events i = e
  /-- The stored order is their reduction, and its version counts them. -/
  reduction : reduceAll rt.collation (s.reduced.map .accepted) =
    .ok ((s.store.getOrder subscriptionId).map fun o => { o with version := 0 })
  version : ∀ o, s.store.getOrder subscriptionId = some o → o.version + 1 = s.reduced.length

theorem Historic.orderHistory (hsame : ∀ i, (events i).subscriptionId = subscriptionId)
    (h : Historic rt subscriptionId events s) : OrderHistory rt subscriptionId events s := by
  have hone : OneSubscription subscriptionId (s.reduced.map .accepted) := by
    refine ⟨fun e he => ?_, fun e he => ?_⟩
    · obtain ⟨e', he', rfl⟩ := List.mem_map.mp he
      exact h.valid e' he'
    · obtain ⟨e', he', heq⟩ := List.mem_map.mp he
      cases heq
      obtain ⟨i, rfl⟩ := h.handled e he'
      exact hsame i
  refine ⟨h.handled, ?_, fun o ho => ?_⟩
  · rw [reduceAll_history rt.collation hone, InMemoryProvisioningStore.getOrder, h.stored]
  · exact storedOrder_some rt.collation (h.stored.symm.trans ho)

/-- A canceled or refunded order stays so, whatever is reduced. -/
theorem storedOrder_terminal (hleading : history <+: history')
    (h : storedOrder c history = some o) (ho : o.billingState.terminal = true) :
    ∃ o', storedOrder c history' = some o' ∧ o'.billingState.terminal = true := by
  obtain ⟨rest, rfl⟩ := hleading
  induction rest using List.reverseRecOn with
  | nil => exact ⟨o, by simpa using h, ho⟩
  | append_singleton rest event ih =>
    obtain ⟨current, hcurrent, hterminal⟩ := ih
    rw [← List.append_assoc, storedOrder_append, hcurrent]
    refine ⟨_, rfl, ?_⟩
    change (reduceState c current event).1.terminal = true
    unfold reduceState
    simp only [BillingState.terminal, Bool.or_eq_true, beq_iff_eq] at hterminal
    rcases hterminal with hc | hr
    · simp only [hc]
      split
      · simp_all
      split <;> simp [BillingState.terminal]
    · simp [hr, BillingState.terminal]

/-- However the handlers of one subscription's events are interleaved, the
stored order is the reduction of the events handled so far, with every event
whose handler has returned among them, and a terminal billing state is final. -/
theorem orders_linearized [DecidableEq ι] (hsame : ∀ i, (events i).subscriptionId = subscriptionId)
    {retryPolicy : ι → RetryPolicy} {x : X}
    {c : System X × (ι → Prog (Op E) Op.Res (Except Thrown EventProcessingResult))}
    (hrun : Run (Op.exec rt outside)
      (⟨.initial, [], x⟩, fun i => processClaimedStripeEvent rt (.accepted (events i)) (retryPolicy i))
      c) :
    OrderHistory rt subscriptionId events c.1 ∧
      (∀ i result, c.2 i = .pure (.ok result) → events i ∈ c.1.reduced) ∧
        ∀ c', Run (Op.exec rt outside) c c' → ∀ o, c.1.store.getOrder subscriptionId = some o →
          isTerminalBilling o = true → ∃ o', c'.1.store.getOrder subscriptionId = some o' ∧
            isTerminalBilling o' = true := by
  have hcompatible := historyProtocol_compatible (κ := ι) rt outside subscriptionId events
  have hstart : Protocol.Ready (Historic rt subscriptionId events)
      (fun _ : ι => historyProtocol rt outside subscriptionId events)
      (fun i result s => match result with
        | .ok _ => Reduced (events i) s
        | .error _ => True)
      (⟨.initial, [], x⟩,
        fun i => processClaimedStripeEvent rt (.accepted (events i)) (retryPolicy i)) := by
    have hnone : ∀ e : OrderEvent, e ∉ ([] : List OrderEvent) := fun _ => List.not_mem_nil
    refine ⟨⟨fun e he => (hnone e he).elim, fun e he => (hnone e he).elim, rfl⟩, fun i => ⟨fun _ => True, Protocol.stable_const _, trivial, ?_⟩⟩
    exact Protocol.Holds.post (processOrderEvent_triple hsame (retryPolicy i)) fun
      | .ok _, _, _, h => h
      | .error _, _, _, h => h
  have hready := hstart.run hcompatible hrun
  refine ⟨hready.1.orderHistory hsame, ?_, ?_⟩
  · intro i result hi
    exact hready.finished hcompatible hi
  · intro c' hrun' o ho hterminal
    have hready' := hready.run hcompatible hrun'
    have hgrows : c.1.reduced <+: c'.1.reduced := by
      clear hready' ho
      induction hrun' with
      | refl => exact List.prefix_rfl
      | tail hsteps hstep ih =>
        obtain ⟨i, op, k, r, s', hi, hexec, rfl⟩ := hstep
        exact ih.trans ((hready.run hcompatible hsteps).guar hcompatible hi hexec)
    have hstored := hready.1.stored
    have hstored' := hready'.1.stored
    obtain ⟨o', ho', hterminal'⟩ :=
      storedOrder_terminal hgrows (hstored.symm.trans ho) hterminal
    exact ⟨o', hstored'.trans ho', hterminal'⟩

end

-- ---------------------------------------------------------------------------
-- Two handlers
-- ---------------------------------------------------------------------------

namespace Sample

def paid (first : Bool) : OrderEvent := if first then starterPaid else teamPaid

def bothPaid : System Unit ×
    (Bool → Prog (Op storeOnly) Op.Res (Except Thrown EventProcessingResult)) :=
  (⟨.initial, [], ()⟩,
    fun i => processClaimedStripeEvent runtime (.accepted (paid i)) DEFAULT_RETRY_POLICY)

/-- Both read before either writes. -/
def bothRead : Turns Bool := calls true 1 ++ calls false 1 ++ calls true 6 ++ calls false 6

def afterBoth : System Unit ×
    (Bool → Prog (Op storeOnly) Op.Res (Except Thrown EventProcessingResult)) :=
  Schedule.run (Op.answer runtime noAnswer 0) bothRead bothPaid

theorem afterBoth_run : Run (Op.exec runtime noExec) bothPaid afterBoth :=
  Schedule.run_sound (Op.answer_exec runtime noAnswer_exec 0) _ _

end Sample

open Sample in
theorem orders_linearized_sample :
    afterBoth.1.reduced.map (·.eventId) = ["evt_1", "evt_2"] ∧
      OrderHistory runtime "sub_1" paid afterBoth.1 :=
  ⟨by decide +kernel, (orders_linearized (by decide) afterBoth_run).1⟩

end EsigSuite.Provisioning
