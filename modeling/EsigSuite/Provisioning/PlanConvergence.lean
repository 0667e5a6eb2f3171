import EsigSuite.Provisioning.Convergence

/-!
# When the provisioning inputs converge

Customer, owner and mode keep the first value any event offered. The plan does
too once the order is terminal or nothing later than its latest event can come;
before that the latest event replaces it. Hence the plan converges exactly when
there is only one to choose from, or when nothing is terminal and the latest
event names it.
-/

namespace EsigSuite.Provisioning

open Lib

variable (c : Collation)

-- ---------------------------------------------------------------------------
-- Metadata that is immutable once known
-- ---------------------------------------------------------------------------

def provisioningInputs (current : Option OrderRecord) : Option NormalizedOrderMetadata :=
  current.map (·.toNormalizedOrderMetadata)

theorem customerId_keeps :
    Keeps (acceptEvent c) (fun s => s.bind (·.customerId)) (·.customerId) := by
  intro s e
  cases s <;> rfl

theorem ownerSubject_keeps :
    Keeps (acceptEvent c) (fun s => s.bind (·.ownerSubject)) (·.ownerSubject) := by
  intro s e
  cases s <;> rfl

theorem mode_keeps : Keeps (acceptEvent c) (fun s => s.bind (·.mode)) (·.mode) := by
  intro s e
  cases s <;> rfl

/-- No two events carry different values of a field. -/
def Agreeing (field : OrderEvent → Option β) (events : List OrderEvent) : Prop :=
  ∀ e ∈ events, ∀ e' ∈ events, ∀ v v', field e = some v → field e' = some v' → v = v'

theorem Keeps.converges {xs ys : List OrderEvent} {view : Option OrderRecord → Option β}
    (h : Keeps (acceptEvent c) view field) (hagree : Agreeing field xs)
    (hsame : ∀ e, e ∈ xs ↔ e ∈ ys) :
    view (xs.foldl (acceptEvent c) none) = view (ys.foldl (acceptEvent c) none) := by
  rw [h.foldl, h.foldl, findSome?_congr hagree hsame]

-- ---------------------------------------------------------------------------
-- The latest event
-- ---------------------------------------------------------------------------

abbrev LatestKey := ℤ ×ₗ c.Text

def eventKey (event : OrderEvent) : LatestKey c := toLex (event.createdAt, c.text event.eventId)

def latestKey (o : OrderRecord) : LatestKey c :=
  toLex (o.latestEventCreatedAt, c.text o.latestEventId)

theorem isLatest_iff : isLatestAcceptedEvent c o e = true ↔ latestKey c o < eventKey c e := by
  simp only [isLatestAcceptedEvent, latestKey, eventKey, Prod.Lex.toLex_lt_toLex, c.text_lt,
    gt_iff_lt, Bool.or_eq_true, decide_eq_true_eq, Bool.and_eq_true, beq_iff_eq]
  constructor
  · rintro (h | ⟨h, h'⟩)
    · exact .inl h
    · exact .inr ⟨h.symm, h'⟩
  · rintro (h | ⟨h, h'⟩)
    · exact .inl h
    · exact .inr ⟨h.symm, h'⟩

theorem nextOrder_latestKey : latestKey c (nextOrder c o e) = max (latestKey c o) (eventKey c e) := by
  by_cases h : isLatestAcceptedEvent c o e = true
  · rw [max_eq_right ((isLatest_iff c).mp h).le]
    simp only [latestKey, nextOrder, h, ↓reduceIte, eventKey]
  · rw [max_eq_left (not_lt.mp (mt (isLatest_iff c).mpr h))]
    simp only [latestKey, nextOrder, h, Bool.false_eq_true, ↓reduceIte]

def latestOf : Option OrderRecord → WithBot (LatestKey c)
  | none => ⊥
  | some o => (latestKey c o : WithBot (LatestKey c))

theorem latestOf_joins :
    Joins (acceptEvent c) (latestOf c) (fun e => (eventKey c e : WithBot (LatestKey c))) := by
  intro s e
  cases s with
  | none => exact (sup_eq_right.mpr bot_le).symm
  | some o => exact congrArg WithBot.some (nextOrder_latestKey c)

-- ---------------------------------------------------------------------------
-- The plan
-- ---------------------------------------------------------------------------

def planOf (current : Option OrderRecord) : Option PlanId := current.bind (·.plan)

theorem nextOrder_plan : (nextOrder c o e).plan =
    if isLatestAcceptedEvent c o e ∧ o.billingState.terminal = false ∧
        (desiredBillingState e).terminal = false ∧ e.plan.isSome then e.plan
    else o.plan.or e.plan := by
  simp only [nextOrder, mergeMetadata, Bool.and_eq_true, Bool.not_eq_true', and_assoc]

/-- Terminal states are left by no event. -/
theorem nextOrder_terminal {o : OrderRecord} (h : o.billingState.terminal = true) :
    (nextOrder c o e).billingState.terminal = true := by
  simp only [BillingState.terminal, Bool.or_eq_true, beq_iff_eq] at h ⊢
  rw [nextOrder_billingState, reduceState]
  rcases h with h | h
  · by_cases he : desiredBillingState e = .refunded
    · simp [h, he]
    · simp [h, he]
  · simp [h]

theorem nextOrder_terminal_of_event (h : (desiredBillingState e).terminal = true) :
    (nextOrder c o e).billingState.terminal = true := by
  by_cases ho : o.billingState.terminal = true
  · exact nextOrder_terminal c ho
  · simp only [BillingState.terminal, Bool.or_eq_true, beq_iff_eq, not_or] at h ho ⊢
    rw [nextOrder_billingState, reduceState]
    rcases h with h | h <;> simp [h, ho]

/-- No event of `events` may replace the plan of this order. -/
def Frozen (o : OrderRecord) (events : List OrderEvent) : Prop :=
  o.billingState.terminal = true ∨ ∀ e ∈ events, eventKey c e ≤ latestKey c o

theorem Frozen.plan (h : Frozen c o events) (he : e ∈ events) :
    (nextOrder c o e).plan = o.plan.or e.plan := by
  rw [nextOrder_plan, if_neg]
  rintro ⟨hlt, hterminal, -⟩
  rcases h with h | h
  · rw [h] at hterminal; cases hterminal
  · exact absurd ((isLatest_iff c).mp hlt) (not_lt.mpr (h e he))

theorem Frozen.next (h : Frozen c o events) : Frozen c (nextOrder c o e) events := by
  rcases h with h | h
  · exact .inl (nextOrder_terminal c h)
  · right
    intro e' he'
    rw [nextOrder_latestKey]
    exact (h e' he').trans (le_max_left _ _)

/-- A frozen plan is the first one offered. -/
theorem Frozen.foldl {rest : List OrderEvent} (h : Frozen c o events)
    (hsub : ∀ e ∈ rest, e ∈ events) :
    planOf (rest.foldl (acceptEvent c) (some o)) = o.plan.or (rest.findSome? (·.plan)) := by
  induction rest generalizing o with
  | nil => simp [planOf]
  | cons e rest ih =>
    have hplan := h.plan c (hsub e List.mem_cons_self)
    rw [List.foldl_cons]
    change planOf (rest.foldl (acceptEvent c) (some (nextOrder c o e))) = _
    rw [ih (h.next c) fun e' he' => hsub e' (List.mem_cons_of_mem _ he'), hplan, Option.or_assoc,
      List.findSome?_cons]
    cases e.plan <;> rfl

/-- Where all plans offered agree, replacing is the same as keeping. -/
theorem foldl_plan_agreeing {xs : List OrderEvent} (h : Agreeing (·.plan) xs)
    (hcurrent : ∀ e ∈ xs, ∀ p q, planOf current = some p → e.plan = some q → p = q) :
    planOf (xs.foldl (acceptEvent c) current) = (planOf current).or (xs.findSome? (·.plan)) := by
  induction xs generalizing current with
  | nil => simp
  | cons e rest ih =>
    have hstep : planOf (acceptEvent c current e) = (planOf current).or e.plan := by
      cases current with
      | none => rfl
      | some o =>
        change (nextOrder c o e).plan = o.plan.or e.plan
        rw [nextOrder_plan]
        split
        next hreplace =>
          obtain ⟨q, hq⟩ := Option.isSome_iff_exists.mp hreplace.2.2.2
          cases hp : o.plan with
          | none => rfl
          | some p => rw [hq, hcurrent e List.mem_cons_self p q hp hq]; rfl
        · rfl
    rw [List.foldl_cons, ih, hstep, Option.or_assoc, List.findSome?_cons]
    · cases e.plan <;> rfl
    · exact fun e he e' he' => h e (List.mem_cons_of_mem _ he) e' (List.mem_cons_of_mem _ he')
    · intro e' he' p q hp hq
      rw [hstep] at hp
      rcases Option.or_eq_some_iff.mp hp with hp | ⟨-, hp⟩
      · exact hcurrent e' (List.mem_cons_of_mem _ he') p q hp hq
      · exact h e List.mem_cons_self e' (List.mem_cons_of_mem _ he') p q hp hq

/-- The plan of an order whose latest event has the key `top` is the one those
events name. -/
def NamedAt (top : LatestKey c) (p : PlanId) (o : OrderRecord) : Prop :=
  o.billingState.terminal = false ∧ (latestKey c o = top → o.plan = some p)

theorem NamedAt.next (h : NamedAt c top p o) (hdesired : (desiredBillingState e).terminal = false)
    (hle : eventKey c e ≤ top) (hplan : eventKey c e = top → e.plan = some p) :
    NamedAt c top p (nextOrder c o e) := by
  obtain ⟨hopen, hnamed⟩ := h
  constructor
  · rcases reduceState_cases c o e with ⟨hstate, -⟩ | ⟨hstate, -⟩
    · rw [nextOrder_billingState, hstate]; exact hopen
    · rw [nextOrder_billingState, hstate]; exact hdesired
  · intro htop
    rw [nextOrder_latestKey] at htop
    by_cases ho : latestKey c o = top
    · have hlatest : ¬ isLatestAcceptedEvent c o e = true :=
        mt (isLatest_iff c).mp (not_lt.mpr (ho ▸ hle))
      rw [nextOrder_plan, if_neg fun h => hlatest h.1, hnamed ho]
      rfl
    · have he : eventKey c e = top := by
        rcases max_choice (latestKey c o) (eventKey c e) with hmax | hmax
        · exact absurd (hmax.symm.trans htop) ho
        · exact hmax.symm.trans htop
      have hle' : latestKey c o ≤ top := htop ▸ le_max_left _ _
      have hlatest := (isLatest_iff c).mpr (lt_of_le_of_ne (he ▸ hle') (he ▸ ho))
      have hp := hplan he
      rw [nextOrder_plan, if_pos ⟨hlatest, hopen, hdesired, by rw [hp]; rfl⟩, hp]

theorem NamedAt.foldl {xs : List OrderEvent} (hcurrent : ∀ o, current = some o → NamedAt c top p o)
    (hdesired : ∀ e ∈ xs, (desiredBillingState e).terminal = false)
    (hle : ∀ e ∈ xs, eventKey c e ≤ top)
    (hplan : ∀ e ∈ xs, eventKey c e = top → e.plan = some p) :
    ∀ o, xs.foldl (acceptEvent c) current = some o → NamedAt c top p o := by
  induction xs generalizing current with
  | nil => exact hcurrent
  | cons e rest ih =>
    refine ih ?_ (fun e' he' => hdesired e' (List.mem_cons_of_mem _ he'))
      (fun e' he' => hle e' (List.mem_cons_of_mem _ he'))
      (fun e' he' => hplan e' (List.mem_cons_of_mem _ he'))
    intro o ho
    cases current with
    | none =>
      cases ho
      exact ⟨hdesired e List.mem_cons_self, hplan e List.mem_cons_self⟩
    | some current =>
      cases ho
      exact (hcurrent current rfl).next c (hdesired e List.mem_cons_self)
        (hle e List.mem_cons_self) (hplan e List.mem_cons_self)

-- ---------------------------------------------------------------------------
-- Orders of arrival
-- ---------------------------------------------------------------------------

/-- `event` is the latest of `events`, by creation time and then by id. -/
def IsLatest (events : List OrderEvent) (event : OrderEvent) : Prop :=
  event ∈ events ∧ ∀ e ∈ events, e.createdAt < event.createdAt ∨
    e.createdAt = event.createdAt ∧ c.localeCompare e.eventId event.eventId ≤ 0

/-- There is one plan to choose from, or nothing is terminal and every latest
event names the same plan. -/
def PlanSettled (events : List OrderEvent) : Prop :=
  Agreeing (·.plan) events ∨
    (∀ e ∈ events, (desiredBillingState e).terminal = false) ∧
      ∃ p, ∀ e, IsLatest c events e → e.plan = some p

/-- Every two orders of arrival, with any repetition, end in one plan. -/
def PlanConverges (events : List OrderEvent) : Prop :=
  ∀ xs ys : List OrderEvent, (∀ e, e ∈ xs ↔ e ∈ events) → (∀ e, e ∈ ys ↔ e ∈ events) →
    planOf (xs.foldl (acceptEvent c) none) = planOf (ys.foldl (acceptEvent c) none)

theorem isLatest_iff_key :
    IsLatest c events event ↔ event ∈ events ∧ ∀ e ∈ events, eventKey c e ≤ eventKey c event := by
  simp only [IsLatest, eventKey, Prod.Lex.toLex_le_toLex]
  exact Iff.rfl

theorem exists_isLatest {events : List OrderEvent} (h : events ≠ []) :
    ∃ e, IsLatest c events e := by
  have hattained : ∃ e ∈ events, joinAll (fun e => (eventKey c e : WithBot (LatestKey c))) events =
      eventKey c e := joinAll_attained h
  obtain ⟨m, hm, hmax⟩ := hattained
  refine ⟨m, (isLatest_iff_key c).mpr ⟨hm, fun e he => ?_⟩⟩
  exact WithBot.coe_le_coe.mp (joinAll_le_iff.mp hmax.le e he)

/-- After a run the order carries the key of the latest event. -/
theorem foldl_latestKey {events xs : List OrderEvent} (hm : IsLatest c events m)
    (hxs : ∀ e, e ∈ xs ↔ e ∈ events) :
    ∃ o, xs.foldl (acceptEvent c) none = some o ∧ latestKey c o = eventKey c m := by
  obtain ⟨hmem, hmax⟩ := (isLatest_iff_key c).mp hm
  have hlatest : latestOf c (xs.foldl (acceptEvent c) none) = (eventKey c m : WithBot _) := by
    rw [(latestOf_joins c).foldl, latestOf, sup_eq_right.mpr bot_le]
    apply le_antisymm
    · exact joinAll_le_iff.mpr fun e he => WithBot.coe_le_coe.mpr (hmax e ((hxs e).mp he))
    · have hall := le_refl (joinAll (fun e => (eventKey c e : WithBot (LatestKey c))) xs)
      exact joinAll_le_iff.mp hall m ((hxs m).mpr hmem)
  cases h : xs.foldl (acceptEvent c) none with
  | none => rw [h] at hlatest; cases hlatest
  | some o => rw [h] at hlatest; exact ⟨o, rfl, WithBot.coe_injective hlatest⟩

theorem plan_of_latest {events xs : List OrderEvent}
    (hopen : ∀ e ∈ events, (desiredBillingState e).terminal = false)
    (hplan : ∀ e, IsLatest c events e → e.plan = some p) (hne : events ≠ [])
    (hxs : ∀ e, e ∈ xs ↔ e ∈ events) : planOf (xs.foldl (acceptEvent c) none) = some p := by
  obtain ⟨m, hm⟩ := exists_isLatest c hne
  obtain ⟨-, hmax⟩ := (isLatest_iff_key c).mp hm
  obtain ⟨o, ho, hkey⟩ := foldl_latestKey c hm hxs
  have hnamed : NamedAt c (eventKey c m) p o := by
    refine NamedAt.foldl c (fun _ h => by cases h) (fun e he => hopen e ((hxs e).mp he))
      (fun e he => hmax e ((hxs e).mp he)) ?_ o ho
    intro e he htop
    apply hplan e
    exact (isLatest_iff_key c).mpr ⟨(hxs e).mp he, fun e' he' => htop ▸ hmax e' he'⟩
  rw [ho]
  exact hnamed.2 hkey

theorem frozen_of_isLatest (h : IsLatest c events m) : Frozen c (createOrder m) events :=
  .inr ((isLatest_iff_key c).mp h).2

/-- An event that freezes the plan when it comes first leaves the choice to
itself and the event after it. -/
theorem plan_of_frozen_head {events : List OrderEvent} (h : Frozen c (createOrder first) events)
    (hsecond : second ∈ events) (hplan : first.plan.or second.plan = some p) :
    planOf ((first :: second :: events).foldl (acceptEvent c) none) = some p := by
  rw [List.foldl_cons]
  change planOf ((second :: events).foldl (acceptEvent c) (some (createOrder first))) = some p
  rw [h.foldl c fun e he => (List.mem_cons.mp he).elim (· ▸ hsecond) id]
  change first.plan.or _ = some p
  rw [List.findSome?_cons]
  cases hf : first.plan with
  | some q =>
    rw [hf] at hplan
    exact hplan
  | none =>
    rw [hf] at hplan
    change second.plan = some p at hplan
    rw [hplan]
    rfl

/-- A terminal event that comes second keeps the plan of the first. -/
theorem plan_of_terminal_second {events : List OrderEvent}
    (hterminal : (desiredBillingState second).terminal = true) (hplan : first.plan = some p) :
    planOf ((first :: second :: events).foldl (acceptEvent c) none) = some p := by
  have hfrozen : Frozen c (nextOrder c (createOrder first) second) events :=
    .inl (nextOrder_terminal_of_event c hterminal)
  have hsecond : (nextOrder c (createOrder first) second).plan = some p := by
    rw [nextOrder_plan, if_neg fun h => by simp [hterminal] at h]
    change first.plan.or second.plan = some p
    rw [hplan]; rfl
  rw [List.foldl_cons, List.foldl_cons]
  change planOf (events.foldl (acceptEvent c) (some (nextOrder c (createOrder first) second))) = _
  rw [hfrozen.foldl c fun _ he => he, hsecond]
  rfl

theorem mem_cons_cons_iff (h : first ∈ events) (h' : second ∈ events) (e : OrderEvent) :
    e ∈ first :: second :: events ↔ e ∈ events := by
  simp only [List.mem_cons]
  constructor
  · rintro (rfl | rfl | he)
    · exact h
    · exact h'
    · exact he
  · exact fun he => .inr (.inr he)

/-- Two arrivals with different heads show which plans must agree. -/
theorem PlanConverges.eq_of_heads {events : List OrderEvent} (h : PlanConverges c events)
    (ha : a ∈ events) (hb : b ∈ events) (hd : d ∈ events) (he : e ∈ events)
    (hp : planOf ((a :: b :: events).foldl (acceptEvent c) none) = some p)
    (hq : planOf ((d :: e :: events).foldl (acceptEvent c) none) = some q) : p = q := by
  have := h _ _ (mem_cons_cons_iff ha hb) (mem_cons_cons_iff hd he)
  rw [hp, hq] at this
  exact Option.some.inj this

theorem PlanConverges.agreeing_of_terminal {events : List OrderEvent} (h : PlanConverges c events)
    (ht : t ∈ events) (hterminal : (desiredBillingState t).terminal = true) :
    Agreeing (·.plan) events := by
  intro e he e' he' p q (hp : e.plan = some p) (hq : e'.plan = some q)
  have hfrozen : Frozen c (createOrder t) events := .inl hterminal
  cases hplan : t.plan with
  | none =>
    exact h.eq_of_heads c ht he ht he'
      (plan_of_frozen_head c hfrozen he (by rw [hplan, hp]; rfl))
      (plan_of_frozen_head c hfrozen he' (by rw [hplan, hq]; rfl))
  | some r =>
    have hpr : p = r := h.eq_of_heads c he ht ht ht (plan_of_terminal_second c hterminal hp)
      (plan_of_frozen_head c hfrozen ht (by rw [hplan]; rfl))
    have hqr : q = r := h.eq_of_heads c he' ht ht ht (plan_of_terminal_second c hterminal hq)
      (plan_of_frozen_head c hfrozen ht (by rw [hplan]; rfl))
    rw [hpr, hqr]

/-- A latest event without a plan leaves the choice to whichever comes next. -/
theorem PlanConverges.agreeing_of_latest {events : List OrderEvent} (h : PlanConverges c events)
    (hm : IsLatest c events m) (hplan : m.plan = none) : Agreeing (·.plan) events := by
  intro e he e' he' p q (hp : e.plan = some p) (hq : e'.plan = some q)
  have hfrozen := frozen_of_isLatest c hm
  exact h.eq_of_heads c hm.1 he hm.1 he'
    (plan_of_frozen_head c hfrozen he (by rw [hplan, hp]; rfl))
    (plan_of_frozen_head c hfrozen he' (by rw [hplan, hq]; rfl))

theorem planConverges_iff : PlanConverges c events ↔ PlanSettled c events := by
  constructor
  · intro h
    by_cases hagree : Agreeing (·.plan) events
    · exact .inl hagree
    right
    refine ⟨fun e he => ?_, ?_⟩
    · by_contra hterminal
      exact hagree (h.agreeing_of_terminal c he (Bool.eq_true_of_not_eq_false hterminal))
    · have hne : events ≠ [] := by
        rintro rfl
        exact hagree fun _ he => absurd he List.not_mem_nil
      have hnames : ∀ m, IsLatest c events m → ∃ p, m.plan = some p := by
        intro m hm
        by_contra hnone
        exact hagree (h.agreeing_of_latest c hm (Option.eq_none_iff_forall_not_mem.mpr
          fun p hp => hnone ⟨p, hp⟩))
      obtain ⟨m, hm⟩ := exists_isLatest c hne
      obtain ⟨p, hp⟩ := hnames m hm
      refine ⟨p, fun e he => ?_⟩
      obtain ⟨q, hq⟩ := hnames e he
      have hpq : q = p := h.eq_of_heads c he.1 he.1 hm.1 hm.1
        (plan_of_frozen_head c (frozen_of_isLatest c he) he.1 (by rw [hq]; rfl))
        (plan_of_frozen_head c (frozen_of_isLatest c hm) hm.1 (by rw [hp]; rfl))
      rw [hq, hpq]
  · rintro (hagree | ⟨hopen, p, hplan⟩) xs ys hxs hys
    · have hsub : Agreeing (·.plan) xs := fun e he e' he' =>
        hagree e ((hxs e).mp he) e' ((hxs e').mp he')
      have hsub' : Agreeing (·.plan) ys := fun e he e' he' =>
        hagree e ((hys e).mp he) e' ((hys e').mp he')
      rw [foldl_plan_agreeing c hsub (fun _ _ _ _ h => by cases h),
        foldl_plan_agreeing c hsub' (fun _ _ _ _ h => by cases h),
        findSome?_congr hsub fun e => (hxs e).trans (hys e).symm]
    · by_cases hne : events = []
      · subst hne
        obtain rfl : xs = [] := List.eq_nil_iff_forall_not_mem.mpr fun e he => nomatch (hxs e).mp he
        obtain rfl : ys = [] := List.eq_nil_iff_forall_not_mem.mpr fun e he => nomatch (hys e).mp he
        rfl
      · rw [plan_of_latest c hopen hplan hne hxs, plan_of_latest c hopen hplan hne hys]

-- ---------------------------------------------------------------------------
-- All provisioning inputs
-- ---------------------------------------------------------------------------

/-- Every two orders of arrival, with any repetition, end in the same inputs. -/
def Converges (events : List NormalizedStripeEvent) : Prop :=
  ∀ xs ys, (∀ e, e ∈ xs ↔ e ∈ events) → (∀ e, e ∈ ys ↔ e ∈ events) →
    ∃ o o', reduceAll c xs = .ok o ∧ reduceAll c ys = .ok o' ∧
      provisioningInputs o = provisioningInputs o'

/-- No two events differ in what is immutable once known. -/
structure SameTopology (events : List OrderEvent) : Prop where
  customerId : Agreeing (·.customerId) events
  ownerSubject : Agreeing (·.ownerSubject) events
  mode : Agreeing (·.mode) events

theorem provisioningInputs_eq {current current' : Option OrderRecord}
    (hsome : current = none ↔ current' = none)
    (hcustomer : current.bind (·.customerId) = current'.bind (·.customerId))
    (howner : current.bind (·.ownerSubject) = current'.bind (·.ownerSubject))
    (hmode : current.bind (·.mode) = current'.bind (·.mode))
    (hplan : planOf current = planOf current') :
    provisioningInputs current = provisioningInputs current' := by
  cases current with
  | none => rw [hsome.mp rfl]
  | some o =>
    cases current' with
    | none => cases hsome.mpr rfl
    | some o' =>
      obtain ⟨⟨customerId, ownerSubject, mode, plan⟩⟩ := o
      obtain ⟨⟨customerId', ownerSubject', mode', plan'⟩⟩ := o'
      change customerId = customerId' at hcustomer
      change ownerSubject = ownerSubject' at howner
      change mode = mode' at hmode
      change plan = plan' at hplan
      rw [hcustomer, howner, hmode, hplan]
      rfl

/-- Arrival of `xs` among whatever `events` holds that is ignored. -/
def arrival (xs : List OrderEvent) (events : List NormalizedStripeEvent) :
    List NormalizedStripeEvent :=
  xs.map .accepted ++ events.filter fun
    | .ignored .. => true
    | .accepted _ => false

theorem acceptedEvents_arrival (xs : List OrderEvent) (events : List NormalizedStripeEvent) :
    acceptedEvents (arrival xs events) = xs := by
  have hignored : acceptedEvents (events.filter fun
      | .ignored .. => true
      | .accepted _ => false) = [] := by
    rw [List.eq_nil_iff_forall_not_mem]
    intro e he
    obtain ⟨-, h⟩ := List.mem_filter.mp (mem_acceptedEvents.mp he)
    cases h
  have haccepted : acceptedEvents (xs.map .accepted) = xs := by
    induction xs with
    | nil => rfl
    | cons e rest ih => exact congrArg (e :: ·) ih
  rw [arrival, acceptedEvents, List.filterMap_append]
  exact (congrArg₂ (· ++ ·) haccepted hignored).trans (List.append_nil xs)

theorem mem_arrival (h : ∀ e, e ∈ xs ↔ e ∈ acceptedEvents events) (e : NormalizedStripeEvent) :
    e ∈ arrival xs events ↔ e ∈ events := by
  rw [arrival, List.mem_append, List.mem_map, List.mem_filter]
  cases e with
  | ignored base originalType subscriptionId => simp
  | accepted e => simp [h, mem_acceptedEvents]

theorem planOf_eq (current : Option OrderRecord) :
    planOf current = (provisioningInputs current).bind (·.plan) := by
  cases current <;> rfl

/-- Only the plan can keep the inputs from converging. -/
theorem converges_iff_plan (h : OneSubscription s events)
    (hsame : SameTopology (acceptedEvents events)) :
    Converges c events ↔ PlanConverges c (acceptedEvents events) := by
  constructor
  · intro hconv xs ys hxs hys
    have hxs' := mem_arrival hxs
    have hys' := mem_arrival hys
    obtain ⟨o, o', ho, ho', heq⟩ := hconv _ _ hxs' hys'
    rw [reduceAll_eq c (h.subset fun e he => (hxs' e).mp he), acceptedEvents_arrival] at ho
    rw [reduceAll_eq c (h.subset fun e he => (hys' e).mp he), acceptedEvents_arrival] at ho'
    cases ho
    cases ho'
    rw [planOf_eq, planOf_eq, heq]
  · intro hplan xs ys hxs hys
    have hmem : ∀ zs, (∀ e, e ∈ zs ↔ e ∈ events) →
        ∀ e, e ∈ acceptedEvents zs ↔ e ∈ acceptedEvents events := by
      intro zs hzs e
      rw [mem_acceptedEvents, mem_acceptedEvents, hzs]
    have hxy : ∀ e, e ∈ acceptedEvents xs ↔ e ∈ acceptedEvents ys := fun e =>
      (hmem xs hxs e).trans (hmem ys hys e).symm
    refine ⟨_, _, reduceAll_eq c (h.subset fun e he => (hxs e).mp he),
      reduceAll_eq c (h.subset fun e he => (hys e).mp he), ?_⟩
    have hsub : ∀ {β} {field : OrderEvent → Option β}, Agreeing field (acceptedEvents events) →
        Agreeing field (acceptedEvents xs) := fun hagree e he e' he' =>
      hagree e ((hmem xs hxs e).mp he) e' ((hmem xs hxs e').mp he')
    apply provisioningInputs_eq
    · rw [← orderVerdict_eq_bot c, ← orderVerdict_eq_bot c,
        foldl_verdict_congr c fun e => (hxs _).trans (hys _).symm]
    · exact Keeps.converges c (customerId_keeps c) (hsub hsame.customerId) hxy
    · exact Keeps.converges c (ownerSubject_keeps c) (hsub hsame.ownerSubject) hxy
    · exact Keeps.converges c (mode_keeps c) (hsub hsame.mode) hxy
    · exact hplan _ _ (hmem xs hxs) (hmem ys hys)

/-- The provisioning inputs converge exactly when the plan is settled. -/
theorem converges_iff (h : OneSubscription s events)
    (hsame : SameTopology (acceptedEvents events)) :
    Converges c events ↔ PlanSettled c (acceptedEvents events) :=
  (converges_iff_plan c h hsame).trans (planConverges_iff c)

namespace Sample

theorem sameTopology : SameTopology (acceptedEvents arrived) := by
  have hmem : ∀ e ∈ acceptedEvents arrived,
      e.customerId = some "cus_1" ∧ e.ownerSubject = some "owner" ∧ e.mode = some .shared := by
    intro e he
    simp only [mem_acceptedEvents, arrived, List.mem_cons, NormalizedStripeEvent.accepted.injEq,
      List.not_mem_nil, or_false] at he
    rcases he with rfl | rfl | rfl <;> exact ⟨rfl, rfl, rfl⟩
  constructor
  · intro e he e' he' v v' hv hv'
    exact Option.some.inj ((hv.symm.trans (hmem e he).1).trans ((hmem e' he').1.symm.trans hv'))
  · intro e he e' he' v v' hv hv'
    exact Option.some.inj ((hv.symm.trans (hmem e he).2.1).trans ((hmem e' he').2.1.symm.trans hv'))
  · intro e he e' he' v v' hv hv'
    exact Option.some.inj ((hv.symm.trans (hmem e he).2.2).trans ((hmem e' he').2.2.symm.trans hv'))

end Sample

/-- Two paid events, and a third without a plan after both: whether it arrives
before or after the second decides the plan. -/
theorem arrived_diverges : ¬ Converges .codePoints Sample.arrived := by
  intro h
  have hplan := (converges_iff_plan .codePoints Sample.oneSubscription Sample.sameTopology).mp h
    [Sample.starterPaid, Sample.teamPaid, Sample.paidAgain]
    [Sample.starterPaid, Sample.paidAgain, Sample.teamPaid]
    (fun e => by simp [Sample.arrived, acceptedEvents])
    (fun e => by simp [Sample.arrived, acceptedEvents, or_comm])
  revert hplan
  decide +kernel

theorem arrived_converges_iff : Converges .codePoints Sample.arrived ↔
    PlanSettled .codePoints (acceptedEvents Sample.arrived) :=
  converges_iff .codePoints Sample.oneSubscription Sample.sameTopology

end EsigSuite.Provisioning
