import EsigSuite.Lib.Register
import EsigSuite.Provisioning.BillingReducer
import Mathlib

/-!
# Which parts of an order converge

The billing state is the highest verdict among the events: a cursor, then
cancellation, then refund. Each step of the reducer joins one verdict, so
neither the order nor the repetition of deliveries shows. The metadata that is
immutable once known keeps its first value. The plan is neither: an event
replaces it when it is the latest so far and nothing terminal has been seen.
-/

namespace EsigSuite.Provisioning

open Lib

variable (c : Collation)

-- ---------------------------------------------------------------------------
-- Cursors as a linear order
-- ---------------------------------------------------------------------------

/-- Strings in the order of the collation. -/
def Collation.Text (_ : Collation) : Type := String

def Collation.text (text : String) : c.Text := text

theorem Collation.compare_trans (hab : c.localeCompare x y ≤ 0) (hbd : c.localeCompare y z ≤ 0) :
    c.localeCompare x z ≤ 0 := by
  rcases hab.lt_or_eq with hab | hab
  · rcases hbd.lt_or_eq with hbd | hbd
    · exact (c.swap (c.trans (c.swap' hbd) (c.swap' hab))).le
    · rw [← c.eq_of_zero hbd]; exact hab.le
  · rw [c.eq_of_zero hab]; exact hbd

instance : LinearOrder c.Text where
  le x y := c.localeCompare x y ≤ 0
  le_refl x := c.self_zero.le
  le_trans x y z := c.compare_trans
  le_antisymm x y hxy hyx := by
    rcases hxy.lt_or_eq with h | h
    · exact absurd (c.swap' h) (not_lt.mpr hyx)
    · exact c.eq_of_zero h
  le_total x y := by
    rcases lt_or_ge 0 (c.localeCompare x y) with h | h
    · exact .inr (c.swap h).le
    · exact .inl h
  toDecidableLE x y := inferInstanceAs (Decidable (c.localeCompare x y ≤ 0))

theorem Collation.text_lt {x y : String} : c.text x < c.text y ↔ 0 < c.localeCompare y x := by
  rw [← not_le, ← not_le]
  exact Iff.rfl

theorem Collation.text_inj {x y : String} : c.text x = c.text y ↔ x = y := Iff.rfl

abbrev StateKey := ℤ ×ₗ ℕ ×ₗ c.Text

def stateKey (cursor : EventCursor) : StateKey c :=
  toLex (cursor.createdAt, toLex (cursor.precedence, c.text cursor.eventId))

theorem compareCursor_pos : 0 < compareCursor c l r ↔ stateKey c r < stateKey c l := by
  simp only [stateKey, Prod.Lex.toLex_lt_toLex, compareCursor, c.text_lt]
  split
  · omega
  · split
    · omega
    · simp_all

-- ---------------------------------------------------------------------------
-- The billing state
-- ---------------------------------------------------------------------------

/-- Nothing yet, a cursor, cancellation, refund: each above all before it. -/
abbrev Verdict := WithBot (WithTop (WithTop (StateKey c)))

namespace Verdict

def refunded : Verdict c := ((⊤ : WithTop (WithTop (StateKey c))) : Verdict c)

def canceled : Verdict c :=
  (((⊤ : WithTop (StateKey c)) : WithTop (WithTop (StateKey c))) : Verdict c)

def cursor (key : StateKey c) : Verdict c :=
  (((key : WithTop (StateKey c)) : WithTop (WithTop (StateKey c))) : Verdict c)

theorem le_refunded (v : Verdict c) : v ≤ refunded c := le_top

theorem canceled_ne_refunded : canceled c ≠ refunded c := by
  simp [canceled, refunded]

theorem cursor_lt_canceled (key : StateKey c) : cursor c key < canceled c := by
  simp [cursor, canceled]

theorem cursor_le {k l : StateKey c} : cursor c k ≤ cursor c l ↔ k ≤ l := by
  simp [cursor]

end Verdict

def verdictOf (state : BillingState) (cursor : EventCursor) : Verdict c :=
  if state = .refunded then .refunded c
  else if state = .canceled then .canceled c
  else .cursor c (stateKey c cursor)

def eventVerdict (event : OrderEvent) : Verdict c :=
  verdictOf c (desiredBillingState event) (eventCursor event (desiredBillingState event))

def orderVerdict : Option OrderRecord → Verdict c
  | none => ⊥
  | some o => verdictOf c o.billingState o.stateCursor

theorem verdictOf_eq_refunded : verdictOf c state k = .refunded c ↔ state = .refunded := by
  unfold verdictOf
  split
  next h => exact ⟨fun _ => h, fun _ => rfl⟩
  next h =>
    refine ⟨fun hv => ?_, fun hs => absurd hs h⟩
    split at hv
    · exact absurd hv (Verdict.canceled_ne_refunded c)
    · exact absurd (hv ▸ Verdict.cursor_lt_canceled c _) (not_lt.mpr (Verdict.le_refunded c _))

theorem verdictOf_eq_canceled : verdictOf c state k = .canceled c ↔ state = .canceled := by
  unfold verdictOf
  split
  next h =>
    subst h
    exact ⟨fun hv => absurd hv.symm (Verdict.canceled_ne_refunded c), nofun⟩
  split
  next h => exact ⟨fun _ => h, fun _ => rfl⟩
  next h => exact ⟨fun hv => absurd hv (Verdict.cursor_lt_canceled c _).ne, fun hs => absurd hs h⟩

theorem verdictOf_open (hr : state ≠ .refunded) (hc : state ≠ .canceled) :
    verdictOf c state k = .cursor c (stateKey c k) := by
  rw [verdictOf, if_neg hr, if_neg hc]

theorem verdictOf_le_canceled (h : state ≠ .refunded) : verdictOf c state cursor ≤ .canceled c := by
  unfold verdictOf
  rw [if_neg h]
  split
  · exact le_rfl
  · exact (Verdict.cursor_lt_canceled c _).le

/-- Each accepted event joins its verdict. -/
theorem acceptEvent_joins : Joins (acceptEvent c) (orderVerdict c) (eventVerdict c) := by
  intro current event
  cases current with
  | none => exact (sup_eq_right.mpr bot_le).symm
  | some o =>
    simp only [acceptEvent, orderVerdict, eventVerdict, nextOrder, reduceState]
    by_cases hrefunded : o.billingState = .refunded
    · simp only [hrefunded, ↓reduceIte, verdictOf]
      exact (sup_eq_left.mpr (Verdict.le_refunded c _)).symm
    by_cases hrefund : desiredBillingState event = .refunded
    · simp only [hrefunded, hrefund, ↓reduceIte]
      exact (sup_eq_right.mpr (Verdict.le_refunded c _)).symm
    by_cases hcanceled : o.billingState = .canceled
    · simp only [hrefund, hcanceled, ↓reduceIte, reduceCtorEq]
      refine (sup_eq_left.mpr ?_).symm
      exact verdictOf_le_canceled c hrefund
    by_cases hcancel : desiredBillingState event = .canceled
    · simp only [hrefunded, hcanceled, hcancel, ↓reduceIte, reduceCtorEq]
      refine (sup_eq_right.mpr ?_).symm
      exact verdictOf_le_canceled c hrefunded
    simp only [hrefunded, hrefund, hcanceled, hcancel, ↓reduceIte, gt_iff_lt, compareCursor_pos]
    split
    next hlt =>
      simp only [verdictOf, hrefunded, hrefund, hcanceled, hcancel, ↓reduceIte]
      exact (sup_eq_right.mpr ((Verdict.cursor_le c).mpr hlt.le)).symm
    next hlt =>
      simp only [verdictOf, hrefunded, hrefund, hcanceled, hcancel, ↓reduceIte]
      exact (sup_eq_left.mpr ((Verdict.cursor_le c).mpr (not_lt.mp hlt))).symm

/-- The cursor carries the precedence of the state it determines. -/
def CursorMatches (o : OrderRecord) : Prop :=
  o.stateCursor.precedence = STATE_PRECEDENCE o.billingState

theorem acceptEvent_cursor (h : ∀ o, current = some o → CursorMatches o) :
    ∀ o, acceptEvent c current event = some o → CursorMatches o := by
  rintro o ho
  cases current with
  | none => cases ho; rfl
  | some current =>
    cases ho
    rcases reduceState_cases c current event with ⟨hstate, hcursor⟩ | ⟨hstate, hcursor⟩
    · rw [CursorMatches, nextOrder_billingState, nextOrder_stateCursor, hstate, hcursor]
      exact h current rfl
    · rw [CursorMatches, nextOrder_billingState, nextOrder_stateCursor, hstate, hcursor]
      rfl

theorem foldl_cursor (events : List OrderEvent)
    (h : events.foldl (acceptEvent c) none = some o) : CursorMatches o :=
  List.foldlRecOn events (acceptEvent c) (motive := fun s => ∀ o, s = some o → CursorMatches o)
    (fun _ ho => by cases ho) (fun _ ih _ _ => acceptEvent_cursor c ih) o h

theorem STATE_PRECEDENCE_injective : Function.Injective STATE_PRECEDENCE := by
  intro s t h
  cases s <;> cases t <;> first | rfl | cases h

/-- A verdict names its state. -/
theorem verdictOf_injective (hk : k.precedence = STATE_PRECEDENCE s)
    (hl : l.precedence = STATE_PRECEDENCE t) (h : verdictOf c s k = verdictOf c t l) : s = t := by
  by_cases hr : s = .refunded
  · rw [hr, (verdictOf_eq_refunded c).mp (h.symm.trans ((verdictOf_eq_refunded c).mpr hr))]
  by_cases hc : s = .canceled
  · rw [hc, (verdictOf_eq_canceled c).mp (h.symm.trans ((verdictOf_eq_canceled c).mpr hc))]
  have hr' : t ≠ .refunded := fun ht =>
    hr ((verdictOf_eq_refunded c).mp (h.trans ((verdictOf_eq_refunded c).mpr ht)))
  have hc' : t ≠ .canceled := fun ht =>
    hc ((verdictOf_eq_canceled c).mp (h.trans ((verdictOf_eq_canceled c).mpr ht)))
  rw [verdictOf_open c hr hc, verdictOf_open c hr' hc'] at h
  have hkey : stateKey c k = stateKey c l :=
    le_antisymm ((Verdict.cursor_le c).mp h.le) ((Verdict.cursor_le c).mp h.ge)
  apply STATE_PRECEDENCE_injective
  rw [← hk, ← hl]
  exact congrArg (fun key => (ofLex (ofLex key).2).1) hkey

/-- The state a set of events determines. -/
def Settles (events : List OrderEvent) (state : BillingState) : Prop :=
  if ∃ e ∈ events, desiredBillingState e = .refunded then state = .refunded
  else if ∃ e ∈ events, desiredBillingState e = .canceled then state = .canceled
  else ∃ e ∈ events, state = desiredBillingState e ∧ ∀ e' ∈ events,
    compareCursor c (eventCursor e' (desiredBillingState e'))
      (eventCursor e (desiredBillingState e)) ≤ 0

/-- After a run the verdict on the order is the highest of the events. -/
theorem orderVerdict_foldl (events : List OrderEvent) :
    orderVerdict c (events.foldl (acceptEvent c) none) = joinAll (eventVerdict c) events := by
  rw [(acceptEvent_joins c).foldl]
  exact sup_eq_right.mpr bot_le

theorem orderVerdict_eq_bot {current : Option OrderRecord} :
    orderVerdict c current = ⊥ ↔ current = none := by
  cases current with
  | none => exact ⟨fun _ => rfl, fun _ => rfl⟩
  | some o =>
    refine ⟨fun h => ?_, nofun⟩
    change verdictOf c o.billingState o.stateCursor = ⊥ at h
    unfold verdictOf at h
    split_ifs at h
    all_goals exact absurd h WithBot.coe_ne_bot

theorem foldl_settles {events : List OrderEvent}
    (h : events.foldl (acceptEvent c) none = some o) : Settles c events o.billingState := by
  have hne : events ≠ [] := by
    rintro rfl
    cases h
  have hverdict := orderVerdict_foldl c events
  have hattained : ∃ e ∈ events, joinAll (eventVerdict c) events = eventVerdict c e :=
    joinAll_attained hne
  obtain ⟨m, hm, hmax⟩ := hattained
  have hall := joinAll_le_iff.mp hmax.le
  rw [h, hmax] at hverdict
  have hstate : o.billingState = desiredBillingState m :=
    verdictOf_injective c (foldl_cursor c events h) rfl hverdict
  unfold Settles
  split
  next hrefund =>
    obtain ⟨e, he, hdesired⟩ := hrefund
    have htop := hall e he
    rw [eventVerdict, (verdictOf_eq_refunded c).mpr hdesired] at htop
    rw [hstate]
    exact (verdictOf_eq_refunded c).mp (le_antisymm (Verdict.le_refunded c _) htop)
  next hrefund =>
    push Not at hrefund
    split
    next hcancel =>
      obtain ⟨e, he, hdesired⟩ := hcancel
      have hle := hall e he
      rw [eventVerdict, (verdictOf_eq_canceled c).mpr hdesired] at hle
      rw [hstate]
      exact (verdictOf_eq_canceled c).mp (le_antisymm (verdictOf_le_canceled c (hrefund m hm)) hle)
    next hcancel =>
      push Not at hcancel
      refine ⟨m, hm, hstate, fun e he => ?_⟩
      have hle := hall e he
      rw [eventVerdict, eventVerdict, verdictOf_open c (hrefund e he) (hcancel e he),
        verdictOf_open c (hrefund m hm) (hcancel m hm), Verdict.cursor_le] at hle
      by_contra hpos
      exact absurd ((compareCursor_pos c).mp (not_le.mp hpos)) (not_lt.mpr hle)

/-- Orders with one verdict are in one billing state. -/
theorem billingState_of_verdict {current current' : Option OrderRecord}
    (h : ∀ o, current = some o → CursorMatches o) (h' : ∀ o, current' = some o → CursorMatches o)
    (hverdict : orderVerdict c current = orderVerdict c current') :
    current.map (·.billingState) = current'.map (·.billingState) := by
  cases current with
  | none =>
    obtain rfl := (orderVerdict_eq_bot c).mp hverdict.symm
    rfl
  | some o =>
    cases current' with
    | none => cases (orderVerdict_eq_bot c).mp hverdict
    | some o' => exact congrArg some (verdictOf_injective c (h o rfl) (h' o' rfl) hverdict)

theorem foldl_verdict_congr (h : ∀ e, .accepted e ∈ xs ↔ .accepted e ∈ ys) :
    orderVerdict c ((acceptedEvents xs).foldl (acceptEvent c) none) =
      orderVerdict c ((acceptedEvents ys).foldl (acceptEvent c) none) := by
  rw [orderVerdict_foldl, orderVerdict_foldl]
  apply joinAll_congr
  intro e
  rw [mem_acceptedEvents, mem_acceptedEvents, h]

/-- The same events, however ordered and repeated, leave the same billing
state: the one they settle. -/
theorem billingState_converges (hxs : OneSubscription s xs) (hys : OneSubscription s ys)
    (hsame : ∀ e, .accepted e ∈ xs ↔ .accepted e ∈ ys) :
    ∃ o o', reduceAll c xs = .ok o ∧ reduceAll c ys = .ok o' ∧
      o.map (·.billingState) = o'.map (·.billingState) ∧
      (acceptedEvents xs = [] ∧ o = none ∨
        ∃ r, o = some r ∧ Settles c (acceptedEvents xs) r.billingState) := by
  refine ⟨_, _, reduceAll_eq c hxs, reduceAll_eq c hys, ?_, ?_⟩
  · exact billingState_of_verdict c (fun _ => foldl_cursor c _) (fun _ => foldl_cursor c _)
      (foldl_verdict_congr c hsame)
  · rcases hevents : acceptedEvents xs with _ | ⟨e, rest⟩
    · exact .inl ⟨rfl, rfl⟩
    · right
      cases h : (e :: rest).foldl (acceptEvent c) none with
      | none =>
        have hbot := (orderVerdict_eq_bot c).mpr h
        rw [orderVerdict_foldl] at hbot
        have he : eventVerdict c e ≤ joinAll (eventVerdict c) (e :: rest) :=
          le_joinAll List.mem_cons_self
        rw [hbot, le_bot_iff] at he
        have hcreated : orderVerdict c (some (createOrder e)) = ⊥ := he
        cases (orderVerdict_eq_bot c).mp hcreated
      | some o => exact ⟨o, rfl, foldl_settles c h⟩

-- ---------------------------------------------------------------------------
-- An instance
-- ---------------------------------------------------------------------------

/-- Code point order, which `localeCompare` follows on lowercase ASCII ids. -/
def Collation.codePoints : Collation where
  localeCompare a b := if a < b then -1 else if b < a then 1 else 0
  eq_of_zero {a b} h := by
    split_ifs at h with hab hba
    · cases h
    · exact le_antisymm (not_lt.mp hba) (not_lt.mp hab)
  self_zero {a} := by simp
  swap {a b} h := by
    split_ifs at h with hab hba
    · cases h
    · simp [hba]
    · cases h
  swap' {a b} h := by
    split_ifs at h with hab hba
    · simp [hab, hab.not_gt]
    · cases h
    · cases h
  trans {a b d} h h' := by
    have hba : b < a := by
      by_contra hba
      split_ifs at h <;> cases h
    have hdb : d < b := by
      by_contra hdb
      split_ifs at h' <;> cases h'
    simp [hdb.trans hba, (hdb.trans hba).not_gt]

namespace Sample

def event (eventId : String) (createdAt : Int) (type : AcceptedStripeEventType)
    (plan : Option PlanId) : OrderEvent where
  eventId
  createdAt
  payloadDigest := "e3b0c44298fc1c149afbf4c8996fb92427ae41e4649b934ca495991b7852b855"
  customerId := some "cus_1"
  ownerSubject := some "owner"
  mode := some .shared
  plan
  subscriptionId := "sub_1"
  type

def starterPaid : OrderEvent := event "evt_1" 1 .invoicePaid (some .starter)
def teamPaid : OrderEvent := event "evt_2" 2 .invoicePaid (some .team)
def paidAgain : OrderEvent := event "evt_3" 3 .invoicePaid none

theorem event_valid (h : eventId ≠ "") (hlo : 0 ≤ createdAt) (hhi : createdAt < 2 ^ 53) :
    (NormalizedStripeEvent.accepted (event eventId createdAt type plan)).valid = true := by
  have hdigest : isDigest
      "e3b0c44298fc1c149afbf4c8996fb92427ae41e4649b934ca495991b7852b855" = true := by
    decide +kernel
  simp only [NormalizedStripeEvent.valid, NormalizedStripeEvent.base, event, h, hlo, hhi, hdigest,
    ne_eq, not_false_eq_true, decide_true, Bool.and_self]
  rfl

def arrived : List NormalizedStripeEvent :=
  [.accepted starterPaid, .accepted teamPaid, .accepted paidAgain]

theorem oneSubscription : OneSubscription "sub_1" arrived where
  valid e he := by
    simp only [arrived, List.mem_cons, List.not_mem_nil, or_false] at he
    rcases he with rfl | rfl | rfl
    all_goals exact event_valid (by decide) (by decide) (by decide)
  same e he := by
    simp only [arrived, List.mem_cons, NormalizedStripeEvent.accepted.injEq, List.not_mem_nil,
      or_false] at he
    rcases he with rfl | rfl | rfl <;> rfl

end Sample

theorem billingState_converges_sample :
    ∃ o o', reduceAll .codePoints Sample.arrived = .ok o ∧
      reduceAll .codePoints (Sample.arrived.reverse ++ Sample.arrived) = .ok o' ∧
      o.map (·.billingState) = o'.map (·.billingState) ∧
      (acceptedEvents Sample.arrived = [] ∧ o = none ∨
        ∃ r, o = some r ∧
          Settles .codePoints (acceptedEvents Sample.arrived) r.billingState) :=
  billingState_converges .codePoints Sample.oneSubscription
    (Sample.oneSubscription.subset (by simp)) (by simp)

end EsigSuite.Provisioning
