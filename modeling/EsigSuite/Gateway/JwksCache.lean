import EsigSuite.Gateway.Auth

/-!
# The key cache

`JwksCache` of `esig-gateway/src/auth.ts` as the steps of its calls. A call to
`get` runs to an await or to its end; the callers that find a fetch under way
wait for that one.
-/

namespace EsigSuite.Gateway

open Lib

structure JwksConfig where
  /-- A `uri` is given. -/
  uri : Bool
  ttlMs : ℚ := 300000
  minRefetchMs : ℚ := 30000

/-- What comes of a fetch: a request or a body that fails (the abort after five
seconds is one), a status that is not ok, a JSON document. -/
inductive FetchAnswer
  | thrown (text : String)
  | status (code : Nat)
  | document (doc : Json)

/-- The array of keys, or what the fetch rejects with. -/
def FetchAnswer.keys : FetchAnswer → Except String (List Json)
  | .thrown text => .error text
  | .status code => .error ("JWKS " ++ toString code)
  | .document doc => do
    match ← property (some doc) "keys" with
    | some (.array keys) => return keys
    | _ => .error "JWKS: missing keys array"

/-- The await at which a call to `get` is. -/
inductive GetPoint
  /-- The refresh for want of fresh keys; `now` is from the start of the call. -/
  | first (now : ℚ)
  /-- The refresh for an unknown `kid`. -/
  | second

structure GetCall where
  kid : Option JsString
  point : GetPoint

structure JwksCache where
  keys : List Json
  /-- Nothing for keys that never expire. -/
  fetchedAt : Option ℚ
  inflight : Bool := false
  clock : ℚ
  /-- The calls that wait for the fetch under way. -/
  waiting : List GetCall := []
  /-- The calls whose refresh is done. -/
  ready : List GetCall := []
  answered : List (Except GatewayThrown Json) := []
  /-- When fetches were started. -/
  starts : List ℚ := []

namespace JwksCache

def new (inline : Option (List Json)) (clock : ℚ) : JwksCache :=
  match inline with
  | some keys => { keys, fetchedAt := none, clock }
  | none => { keys := [], fetchedAt := some 0, clock }

/-- `now - this.fetchedAt > ms` -/
def olderThan (s : JwksCache) (now ms : ℚ) : Bool :=
  match s.fetchedAt with
  | none => false
  | some fetchedAt => ms < now - fetchedAt

/-- `k.use === undefined || k.use === "sig"` -/
def usable (key : Json) : Except String Bool := do
  match ← property (some key) "use" with
  | none => return true
  | use => return isString (js "sig") use

def select (keys : List Json) (kid : Option JsString) : Except String (Option Json) := do
  let usable ← keys.filterM usable
  match kid with
  | some (unit :: rest) => return usable.find? fun key => isString (unit :: rest) (member key "kid")
  | _ =>
    match usable with
    | [key] => return some key
    | _ => return none

def noKey (kid : Option JsString) : GatewayThrown :=
  unauthenticated (js "no JWKS key for kid=" ++ kid.getD (js "<none>"))

def answer (s : JwksCache) (result : Except GatewayThrown Json) : JwksCache :=
  { s with answered := s.answered ++ [result] }

variable (cfg : JwksConfig)

/-- `await this.refresh()` of a call. -/
def refresh (s : JwksCache) (call : GetCall) : JwksCache :=
  if ¬ cfg.uri then { s with ready := s.ready ++ [call] }
  else if s.inflight then { s with waiting := s.waiting ++ [call] }
  else { s with inflight := true, starts := s.starts ++ [s.clock], waiting := s.waiting ++ [call] }

/-- `get` from the first `select` on. -/
def resolve (s : JwksCache) (kid : Option JsString) (now : ℚ) : JwksCache :=
  match select s.keys kid with
  | .error text => s.answer (.error (.other text))
  | .ok (some key) => s.answer (.ok key)
  | .ok none =>
    if cfg.uri ∧ s.olderThan now cfg.minRefetchMs then s.refresh cfg ⟨kid, .second⟩
    else s.answer (.error (noKey kid))

def get (s : JwksCache) (kid : Option JsString) : JwksCache :=
  if s.keys.isEmpty ∨ s.olderThan s.clock cfg.ttlMs then s.refresh cfg ⟨kid, .first s.clock⟩
  else s.resolve cfg kid s.clock

/-- The end of `get` after the second refresh. -/
def conclude (s : JwksCache) (kid : Option JsString) : JwksCache :=
  match select s.keys kid with
  | .error text => s.answer (.error (.other text))
  | .ok (some key) => s.answer (.ok key)
  | .ok none => s.answer (.error (noKey kid))

/-- A refresh that is done, seen by a call that waited for it. -/
def resume (s : JwksCache) (call : GetCall) : JwksCache :=
  match call.point with
  | .first now => s.resolve cfg call.kid now
  | .second => s.conclude call.kid

/-- The end of the fetch under way, for all that wait for it. -/
def settle (s : JwksCache) (answer : FetchAnswer) : JwksCache :=
  match answer.keys with
  | .ok keys =>
    { s with keys, fetchedAt := some s.clock, inflight := false, waiting := [],
             ready := s.ready ++ s.waiting }
  | .error text =>
    { s with inflight := false, waiting := [],
             answered := s.answered ++ s.waiting.map fun _ => .error (.other text) }

inductive Event
  | tick (time : ℚ)
  | get (kid : Option JsString)
  | settle (answer : FetchAnswer)
  | resume (i : Nat)

/-- The clock does not go back, a fetch ends once, a call that is ready goes on once. -/
def step (s : JwksCache) : Event → Option JwksCache
  | .tick time => if s.clock ≤ time then some { s with clock := time } else none
  | .get kid => some (s.get cfg kid)
  | .settle answer => if s.inflight then some (s.settle answer) else none
  | .resume i =>
    match s.ready[i]? with
    | none => none
    | some call => some ({ s with ready := s.ready.eraseIdx i }.resume cfg call)

def run (s : JwksCache) (events : List Event) : Option JwksCache := events.foldlM (fun s e => s.step cfg e) s

-- ---------------------------------------------------------------------------
-- What the steps keep
-- ---------------------------------------------------------------------------

/-- Fetches are started apart, and the last one that ended left keys that are not older. -/
structure Paced (s : JwksCache) : Prop where
  spaced : s.starts.Pairwise fun x y => x + cfg.minRefetchMs < y
  past : ∀ x ∈ s.starts, x ≤ s.clock
  begun : ∀ call ∈ s.waiting ++ s.ready, ∀ now, call.point = .first now → now ≤ s.clock
  filled : s.inflight = false → ∀ x ∈ s.starts,
    s.keys ≠ [] ∧ ∃ fetchedAt, s.fetchedAt = some fetchedAt ∧ x ≤ fetchedAt

/-- A fetch may be started now. -/
def Due (s : JwksCache) : Prop :=
  s.inflight = false → ∀ x ∈ s.starts, x + cfg.minRefetchMs < s.clock

variable {cfg} {s s' : JwksCache}

theorem paced_new (inline : Option (List Json)) (clock : ℚ) : (new inline clock).Paced cfg := by
  cases inline <;> exact ⟨.nil, by simp [new], by simp [new], by simp [new]⟩

theorem answer_paced (h : s.Paced cfg) (result : Except GatewayThrown Json) :
    (s.answer result).Paced cfg :=
  ⟨h.spaced, h.past, h.begun, h.filled⟩

theorem due_of_empty (h : s.Paced cfg) (hkeys : s.keys = []) : s.Due cfg := by
  intro hinflight x hx
  exact absurd hkeys (h.filled hinflight x hx).1

theorem due_of_old (h : s.Paced cfg) (hms : cfg.minRefetchMs ≤ ms) (hnow : now ≤ s.clock)
    (hold : s.olderThan now ms = true) : s.Due cfg := by
  intro hinflight x hx
  obtain ⟨-, fetchedAt, hfetched, hle⟩ := h.filled hinflight x hx
  simp only [olderThan, hfetched, decide_eq_true_eq] at hold
  linarith

theorem refresh_paced (h : s.Paced cfg) (hdue : s.Due cfg)
    (hcall : ∀ now, call.point = .first now → now ≤ s.clock) : (s.refresh cfg call).Paced cfg := by
  have hbegun : ∀ c ∈ call :: (s.waiting ++ s.ready), ∀ now, c.point = .first now → now ≤ s.clock :=
    List.forall_mem_cons.mpr ⟨hcall, h.begun⟩
  unfold refresh
  split
  · refine ⟨h.spaced, h.past, fun c hc => hbegun c ?_, h.filled⟩
    simp only [List.mem_append, List.mem_cons, List.not_mem_nil] at hc ⊢
    tauto
  split
  · refine ⟨h.spaced, h.past, fun c hc => hbegun c ?_, h.filled⟩
    simp only [List.mem_append, List.mem_cons, List.not_mem_nil] at hc ⊢
    tauto
  next hinflight =>
    refine ⟨?_, ?_, fun c hc => hbegun c ?_, fun habsurd => absurd habsurd (by simp)⟩
    · refine List.pairwise_append.mpr ⟨h.spaced, List.pairwise_singleton _ _, fun x hx y hy => ?_⟩
      rw [List.mem_singleton.mp hy]
      exact hdue (by simpa using hinflight) x hx
    · intro x hx
      rcases List.mem_append.mp hx with hx | hx
      · exact h.past x hx
      · exact (List.mem_singleton.mp hx).le
    · simp only [List.mem_append, List.mem_cons, List.not_mem_nil] at hc ⊢
      tauto

theorem resolve_paced (h : s.Paced cfg) (hnow : now ≤ s.clock) : (s.resolve cfg kid now).Paced cfg := by
  unfold resolve
  split
  · exact answer_paced h _
  · exact answer_paced h _
  · split_ifs with hold
    · exact refresh_paced h (due_of_old h le_rfl hnow hold.2) (by simp)
    · exact answer_paced h _

theorem get_paced (h : s.Paced cfg) (hms : cfg.minRefetchMs ≤ cfg.ttlMs) :
    (s.get cfg kid).Paced cfg := by
  unfold get
  split_ifs with hold
  · refine refresh_paced h ?_ (by rintro now ⟨⟩; exact le_rfl)
    rcases hold with hempty | hold
    · exact due_of_empty h (List.isEmpty_iff.mp hempty)
    · exact due_of_old h hms le_rfl hold
  · exact resolve_paced h le_rfl

theorem conclude_paced (h : s.Paced cfg) : (s.conclude kid).Paced cfg := by
  unfold conclude
  split <;> exact answer_paced h _

theorem settle_paced {outcome : FetchAnswer} {found : List Json} (h : s.Paced cfg)
    (hkeys : outcome.keys = .ok found) (hne : found ≠ []) : (s.settle outcome).Paced cfg := by
  simp only [settle, hkeys]
  refine ⟨h.spaced, h.past, fun call hcall => h.begun call ?_, fun _ x hx => ?_⟩
  · simp only [List.nil_append, List.mem_append] at hcall ⊢
    exact hcall.symm
  · exact ⟨hne, s.clock, rfl, h.past x hx⟩

/-- A step at which no fetch ends without keys. -/
def Event.Supplies : Event → Prop
  | .settle answer => ∃ keys, answer.keys = .ok keys ∧ keys ≠ []
  | _ => True

theorem step_paced (h : s.Paced cfg) (hms : cfg.minRefetchMs ≤ cfg.ttlMs) (he : e.Supplies)
    (hstep : s.step cfg e = some s') : s'.Paced cfg := by
  cases e with
  | tick time =>
    simp only [step] at hstep
    split_ifs at hstep with htime
    cases hstep
    exact ⟨h.spaced, fun x hx => (h.past x hx).trans htime,
      fun call hcall now hnow => (h.begun call hcall now hnow).trans htime, h.filled⟩
  | get kid =>
    cases hstep
    exact get_paced h hms
  | settle answer =>
    obtain ⟨keys, hkeys, hne⟩ := he
    simp only [step] at hstep
    split_ifs at hstep
    cases hstep
    exact settle_paced h hkeys hne
  | resume i =>
    simp only [step] at hstep
    split at hstep
    · cases hstep
    next call hcall =>
      cases hstep
      have hmem : call ∈ s.waiting ++ s.ready :=
        List.mem_append_right _ (List.mem_of_getElem? hcall)
      have hrest : JwksCache.Paced cfg { s with ready := s.ready.eraseIdx i } := by
        refine ⟨h.spaced, h.past, fun c hc => h.begun c ?_, h.filled⟩
        rcases List.mem_append.mp hc with hc | hc
        · exact List.mem_append_left _ hc
        · exact List.mem_append_right _ (List.mem_of_mem_eraseIdx hc)
      unfold resume
      split
      next now hpoint => exact resolve_paced hrest (h.begun call hmem now hpoint)
      next => exact conclude_paced hrest

theorem run_paced (h : s.Paced cfg) (hms : cfg.minRefetchMs ≤ cfg.ttlMs)
    (he : ∀ e ∈ events, e.Supplies) (hrun : s.run cfg events = some s') : s'.Paced cfg := by
  induction events generalizing s with
  | nil =>
    cases hrun
    exact h
  | cons e events ih =>
    obtain ⟨he, hevents⟩ := List.forall_mem_cons.mp he
    rw [run, List.foldlM_cons] at hrun
    obtain ⟨next, hstep, hrest⟩ := Option.bind_eq_some_iff.mp hrun
    exact ih (step_paced h hms he hstep) hevents hrest

-- ---------------------------------------------------------------------------
-- Fetches in an interval
-- ---------------------------------------------------------------------------

/-- The fetches started in the time of one cooldown from `t` on. -/
def startsFrom (cfg : JwksConfig) (s : JwksCache) (t : ℚ) : List ℚ :=
  s.starts.filter fun x => t ≤ x ∧ x ≤ t + cfg.minRefetchMs

theorem length_startsFrom (h : s.Paced cfg) (t : ℚ) : (startsFrom cfg s t).length ≤ 1 := by
  have hspaced := h.spaced.filter fun x => decide (t ≤ x ∧ x ≤ t + cfg.minRefetchMs)
  have hwithin : ∀ x ∈ startsFrom cfg s t, t ≤ x ∧ x ≤ t + cfg.minRefetchMs := fun x hx =>
    of_decide_eq_true (List.mem_filter.mp hx).2
  change (startsFrom cfg s t).Pairwise _ at hspaced
  match hstarts : startsFrom cfg s t with
  | [] | [_] => simp
  | x :: y :: rest =>
    rw [hstarts] at hspaced hwithin
    have hlt := (List.pairwise_cons.mp hspaced).1 y List.mem_cons_self
    have hx := (hwithin x List.mem_cons_self).1
    have hy := (hwithin y (.tail _ List.mem_cons_self)).2
    linarith

/-- As long as every fetch that ends brings keys, one fetch is started in a cooldown. -/
theorem one_fetch_per_cooldown {inline : Option (List Json)} {clock : ℚ} {events : List Event}
    (hms : cfg.minRefetchMs ≤ cfg.ttlMs) (he : ∀ e ∈ events, e.Supplies)
    (hrun : (new inline clock).run cfg events = some s) (t : ℚ) :
    (s.startsFrom cfg t).length ≤ 1 :=
  length_startsFrom (run_paced (paced_new inline clock) hms he hrun) t

-- ---------------------------------------------------------------------------
-- A registry that is down
-- ---------------------------------------------------------------------------

def remote : JwksConfig := { uri := true }

/-- Three calls in two milliseconds, each after the failure of the last fetch. -/
def outage : List Event :=
  [.get (some (js "a")), .settle (.status 503), .tick 1001,
    .get (some (js "b")), .settle (.status 503), .tick 1002, .get (some (js "c"))]

theorem outage_starts : ∃ s, (new none 1000).run remote outage = some s ∧
    s.starts = [1000, 1001, 1002] := by
  have hrun : ((new none 1000).run remote outage).map (·.starts) = some [1000, 1001, 1002] := by
    decide +kernel
  exact Option.map_eq_some_iff.mp hrun

/-- The fetches after the first one are started in one cooldown. -/
theorem outage_refetches :
    ¬ ∀ (cfg : JwksConfig) (inline : Option (List Json)) (clock : ℚ) (events : List Event)
      (s : JwksCache), cfg.minRefetchMs ≤ cfg.ttlMs → (new inline clock).run cfg events = some s →
        ∀ t, ((s.starts.drop 1).filter fun x => t ≤ x ∧ x ≤ t + cfg.minRefetchMs).length ≤ 1 := by
  intro h
  obtain ⟨s, hrun, hstarts⟩ := outage_starts
  have hms : remote.minRefetchMs ≤ remote.ttlMs := by decide +kernel
  have hone := h remote none 1000 outage s hms hrun 1001
  rw [hstarts] at hone
  revert hone
  decide +kernel

/-- A fetch that brings a key, and unknown keys asked for meanwhile. -/
def supplied : List Event :=
  [.get (some (js "a")), .get (some (js "b")),
    .settle (.document (.object [(js "keys", .array [.object [(js "kid", .string (js "a"))]])])),
    .resume 0, .resume 0, .tick 40000, .get (some (js "c"))]

theorem one_fetch_per_cooldown_sample : ∃ s, (new none 1000).run remote supplied = some s ∧
    s.starts = [1000, 40000] ∧ (s.startsFrom remote 1000).length ≤ 1 := by
  have hms : remote.minRefetchMs ≤ remote.ttlMs := by decide +kernel
  have hsupplies : ∀ e ∈ supplied, e.Supplies := by
    have hdocument : Event.Supplies (.settle (.document
        (.object [(js "keys", .array [.object [(js "kid", .string (js "a"))]])]))) :=
      ⟨_, rfl, by simp⟩
    simp only [supplied, List.forall_mem_cons]
    exact ⟨trivial, trivial, hdocument, trivial, trivial, trivial, trivial, by simp⟩
  have hrun : ((new none 1000).run remote supplied).map (·.starts) = some [1000, 40000] := by
    decide +kernel
  obtain ⟨s, hrun, hstarts⟩ := Option.map_eq_some_iff.mp hrun
  exact ⟨s, hrun, hstarts, one_fetch_per_cooldown hms hsupplies hrun 1000⟩

end JwksCache

end EsigSuite.Gateway
