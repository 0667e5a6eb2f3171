import EsigSuite.Pdf.TimestampResponse
import EsigSuite.Pdf.Coverage
import EsigSuite.Lib.FirstOk

/-!
# Failover between time-stamp authorities

`TsaPool` of `esig-gateway/src/tsa.ts`. The transport takes any body that is not
empty for a success, the probe parses it.
-/

namespace EsigSuite.Gateway

open Lib

structure TsaConfig where
  urls : List String
  required : Bool := false

structure TsaHealth where
  configured : Bool
  healthy : Bool
  endpoint : Option String := none
  error : Option String := none
  checkedAt : Option Int := none
  deriving DecidableEq

structure TsaPool where
  cfg : TsaConfig
  lastHealth : TsaHealth
  lastProbeAt : Int := 0
  probeIntervalMs : Int := 60000

/-- What comes of a request to an endpoint. -/
inductive Answer
  /-- `fetch` throws: a network error, or the timeout. -/
  | failed (message : String)
  /-- Reading the body may fail too. -/
  | response (status : Nat) (body : Except String Bytes)

structure Endpoint where
  url : String
  answer : Answer

namespace TsaPool

def new (cfg : TsaConfig) : TsaPool where
  cfg
  lastHealth := { configured := !cfg.urls.isEmpty, healthy := cfg.urls.isEmpty }

def configured (pool : TsaPool) : Bool := !pool.cfg.urls.isEmpty

def post (endpoint : Endpoint) : Except String Bytes :=
  match endpoint.answer with
  | .failed message => .error message
  | .response status body =>
    if ¬ (200 ≤ status ∧ status ≤ 299) then .error ("HTTP " ++ toString status)
    else
      match body with
      | .error message => .error message
      | .ok [] => .error "empty TimeStampResp"
      | .ok (b :: buf) => .ok (b :: buf)

def record (pool : TsaPool) (h : TsaHealth) (now : Int) : TsaPool :=
  { pool with lastHealth := h, lastProbeAt := now }

def joined (errors : List (Endpoint × String)) : String :=
  "; ".intercalate (errors.map fun e => e.1.url ++ ": " ++ e.2)

/-- `fetch` of the transport, over the answers of the endpoints in configured
order. -/
def fetch (pool : TsaPool) (endpoints : List Endpoint) (now : Int) : Except String Bytes × TsaPool :=
  match firstOk post endpoints with
  | .ok (endpoint, resp) =>
    (.ok resp, pool.record
      { configured := true, healthy := true, endpoint := some endpoint.url, checkedAt := some now } now)
  | .error errors =>
    (.error ("all TSA endpoints failed — " ++ joined errors), pool.record
      { configured := true, healthy := false, endpoint := pool.cfg.urls.head?
        error := some (joined errors), checkedAt := some now } now)

/-- The attempt of the probe, with the text of a parse error. -/
def postAndParse (forge : Forge) (string : Nat → String) (endpoint : Endpoint) : Except String Asn1 := do
  let respDer ← post endpoint
  (parseTimeStampResp forge respDer).mapError (·.text string)

def probe (forge : Forge) (string : Nat → String) (pool : TsaPool) (endpoints : List Endpoint)
    (now : Int) : TsaPool :=
  match firstOk (postAndParse forge string) endpoints with
  | .ok (endpoint, _) =>
    pool.record
      { configured := true, healthy := true, endpoint := some endpoint.url, checkedAt := some now } now
  | .error errors =>
    pool.record
      { configured := true, healthy := false, error := some (joined errors), checkedAt := some now } now

/-- `health`: the last result while it is fresh. -/
def health (forge : Forge) (string : Nat → String) (pool : TsaPool) (endpoints : List Endpoint)
    (now : Int) : TsaHealth × TsaPool :=
  if !pool.configured then ({ configured := false, healthy := true }, pool)
  else if now - pool.lastProbeAt < pool.probeIntervalMs then (pool.lastHealth, pool)
  else
    let pool := pool.probe forge string endpoints now
    (pool.lastHealth, pool)

-- ---------------------------------------------------------------------------
-- Granted responses
-- ---------------------------------------------------------------------------

section
variable (forge : Forge) (string : Nat → String)

/-- The endpoint answers with this granted response. -/
def Granted (endpoint : Endpoint) (body : Bytes) : Prop :=
  post endpoint = .ok body ∧ ∃ token, parseTimeStampResp forge body = .ok token

/-- The response of the first endpoint that grants one is used, the calls fail
where none does, and the health says which, as the probe would. -/
structure FailsOver (pool : TsaPool) (endpoints : List Endpoint) (now : Int) : Prop where
  first : ∀ before endpoint after body, endpoints = before ++ endpoint :: after →
    Granted forge endpoint body → (∀ b ∈ before, ∀ body', ¬ Granted forge b body') →
    (pool.fetch endpoints now).1 = .ok body
  none : (∀ endpoint ∈ endpoints, ∀ body, ¬ Granted forge endpoint body) →
    ∃ message, (pool.fetch endpoints now).1 = .error message
  healthy : (pool.fetch endpoints now).2.lastHealth.healthy = true ↔
    ∃ endpoint ∈ endpoints, ∃ body, Granted forge endpoint body
  agrees : (pool.fetch endpoints now).2.lastHealth.healthy =
    (pool.probe forge string endpoints now).lastHealth.healthy

/-- The first endpoint that answers with a body at all grants a token in it. -/
def FirstAnswerGranted (endpoints : List Endpoint) : Prop :=
  ∀ before endpoint after body, endpoints = before ++ endpoint :: after →
    (∀ b ∈ before, ∃ message, post b = .error message) → post endpoint = .ok body →
    ∃ token, parseTimeStampResp forge body = .ok token

end

section
variable {forge : Forge} {string : Nat → String} {pool : TsaPool} {endpoints : List Endpoint} {now : Int}

theorem postAndParse_ok {endpoint : Endpoint} {token : Asn1} :
    postAndParse forge string endpoint = .ok token ↔
      ∃ body, post endpoint = .ok body ∧ parseTimeStampResp forge body = .ok token := by
  cases hpost : post endpoint with
  | error message => simp [postAndParse, hpost, Bind.bind, Except.bind]
  | ok body =>
    cases hparse : parseTimeStampResp forge body <;>
      simp [postAndParse, hpost, hparse, Bind.bind, Except.bind, Except.mapError]

theorem postAndParse_error {endpoint : Endpoint} :
    (∃ message, postAndParse forge string endpoint = .error message) ↔
      ∀ body, ¬ Granted forge endpoint body := by
  constructor
  · rintro ⟨message, herror⟩ body ⟨hpost, token, hparse⟩
    rw [postAndParse_ok.mpr ⟨body, hpost, hparse⟩] at herror
    cases herror
  · intro hnot
    cases hattempt : postAndParse forge string endpoint with
    | error message => exact ⟨message, rfl⟩
    | ok token =>
      obtain ⟨body, hpost, hparse⟩ := postAndParse_ok.mp hattempt
      exact absurd ⟨hpost, token, hparse⟩ (hnot body)

/-- The probe finds the first granted response, or none of the endpoints has one. -/
theorem granted_cases (forge : Forge) (string : Nat → String) (endpoints : List Endpoint) :
    (∃ before endpoint after body, endpoints = before ++ endpoint :: after ∧
      Granted forge endpoint body ∧ (∀ b ∈ before, ∀ body', ¬ Granted forge b body') ∧
      ∃ token, firstOk (postAndParse forge string) endpoints = .ok (endpoint, token)) ∨
    ((∀ endpoint ∈ endpoints, ∀ body, ¬ Granted forge endpoint body) ∧
      ∃ errors, firstOk (postAndParse forge string) endpoints = .error errors) := by
  cases hfirst : firstOk (postAndParse forge string) endpoints with
  | ok found =>
    obtain ⟨before, after, hsplit, hattempt, hfailed⟩ := firstOk_eq_ok.mp hfirst
    obtain ⟨body, hpost, hparse⟩ := postAndParse_ok.mp hattempt
    exact .inl ⟨before, found.1, after, body, hsplit, ⟨hpost, found.2, hparse⟩,
      fun b hb => postAndParse_error.mp (hfailed b hb), found.2, rfl⟩
  | error errors =>
    have hfailed := firstOk_eq_error.mp ⟨errors, hfirst⟩
    exact .inr ⟨fun endpoint hmem => postAndParse_error.mp (hfailed endpoint hmem), errors, rfl⟩

theorem fetch_ok (pool : TsaPool) (now : Int) {endpoint : Endpoint} {resp : Bytes}
    (h : firstOk post endpoints = .ok (endpoint, resp)) :
    (pool.fetch endpoints now).1 = .ok resp ∧
      (pool.fetch endpoints now).2.lastHealth.healthy = true := by
  rw [fetch, h]
  exact ⟨rfl, rfl⟩

theorem fetch_error (pool : TsaPool) (now : Int) {errors : List (Endpoint × String)} (h : firstOk post endpoints = .error errors) :
    (∃ message, (pool.fetch endpoints now).1 = .error message) ∧
      (pool.fetch endpoints now).2.lastHealth.healthy = false := by
  rw [fetch, h]
  exact ⟨⟨_, rfl⟩, rfl⟩

/-- The probe is right about the endpoints. -/
theorem probe_healthy : (pool.probe forge string endpoints now).lastHealth.healthy = true ↔
    ∃ endpoint ∈ endpoints, ∃ body, Granted forge endpoint body := by
  rw [probe]
  rcases granted_cases forge string endpoints with
    ⟨before, endpoint, after, body, rfl, hgranted, -, token, hfirst⟩ | ⟨hnone, errors, hfirst⟩
  · rw [hfirst]
    exact ⟨fun _ => ⟨endpoint, List.mem_append_right _ List.mem_cons_self, body, hgranted⟩, fun _ => rfl⟩
  · rw [hfirst]
    refine ⟨nofun, ?_⟩
    rintro ⟨endpoint, hmem, body, hgranted⟩
    exact absurd hgranted (hnone endpoint hmem body)

/-- The transport fails over like the probe exactly when the first body that it
gets is a granted response. -/
theorem failsOver_iff (forge : Forge) (string : Nat → String) (pool : TsaPool)
    (endpoints : List Endpoint) (now : Int) :
    FailsOver forge string pool endpoints now ↔ FirstAnswerGranted forge endpoints := by
  constructor
  · intro h before endpoint after body hsplit hfailed hpost
    obtain ⟨hresult, hhealthy⟩ := fetch_ok pool now
      (firstOk_eq_ok.mpr ⟨before, after, hsplit, hpost, hfailed⟩)
    rcases granted_cases forge string endpoints with
      ⟨before', endpoint', after', body', hsplit', hgranted, hnone, -⟩ | ⟨hnone, -⟩
    · have hfirst := h.first before' endpoint' after' body' hsplit' hgranted hnone
      rw [hresult] at hfirst
      cases hfirst
      exact hgranted.2
    · obtain ⟨message, herror⟩ := h.none hnone
      rw [hresult] at herror
      cases herror
  · intro h
    have hhealthy : (pool.fetch endpoints now).2.lastHealth.healthy = true ↔
        ∃ endpoint ∈ endpoints, ∃ body, Granted forge endpoint body := by
      cases hfirst : firstOk post endpoints with
      | ok found =>
        obtain ⟨before, after, hsplit, hpost, hfailed⟩ := firstOk_eq_ok.mp hfirst
        have hparse := h before found.1 after found.2 hsplit hfailed hpost
        refine iff_of_true (fetch_ok pool now hfirst).2 ⟨found.1, ?_, found.2, hpost, hparse⟩
        rw [hsplit]
        exact List.mem_append_right _ List.mem_cons_self
      | error errors =>
        refine iff_of_false (by simp [(fetch_error pool now hfirst).2]) ?_
        rintro ⟨endpoint, hmem, body, hpost, -⟩
        obtain ⟨message, herror⟩ := firstOk_eq_error.mp ⟨errors, hfirst⟩ endpoint hmem
        rw [hpost] at herror
        cases herror
    refine ⟨fun before endpoint after body hsplit hgranted hnone => ?_, fun hnone => ?_, hhealthy,
      Bool.eq_iff_iff.mpr (hhealthy.trans probe_healthy.symm)⟩
    · cases hfirst : firstOk post endpoints with
      | ok found =>
        obtain ⟨before', after', hsplit', hpost, hfailed⟩ := firstOk_eq_ok.mp hfirst
        obtain ⟨token', hparse'⟩ := h before' found.1 after' found.2 hsplit' hfailed hpost
        obtain ⟨hbody, token, hparse⟩ := hgranted
        have hprobe : firstOk (postAndParse forge string) endpoints = .ok (endpoint, token) :=
          firstOk_eq_ok.mpr ⟨before, after, hsplit, postAndParse_ok.mpr ⟨body, hbody, hparse⟩,
            fun b hb => postAndParse_error.mpr (hnone b hb)⟩
        have hprobe' : firstOk (postAndParse forge string) endpoints = .ok (found.1, token') := by
          refine firstOk_eq_ok.mpr ⟨before', after', hsplit',
            postAndParse_ok.mpr ⟨found.2, hpost, hparse'⟩, fun b hb => ?_⟩
          obtain ⟨message, herror⟩ := hfailed b hb
          refine postAndParse_error.mpr fun body' hgranted' => ?_
          rw [hgranted'.1] at herror
          cases herror
        rw [hprobe] at hprobe'
        cases hprobe'
        rw [hpost] at hbody
        cases hbody
        exact (fetch_ok pool now hfirst).1
      | error errors =>
        obtain ⟨message, herror⟩ := firstOk_eq_error.mp ⟨errors, hfirst⟩ endpoint
          (hsplit ▸ List.mem_append_right _ List.mem_cons_self)
        rw [hgranted.1] at herror
        cases herror
    · cases hfirst : firstOk post endpoints with
      | ok found =>
        obtain ⟨endpoint, hmem, body, hgranted⟩ := hhealthy.mp (fetch_ok pool now hfirst).2
        exact absurd hgranted (hnone endpoint hmem body)
      | error errors => exact (fetch_error pool now hfirst).1

end

/-- PKIStatus granted, with an empty octet string for the token. -/
def grantedResponse : Bytes := [0x30, 7, 0x30, 3, 2, 1, 0, 4, 0]

/-- The first endpoint answers with the error page of a proxy. -/
def proxied : List Endpoint :=
  [{ url := "http://a", answer := .response 200 (.ok [60]) },
    { url := "http://b", answer := .response 200 (.ok grantedResponse) }]

theorem rejected_returned : ¬ ∀ forge string pool endpoints now,
    FailsOver forge string pool endpoints now := by
  intro h
  have hfails := h Sample.forge toString (new { urls := ["http://a", "http://b"] }) proxied 0
  have hnone : ∀ b ∈ proxied.take 1, ∀ body, ¬ Granted Sample.forge b body := by
    rintro b hb body ⟨hpost, token, hparse⟩
    obtain rfl := List.mem_singleton.mp hb
    cases hpost
    cases hparse
  have hfirst := hfails.first (proxied.take 1) proxied[1] [] grantedResponse rfl ⟨rfl, _, rfl⟩ hnone
  cases hfirst

end TsaPool

end EsigSuite.Gateway
