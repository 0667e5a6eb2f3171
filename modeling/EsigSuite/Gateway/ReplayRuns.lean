import EsigSuite.Gateway.Auth

/-!
# Tokens that are presented again

A token that was accepted is in the replay cache until it expires or makes room
for another. While nothing makes room no jti is accepted twice.
-/

namespace EsigSuite.Gateway

open Lib

-- ---------------------------------------------------------------------------
-- Runs
-- ---------------------------------------------------------------------------

/-- A token at a time, with the answer of the JWKS then. -/
structure Presented where
  token : JsString
  jwks : Option Json → Except GatewayThrown Json
  now : Double

section
variable {Key : Type} (host : CryptoHost Key) (cfg : JwtAuthConfig)

def verified (replay : ReplayCache) (c : Presented) : Except GatewayThrown Json × ReplayCache :=
  verifyJwt host cfg c.jwks c.token c.now replay

/-- What the calls return, one after the other. -/
def outcomes : ReplayCache → List Presented → List (Presented × Except GatewayThrown Json)
  | _, [] => []
  | replay, c :: rest => (c, (verified host cfg replay c).1) :: outcomes (verified host cfg replay c).2 rest

/-- When a token expires, by its claims. -/
def expiresAt (claims : Json) : JsNumber :=
  (numberOf claims "exp").bind fun exp => JsNumber.add (msOf exp) (msOf cfg.clockSkewSec)

/-- No jti is accepted again before the token that was accepted with it expires. -/
def SingleUse (results : List (Presented × Except GatewayThrown Json)) : Prop :=
  results.Pairwise fun a b => ∀ claims claims', a.2 = .ok claims → b.2 = .ok claims' →
    stringClaim claims' "jti" = stringClaim claims "jti" →
    ¬ JsNumber.lt (some b.1.now) (expiresAt cfg claims) = true

/-- A token that passes all checks and is not a replay finds room in the cache. -/
def HasRoom (replay : ReplayCache) (c : Presented) : Prop :=
  ∀ claims jti expiresAtMs, checkToken host cfg c.jwks c.token c.now = .ok (claims, jti, expiresAtMs) →
    (replay.sweep c.now).live jti c.now = true ∨
      (replay.sweep c.now).seen.length < replay.maxEntries

/-- So do all of them. -/
def AllHaveRoom : ReplayCache → List Presented → Prop
  | _, [] => True
  | replay, c :: rest => HasRoom host cfg replay c ∧ AllHaveRoom (verified host cfg replay c).2 rest

end

-- ---------------------------------------------------------------------------
-- One call
-- ---------------------------------------------------------------------------

section
variable {Key : Type} {host : CryptoHost Key} {cfg : JwtAuthConfig} {replay : ReplayCache}
  {c : Presented} {jti : JsString} {expiry : JsNumber}

theorem refuse_ok {bad : Bool} {detail : JsString} {a : Unit} (h : refuse bad detail = .ok a) :
    bad = false := by
  unfold refuse at h
  split at h
  · cases h
  · next hbad => exact Bool.eq_false_iff.mpr hbad

theorem demand_ok {α : Type} {value : Option α} {detail : JsString} {a : α}
    (h : demand value detail = .ok a) : value = some a := by
  unfold demand at h
  split at h
  · cases h
    rfl
  · cases h

theorem Except.ok_bind {ε α β : Type} (a : α) (f : α → Except ε β) : (Except.ok a >>= f) = f a := rfl

theorem Except.bind_ok {ε α β : Type} {x : Except ε α} {f : α → Except ε β} {b : β}
    (h : (x >>= f) = .ok b) : ∃ a, x = .ok a ∧ f a = .ok b := by
  cases x with
  | error e => cases h
  | ok a => exact ⟨a, rfl, h⟩

/-- What the checks give is what the claims say. -/
theorem checkClaims_ok {now : Double} {claims : Json}
    (h : checkClaims cfg now claims = .ok (jti, expiry)) :
    stringClaim claims "jti" = some jti ∧ expiresAt cfg claims = expiry ∧
      JsNumber.le expiry (some now) = false := by
  unfold checkClaims at h
  obtain ⟨iss, -, h⟩ := Except.bind_ok h
  obtain ⟨_, -, h⟩ := Except.bind_ok h
  obtain ⟨_, -, h⟩ := Except.bind_ok h
  obtain ⟨sub, -, h⟩ := Except.bind_ok h
  obtain ⟨exp, hexp, h⟩ := Except.bind_ok h
  obtain ⟨iat, -, h⟩ := Except.bind_ok h
  obtain ⟨_, hexpired, h⟩ := Except.bind_ok h
  obtain ⟨_, -, h⟩ := Except.bind_ok h
  obtain ⟨_, -, h⟩ := Except.bind_ok h
  obtain ⟨_, -, h⟩ := Except.bind_ok h
  obtain ⟨found, hjti, h⟩ := Except.bind_ok h
  obtain ⟨_, -, h⟩ := Except.bind_ok h
  obtain ⟨_, -, h⟩ := Except.bind_ok h
  obtain ⟨rfl, rfl⟩ := Prod.ext_iff.mp (Except.ok.inj h)
  refine ⟨demand_ok hjti, ?_, refuse_ok hexpired⟩
  rw [expiresAt, demand_ok hexp]
  rfl

theorem checkToken_ok {claims : Json} {jwks : Option Json → Except GatewayThrown Json}
    {token : JsString} {now : Double}
    (h : checkToken host cfg jwks token now = .ok (claims, jti, expiry)) :
    checkClaims cfg now claims = .ok (jti, expiry) := by
  unfold checkToken at h
  split at h
  next =>
    split at h
    next =>
      obtain ⟨⟨alg, key⟩, -, h⟩ := Except.bind_ok h
      dsimp only at h
      split at h
      · cases h
      · cases h
      · obtain ⟨⟨found, at_⟩, hchecked, h⟩ := Except.bind_ok h
        cases h
        exact hchecked
    next => cases h
  next => cases h

/-- A live entry stays while there is room. -/
theorem use_keeps {now : Double} {key : JsString} {value : JsNumber}
    (hentry : OrderedMap.get replay.seen jti = some expiry)
    (hlive : JsNumber.lt (some now) expiry = true) (hkey : key ≠ jti)
    (hroom : (replay.sweep now).live key now = true ∨
      (replay.sweep now).seen.length < replay.maxEntries) :
    OrderedMap.get (replay.use key value now).2.seen jti = some expiry := by
  have hswept : OrderedMap.get (replay.sweep now).seen jti = some expiry :=
    OrderedMap.get_filter hentry (by rw [JsNumber.le_of_lt_false hlive]; rfl)
  unfold ReplayCache.use
  dsimp only
  split
  next => exact hswept
  next hnew =>
    rcases hroom with hreplay | hroom
    · exact absurd hreplay hnew
    · have hsame : (replay.sweep now).makeRoom = replay.sweep now :=
        if_neg (Nat.not_le_of_lt hroom)
      rw [hsame]
      exact (OrderedMap.get_set_of_ne _ (Ne.symm hkey) _).trans hswept

/-- A live jti is a replay. -/
theorem use_live {now : Double} {value : JsNumber}
    (hentry : OrderedMap.get replay.seen jti = some expiry)
    (hlive : JsNumber.lt (some now) expiry = true) :
    (replay.use jti value now).1 = .error (unauthenticated (js "jti replay: " ++ jti)) := by
  have hswept : OrderedMap.get (replay.sweep now).seen jti = some expiry :=
    OrderedMap.get_filter hentry (by rw [JsNumber.le_of_lt_false hlive]; rfl)
  have hfound : (replay.sweep now).live jti now = true := by
    rw [ReplayCache.live, hswept, Option.any_some]
    exact hlive
  unfold ReplayCache.use
  dsimp only
  rw [if_pos hfound]

/-- A token that is accepted is in the cache. -/
theorem use_accepted {value : JsNumber} {now : Double} (h : (replay.use jti value now).1 = .ok ()) :
    OrderedMap.get (replay.use jti value now).2.seen jti = some value := by
  unfold ReplayCache.use at h ⊢
  dsimp only at h ⊢
  split at h
  next => cases h
  next hnew =>
    rw [if_neg hnew]
    exact OrderedMap.get_set_self _ _ _

/-- What an accepted token says, and that its jti was recorded. -/
theorem verified_ok {claims : Json} (h : (verified host cfg replay c).1 = .ok claims) :
    ∃ jti expiry, checkToken host cfg c.jwks c.token c.now = .ok (claims, jti, expiry) ∧
      (replay.use jti expiry c.now).1 = .ok () ∧
      (verified host cfg replay c).2 = (replay.use jti expiry c.now).2 := by
  unfold verified verifyJwt at h ⊢
  split at h
  next => cases h
  next found jti expiry hchecked =>
    split at h
    next => cases h
    next replay' huse =>
      cases h
      exact ⟨jti, expiry, hchecked, by rw [huse], by rw [huse]⟩

theorem verified_checked {claims : Json} {replay' : ReplayCache}
    (h : checkToken host cfg c.jwks c.token c.now = .ok (claims, jti, expiry))
    (huse : replay.use jti expiry c.now = (.ok (), replay')) :
    verified host cfg replay c = (.ok claims, replay') := by
  rw [verified, verifyJwt, h]
  dsimp only
  rw [huse]

theorem verified_refused {claims : Json} {thrown : GatewayThrown}
    (h : checkToken host cfg c.jwks c.token c.now = .ok (claims, jti, expiry))
    (huse : (replay.use jti expiry c.now).1 = .error thrown) :
    (verified host cfg replay c).1 = .error thrown := by
  rw [verified, verifyJwt, h]
  dsimp only
  split
  next thrown' replay' hresult =>
    rw [hresult] at huse
    exact congrArg Except.error (Except.error.inj huse)
  next replay' hresult =>
    rw [hresult] at huse
    cases huse

/-- A live entry is there after any call that finds room, unless it is renewed. -/
theorem verified_keeps (hentry : OrderedMap.get replay.seen jti = some expiry)
    (hlive : JsNumber.lt (some c.now) expiry = true) (hroom : HasRoom host cfg replay c) :
    OrderedMap.get (verified host cfg replay c).2.seen jti = some expiry ∧
      ∀ claims, (verified host cfg replay c).1 = .ok claims → stringClaim claims "jti" ≠ some jti := by
  have hother : ∀ claims, (verified host cfg replay c).1 = .ok claims →
      stringClaim claims "jti" ≠ some jti := by
    intro claims hok hjti
    obtain ⟨jti', expiry', hchecked, hused, -⟩ := verified_ok hok
    obtain ⟨hjti', -, -⟩ := checkClaims_ok (checkToken_ok hchecked)
    obtain rfl : jti = jti' := Option.some.inj (hjti.symm.trans hjti')
    rw [use_live hentry hlive] at hused
    cases hused
  refine ⟨?_, hother⟩
  unfold verified verifyJwt
  split
  next => exact hentry
  next claims jti' expiry' hchecked =>
    have hkept : OrderedMap.get (replay.use jti' expiry' c.now).2.seen jti = some expiry := by
      by_cases hsame : jti' = jti
      · subst hsame
        have hswept : OrderedMap.get (replay.sweep c.now).seen jti' = some expiry :=
          OrderedMap.get_filter hentry (by rw [JsNumber.le_of_lt_false hlive]; rfl)
        have hfound : (replay.sweep c.now).live jti' c.now = true := by
          rw [ReplayCache.live, hswept, Option.any_some]
          exact hlive
        unfold ReplayCache.use
        dsimp only
        rw [if_pos hfound]
        exact hswept
      · exact use_keeps hentry hlive hsame (hroom claims jti' expiry' hchecked)
    split
    next thrown replay' huse => rwa [huse] at hkept
    next replay' huse => rwa [huse] at hkept

-- ---------------------------------------------------------------------------
-- All calls
-- ---------------------------------------------------------------------------

theorem outcomes_calls (calls : List Presented) (replay : ReplayCache) :
    (outcomes host cfg replay calls).map (·.1) = calls := by
  induction calls generalizing replay with
  | nil => rfl
  | cons c rest ih => rw [outcomes, List.map_cons, ih]

/-- The cache after some calls. -/
def after (host : CryptoHost Key) (cfg : JwtAuthConfig) (replay : ReplayCache)
    (calls : List Presented) : ReplayCache :=
  calls.foldl (fun replay c => (verified host cfg replay c).2) replay

theorem outcomes_append (calls calls' : List Presented) (replay : ReplayCache) :
    outcomes host cfg replay (calls ++ calls') =
      outcomes host cfg replay calls ++ outcomes host cfg (after host cfg replay calls) calls' := by
  induction calls generalizing replay with
  | nil => rfl
  | cons c rest ih =>
    rw [List.cons_append, outcomes, outcomes, ih]
    rfl

/-- While an entry is live no other token with its jti is accepted. -/
theorem not_accepted_again {calls : List Presented} {replay : ReplayCache}
    (hentry : OrderedMap.get replay.seen jti = some expiry)
    (hsorted : calls.Pairwise fun a b => a.now ≤ b.now) (hroom : AllHaveRoom host cfg replay calls) :
    ∀ result ∈ outcomes host cfg replay calls, ∀ claims, result.2 = .ok claims →
      stringClaim claims "jti" = some jti → ¬ JsNumber.lt (some result.1.now) expiry = true := by
  induction calls generalizing replay with
  | nil => exact List.forall_mem_nil _
  | cons c rest ih =>
    obtain ⟨hlater, hsorted⟩ := List.pairwise_cons.mp hsorted
    by_cases hlive : JsNumber.lt (some c.now) expiry = true
    · obtain ⟨hkept, hother⟩ := verified_keeps hentry hlive hroom.1
      refine List.forall_mem_cons.mpr ⟨fun claims hok hjti => ?_, ih hkept hsorted hroom.2⟩
      exact absurd hjti (hother claims hok)
    · -- the token that was accepted has expired, and stays so
      have htimes : ∀ result ∈ outcomes host cfg replay (c :: rest), c.now ≤ result.1.now := by
        intro result hresult
        have hmem : result.1 ∈ c :: rest := by
          rw [← (outcomes_calls (c :: rest) replay : (outcomes host cfg replay (c :: rest)).map (·.1) = _)]
          exact List.mem_map_of_mem hresult
        rcases List.mem_cons.mp hmem with hsame | hrest
        · rw [hsame]
        · exact hlater _ hrest
      intro result hresult claims _ _ hstill
      exact hlive (JsNumber.lt_of_le_of_lt (htimes result hresult) hstill)

/-- In a run at times that do not go back, no jti is accepted again before the
token that was accepted with it expires, if every new token finds room. -/
theorem single_use {calls : List Presented} {maxEntries : Nat}
    (hsorted : calls.Pairwise fun a b => a.now ≤ b.now)
    (hroom : AllHaveRoom host cfg { maxEntries } calls) :
    SingleUse cfg (outcomes host cfg { maxEntries } calls) := by
  suffices ∀ (calls : List Presented) (replay : ReplayCache),
      calls.Pairwise (fun a b => a.now ≤ b.now) → AllHaveRoom host cfg replay calls →
      SingleUse cfg (outcomes host cfg replay calls) from this calls _ hsorted hroom
  intro calls replay hsorted hroom
  induction calls generalizing replay with
  | nil => exact .nil
  | cons c rest ih =>
    obtain ⟨-, hsorted⟩ := List.pairwise_cons.mp hsorted
    refine List.pairwise_cons.mpr ⟨fun result hresult claims claims' hok hok' hjti => ?_,
      ih _ hsorted hroom.2⟩
    obtain ⟨jti, expiry, hchecked, hused, hafter⟩ := verified_ok hok
    obtain ⟨hjtiOf, hexpiry, -⟩ := checkClaims_ok (checkToken_ok hchecked)
    have hentry : OrderedMap.get (verified host cfg replay c).2.seen jti = some expiry := by
      rw [hafter]
      exact use_accepted hused
    rw [hexpiry]
    exact not_accepted_again hentry hsorted hroom.2 result hresult claims' hok' (hjti.trans hjtiOf)

end

-- ---------------------------------------------------------------------------
-- A full cache
-- ---------------------------------------------------------------------------

namespace TokenSample

/-- Every signature is good. -/
def host : CryptoHost Unit where
  createPublicKey _ := some ()
  asymmetricKeyType _ := js "rsa"
  verify _ _ _ _ := .ok true

def cfg : JwtAuthConfig where
  issuer := js "pdp"
  audience := js "gateway"
  maxLifetimeSec := .finite 600
  clockSkewSec := .finite 0
  requiredScope := js "esig:sign"

def header : Json := .object [(js "alg", .string (js "RS256"))]

/-- A token that was issued at time 0. -/
def claims (jti : JsString) (exp : Nat) : Json :=
  .object
    [(js "iss", .string (js "pdp")), (js "aud", .string (js "gateway")),
      (js "sub", .string (js "workload")), (js "exp", .number (.finite exp)),
      (js "iat", .number (.finite 0)), (js "jti", .string jti),
      (js "scope", .string (js "esig:sign"))]

def segment (value : Json) : JsString := b64 (Utf8.encode (Json.stringify value))

def token (jti : JsString) (exp : Nat) : JsString :=
  segment header ++ 46 :: (segment (claims jti exp) ++ [46])

/-- All at time 0, with an empty JWK. -/
def presented (jti : JsString) (exp : Nat) : Presented where
  token := token jti exp
  jwks _ := .ok (.object [])
  now := .finite 0

theorem segment_dotless (value : Json) : (46 : UInt16) ∉ segment value := by
  intro h
  obtain ⟨code, hcode, heq⟩ := List.mem_map.mp h
  have htext := Base64.isText_encode _ code hcode
  have hdot : code = 46 := by
    apply UInt8.toNat_inj.mp
    have hnat := congrArg UInt16.toNat heq
    simpa using hnat
  rw [hdot] at htext
  exact absurd htext (by decide)

theorem splitOn_token (jti : JsString) (exp : Nat) :
    (token jti exp).splitOn 46 = [segment header, segment (claims jti exp), []] := by
  rw [token, List.splitOn_append_cons_self_of_not_mem (segment_dotless _),
    List.splitOn_append_cons_self_of_not_mem (segment_dotless _), List.splitOn_nil]

theorem parseSegment_segment {value : Json} (h : value.Plain) : parseSegment (segment value) = some value := by
  rw [parseSegment, b64u, segment, fromBase64_b64, Utf8.decode_encode, Json.parse_stringify h]

theorem claims_plain (jti : JsString) {exp : Nat} (h : exp < 2 ^ 53) : (claims jti exp).Plain := by
  refine ⟨by simp +decide, trivial, trivial, trivial, Double.exact_nat h, ?_, trivial, trivial, trivial⟩
  exact Double.exact_int (by decide)

theorem msOf_nat {n : Nat} (h : n * 1000 < 2 ^ 53) : msOf (.finite n) = some (.finite (n * 1000)) := by
  have hround := Double.exact_nat h
  rw [Double.Exact, Nat.cast_mul] at hround
  change some (Double.round (n * 1000)) = _
  rw [show (1000 : ℚ) = ((1000 : Nat) : ℚ) by norm_num, hround]

theorem round_nat {n : Nat} (h : n < 2 ^ 53) : Double.round n = .finite n := Double.exact_nat h

/-- A token of the sample passes. -/
theorem checkClaims_claims {jti : JsString} {exp : Nat} (hjti : jti ≠ []) (hpos : 0 < exp)
    (hexp : exp ≤ 600) :
    checkClaims cfg (.finite 0) (claims jti exp) = .ok (jti, some (.finite (exp * 1000))) := by
  have hiss : propertyOf (claims jti exp) "iss" = .ok (some (.string (js "pdp"))) := by rfl
  have haud : member (claims jti exp) "aud" = some (.string (js "gateway")) := by rfl
  have hsub : stringClaim (claims jti exp) "sub" = some (js "workload") := by rfl
  have hexpiry : numberOf (claims jti exp) "exp" = some (.finite exp) := by rfl
  have hiat : numberOf (claims jti exp) "iat" = some (.finite 0) := by rfl
  have hnbf : numberOf (claims jti exp) "nbf" = none := by rfl
  have hjtiClaim : stringClaim (claims jti exp) "jti" = some jti := by
    change (if jti = [] then none else some jti) = some jti
    rw [if_neg hjti]
  have hscopes : includesString (scopesOf (claims jti exp)) cfg.requiredScope = true := by rfl
  have htenant : member (claims jti exp) "tenant" = none := by rfl
  have hskew : msOf cfg.clockSkewSec = some (.finite 0) := by decide +kernel
  have hms : msOf (.finite exp) = some (.finite (exp * 1000)) := msOf_nat (by omega)
  have hend : JsNumber.add (msOf (.finite exp)) (msOf cfg.clockSkewSec) = some (.finite (exp * 1000)) := by
    rw [hms, hskew]
    change some (Double.round (exp * 1000 + 0)) = _
    have hround := round_nat (n := exp * 1000) (by omega)
    rw [Nat.cast_mul] at hround
    rw [add_zero]
    exact congrArg some hround
  have hlifetime : JsNumber.sub (some (.finite exp)) (some (.finite 0)) = some (.finite exp) := by
    change some (Double.round (exp + -0)) = _
    rw [neg_zero, add_zero, round_nat (by omega)]
  have hissued : JsNumber.lt (some (.finite 0))
      (JsNumber.sub (msOf (.finite 0)) (msOf cfg.clockSkewSec)) = false := by decide +kernel
  have hopen : JsNumber.le (some (.finite (exp * 1000))) (some (.finite 0)) = false := by
    refine decide_eq_false ?_
    rw [Double.finite_le, not_le]
    positivity
  have hshort : JsNumber.lt (some cfg.maxLifetimeSec) (some (.finite exp)) = false := by
    refine decide_eq_false ?_
    change ¬ Double.finite 600 < _
    rw [Double.finite_lt, not_lt]
    exact_mod_cast hexp
  have hissuer : isString cfg.issuer (some (.string (js "pdp"))) = true := by rfl
  have haudience : includesString [.string (js "gateway")] cfg.audience = true := by rfl
  simp only [checkClaims, Except.ok_bind, refuse_false, demand_some, Bool.not_true, Option.any_none,
    hiss, hissuer, haud, haudience, hsub, hexpiry, hiat, hend, hopen, hissued, hnbf, hlifetime, hshort,
    hjtiClaim, hscopes, htenant]
  rfl

/-- A token of the sample is refused only as a replay. -/
theorem checkToken_presented {jti : JsString} {exp : Nat} (hjti : jti ≠ []) (hpos : 0 < exp)
    (hexp : exp ≤ 600) :
    checkToken host cfg (presented jti exp).jwks (presented jti exp).token (.finite 0) =
      .ok (claims jti exp, jti, some (.finite (exp * 1000))) := by
  have hheader : header.Plain := ⟨by simp, trivial, trivial⟩
  have hkey : keyFor host (presented jti exp).jwks header = .ok (.RS256, ()) := by rfl
  change checkToken host cfg _ (token jti exp) _ = _
  rw [checkToken, splitOn_token]
  dsimp only
  rw [parseSegment_segment hheader, parseSegment_segment (claims_plain jti (by omega))]
  dsimp only
  rw [hkey]
  change ((checkClaims cfg (.finite 0) (claims jti exp)).bind fun r => .ok (claims jti exp, r.1, r.2)) = _
  rw [checkClaims_claims hjti hpos hexp]
  rfl

def entry (token : JsString × Nat) : JsString × JsNumber := (token.1, some (.finite (token.2 * 1000)))

/-- The cache that holds some tokens, in the order in which they came. -/
def holding (maxEntries : Nat) (tokens : List (JsString × Nat)) : ReplayCache :=
  { maxEntries, seen := tokens.map entry }

section
variable {maxEntries : Nat} {tokens : List (JsString × Nat)} {jti : JsString} {exp : Nat}

theorem sweep_holding (hpos : ∀ token ∈ tokens, 0 < token.2) :
    (holding maxEntries tokens).sweep (.finite 0) = holding maxEntries tokens := by
  have hkept : (tokens.map entry).filter (fun e => !JsNumber.le e.2 (some (.finite 0))) =
      tokens.map entry := by
    refine List.filter_eq_self.mpr fun e he => ?_
    obtain ⟨token, htoken, rfl⟩ := List.mem_map.mp he
    have hle : JsNumber.le (some (.finite ((token.2 : ℚ) * 1000))) (some (.finite 0)) = false := by
      refine decide_eq_false ?_
      rw [Double.finite_le, not_le]
      have := hpos token htoken
      positivity
    rw [entry, hle]
    rfl
  rw [ReplayCache.sweep, holding, hkept]

theorem any_holding (hnew : ∀ token ∈ tokens, token.1 ≠ jti) :
    (tokens.map entry).any (·.1 = jti) = false := by
  rw [List.any_eq_false]
  intro e he
  obtain ⟨token, htoken, rfl⟩ := List.mem_map.mp he
  exact fun h => hnew token htoken (of_decide_eq_true h)

/-- A new token of the sample is accepted and recorded. -/
theorem verified_new (hpos : ∀ token ∈ tokens, 0 < token.2) (hnew : ∀ token ∈ tokens, token.1 ≠ jti)
    (hjti : jti ≠ []) (hexp : 0 < exp) (hle : exp ≤ 600) :
    verified host cfg (holding maxEntries tokens) (presented jti exp) =
      (.ok (claims jti exp), ⟨(holding maxEntries tokens).makeRoom.maxEntries,
        OrderedMap.set (holding maxEntries tokens).makeRoom.seen jti (entry (jti, exp)).2⟩) := by
  have hlive : (holding maxEntries tokens).live jti (.finite 0) = false := by
    have hnone : OrderedMap.get (holding maxEntries tokens).seen jti = none :=
      OrderedMap.get_eq_none (any_holding hnew)
    rw [ReplayCache.live, hnone]
    rfl
  refine verified_checked (checkToken_presented hjti hexp hle) ?_
  change (holding maxEntries tokens).use jti (entry (jti, exp)).2 (.finite 0) = _
  rw [ReplayCache.use, sweep_holding hpos]
  dsimp only
  rw [if_neg (by rw [hlive]; exact Bool.false_ne_true)]

/-- There is room for it. -/
theorem verified_roomy (hpos : ∀ token ∈ tokens, 0 < token.2)
    (hnew : ∀ token ∈ tokens, token.1 ≠ jti) (hjti : jti ≠ []) (hexp : 0 < exp) (hle : exp ≤ 600)
    (hroom : tokens.length < maxEntries) :
    verified host cfg (holding maxEntries tokens) (presented jti exp) =
      (.ok (claims jti exp), holding maxEntries (tokens ++ [(jti, exp)])) := by
  have hsame : (holding maxEntries tokens).makeRoom = holding maxEntries tokens := by
    refine if_neg (Nat.not_le_of_lt ?_)
    rwa [holding, List.length_map]
  have hset : OrderedMap.set (holding maxEntries tokens).seen jti (entry (jti, exp)).2 =
      (holding maxEntries (tokens ++ [(jti, exp)])).seen := by
    rw [OrderedMap.set, holding, holding, any_holding hnew, List.map_append]
    rfl
  rw [verified_new hpos hnew hjti hexp hle, hsame, hset]
  rfl

theorem sub_entry {first : JsString} {token : JsString × Nat} (hpos : 1 ≤ token.2) (hle : token.2 ≤ 600) :
    JsNumber.sub (entry (first, 1)).2 (entry token).2 = some (.finite ((1 - token.2) * 1000)) := by
  have hexact : Double.Exact (((1 - (token.2 : ℤ)) * 1000 : ℤ) : ℚ) := Double.exact_int (by omega)
  rw [Double.Exact] at hexact
  push_cast at hexact
  change some (Double.round (((1 : ℕ) : ℚ) * 1000 + -((token.2 : ℚ) * 1000))) = _
  rw [← hexact]
  congr 2
  push_cast
  ring

/-- The first token makes room, if it expires before all others. -/
theorem verified_full {first : JsString} (hlater : ∀ token ∈ tokens, 1 < token.2 ∧ token.2 ≤ 600)
    (hother : ∀ token ∈ tokens, token.1 ≠ first) (hfirst : first ≠ jti)
    (hnew : ∀ token ∈ tokens, token.1 ≠ jti) (hjti : jti ≠ []) (hexp : 0 < exp) (hle : exp ≤ 600)
    (hfull : maxEntries = tokens.length + 1) :
    verified host cfg (holding maxEntries ((first, 1) :: tokens)) (presented jti exp) =
      (.ok (claims jti exp), holding maxEntries (tokens ++ [(jti, exp)])) := by
  have hpositive : ∀ token ∈ (first, 1) :: tokens, 0 < token.2 :=
    List.forall_mem_cons.mpr ⟨Nat.one_pos, fun token h => Nat.lt_trans Nat.one_pos (hlater token h).1⟩
  have hdiffer : ∀ token ∈ (first, 1) :: tokens, token.1 ≠ jti :=
    List.forall_mem_cons.mpr ⟨hfirst, hnew⟩
  have holdest : (holding maxEntries ((first, 1) :: tokens)).oldest = some (entry (first, 1)) := by
    refine List.find?_cons_of_pos ?_
    rw [List.all_eq_true]
    intro e he
    obtain ⟨token, htoken, rfl⟩ := List.mem_map.mp he
    have hbounds : 1 ≤ token.2 ∧ token.2 ≤ 600 := by
      rcases List.mem_cons.mp htoken with rfl | hrest
      · exact ⟨le_rfl, Nat.one_le_ofNat⟩
      · exact ⟨(hlater token hrest).1.le, (hlater token hrest).2⟩
    rw [sub_entry hbounds.1 hbounds.2]
    have hle : ((1 : ℚ) - token.2) * 1000 ≤ 0 := by
      have hone : (1 : ℚ) ≤ token.2 := by exact_mod_cast hbounds.1
      linarith
    have hlt : JsNumber.lt (some (.finite 0)) (some (.finite (((1 : ℚ) - token.2) * 1000))) = false :=
      decide_eq_false (by rwa [Double.finite_lt, not_lt])
    rw [hlt]
    rfl
  have hroom : (holding maxEntries ((first, 1) :: tokens)).makeRoom = holding maxEntries tokens := by
    have hdelete : OrderedMap.delete (holding maxEntries ((first, 1) :: tokens)).seen first =
        tokens.map entry := by
      refine (List.filter_cons_of_neg (by simp [entry])).trans (List.filter_eq_self.mpr fun e he => ?_)
      obtain ⟨token, htoken, rfl⟩ := List.mem_map.mp he
      exact decide_eq_true (hother token htoken)
    rw [ReplayCache.makeRoom, holdest]
    dsimp only
    rw [if_pos (by rw [holding, List.length_map, List.length_cons, hfull])]
    exact congrArg (ReplayCache.mk maxEntries) hdelete
  have hset : OrderedMap.set (holding maxEntries tokens).seen jti (entry (jti, exp)).2 =
      (holding maxEntries (tokens ++ [(jti, exp)])).seen := by
    rw [OrderedMap.set, holding, holding, any_holding hnew, List.map_append]
    rfl
  rw [verified_new hpositive hdiffer hjti hexp hle, hroom, hset]
  rfl

end

-- The first token expires before the others, which are `n` in number.
def first : JsString := js "b"

def other (i : Nat) : JsString × Nat := (List.replicate (i + 1) 97, 2)

def others (n : Nat) : List (JsString × Nat) := (List.range n).map other

theorem other_ne_nil (i : Nat) : (other i).1 ≠ [] := by simp [other]

theorem other_ne_first (i : Nat) : (other i).1 ≠ first := by
  intro h
  have hmem : (98 : UInt16) ∈ (other i).1 := by rw [h]; decide
  exact absurd (List.eq_of_mem_replicate hmem) (by decide)

theorem other_ne {i n : Nat} (h : i < n) : (other i).1 ≠ (other n).1 := by
  intro hsame
  have hlength := congrArg List.length hsame
  simp only [other, List.length_replicate] at hlength
  omega

theorem forall_mem_others {P : JsString × Nat → Prop} {n : Nat} (h : ∀ i < n, P (other i)) :
    ∀ token ∈ others n, P token := by
  intro token htoken
  obtain ⟨i, hi, rfl⟩ := List.mem_map.mp htoken
  exact h i (List.mem_range.mp hi)

theorem others_succ (n : Nat) : others (n + 1) = others n ++ [other n] := by
  rw [others, List.range_succ, List.map_append]
  rfl

def presentedOthers (n : Nat) : List Presented := (others n).map fun token => presented token.1 token.2

theorem after_succ (replay : ReplayCache) (n : Nat) :
    after host cfg replay (presentedOthers (n + 1)) =
      (verified host cfg (after host cfg replay (presentedOthers n)) (presented (other n).1 2)).2 := by
  rw [presentedOthers, others_succ, List.map_append, after, List.foldl_append]
  rfl

/-- The cache fills up behind the first token. -/
theorem after_others {maxEntries n : Nat} (h : n < maxEntries) :
    after host cfg (holding maxEntries [(first, 1)]) (presentedOthers n) =
      holding maxEntries ((first, 1) :: others n) := by
  induction n with
  | zero => rfl
  | succ n ih =>
    have hstep : verified host cfg (holding maxEntries ((first, 1) :: others n))
        (presented (other n).1 2) = _ := verified_roomy
      (List.forall_mem_cons.mpr ⟨Nat.one_pos, forall_mem_others fun _ _ => Nat.two_pos⟩)
      (List.forall_mem_cons.mpr ⟨(other_ne_first n).symm, forall_mem_others fun _ hi => other_ne hi⟩)
      (other_ne_nil n) Nat.two_pos (by decide) (by simpa [others] using h)
    rw [after_succ, ih (Nat.lt_of_succ_lt h), hstep, others_succ]
    rfl

theorem verified_first {maxEntries : Nat} (h : 0 < maxEntries) :
    verified host cfg { maxEntries } (presented first 1) =
      (.ok (claims first 1), holding maxEntries [(first, 1)]) :=
  verified_roomy (List.forall_mem_nil _) (List.forall_mem_nil _) (by decide) Nat.one_pos (by decide) h

/-- As many others as fit in the cache come between two uses of the first token. -/
def crowding (maxEntries : Nat) : List Presented :=
  presented first 1 :: (presentedOthers maxEntries ++ [presented first 1])

theorem crowding_accepted {maxEntries : Nat} (h : 0 < maxEntries) :
    ¬ SingleUse cfg (outcomes host cfg { maxEntries } (crowding maxEntries)) := by
  intro hsingle
  obtain ⟨n, rfl⟩ : ∃ n, maxEntries = n + 1 := Nat.exists_eq_succ_of_ne_zero h.ne'
  have hfull : verified host cfg (holding (n + 1) ((first, 1) :: others n)) (presented (other n).1 2) =
      (.ok (claims (other n).1 2), holding (n + 1) (others (n + 1))) := by
    rw [others_succ]
    exact verified_full (forall_mem_others fun _ _ => ⟨Nat.one_lt_two, show 2 ≤ 600 by decide⟩)
      (forall_mem_others fun i _ => other_ne_first i) (other_ne_first n).symm
      (forall_mem_others fun _ hi => other_ne hi) (other_ne_nil n) Nat.two_pos (by decide)
      (by simp [others])
  have hcrowded : after host cfg (holding (n + 1) [(first, 1)]) (presentedOthers (n + 1)) =
      holding (n + 1) (others (n + 1)) := by
    rw [after_succ, after_others (Nat.lt_succ_self n), hfull]
  have hagain : (verified host cfg (holding (n + 1) (others (n + 1))) (presented first 1)).1 =
      .ok (claims first 1) := by
    rw [verified_new (forall_mem_others fun _ _ => Nat.two_pos)
      (forall_mem_others fun i _ => other_ne_first i) (by decide) Nat.one_pos (by decide)]
  rw [crowding, outcomes, verified_first h, outcomes_append, hcrowded] at hsingle
  have hpair := (List.pairwise_cons.mp hsingle).1 (presented first 1, _)
    (List.mem_append_right _ List.mem_cons_self) (claims first 1) (claims first 1) rfl hagain rfl
  have hvalid : JsNumber.lt (some (.finite 0)) (expiresAt cfg (claims first 1)) = true := by
    decide +kernel
  exact hpair hvalid

end TokenSample

theorem single_use_sample :
    let calls := [TokenSample.presented TokenSample.first 1, TokenSample.presented TokenSample.first 1]
    let results := outcomes TokenSample.host TokenSample.cfg { maxEntries := 10000 } calls
    SingleUse TokenSample.cfg results ∧
      results.map (·.2) = [.ok (TokenSample.claims TokenSample.first 1),
        .error (unauthenticated (js "jti replay: b"))] := by
  have hfirst := TokenSample.verified_first (show 0 < 10000 by decide)
  have hswept : (TokenSample.holding 10000 [(TokenSample.first, 1)]).sweep (.finite 0) =
      TokenSample.holding 10000 [(TokenSample.first, 1)] :=
    TokenSample.sweep_holding (List.forall_mem_singleton.mpr Nat.one_pos)
  have hchecked : checkToken TokenSample.host TokenSample.cfg
      (TokenSample.presented TokenSample.first 1).jwks
      (TokenSample.presented TokenSample.first 1).token (.finite 0) = _ :=
    TokenSample.checkToken_presented (by decide) Nat.one_pos (by decide)
  have hagain : (verified TokenSample.host TokenSample.cfg
      (TokenSample.holding 10000 [(TokenSample.first, 1)])
      (TokenSample.presented TokenSample.first 1)).1 =
      .error (unauthenticated (js "jti replay: " ++ TokenSample.first)) :=
    verified_refused hchecked (use_live rfl (by decide +kernel))
  refine ⟨single_use (by simp) ⟨fun _ _ _ _ => .inr (by decide), ?_, trivial⟩, ?_⟩
  · intro claims jti expiresAtMs _
    rw [hfirst]
    have hroom : ((TokenSample.holding 10000 [(TokenSample.first, 1)]).sweep (.finite 0)).seen.length <
        10000 := by
      rw [hswept]
      decide
    exact .inr hroom
  · rw [outcomes, outcomes, outcomes, hfirst, List.map_cons, List.map_cons, hagain]
    rfl

/-- The cache of the gateway, with as many tokens as fit between two uses of one. -/
theorem accepted_again : ∃ calls, calls.Pairwise (fun a b => a.now ≤ b.now) ∧
    ¬ SingleUse TokenSample.cfg
      (outcomes TokenSample.host TokenSample.cfg { maxEntries := 10000 } calls) := by
  refine ⟨TokenSample.crowding 10000, ?_, TokenSample.crowding_accepted (by decide)⟩
  have hnow : ∀ c ∈ TokenSample.crowding 10000, c.now = .finite 0 := by
    refine List.forall_mem_cons.mpr ⟨rfl, List.forall_mem_append.mpr
      ⟨fun c hc => ?_, List.forall_mem_singleton.mpr rfl⟩⟩
    obtain ⟨token, -, rfl⟩ := List.mem_map.mp hc
    rfl
  exact List.pairwise_of_forall_mem_list fun a ha b hb => by rw [hnow a ha, hnow b hb]

end EsigSuite.Gateway
