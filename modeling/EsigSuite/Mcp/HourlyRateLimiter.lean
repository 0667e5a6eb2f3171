import EsigSuite.Envelope.Model
import EsigSuite.Lib.Replies
import Mathlib.Data.Int.Order.Basic
import Mathlib.Data.List.Induction

/-!
# The hourly cap

`HourlyRateLimiter` of `esig-mcp/src/envelopes.ts`: one list of hits for all the
labels it is asked about.
-/

namespace EsigSuite.Mcp

open Lib

/-- An hour in milliseconds. -/
def HOUR : Int := 60 * 60 * 1000

structure HourlyRateLimiter where
  limit : Nat
  hits : List Int := []

/-- A call of `take` reads the clock for the cutoff and again for the hit. -/
structure Take where
  label : String := "envelope-creation"
  asked : Int
  stamped : Int
  deriving DecidableEq

namespace HourlyRateLimiter

def take (limiter : HourlyRateLimiter) (c : Take) : Except Thrown Unit × HourlyRateLimiter :=
  let cutoffMs := c.asked - HOUR
  let hits := limiter.hits.dropWhile (· < cutoffMs)
  if hits.length ≥ limiter.limit then
    (.error (.error ("hourly " ++ c.label ++ " cap reached (" ++ toString limiter.limit ++ "/hour)")),
      { limiter with hits })
  else (.ok (), { limiter with hits := hits ++ [c.stamped] })

/-- What the calls on a new limiter return. -/
def taken (limit : Nat) (calls : List Take) : List (Take × Except Thrown Unit) :=
  replies take { limit } calls

/-- The clock does not go back. -/
def Timed (calls : List Take) : Prop :=
  (∀ c ∈ calls, c.asked ≤ c.stamped) ∧ calls.Pairwise fun a b => a.stamped ≤ b.asked

def admitted (results : List (Take × Except Thrown Unit)) : List Take :=
  (results.filter (·.2.isOk)).map Prod.fst

/-- The calls admitted within the hour before `now`. -/
def recent (results : List (Take × Except Thrown Unit)) (now : Int) : List Take :=
  (admitted results).filter (now - HOUR ≤ ·.stamped)

/-- Of each label, the window of an hour from any time holds no more than the limit. -/
def Capped (limit : Nat) (results : List (Take × Except Thrown Unit)) : Prop :=
  ∀ label from_, ((admitted results).filter fun c =>
    c.label = label ∧ from_ ≤ c.stamped ∧ c.stamped ≤ from_ + HOUR).length ≤ limit

/-- A label that is refused had its own limit within the hour. -/
def RefusedByLabel (limit : Nat) (results : List (Take × Except Thrown Unit)) : Prop :=
  ∀ before c e after, results = before ++ (c, .error e) :: after →
    limit ≤ ((recent before c.asked).filter (·.label = c.label)).length

/-- Where a call finds the limit of admissions within the hour, labels taken
together, they are all of its label. -/
def Unmixed (limit : Nat) (results : List (Take × Except Thrown Unit)) : Prop :=
  ∀ before c o after, results = before ++ (c, o) :: after → limit ≤ (recent before c.asked).length →
    ∀ a ∈ recent before c.asked, a.label = c.label

-- ---------------------------------------------------------------------------
-- What one call does
-- ---------------------------------------------------------------------------

/-- In a list in order, dropping from the front drops all that is too small. -/
theorem dropWhile_sorted {xs : List Int} (h : xs.Pairwise (· ≤ ·)) (t : Int) :
    xs.dropWhile (· < t) = xs.filter (t ≤ ·) := by
  induction xs with
  | nil => rfl
  | cons x rest ih =>
    obtain ⟨hx, hrest⟩ := List.pairwise_cons.mp h
    by_cases hlt : x < t
    · rw [List.dropWhile_cons_of_pos (by simpa using hlt), ih hrest,
        List.filter_cons_of_neg (by simpa using hlt)]
    · rw [List.dropWhile_cons_of_neg (by simpa using hlt), eq_comm, List.filter_eq_self]
      intro y hy
      rcases List.mem_cons.mp hy with rfl | hy
      · simpa using hlt
      · have := hx y hy
        simp
        omega

theorem admitted_append (results results' : List (Take × Except Thrown Unit)) :
    admitted (results ++ results') = admitted results ++ admitted results' := by
  rw [admitted, List.filter_append, List.map_append, admitted, admitted]

/-- The hits of a limiter are what it needs of the calls it has admitted. -/
structure Tracks (limiter : HourlyRateLimiter) (results : List (Take × Except Thrown Unit))
    (last : Int) : Prop where
  sorted : limiter.hits.Pairwise (· ≤ ·)
  past : ∀ hit ∈ limiter.hits, hit ≤ last
  depth : limiter.hits.length ≤ limiter.limit
  recent : ∀ now, last ≤ now →
    limiter.hits.filter (now - HOUR ≤ ·) = (recent results now).map Take.stamped
  capped : Capped limiter.limit results

section
variable {limiter : HourlyRateLimiter} {results : List (Take × Except Thrown Unit)} {last : Int}
  {c : Take}

theorem Tracks.kept (h : Tracks limiter results last) (hlast : last ≤ c.asked) :
    limiter.hits.dropWhile (· < c.asked - HOUR) =
      (HourlyRateLimiter.recent results c.asked).map Take.stamped := by
  rw [dropWhile_sorted h.sorted, h.recent _ hlast]

/-- A call is refused where the admissions of the hour have reached the limit. -/
theorem Tracks.take_cases (h : Tracks limiter results last) (hlast : last ≤ c.asked) :
    (limiter.limit ≤ (HourlyRateLimiter.recent results c.asked).length ∧
      ∃ e, limiter.take c = (.error e, { limiter with
        hits := (HourlyRateLimiter.recent results c.asked).map Take.stamped })) ∨
    ((HourlyRateLimiter.recent results c.asked).length < limiter.limit ∧
      limiter.take c = (.ok (), { limiter with
        hits := (HourlyRateLimiter.recent results c.asked).map Take.stamped ++ [c.stamped] })) := by
  rw [take, h.kept hlast]
  simp only [List.length_map]
  split <;> rename_i hfull
  · exact .inl ⟨hfull, _, rfl⟩
  · exact .inr ⟨Nat.lt_of_not_le hfull, rfl⟩

theorem Tracks.recent_length (h : Tracks limiter results last) (hlast : last ≤ c.asked) :
    (HourlyRateLimiter.recent results c.asked).length ≤ limiter.limit := by
  rw [← List.length_map Take.stamped, ← h.recent _ hlast]
  exact (List.length_filter_le _ _).trans h.depth

/-- The admissions that count at a time count at every earlier time. -/
theorem recent_recent {now now' : Int} (h : now ≤ now') :
    ((HourlyRateLimiter.recent results now).map Take.stamped).filter (now' - HOUR ≤ ·) =
      (HourlyRateLimiter.recent results now').map Take.stamped := by
  rw [HourlyRateLimiter.recent, HourlyRateLimiter.recent, List.filter_map, List.filter_filter]
  congr 1
  refine List.filter_congr fun a _ => ?_
  simp only [Function.comp_apply, Bool.and_eq_left_iff_imp, decide_eq_true_eq]
  omega

theorem Tracks.refused (h : Tracks limiter results last) (hlast : last ≤ c.asked) {e : Thrown} :
    Tracks { limiter with hits := (HourlyRateLimiter.recent results c.asked).map Take.stamped }
      (results ++ [(c, .error e)]) c.asked := by
  have hsame : admitted (results ++ [(c, .error e)]) = admitted results := by
    rw [admitted_append]
    exact List.append_nil _
  have hkept := h.recent _ hlast
  refine ⟨?_, fun hit hhit => ?_, ?_, fun now hnow => ?_, fun label from_ => ?_⟩
  · rw [← hkept]
    exact h.sorted.filter _
  · dsimp only at hhit
    rw [← hkept] at hhit
    exact (h.past hit (List.mem_of_mem_filter hhit)).trans hlast
  · rw [List.length_map]
    exact h.recent_length hlast
  · dsimp only
    rw [recent_recent hnow, HourlyRateLimiter.recent, HourlyRateLimiter.recent, hsame]
  · rw [hsame]
    exact h.capped label from_

theorem Tracks.admitted (h : Tracks limiter results last) (hlast : last ≤ c.asked)
    (hclock : c.asked ≤ c.stamped)
    (hroom : (HourlyRateLimiter.recent results c.asked).length < limiter.limit) :
    Tracks { limiter with
        hits := (HourlyRateLimiter.recent results c.asked).map Take.stamped ++ [c.stamped] }
      (results ++ [(c, .ok ())]) c.stamped := by
  have hone : HourlyRateLimiter.admitted (results ++ [(c, .ok ())]) =
      HourlyRateLimiter.admitted results ++ [c] := admitted_append _ _
  have hkept := h.recent _ hlast
  refine ⟨?_, fun hit hhit => ?_, ?_, fun now hnow => ?_, fun label from_ => ?_⟩
  · refine List.pairwise_append.mpr ⟨?_, List.pairwise_singleton _ _, fun hit hhit s hs => ?_⟩
    · rw [← hkept]
      exact h.sorted.filter _
    · rw [← hkept] at hhit
      rw [List.mem_singleton.mp hs]
      exact (h.past hit (List.mem_of_mem_filter hhit)).trans (hlast.trans hclock)
  · rcases List.mem_append.mp hhit with hhit | hhit
    · rw [← hkept] at hhit
      exact (h.past hit (List.mem_of_mem_filter hhit)).trans (hlast.trans hclock)
    · exact (List.mem_singleton.mp hhit).le
  · simp only [List.length_append, List.length_map, List.length_singleton]
    exact hroom
  · dsimp only
    rw [List.filter_append, recent_recent (hclock.trans hnow), HourlyRateLimiter.recent,
      HourlyRateLimiter.recent, hone, List.filter_append, List.map_append]
    congr 1
    simp only [List.filter_cons, List.filter_nil]
    split <;> rfl
  · -- a window that the new admission is in reaches back no further than its cutoff
    rw [hone, List.filter_append, List.length_append]
    by_cases hin : c.label = label ∧ from_ ≤ c.stamped ∧ c.stamped ≤ from_ + HOUR
    · have hsub : ((HourlyRateLimiter.admitted results).filter fun a =>
          a.label = label ∧ from_ ≤ a.stamped ∧ a.stamped ≤ from_ + HOUR).Sublist
            (HourlyRateLimiter.recent results c.asked) := by
        refine List.monotone_filter_right _ fun a ha => ?_
        simp only [decide_eq_true_eq] at ha ⊢
        omega
      have hless := hsub.length_le
      have hsingle : ([c].filter fun a => a.label = label ∧ from_ ≤ a.stamped ∧
          a.stamped ≤ from_ + HOUR).length ≤ 1 := List.length_filter_le _ _
      dsimp only
      omega
    · rw [List.filter_cons_of_neg (by simpa using hin)]
      exact h.capped label from_

end

-- ---------------------------------------------------------------------------
-- Any number of calls
-- ---------------------------------------------------------------------------

theorem tracks_new (limit : Nat) (last : Int) : Tracks { limit } [] last where
  sorted := List.Pairwise.nil
  past := nofun
  depth := Nat.zero_le _
  recent _ _ := rfl
  capped _ _ := Nat.zero_le _

theorem tracks_step {limiter : HourlyRateLimiter} {results : List (Take × Except Thrown Unit)}
    {last : Int} {c : Take} (h : Tracks limiter results last) (hlast : last ≤ c.asked)
    (hclock : c.asked ≤ c.stamped) :
    Tracks (limiter.take c).2 (results ++ [(c, (limiter.take c).1)]) c.stamped ∧
      (limiter.take c).2.limit = limiter.limit := by
  rcases h.take_cases hlast with ⟨-, e, htake⟩ | ⟨hroom, htake⟩
  · rw [htake]
    have hkept := h.refused hlast (e := e)
    exact ⟨{ hkept with
      past := fun hit hhit => (hkept.past hit hhit).trans hclock
      recent := fun now hnow => hkept.recent now (hclock.trans hnow) }, rfl⟩
  · rw [htake]
    exact ⟨h.admitted hlast hclock hroom, rfl⟩

theorem tracks_taken {limit : Nat} {calls : List Take} (h : Timed calls) :
    (later take { limit } calls).limit = limit ∧ Capped limit (taken limit calls) ∧
      ∀ last, (∀ c ∈ calls, c.stamped ≤ last) →
        Tracks (later take { limit } calls) (taken limit calls) last := by
  induction calls using List.reverseRecOn with
  | nil => exact ⟨rfl, (tracks_new limit 0).capped, fun last _ => tracks_new limit last⟩
  | append_singleton calls c ih =>
    obtain ⟨hclock, horder⟩ := h
    obtain ⟨hbefore, -, hlast⟩ := List.pairwise_append.mp horder
    obtain ⟨hlimit, -, htracks⟩ := ih ⟨fun a ha => hclock a (List.mem_append_left _ ha), hbefore⟩
    have hc : c ∈ calls ++ [c] := List.mem_append_right _ List.mem_cons_self
    obtain ⟨hstep, hsame⟩ := tracks_step
      (htracks c.asked fun a ha => hlast a ha c List.mem_cons_self) (Int.le_refl _) (hclock c hc)
    have hall := hsame.trans hlimit
    rw [later_append, taken, replies_append]
    refine ⟨hall, ?_, fun last hpast => ?_⟩
    · have hcapped := hstep.capped
      rwa [hall] at hcapped
    · exact { hstep with
        past := fun hit hhit => (hstep.past hit hhit).trans (hpast c hc)
        recent := fun now hnow => hstep.recent now ((hpast c hc).trans hnow) }

theorem Timed.before {early rest : List Take} {c : Take} (h : Timed (early ++ c :: rest)) :
    Timed early ∧ ∀ a ∈ early, a.stamped ≤ c.asked := by
  obtain ⟨hclock, horder⟩ := h
  obtain ⟨hbefore, -, hlast⟩ := List.pairwise_append.mp horder
  exact ⟨⟨fun a ha => hclock a (List.mem_append_left _ ha), hbefore⟩,
    fun a ha => hlast a ha c List.mem_cons_self⟩

/-- No label is admitted more often than the limit in any hour. It is refused for
its own admissions only, exactly where no hour is full of mixed labels. -/
theorem hourly_cap {limit : Nat} {calls : List Take} (h : Timed calls) :
    Capped limit (taken limit calls) ∧
      (RefusedByLabel limit (taken limit calls) ↔ Unmixed limit (taken limit calls)) := by
  refine ⟨(tracks_taken h).2.1, fun hrefused before c o after hsplit hfull => ?_,
    fun hunmixed before c e after hsplit => ?_⟩
  · obtain ⟨early, rest, rfl, rfl, rfl⟩ := replies_split hsplit
    obtain ⟨hearly, hlast⟩ := h.before
    obtain ⟨hlimit, -, htracks⟩ := @tracks_taken limit _ hearly
    have htracks := htracks c.asked hlast
    obtain ⟨-, e, htake⟩ | ⟨hroom, -⟩ := htracks.take_cases (Int.le_refl c.asked)
    · rw [htake] at hsplit
      have hown := hrefused _ _ _ _ hsplit
      have hdepth := htracks.recent_length (Int.le_refl c.asked)
      rw [hlimit] at hdepth
      have hall := List.filter_sublist.eq_of_length_le (hdepth.trans hown)
      intro a ha
      rw [← taken, ← hall] at ha
      simpa using List.of_mem_filter ha
    · rw [hlimit] at hroom
      exact absurd hfull (Nat.not_le_of_lt hroom)
  · obtain ⟨early, rest, rfl, rfl, he⟩ := replies_split hsplit
    obtain ⟨hearly, hlast⟩ := h.before
    obtain ⟨hlimit, -, htracks⟩ := @tracks_taken limit _ hearly
    obtain ⟨hfull, -⟩ | ⟨-, htake⟩ := (htracks c.asked hlast).take_cases (Int.le_refl c.asked)
    · rw [hlimit] at hfull
      have hown := hunmixed _ _ _ _ hsplit hfull
      rw [List.filter_eq_self.mpr fun a ha => by simpa using hown a ha]
      exact hfull
    · rw [htake] at he
      cases he

/-- An envelope and a challenge a second later, and one envelope an hour after. -/
def twoLabels : List Take :=
  [{ asked := 0, stamped := 0 }, { label := "challenge", asked := 1000, stamped := 1000 },
    { asked := HOUR + 1, stamped := HOUR + 1 }]

instance (calls : List Take) : Decidable (Timed calls) :=
  inferInstanceAs (Decidable (_ ∧ _))

theorem hourly_cap_sample :
    Capped 1 (taken 1 twoLabels) ∧
      (RefusedByLabel 1 (taken 1 twoLabels) ↔ Unmixed 1 (taken 1 twoLabels)) ∧
      (taken 1 twoLabels).map (·.2.isOk) = [true, false, true] := by
  obtain ⟨hcapped, hlabels⟩ := @hourly_cap 1 _ (show Timed twoLabels by decide)
  exact ⟨hcapped, hlabels, by decide⟩

/-- The envelope uses up the cap of the challenge. -/
theorem challenge_refused :
    ∃ limit calls, Timed calls ∧ ¬ RefusedByLabel limit (taken limit calls) := by
  refine ⟨1, twoLabels, by decide, fun hrefused => ?_⟩
  have hown := hrefused ((taken 1 twoLabels).take 1) { label := "challenge", asked := 1000, stamped := 1000 }
    (.error "hourly challenge cap reached (1/hour)") ((taken 1 twoLabels).drop 2) (by rfl)
  exact absurd hown (by decide)

end HourlyRateLimiter

end EsigSuite.Mcp
