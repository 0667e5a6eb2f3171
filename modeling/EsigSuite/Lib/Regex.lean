import Mathlib.Data.List.Forall2

/-!
# Backtracking regular expressions

Patterns as `RegExp` reads them, over any letters. `exec` lists the matches that
start at one place in the order in which backtracking tries them, so the first
one is the match. `Accepts` says what a pattern matches without the order;
`exec_sound` and `exec_complete` connect the two.
-/

namespace Lib

variable {α : Type}

/-- An assertion sees the letters on both sides of a place. -/
inductive Regex (α : Type)
  | empty
  | char (p : α → Bool)
  | assert (p : Option α → Option α → Bool)
  | seq (r s : Regex α)
  | alt (r s : Regex α)
  | star (lazy : Bool) (r : Regex α)
  | group (r : Regex α)

/-- The text matched at one place, what the groups hold, and what follows. -/
structure Found (α : Type) where
  text : List α
  groups : List (List α)
  rest : List α

namespace Found

def stop (text : List α) : Found α := ⟨[], [], text⟩

/-- The letter in front of what follows the match. -/
def last (m : Found α) (before : Option α) : Option α := m.text.getLast?.or before

def append (m n : Found α) : Found α := ⟨m.text ++ n.text, m.groups ++ n.groups, n.rest⟩

end Found

namespace Regex

/-- A round that matches nothing ends the repetition, so the text bounds the rounds. -/
def rounds (step : Option α → List α → List (Found α)) (lazy : Bool) :
    Nat → Option α → List α → List (Found α)
  | 0, _, text => [Found.stop text]
  | fuel + 1, before, text =>
    let more := (step before text).flatMap fun m =>
      if m.text.isEmpty then []
      else (rounds step lazy fuel (m.last before) m.rest).map m.append
    if lazy then Found.stop text :: more else more ++ [Found.stop text]

def exec : Regex α → Option α → List α → List (Found α)
  | .empty, _, text => [Found.stop text]
  | .char p, _, c :: text => if p c then [⟨[c], [], text⟩] else []
  | .char _, _, [] => []
  | .assert p, before, text => if p before text.head? then [Found.stop text] else []
  | .seq r s, before, text =>
    (r.exec before text).flatMap fun m => (s.exec (m.last before) m.rest).map m.append
  | .alt r s, before, text => r.exec before text ++ s.exec before text
  | .star lazy r, before, text => rounds (fun b t => r.exec b t) lazy text.length before text
  | .group r, before, text =>
    (r.exec before text).map fun m => { m with groups := m.text :: m.groups }

/-- Whether a match starts anywhere in the text. -/
def test (r : Regex α) : Option α → List α → Bool
  | before, [] => !(r.exec before []).isEmpty
  | before, c :: text => !(r.exec before (c :: text)).isEmpty || r.test (some c) text

-- The equations of the matcher, which many proofs below share.
section
attribute [local simp] rounds exec test
end

-- ---------------------------------------------------------------------------
-- What a pattern accepts
-- ---------------------------------------------------------------------------

/-- The pattern matches the word between the letter before it and the text behind it. -/
inductive Accepts : Regex α → Option α → List α → List α → Prop
  | empty {b t} : Accepts .empty b [] t
  | char {p b c t} (h : p c = true) : Accepts (.char p) b [c] t
  | assert {p b t} (h : p b t.head? = true) : Accepts (.assert p) b [] t
  | seq {r s b u v t} (hr : Accepts r b u (v ++ t)) (hs : Accepts s (u.getLast?.or b) v t) :
      Accepts (.seq r s) b (u ++ v) t
  | left {r s b w t} (h : Accepts r b w t) : Accepts (.alt r s) b w t
  | right {r s b w t} (h : Accepts s b w t) : Accepts (.alt r s) b w t
  | stop {lazy r b t} : Accepts (.star lazy r) b [] t
  | more {lazy r b u v t} (hne : u ≠ []) (hr : Accepts r b u (v ++ t))
      (hs : Accepts (.star lazy r) (u.getLast?.or b) v t) : Accepts (.star lazy r) b (u ++ v) t
  | group {r b w t} (h : Accepts r b w t) : Accepts (.group r) b w t

section
variable {r s : Regex α} {p : α → Bool} {b : Option α} {w t : List α} {lazy : Bool}

@[simp] theorem accepts_empty : Accepts .empty b w t ↔ w = [] := by
  constructor
  · rintro ⟨⟩
    rfl
  · rintro rfl
    exact .empty

@[simp] theorem accepts_char : Accepts (.char p) b w t ↔ ∃ c, w = [c] ∧ p c = true := by
  constructor
  · intro h
    cases h with
    | char h => exact ⟨_, rfl, h⟩
  · rintro ⟨c, rfl, h⟩
    exact .char h

@[simp] theorem accepts_assert {p : Option α → Option α → Bool} :
    Accepts (.assert p) b w t ↔ w = [] ∧ p b t.head? = true := by
  constructor
  · intro h
    cases h with
    | assert h => exact ⟨rfl, h⟩
  · rintro ⟨rfl, h⟩
    exact .assert h

theorem accepts_seq : Accepts (.seq r s) b w t ↔
    ∃ u v, w = u ++ v ∧ Accepts r b u (v ++ t) ∧ Accepts s (u.getLast?.or b) v t := by
  constructor
  · intro h
    cases h with
    | seq hr hs => exact ⟨_, _, rfl, hr, hs⟩
  · rintro ⟨u, v, rfl, hr, hs⟩
    exact .seq hr hs

@[simp] theorem accepts_alt : Accepts (.alt r s) b w t ↔ Accepts r b w t ∨ Accepts s b w t := by
  constructor
  · intro h
    cases h with
    | left h => exact .inl h
    | right h => exact .inr h
  · rintro (h | h)
    · exact .left h
    · exact .right h

@[simp] theorem accepts_group : Accepts (.group r) b w t ↔ Accepts r b w t := by
  constructor
  · intro h
    cases h with
    | group h => exact h
  · exact .group

/-- Induction over the rounds of a repetition. -/
theorem star_induction {motive : Option α → List α → List α → Prop}
    (stop : ∀ b t, motive b [] t)
    (more : ∀ b u v t, u ≠ [] → Accepts r b u (v ++ t) → motive (u.getLast?.or b) v t →
      motive b (u ++ v) t) (h : Accepts (.star lazy r) b w t) : motive b w t := by
  generalize hstar : Regex.star lazy r = q at h
  induction h with
  | stop => exact stop _ _
  | more hne hr hs _ ih =>
    cases hstar
    exact more _ _ _ _ hne hr (ih rfl)
  | _ => cases hstar

@[simp] theorem accepts_star_char :
    Accepts (.star lazy (.char p)) b w t ↔ ∀ c ∈ w, p c = true := by
  constructor
  · intro h
    refine star_induction (motive := fun _ w _ => ∀ c ∈ w, p c = true) (fun _ _ => ?_)
      (fun _ u v _ _ hr ih => ?_) h
    · simp
    · obtain ⟨c, rfl, hc⟩ := accepts_char.mp hr
      simpa [hc] using ih
  · intro h
    induction w generalizing b with
    | nil => exact .stop
    | cons c w ih =>
      have hc := h c List.mem_cons_self
      exact .more (u := [c]) (List.cons_ne_nil c []) (.char hc)
        (ih fun d hd => h d (List.mem_cons_of_mem _ hd))

end

-- ---------------------------------------------------------------------------
-- `exec` finds exactly what is accepted
-- ---------------------------------------------------------------------------

section
variable {r : Regex α} {step : Option α → List α → List (Found α)} {lazy : Bool}

theorem mem_rounds_succ {fuel : Nat} {b : Option α} {s : List α} {m : Found α} :
    m ∈ rounds step lazy (fuel + 1) b s ↔ m = Found.stop s ∨
      ∃ f ∈ step b s, f.text ≠ [] ∧ ∃ g ∈ rounds step lazy fuel (f.last b) f.rest,
        f.append g = m := by
  rw [rounds]
  cases lazy <;> simp [List.mem_flatMap, or_comm] <;> grind

theorem rounds_sound
    (hstep : ∀ {b s m}, m ∈ step b s → s = m.text ++ m.rest ∧ Accepts r b m.text m.rest)
    {fuel : Nat} {b : Option α} {s : List α} {m : Found α} (h : m ∈ rounds step lazy fuel b s) :
    s = m.text ++ m.rest ∧ Accepts (.star lazy r) b m.text m.rest := by
  induction fuel generalizing b s m with
  | zero =>
    obtain rfl := List.mem_singleton.mp h
    exact ⟨rfl, .stop⟩
  | succ fuel ih =>
    obtain rfl | ⟨f, hf, hne, g, hg, rfl⟩ := mem_rounds_succ.mp h
    · exact ⟨rfl, .stop⟩
    · obtain ⟨hs, haccept⟩ := hstep hf
      obtain ⟨hrest, hmore⟩ := ih hg
      rw [hrest] at hs haccept
      exact ⟨by rw [hs, Found.append, List.append_assoc], .more hne haccept hmore⟩

theorem rounds_complete
    (hstep : ∀ {b w t}, Accepts r b w t → ∃ m ∈ step b (w ++ t), m.text = w ∧ m.rest = t)
    {b : Option α} {w t : List α} (h : Accepts (.star lazy r) b w t) (fuel : Nat)
    (hfuel : w.length ≤ fuel) :
    ∃ m ∈ rounds step lazy fuel b (w ++ t), m.text = w ∧ m.rest = t := by
  revert fuel
  refine star_induction (motive := fun b w t => ∀ fuel, w.length ≤ fuel →
    ∃ m ∈ rounds step lazy fuel b (w ++ t), m.text = w ∧ m.rest = t) (fun b t fuel _ => ?_)
    (fun b u v t hne hr ih fuel hfuel => ?_) h
  · refine ⟨Found.stop t, ?_, rfl, rfl⟩
    cases fuel with
    | zero => exact List.mem_singleton.mpr rfl
    | succ fuel => exact mem_rounds_succ.mpr (.inl rfl)
  · have hpos := List.length_pos_iff.mpr hne
    rw [List.length_append] at hfuel
    obtain ⟨f, hf, htext, hrest⟩ := hstep hr
    cases fuel with
    | zero => omega
    | succ fuel =>
      obtain ⟨g, hg, hgtext, hgrest⟩ := ih fuel (by omega)
      refine ⟨f.append g, mem_rounds_succ.mpr (.inr ⟨f, ?_, htext ▸ hne, g, ?_, rfl⟩), ?_, hgrest⟩
      · rwa [List.append_assoc]
      · rwa [Found.last, htext, hrest]
      · rw [Found.append, htext, hgtext]

theorem exec_sound {b : Option α} {s : List α} {m : Found α} (h : m ∈ r.exec b s) :
    s = m.text ++ m.rest ∧ Accepts r b m.text m.rest := by
  induction r generalizing b s m with
  | empty =>
    obtain rfl := List.mem_singleton.mp h
    exact ⟨rfl, .empty⟩
  | char p =>
    cases s with
    | nil => cases h
    | cons c s =>
      rw [exec] at h
      split at h
      next hc =>
        obtain rfl := List.mem_singleton.mp h
        exact ⟨rfl, .char hc⟩
      next => cases h
  | assert p =>
    rw [exec] at h
    split at h
    next hp =>
      obtain rfl := List.mem_singleton.mp h
      exact ⟨rfl, .assert hp⟩
    next => cases h
  | seq r s ihr ihs =>
    obtain ⟨f, hf, hm⟩ := List.mem_flatMap.mp h
    obtain ⟨g, hg, rfl⟩ := List.mem_map.mp hm
    obtain ⟨hs, hr⟩ := ihr hf
    obtain ⟨hrest, hg⟩ := ihs hg
    rw [hrest] at hs hr
    exact ⟨by rw [hs, Found.append, List.append_assoc], .seq hr hg⟩
  | alt r s ihr ihs =>
    rcases List.mem_append.mp h with h | h
    · exact (ihr h).imp id .left
    · exact (ihs h).imp id .right
  | star lazy r ih => exact rounds_sound ih h
  | group r ih =>
    obtain ⟨f, hf, rfl⟩ := List.mem_map.mp h
    exact (ih hf).imp id .group

/-- A group holds letters of the text. -/
theorem rounds_groups (hstep : ∀ {b s m}, m ∈ step b s → s = m.text ++ m.rest ∧
      ∀ g ∈ m.groups, ∀ c ∈ g, c ∈ s)
    {fuel : Nat} {b : Option α} {s : List α} {m : Found α} (h : m ∈ rounds step lazy fuel b s) :
    ∀ g ∈ m.groups, ∀ c ∈ g, c ∈ s := by
  induction fuel generalizing b s m with
  | zero =>
    obtain rfl := List.mem_singleton.mp h
    exact nofun
  | succ fuel ih =>
    obtain rfl | ⟨f, hf, -, g, hg, rfl⟩ := mem_rounds_succ.mp h
    · exact nofun
    · obtain ⟨hs, hgroups⟩ := hstep hf
      intro word hword c hc
      rcases List.mem_append.mp hword with hword | hword
      · exact hgroups word hword c hc
      · rw [hs]
        exact List.mem_append_right _ (ih hg word hword c hc)

theorem exec_groups {b : Option α} {s : List α} {m : Found α} (h : m ∈ r.exec b s) :
    ∀ g ∈ m.groups, ∀ c ∈ g, c ∈ s := by
  induction r generalizing b s m with
  | empty =>
    obtain rfl := List.mem_singleton.mp h
    exact nofun
  | char p =>
    cases s with
    | nil => cases h
    | cons c s =>
      rw [exec] at h
      split at h
      next =>
        obtain rfl := List.mem_singleton.mp h
        exact nofun
      next => cases h
  | assert p =>
    rw [exec] at h
    split at h
    next =>
      obtain rfl := List.mem_singleton.mp h
      exact nofun
    next => cases h
  | seq r s ihr ihs =>
    obtain ⟨f, hf, hm⟩ := List.mem_flatMap.mp h
    obtain ⟨g, hg, rfl⟩ := List.mem_map.mp hm
    intro word hword c hc
    rcases List.mem_append.mp hword with hword | hword
    · exact ihr hf word hword c hc
    · rw [(exec_sound hf).1]
      exact List.mem_append_right _ (ihs hg word hword c hc)
  | alt r s ihr ihs =>
    rcases List.mem_append.mp h with h | h
    · exact ihr h
    · exact ihs h
  | star lazy r ih => exact rounds_groups (fun hm => ⟨(exec_sound hm).1, ih hm⟩) h
  | group r ih =>
    obtain ⟨f, hf, rfl⟩ := List.mem_map.mp h
    intro word hword c hc
    rcases List.mem_cons.mp hword with rfl | hword
    · rw [(exec_sound hf).1]
      exact List.mem_append_left _ hc
    · exact ih hf word hword c hc

theorem exec_complete {b : Option α} {w t : List α} (h : Accepts r b w t) :
    ∃ m ∈ r.exec b (w ++ t), m.text = w ∧ m.rest = t := by
  induction r generalizing b w t with
  | empty =>
    cases h
    exact ⟨Found.stop t, List.mem_singleton.mpr rfl, rfl, rfl⟩
  | char p =>
    obtain ⟨c, rfl, hc⟩ := accepts_char.mp h
    exact ⟨⟨[c], [], t⟩, by simp [exec, hc], rfl, rfl⟩
  | assert p =>
    obtain ⟨rfl, hp⟩ := accepts_assert.mp h
    exact ⟨Found.stop t, by simp [exec, hp], rfl, rfl⟩
  | seq r s ihr ihs =>
    obtain ⟨u, v, rfl, hr, hs⟩ := accepts_seq.mp h
    obtain ⟨f, hf, hftext, hfrest⟩ := ihr hr
    obtain ⟨g, hg, hgtext, hgrest⟩ := ihs hs
    refine ⟨f.append g, List.mem_flatMap.mpr ⟨f, ?_, List.mem_map.mpr ⟨g, ?_, rfl⟩⟩, ?_, hgrest⟩
    · rwa [List.append_assoc]
    · rwa [Found.last, hftext, hfrest]
    · rw [Found.append, hftext, hgtext]
  | alt r s ihr ihs =>
    rcases accepts_alt.mp h with h | h
    · obtain ⟨m, hm, hword⟩ := ihr h
      exact ⟨m, List.mem_append_left _ hm, hword⟩
    · obtain ⟨m, hm, hword⟩ := ihs h
      exact ⟨m, List.mem_append_right _ hm, hword⟩
  | star lazy r ih =>
    exact rounds_complete ih h _ (by rw [List.length_append]; omega)
  | group r ih =>
    obtain ⟨m, hm, hword⟩ := ih (accepts_group.mp h)
    exact ⟨_, List.mem_map.mpr ⟨m, hm, rfl⟩, hword⟩

/-- A match starts at a place iff some front of the text there is accepted. -/
theorem exec_ne_nil {b : Option α} {s : List α} :
    r.exec b s ≠ [] ↔ ∃ w t, s = w ++ t ∧ Accepts r b w t := by
  constructor
  · intro h
    obtain ⟨m, hm⟩ := List.exists_mem_of_ne_nil _ h
    obtain ⟨hs, haccept⟩ := exec_sound hm
    exact ⟨m.text, m.rest, hs, haccept⟩
  · rintro ⟨w, t, rfl, haccept⟩
    obtain ⟨m, hm, -⟩ := exec_complete haccept
    exact List.ne_nil_of_mem hm

end

theorem test_eq_true {r : Regex α} {b : Option α} {s : List α} :
    r.test b s = true ↔ ∃ x w t, s = x ++ (w ++ t) ∧ Accepts r (x.getLast?.or b) w t := by
  induction s generalizing b with
  | nil =>
    have h := exec_ne_nil (r := r) (b := b) (s := [])
    simp only [test, Bool.not_eq_true', List.isEmpty_eq_false_iff, h]
    constructor
    · rintro ⟨w, t, hsplit, haccept⟩
      exact ⟨[], w, t, hsplit, haccept⟩
    · rintro ⟨x, w, t, hsplit, haccept⟩
      obtain ⟨rfl, hrest⟩ := List.append_eq_nil_iff.mp hsplit.symm
      exact ⟨w, t, hrest.symm, haccept⟩
  | cons c s ih =>
    have h := exec_ne_nil (r := r) (b := b) (s := c :: s)
    simp only [test, Bool.or_eq_true, Bool.not_eq_true', List.isEmpty_eq_false_iff, h, ih]
    constructor
    · rintro (⟨w, t, hsplit, haccept⟩ | ⟨x, w, t, hsplit, haccept⟩)
      · exact ⟨[], w, t, hsplit, haccept⟩
      · refine ⟨c :: x, w, t, by rw [hsplit, List.cons_append], ?_⟩
        rw [List.getLast?_cons]
        cases hx : x.getLast? <;> simpa [hx] using haccept
    · rintro ⟨x, w, t, hsplit, haccept⟩
      cases x with
      | nil => exact .inl ⟨w, t, hsplit, haccept⟩
      | cons d x =>
        obtain ⟨rfl, hs⟩ := List.cons.inj hsplit
        refine .inr ⟨x, w, t, hs, ?_⟩
        rw [List.getLast?_cons] at haccept
        cases hx : x.getLast? <;> simpa [hx] using haccept

-- ---------------------------------------------------------------------------
-- What groups hold
-- ---------------------------------------------------------------------------

def groupless : Regex α → Bool
  | .seq r s => r.groupless && s.groupless
  | .alt r s => r.groupless && s.groupless
  | .star _ r => r.groupless
  | .group _ => false
  | _ => true

theorem mem_exec_seq {r s : Regex α} {b : Option α} {t : List α} {m : Found α} :
    m ∈ (Regex.seq r s).exec b t ↔
      ∃ f ∈ r.exec b t, ∃ g ∈ s.exec (f.last b) f.rest, f.append g = m := by
  simp only [exec, List.mem_flatMap, List.mem_map]

theorem rounds_groupless {step : Option α → List α → List (Found α)} {lazy : Bool}
    (hstep : ∀ {b s m}, m ∈ step b s → m.groups = [])
    {fuel : Nat} {b : Option α} {s : List α} {m : Found α} (h : m ∈ rounds step lazy fuel b s) :
    m.groups = [] := by
  induction fuel generalizing b s m with
  | zero =>
    obtain rfl := List.mem_singleton.mp h
    rfl
  | succ fuel ih =>
    obtain rfl | ⟨f, hf, -, g, hg, rfl⟩ := mem_rounds_succ.mp h
    · rfl
    · rw [Found.append, hstep hf, ih hg]
      rfl

theorem exec_groupless {r : Regex α} {b : Option α} {s : List α} {m : Found α}
    (hr : r.groupless = true) (h : m ∈ r.exec b s) : m.groups = [] := by
  induction r generalizing b s m with
  | empty =>
    obtain rfl := List.mem_singleton.mp h
    rfl
  | char p =>
    cases s with
    | nil => cases h
    | cons c s =>
      rw [exec] at h
      split at h
      next =>
        obtain rfl := List.mem_singleton.mp h
        rfl
      next => cases h
  | assert p =>
    rw [exec] at h
    split at h
    next =>
      obtain rfl := List.mem_singleton.mp h
      rfl
    next => cases h
  | seq r s ihr ihs =>
    obtain ⟨hgr, hgs⟩ := (Bool.and_eq_true _ _).mp hr
    obtain ⟨f, hf, g, hg, rfl⟩ := mem_exec_seq.mp h
    rw [Found.append, ihr hgr hf, ihs hgs hg]
    rfl
  | alt r s ihr ihs =>
    obtain ⟨hgr, hgs⟩ := (Bool.and_eq_true _ _).mp hr
    rcases List.mem_append.mp h with h | h
    · exact ihr hgr h
    · exact ihs hgs h
  | star lazy r ih => exact rounds_groupless (fun hm => ih hr hm) h
  | group r => cases hr

-- ---------------------------------------------------------------------------
-- Patterns that match no empty word
-- ---------------------------------------------------------------------------

def consumes : Regex α → Bool
  | .char _ => true
  | .seq r s => r.consumes || s.consumes
  | .alt r s => r.consumes && s.consumes
  | .group r => r.consumes
  | _ => false

theorem Accepts.ne_nil {r : Regex α} {b : Option α} {w t : List α} (h : Accepts r b w t)
    (hr : r.consumes = true) : w ≠ [] := by
  induction h with
  | char => simp
  | seq _ _ ihr ihs =>
    rcases (Bool.or_eq_true _ _).mp hr with h | h
    · simp [ihr h]
    · simp [ihs h]
  | left _ ih => exact ih ((Bool.and_eq_true _ _).mp hr).1
  | right _ ih => exact ih ((Bool.and_eq_true _ _).mp hr).2
  | group _ ih => exact ih hr
  | _ => cases hr

-- ---------------------------------------------------------------------------
-- Abbreviations
-- ---------------------------------------------------------------------------

/-- Letter by letter. -/
def word : List (α → Bool) → Regex α
  | [] => .empty
  | p :: ps => .seq (.char p) (word ps)

def oneOf : List (Regex α) → Regex α
  | [] => .assert fun _ _ => false
  | [r] => r
  | r :: rs => .alt r (oneOf rs)

def opt (r : Regex α) : Regex α := .alt r .empty

def plus (r : Regex α) : Regex α := .seq r (.star false r)

/-- At most this often, as often as possible. -/
def upTo : Nat → Regex α → Regex α
  | 0, _ => .empty
  | n + 1, r => opt (.seq r (upTo n r))

/-- One after the other. -/
def all : List (Regex α) → Regex α
  | [] => .empty
  | [r] => r
  | r :: rs => .seq r (all rs)

theorem accepts_word {ps : List (α → Bool)} {b : Option α} {w t : List α} :
    Accepts (word ps) b w t ↔ List.Forall₂ (fun p c => p c = true) ps w := by
  induction ps generalizing b w with
  | nil => rw [word, accepts_empty, List.forall₂_nil_left_iff]
  | cons p ps ih =>
    rw [word, accepts_seq, List.forall₂_cons_left_iff]
    constructor
    · rintro ⟨u, v, rfl, hu, hv⟩
      obtain ⟨c, rfl, hc⟩ := accepts_char.mp hu
      exact ⟨c, v, hc, ih.mp hv, rfl⟩
    · rintro ⟨c, v, hc, hv, rfl⟩
      exact ⟨[c], v, rfl, .char hc, ih.mpr hv⟩

@[simp] theorem accepts_plus_char {p : α → Bool} {b : Option α} {w t : List α} :
    Accepts (plus (.char p)) b w t ↔ w ≠ [] ∧ ∀ c ∈ w, p c = true := by
  rw [plus, accepts_seq]
  constructor
  · rintro ⟨u, v, rfl, hu, hv⟩
    obtain ⟨c, rfl, hc⟩ := accepts_char.mp hu
    exact ⟨by simp, List.forall_mem_cons.mpr ⟨hc, accepts_star_char.mp hv⟩⟩
  · rintro ⟨hne, h⟩
    obtain ⟨c, v, rfl⟩ := List.exists_cons_of_ne_nil hne
    obtain ⟨hc, hv⟩ := List.forall_mem_cons.mp h
    exact ⟨[c], v, rfl, .char hc, accepts_star_char.mpr hv⟩

end Regex

/-- A pattern that is fit to be replaced globally. -/
structure Pattern (α : Type) where
  regex : Regex α
  consumes : regex.consumes = true

namespace Pattern

/-- The match that starts at a place. -/
def at? (p : Pattern α) (before : Option α) (text : List α) : Option (Found α) :=
  (p.regex.exec before text).head?

theorem at?_sound {p : Pattern α} {before : Option α} {text : List α} {found : Found α}
    (h : p.at? before text = some found) : found.text ≠ [] ∧ text = found.text ++ found.rest := by
  obtain ⟨hsplit, haccept⟩ := Regex.exec_sound (List.mem_of_mem_head? h)
  exact ⟨haccept.ne_nil p.consumes, hsplit⟩

theorem at?_eq_none {p : Pattern α} {before : Option α} {text : List α} :
    p.at? before text = none ↔ ∀ w t, text = w ++ t → ¬ p.regex.Accepts before w t := by
  rw [at?, List.head?_eq_none_iff]
  have h := Regex.exec_ne_nil (r := p.regex) (b := before) (s := text)
  constructor
  · intro hnil w t hsplit haccept
    exact h.mpr ⟨w, t, hsplit, haccept⟩ hnil
  · intro hno
    by_contra hne
    obtain ⟨w, t, hsplit, haccept⟩ := h.mp hne
    exact hno w t hsplit haccept

end Pattern

end Lib
