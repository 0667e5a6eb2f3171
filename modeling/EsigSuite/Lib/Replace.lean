import EsigSuite.Lib.Regex

/-!
# Global replacement

What `replace` does with a global pattern: the text is scanned from left to
right, a match is edited as a whole, and the scan goes on behind it. Edits that
trim what they find can only shorten a text, so passes of them settle, and a
text that such passes leave alone holds no match that they would remove.
-/

namespace Lib

variable {α ι : Type}

namespace Pattern

variable (p : Pattern α) (edit : Found α → List α × List ι)

/-- What the edits list comes in the order of the matches. -/
def replaceFrom : Nat → Option α → List α → List α × List ι
  | 0, _, text => (text, [])
  | _ + 1, _, [] => ([], [])
  | fuel + 1, before, c :: text =>
    match p.at? before (c :: text) with
    | some found =>
      let later := replaceFrom fuel (found.last before) found.rest
      ((edit found).1 ++ later.1, (edit found).2 ++ later.2)
    | none =>
      let later := replaceFrom fuel (some c) text
      (c :: later.1, later.2)

def replace (text : List α) : List α × List ι := p.replaceFrom edit text.length none text

/-- The matches that the scan comes to, each with the text in front of it. -/
def scanFrom : Nat → List α → List α → List (List α × Found α)
  | 0, _, _ => []
  | _ + 1, _, [] => []
  | fuel + 1, done, c :: text =>
    match p.at? done.getLast? (c :: text) with
    | some found => (done, found) :: scanFrom fuel (done ++ found.text) found.rest
    | none => scanFrom fuel (done ++ [c]) text

def scan (text : List α) : List (List α × Found α) := p.scanFrom text.length [] text

/-- The text in front of the first match, as the head of `split`. -/
def firstPiece : Option α → List α → List α
  | _, [] => []
  | before, c :: text =>
    match p.at? before (c :: text) with
    | some _ => []
    | none => c :: firstPiece (some c) text

end Pattern

/-- The edit keeps a match as it is, in silence, or shortens it. -/
def Trims (edit : Found α → List α × List ι) : Prop :=
  ∀ found, found.text ≠ [] →
    edit found = (found.text, []) ∨ (edit found).1.length < found.text.length

/-- The edit removes the whole match. -/
def Removes (edit : Found α → List α × List ι) : Prop := ∀ found, (edit found).1 = []

section
variable {p : Pattern α} {edit : Found α → List α × List ι}

theorem Removes.trims (h : Removes edit) : Trims edit := by
  intro found hne
  right
  rw [h found]
  exact List.length_pos_iff.mpr hne

/-- Without an edit that shortens, a text stays as it is and nothing is listed. -/
theorem Trims.replaceFrom_shorter (hedit : Trims edit) (fuel : Nat) (before : Option α)
    (text : List α) :
    p.replaceFrom edit fuel before text = (text, []) ∨
      (p.replaceFrom edit fuel before text).1.length < text.length := by
  induction fuel generalizing before text with
  | zero => exact .inl rfl
  | succ fuel ih =>
    cases text with
    | nil => exact .inl rfl
    | cons c text =>
      rw [Pattern.replaceFrom]
      cases hat : p.at? before (c :: text) with
      | none =>
        rcases ih (some c) text with h | h
        · simp [h]
        · exact .inr (by simpa using h)
      | some found =>
        obtain ⟨hne, hsplit⟩ := Pattern.at?_sound hat
        rw [hsplit, List.length_append]
        rcases hedit found hne with hkeep | hkeep
          <;> rcases ih (found.last before) found.rest with h | h
        · simp [hkeep, h]
        · simp [hkeep, h]
        · simp [hkeep, h]
        · right
          rw [List.length_append]
          omega

theorem Trims.replace_shorter (hedit : Trims edit) (text : List α) :
    p.replace edit text = (text, []) ∨ (p.replace edit text).1.length < text.length :=
  hedit.replaceFrom_shorter text.length none text

/-- A text that a removal leaves alone holds no match, wherever one could start. -/
theorem Removes.replaceFrom_none (hedit : Removes edit) {fuel : Nat} {before : Option α}
    {text : List α} (hfuel : text.length ≤ fuel)
    (h : (p.replaceFrom edit fuel before text).1 = text) (x y : List α) (hxy : text = x ++ y)
    (hy : y ≠ []) : p.at? (x.getLast?.or before) y = none := by
  induction fuel generalizing before text x with
  | zero =>
    obtain rfl := List.length_eq_zero_iff.mp (Nat.le_zero.mp hfuel)
    exact absurd (List.append_eq_nil_iff.mp hxy.symm).2 hy
  | succ fuel ih =>
    cases text with
    | nil => exact absurd (List.append_eq_nil_iff.mp hxy.symm).2 hy
    | cons c text =>
      rw [Pattern.replaceFrom] at h
      cases hat : p.at? before (c :: text) with
      | some found =>
        obtain ⟨hne, hsplit⟩ := Pattern.at?_sound hat
        have hpos := List.length_pos_iff.mpr hne
        have hrest : (p.replaceFrom edit fuel (found.last before) found.rest).1 = c :: text := by
          simpa [hat, hedit found] using h
        have hshort := hedit.trims.replaceFrom_shorter (p := p) fuel (found.last before) found.rest
        have hlength := congrArg List.length hrest
        rw [hsplit, List.length_append] at hlength
        rcases hshort with hshort | hshort
        · rw [hshort] at hlength
          dsimp only at hlength
          omega
        · omega
      | none =>
        have hrest : (p.replaceFrom edit fuel (some c) text).1 = text := by
          simpa [hat] using h
        cases x with
        | nil =>
          rw [List.nil_append] at hxy
          rw [← hxy]
          exact hat
        | cons d x =>
          obtain ⟨rfl, htext⟩ := List.cons.inj hxy
          have hnone := ih (by simpa using hfuel) hrest x htext
          cases hx : x.getLast? with
          | none =>
            obtain rfl := List.getLast?_eq_none_iff.mp hx
            exact hnone
          | some e =>
            rw [hx] at hnone
            rw [List.getLast?_cons, hx]
            exact hnone

theorem Removes.replace_none (hedit : Removes edit) {text : List α}
    (h : (p.replace edit text).1 = text) (x y : List α) (hxy : text = x ++ y) (hy : y ≠ []) :
    p.at? x.getLast? y = none := by
  have hnone := hedit.replaceFrom_none (Nat.le_refl _) h x y hxy hy
  rwa [Option.or_none] at hnone

end

-- ---------------------------------------------------------------------------
-- Places
-- ---------------------------------------------------------------------------

section
variable {p : Pattern α} {edit : Found α → List α × List ι} {fuel : Nat} {done text : List α}

/-- A match begins inside another one that the scan came to. -/
def Inside (p : Pattern α) (text : List α) (Q : Found α → Prop) : Prop :=
  ∃ x found u v, (x, found) ∈ p.scan text ∧ found.text = u ++ v ∧ u ≠ [] ∧ v ≠ [] ∧
    ∃ inner, p.at? (x ++ u).getLast? (v ++ found.rest) = some inner ∧ Q inner

theorem scanFrom_split {x : List α} {found : Found α} (h : (x, found) ∈ p.scanFrom fuel done text) :
    done ++ text = x ++ (found.text ++ found.rest) ∧
      p.at? x.getLast? (found.text ++ found.rest) = some found := by
  induction fuel generalizing done text with
  | zero => cases h
  | succ fuel ih =>
    cases text with
    | nil => cases h
    | cons c text =>
      rw [Pattern.scanFrom] at h
      cases hat : p.at? done.getLast? (c :: text) with
      | none =>
        rw [hat] at h
        have hrest := ih h
        rwa [List.append_assoc, List.singleton_append] at hrest
      | some first =>
        rw [hat] at h
        have hsplit := (Pattern.at?_sound hat).2
        rcases List.mem_cons.mp h with heq | h
        · cases heq
          rw [hsplit] at hat
          exact ⟨by rw [hsplit], hat⟩
        · have hrest := ih h
          rwa [List.append_assoc, ← hsplit] at hrest

/-- A match that begins at a place is one that the scan comes to, or it begins inside
such a match. -/
theorem scanFrom_place (hfuel : text.length ≤ fuel) {x y : List α} {found : Found α}
    (hxy : done ++ text = x ++ y) (hx : done.length ≤ x.length)
    (hat : p.at? x.getLast? y = some found) :
    (x, found) ∈ p.scanFrom fuel done text ∨ ∃ x' found' u v, (x', found') ∈ p.scanFrom fuel done text ∧
      found'.text = u ++ v ∧ u ≠ [] ∧ v ≠ [] ∧ x = x' ++ u ∧ y = v ++ found'.rest := by
  obtain ⟨front, rfl⟩ : ∃ front, x = done ++ front :=
    (List.prefix_of_prefix_length_le (List.prefix_append done text)
      (hxy ▸ List.prefix_append x y) hx).imp fun _ h => h.symm
  rw [List.append_assoc, List.append_cancel_left_eq] at hxy
  have hy : y ≠ [] := fun hnil => by
    obtain ⟨hne, hsplit⟩ := Pattern.at?_sound hat
    rw [hnil] at hsplit
    exact hne (List.append_eq_nil_iff.mp hsplit.symm).1
  clear hx
  induction fuel generalizing done text front with
  | zero =>
    obtain rfl := List.length_eq_zero_iff.mp (Nat.le_zero.mp hfuel)
    exact absurd (List.append_eq_nil_iff.mp hxy.symm).2 hy
  | succ fuel ih =>
    cases text with
    | nil => exact absurd (List.append_eq_nil_iff.mp hxy.symm).2 hy
    | cons c text =>
      rw [Pattern.scanFrom]
      cases hfirst : p.at? done.getLast? (c :: text) with
      | none =>
        cases front with
        | nil =>
          rw [List.nil_append] at hxy
          rw [List.append_nil, ← hxy, hfirst] at hat
          cases hat
        | cons d front =>
          obtain ⟨rfl, htext⟩ := List.cons.inj hxy
          have hmove : done ++ [c] ++ front = done ++ c :: front := by simp
          rw [← hmove] at hat ⊢
          exact ih (by simpa using hfuel) front htext hat
      | some first =>
        obtain ⟨hne, hsplit⟩ := Pattern.at?_sound hfirst
        have hpos := List.length_pos_iff.mpr hne
        rcases Nat.lt_or_ge front.length first.text.length with hshort | hlong
        · rcases eq_or_ne front [] with rfl | hfront
          · rw [List.nil_append] at hxy
            rw [List.append_nil, ← hxy, hfirst] at hat
            cases hat
            exact .inl (by rw [List.append_nil]; exact List.mem_cons_self)
          · -- the place is in the middle of the first match
            obtain ⟨v, hv⟩ : front <+: first.text :=
              List.prefix_of_prefix_length_le (hxy ▸ List.prefix_append front y)
                (hsplit ▸ List.prefix_append first.text first.rest) (Nat.le_of_lt hshort)
            refine .inr ⟨done, first, front, v, List.mem_cons_self, hv.symm, hfront, ?_, rfl, ?_⟩
            · rintro rfl
              rw [List.append_nil] at hv
              exact absurd (congrArg List.length hv) (Nat.ne_of_lt hshort)
            · rw [hxy, ← hv, List.append_assoc] at hsplit
              exact List.append_cancel_left hsplit
        · obtain ⟨front, rfl⟩ : first.text <+: front :=
            List.prefix_of_prefix_length_le (hsplit ▸ List.prefix_append first.text first.rest)
              (hxy ▸ List.prefix_append front y) hlong
          have hlength := congrArg List.length hsplit
          rw [List.length_cons, List.length_append] at hlength
          rw [List.length_cons] at hfuel
          have hrest : first.rest = front ++ y := by
            rw [hsplit, List.append_assoc] at hxy
            exact List.append_cancel_left hxy
          rw [← List.append_assoc] at hat ⊢
          rcases ih (by omega) front hrest hat with h | ⟨x', found', u, v, h, hplace⟩
          · exact .inl (List.mem_cons_of_mem _ h)
          · exact .inr ⟨x', found', u, v, List.mem_cons_of_mem _ h, hplace⟩

end

-- ---------------------------------------------------------------------------
-- Passes
-- ---------------------------------------------------------------------------

/-- One pass over a text and what it lists. -/
abbrev Pass (α ι : Type) := List α → List α × List ι

namespace Pass

/-- A pass shortens a text, or leaves it alone and lists nothing. -/
def Shortens (pass : Pass α ι) : Prop :=
  ∀ text, pass text = (text, []) ∨ (pass text).1.length < text.length

/-- The passes one after the other. -/
def all : List (Pass α ι) → Pass α ι
  | [], text => (text, [])
  | pass :: passes, text =>
    ((all passes (pass text).1).1, (pass text).2 ++ (all passes (pass text).1).2)

theorem Shortens.le {pass : Pass α ι} (h : pass.Shortens) (text : List α) :
    (pass text).1.length ≤ text.length := by
  rcases h text with h | h
  · simp [h]
  · exact Nat.le_of_lt h

theorem all_shortens {passes : List (Pass α ι)} (h : ∀ pass ∈ passes, pass.Shortens) :
    (all passes).Shortens := by
  induction passes with
  | nil => exact fun _ => .inl rfl
  | cons pass passes ih =>
    intro text
    have hrest := ih fun q hq => h q (List.mem_cons_of_mem _ hq)
    rw [all]
    rcases h pass List.mem_cons_self text with hpass | hpass
    · simp only [hpass]
      rcases hrest text with hall | hall
      · simp [hall]
      · exact .inr hall
    · exact .inr (Nat.lt_of_le_of_lt (hrest.le _) hpass)

/-- A text that all passes together leave alone is left alone by each. -/
theorem all_fixed {passes : List (Pass α ι)} {text : List α}
    (h : ∀ pass ∈ passes, pass.Shortens) (hfix : (all passes text).1 = text) :
    ∀ pass ∈ passes, (pass text).1 = text := by
  induction passes with
  | nil => simp
  | cons pass passes ih =>
    have htail : ∀ q ∈ passes, q.Shortens := fun q hq => h q (List.mem_cons_of_mem _ hq)
    have hle := (all_shortens htail).le (pass text).1
    have hall : (all passes (pass text).1).1 = text := hfix
    rcases h pass List.mem_cons_self text with hpass | hpass
    · rw [hpass] at hall
      rintro q hq
      rcases List.mem_cons.mp hq with rfl | hq
      · rw [hpass]
      · exact ih htail hall q hq
    · rw [hall] at hle
      omega

-- ---------------------------------------------------------------------------
-- To a fixpoint
-- ---------------------------------------------------------------------------

variable [DecidableEq α]

/-- The pass again and again until a whole pass changes nothing. -/
def settleFrom (pass : Pass α ι) : Nat → Pass α ι
  | 0, text => (text, [])
  | fuel + 1, text =>
    if (pass text).1 = text then pass text
    else
      let later := settleFrom pass fuel (pass text).1
      (later.1, (pass text).2 ++ later.2)

/-- A pass that shortens settles within as many rounds as there are letters. -/
def settle (pass : Pass α ι) : Pass α ι := fun text => settleFrom pass (text.length + 1) text

theorem settleFrom_fixed {pass : Pass α ι} (h : pass.Shortens) {fuel : Nat} {text : List α}
    (hfuel : text.length < fuel) :
    (pass (settleFrom pass fuel text).1).1 = (settleFrom pass fuel text).1 := by
  induction fuel generalizing text with
  | zero => omega
  | succ fuel ih =>
    rw [settleFrom]
    split_ifs with hsame
    · rw [hsame, hsame]
    · rcases h text with hpass | hpass
      · rw [hpass] at hsame
        exact absurd rfl hsame
      · exact ih (by omega)

theorem settle_fixed {pass : Pass α ι} (h : pass.Shortens) (text : List α) :
    (pass (settle pass text).1).1 = (settle pass text).1 :=
  settleFrom_fixed h (Nat.lt_succ_self _)

/-- More rounds change nothing. -/
theorem settleFrom_enough {pass : Pass α ι} (h : pass.Shortens) {fuel fuel' : Nat} {text : List α}
    (hfuel : text.length < fuel) (hfuel' : text.length < fuel') :
    settleFrom pass fuel text = settleFrom pass fuel' text := by
  induction fuel generalizing fuel' text with
  | zero => omega
  | succ fuel ih =>
    obtain ⟨fuel', rfl⟩ := Nat.exists_eq_succ_of_ne_zero (Nat.ne_of_gt (Nat.zero_lt_of_lt hfuel'))
    rw [settleFrom, settleFrom]
    split_ifs with hsame
    · rfl
    · rcases h text with hpass | hpass
      · rw [hpass] at hsame
        exact absurd rfl hsame
      · rw [ih (by omega) (by omega : (pass text).1.length < fuel')]

theorem settle_of_fixed {pass : Pass α ι} (h : pass.Shortens) {text : List α} (hfix : (pass text).1 = text) :
    settle pass text = (text, []) := by
  rw [settle, settleFrom, if_pos hfix]
  rcases h text with hpass | hpass
  · exact hpass
  · rw [hfix] at hpass
    omega

/-- The texts that the rounds begin with. -/
inductive Rounds (pass : Pass α ι) (text : List α) : List α → Prop
  | start : Rounds pass text text
  | next {t : List α} : Rounds pass text t → (pass t).1 ≠ t → Rounds pass text (pass t).1

omit [DecidableEq α] in
theorem Rounds.behind {pass : Pass α ι} {text t : List α} (hne : (pass text).1 ≠ text)
    (h : Rounds pass (pass text).1 t) : Rounds pass text t := by
  induction h with
  | start => exact .next .start hne
  | next _ hne' ih => exact .next ih hne'

/-- The round that changes nothing is the last one. -/
theorem Rounds.settled {pass : Pass α ι} (h : pass.Shortens) {text t : List α} (hrounds : Rounds pass text t)
    (hfix : (pass t).1 = t) : (settle pass text).1 = t := by
  suffices hsettle : (settle pass text).1 = (settle pass t).1 by
    rw [hsettle, settle_of_fixed h hfix]
  clear hfix
  induction hrounds with
  | start => rfl
  | @next t hrounds hne ih =>
    rw [ih, settle, settleFrom, if_neg hne]
    rcases h t with hpass | hpass
    · rw [hpass] at hne
      exact absurd rfl hne
    · show (settleFrom pass t.length (pass t).1).1 = (settle pass (pass t).1).1
      exact congrArg Prod.fst (settleFrom_enough h hpass (Nat.lt_succ_self _))

-- ---------------------------------------------------------------------------
-- What is listed
-- ---------------------------------------------------------------------------

/-- A pass that shortens a text lists something. -/
def Tells (pass : Pass α ι) : Prop :=
  ∀ text, pass text = (text, []) ∨ ((pass text).1.length < text.length ∧ (pass text).2 ≠ [])

end Pass

end Lib
