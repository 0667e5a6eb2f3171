import EsigSuite.Lib.Window
import Mathlib.Data.List.Induction
import Mathlib.Order.Lattice

/-!
# Reading on from the last stamp

A log of stamped elements keeps its last `n` only. A reader asks, from time to time,
for what is stamped later than the last element that it was given.
-/

namespace Lib.Polling

variable {α τ : Type} [LinearOrder τ] (stamp : α → τ) (n : Nat)

/-- What happens to a log: an element is appended, or the reader is answered. -/
inductive Move (α : Type)
  | append (a : α)
  | poll (returned : List α)
  deriving DecidableEq

def Move.isPoll : Move α → Bool
  | .append _ => false
  | .poll _ => true

def appendedIn (moves : List (Move α)) : List α :=
  moves.flatMap fun
    | .append a => [a]
    | .poll _ => []

def returnedIn (moves : List (Move α)) : List α :=
  moves.flatMap fun
    | .append _ => []
    | .poll returned => returned

/-- The stamp of the last element that was returned. -/
def cursor (moves : List (Move α)) : Option τ := (returnedIn moves).getLast?.map stamp

/-- What is later than a cursor. -/
def newer (since : Option τ) (log : List α) : List α :=
  match since with
  | none => log
  | some t => log.filter fun a => t < stamp a

/-- The reader is answered from the end of the log. -/
def Answered (moves : List (Move α)) : Prop :=
  ∀ pre returned post, moves = pre ++ .poll returned :: post →
    returned = newer stamp (cursor stamp pre) (window n (appendedIn pre))

/-- Fewer than `n` elements come between two answers. -/
def Few (moves : List (Move α)) : Prop :=
  ∀ pre seg post, moves = pre ++ (seg ++ post) → (∀ m ∈ seg, m.isPoll = false) → seg.length < n

/-- Nothing is appended with the stamp of the last element that was returned. -/
def Untied (moves : List (Move α)) : Prop :=
  ∀ pre a post, moves = pre ++ .append a :: post → cursor stamp pre ≠ some (stamp a)

/-- Everything that was appended was returned, and nothing twice. -/
def Complete (moves : List (Move α)) : Prop :=
  (∀ a ∈ appendedIn moves, a ∈ returnedIn moves) ∧ (returnedIn moves).Nodup

-- ---------------------------------------------------------------------------
-- One move more
-- ---------------------------------------------------------------------------

section
variable {stamp} {n} {moves pre post : List (Move α)} {a : α} {rs : List α}

@[simp] theorem appendedIn_append (moves moves' : List (Move α)) :
    appendedIn (moves ++ moves') = appendedIn moves ++ appendedIn moves' := List.flatMap_append

@[simp] theorem returnedIn_append (moves moves' : List (Move α)) :
    returnedIn (moves ++ moves') = returnedIn moves ++ returnedIn moves' := List.flatMap_append

@[simp] theorem appendedIn_cons_append : appendedIn (.append a :: moves) = a :: appendedIn moves := rfl

@[simp] theorem appendedIn_cons_poll : appendedIn (.poll rs :: moves) = appendedIn moves := rfl

@[simp] theorem returnedIn_cons_append : returnedIn (.append a :: moves) = returnedIn moves := rfl

@[simp] theorem returnedIn_cons_poll : returnedIn (.poll rs :: moves) = rs ++ returnedIn moves := rfl

@[simp] theorem appendedIn_nil : appendedIn ([] : List (Move α)) = [] := rfl

@[simp] theorem returnedIn_nil : returnedIn ([] : List (Move α)) = [] := rfl

theorem few_of_length (h : moves.length < n) : Few n moves := by
  rintro pre seg post rfl -
  rw [List.length_append, List.length_append] at h
  omega

/-- A run of appends. -/
theorem length_appendedIn (h : ∀ m ∈ moves, m.isPoll = false) :
    (appendedIn moves).length = moves.length := by
  induction moves with
  | nil => rfl
  | cons m moves ih =>
    obtain ⟨hm, hmoves⟩ := List.forall_mem_cons.mp h
    cases m with
    | append a => rw [appendedIn_cons_append, List.length_cons, List.length_cons, ih hmoves]
    | poll rs => cases hm

theorem returnedIn_appends (h : ∀ m ∈ moves, m.isPoll = false) : returnedIn moves = [] := by
  induction moves with
  | nil => rfl
  | cons m moves ih =>
    obtain ⟨hm, hmoves⟩ := List.forall_mem_cons.mp h
    cases m with
    | append a => exact ih hmoves
    | poll rs => cases hm

theorem Answered.of_append {moves' : List (Move α)} (h : Answered stamp n (moves ++ moves')) :
    Answered stamp n moves := by
  rintro pre returned post rfl
  exact h pre returned (post ++ moves') (by simp)

theorem Answered.last (h : Answered stamp n (moves ++ [.poll rs])) :
    rs = newer stamp (cursor stamp moves) (window n (appendedIn moves)) :=
  h moves rs [] rfl

/-- An append asks nothing of the answers. -/
theorem Answered.append (h : Answered stamp n moves) (a : α) :
    Answered stamp n (moves ++ [.append a]) := by
  intro pre returned post heq
  rcases List.eq_nil_or_concat post with rfl | ⟨post, m, rfl⟩
  · exact absurd (List.append_inj_right' heq rfl) (by simp)
  · rw [List.concat_eq_append, ← List.cons_append, ← List.append_assoc] at heq
    exact h pre returned post (List.append_inj_left' heq rfl)

theorem Answered.poll (h : Answered stamp n moves) :
    Answered stamp n (moves ++ [.poll (newer stamp (cursor stamp moves) (window n (appendedIn moves)))]) := by
  intro pre returned post heq
  rcases List.eq_nil_or_concat post with rfl | ⟨post, m, rfl⟩
  · have hpre := List.append_inj_left' heq rfl
    have hlast := List.append_inj_right' heq rfl
    rw [← Move.poll.inj (List.cons.inj hlast).1, hpre]
  · rw [List.concat_eq_append, ← List.cons_append, ← List.append_assoc] at heq
    exact h pre returned post (List.append_inj_left' heq rfl)

theorem mem_newer {since : Option τ} {log : List α} (h : a ∈ newer stamp since log) : a ∈ log := by
  cases since with
  | none => exact h
  | some t => exact (List.mem_filter.mp h).1

theorem lt_of_mem_newer {t : τ} {log : List α} (h : a ∈ newer stamp (some t) log) : t < stamp a :=
  of_decide_eq_true (List.mem_filter.mp h).2

/-- Only what was appended is returned. -/
theorem appended_of_returned (h : Answered stamp n moves) : ∀ a ∈ returnedIn moves, a ∈ appendedIn moves := by
  induction moves using List.reverseRecOn with
  | nil => exact fun _ h => h
  | append_singleton moves m ih =>
    intro a ha
    rw [returnedIn_append] at ha
    rw [appendedIn_append]
    rcases List.mem_append.mp ha with ha | ha
    · exact List.mem_append_left _ (ih h.of_append a ha)
    · cases m with
      | append b => cases ha
      | poll rs =>
        rw [returnedIn_cons_poll, returnedIn_nil, List.append_nil, h.last] at ha
        exact List.mem_append_left _ (mem_of_mem_window (mem_newer ha))

-- ---------------------------------------------------------------------------
-- A tie is never returned
-- ---------------------------------------------------------------------------

theorem cursor_append_nil (h : returnedIn post = []) : cursor stamp (moves ++ post) = cursor stamp moves := by
  rw [cursor, returnedIn_append, h, List.append_nil]
  rfl

/-- The cursor does not go back. -/
theorem cursor_mono {t : τ} (h : Answered stamp n (pre ++ post)) (hpre : cursor stamp pre = some t) :
    ∃ t', cursor stamp (pre ++ post) = some t' ∧ t ≤ t' := by
  induction post using List.reverseRecOn with
  | nil => exact ⟨t, by rwa [List.append_nil], le_rfl⟩
  | append_singleton post m ih =>
    rw [← List.append_assoc] at h ⊢
    obtain ⟨t', ht', hle⟩ := ih h.of_append
    cases m with
    | append a => exact ⟨t', by rwa [cursor_append_nil rfl], hle⟩
    | poll rs =>
      have hrs := h.last
      rw [ht'] at hrs
      rcases List.eq_nil_or_concat rs with rfl | ⟨init, last, rfl⟩
      · exact ⟨t', by rwa [cursor_append_nil rfl], hle⟩
      · have hmem : last ∈ newer stamp (some t') (window n (appendedIn (pre ++ post))) := by
          rw [← hrs, List.concat_eq_append]
          exact List.mem_append_right _ List.mem_cons_self
        have hlast : t' < stamp last := lt_of_mem_newer hmem
        refine ⟨stamp last, ?_, hle.trans hlast.le⟩
        simp [cursor]

/-- What is not later than the cursor does not come any more. -/
theorem not_returned_later {t : τ} (h : Answered stamp n (pre ++ post)) (hpre : cursor stamp pre = some t)
    (ha : stamp a ≤ t) : a ∉ returnedIn post := by
  induction post using List.reverseRecOn with
  | nil => exact List.not_mem_nil
  | append_singleton post m ih =>
    rw [← List.append_assoc] at h
    rw [returnedIn_append, List.mem_append, not_or]
    refine ⟨ih h.of_append, ?_⟩
    cases m with
    | append b => exact List.not_mem_nil
    | poll rs =>
      rw [returnedIn_cons_poll, returnedIn_nil, List.append_nil]
      intro hmem
      obtain ⟨t', ht', hle⟩ := cursor_mono h.of_append hpre
      rw [h.last, ht'] at hmem
      exact absurd (lt_of_mem_newer hmem) (not_lt.mpr (ha.trans hle))

theorem untied_of_complete (h : Answered stamp n moves) (hnodup : (appendedIn moves).Nodup)
    (hcomplete : Complete moves) : Untied stamp moves := by
  rintro pre a post rfl htie
  have hreturned : a ∈ returnedIn (pre ++ .append a :: post) :=
    hcomplete.1 a (by simp)
  rw [returnedIn_append, returnedIn_cons_append] at hreturned
  rcases List.mem_append.mp hreturned with hearly | hlate
  · have hpre := appended_of_returned h.of_append a hearly
    rw [appendedIn_append, appendedIn_cons_append, List.nodup_append] at hnodup
    exact hnodup.2.2 a hpre a List.mem_cons_self rfl
  · rw [← List.singleton_append (x := Move.append a), ← List.append_assoc] at h
    have hcursor : cursor stamp (pre ++ [.append a]) = some (stamp a) := by
      rwa [cursor_append_nil rfl]
    exact not_returned_later h hcursor le_rfl hlate

-- ---------------------------------------------------------------------------
-- Without ties every answer is what is new
-- ---------------------------------------------------------------------------

/-- Where everything returned is at or before the cursor and the rest is later, the
answer is the rest. -/
theorem newer_window {returned fresh : List α} {since : Option τ} (hfew : fresh.length < n)
    (hnone : since = none → returned = [])
    (hold : ∀ t, since = some t → ∀ a ∈ returned, stamp a ≤ t)
    (hnew : ∀ t, since = some t → ∀ a ∈ fresh, t < stamp a) :
    newer stamp since (window n (returned ++ fresh)) = fresh := by
  have hwindow : window n (returned ++ fresh) =
      returned.drop (returned.length + fresh.length - n) ++ fresh := by
    rw [window, List.length_append, List.drop_append_of_le_length (by omega)]
  rw [hwindow]
  cases since with
  | none => rw [hnone rfl, List.drop_nil, List.nil_append, newer]
  | some t =>
    have hgone : (returned.drop (returned.length + fresh.length - n)).filter (fun a => t < stamp a) = [] := by
      rw [List.filter_eq_nil_iff]
      intro a ha
      simpa using hold t rfl a (List.mem_of_mem_drop ha)
    rw [newer, List.filter_append, hgone, List.nil_append, List.filter_eq_self]
    exact fun a ha => decide_eq_true (hnew t rfl a ha)

/-- In a list that grows by stamp the last is the latest. -/
theorem le_getLast {xs : List α} {t : τ} (hsorted : xs.Pairwise fun a b => stamp a ≤ stamp b)
    (ht : xs.getLast?.map stamp = some t) : ∀ a ∈ xs, stamp a ≤ t := by
  intro a ha
  obtain ⟨last, hlast, rfl⟩ := Option.map_eq_some_iff.mp ht
  obtain ⟨init, rfl⟩ := List.getLast?_eq_some_iff.mp hlast
  rcases List.mem_append.mp ha with ha | ha
  · exact (List.pairwise_append.mp hsorted).2.2 a ha last List.mem_cons_self
  · rw [List.mem_singleton.mp ha]

/-- What was appended is what was returned and what has come since the last answer. -/
theorem returned_of_untied (h : Answered stamp n moves) (hfew : Few n moves)
    (hsorted : (appendedIn moves).Pairwise fun a b => stamp a ≤ stamp b)
    (huntied : Untied stamp moves) :
    ∃ pre seg, moves = pre ++ seg ∧ (∀ m ∈ seg, m.isPoll = false) ∧
      appendedIn moves = returnedIn moves ++ appendedIn seg ∧
      ∀ t, cursor stamp moves = some t → ∀ a ∈ appendedIn seg, t < stamp a := by
  induction moves using List.reverseRecOn with
  | nil => exact ⟨[], [], rfl, by simp, rfl, by simp⟩
  | append_singleton moves m ih =>
    have hfew' : Few n moves := fun pre seg post heq hseg =>
      hfew pre seg (post ++ [m]) (by rw [heq]; simp) hseg
    have huntied' : Untied stamp moves := fun pre a post heq =>
      huntied pre a (post ++ [m]) (by rw [heq]; simp)
    have hsorted' : (appendedIn moves).Pairwise fun a b => stamp a ≤ stamp b := by
      rw [appendedIn_append] at hsorted
      exact (List.pairwise_append.mp hsorted).1
    obtain ⟨pre, seg, hmoves, hseg, hall, hlater⟩ := ih h.of_append hfew' hsorted' huntied'
    have hreturned : (returnedIn moves).Pairwise fun a b => stamp a ≤ stamp b := by
      rw [hall] at hsorted'
      exact (List.pairwise_append.mp hsorted').1
    cases m with
    | append a =>
      refine ⟨pre, seg ++ [.append a], by rw [hmoves, List.append_assoc], ?_, ?_, ?_⟩
      · exact List.forall_mem_append.mpr ⟨hseg, by simp [Move.isPoll]⟩
      · simp [hall]
      · intro t ht
        rw [cursor_append_nil rfl] at ht
        rw [appendedIn_append]
        refine List.forall_mem_append.mpr ⟨hlater t ht, fun b hb => ?_⟩
        rw [appendedIn_cons_append, appendedIn_nil] at hb
        rw [List.mem_singleton.mp hb]
        obtain ⟨last, hlast, rfl⟩ := Option.map_eq_some_iff.mp ht
        have hmem : last ∈ appendedIn moves :=
          hall ▸ List.mem_append_left _ (List.mem_of_getLast? hlast)
        have hle : stamp last ≤ stamp a := by
          rw [appendedIn_append] at hsorted
          exact (List.pairwise_append.mp hsorted).2.2 last hmem a List.mem_cons_self
        exact lt_of_le_of_ne hle fun heq => huntied moves a [] rfl (ht.trans (congrArg some heq))
    | poll rs =>
      have hrs : rs = appendedIn seg := by
        rw [h.last, hall]
        refine newer_window ?_ (fun hnone => ?_) (fun t ht => le_getLast hreturned ht) hlater
        · rw [length_appendedIn hseg]
          exact hfew pre seg [.poll rs] (by rw [hmoves, List.append_assoc]) hseg
        · simpa [cursor] using hnone
      refine ⟨moves ++ [.poll rs], [], by simp, by simp, ?_, by simp⟩
      simp [hall, hrs]

/-- The reader who is answered last has everything, and nothing twice, if and only if
no element is appended with the stamp of the last one that it was given. -/
theorem complete_iff (h : Answered stamp n (moves ++ [.poll rs])) (hfew : Few n (moves ++ [.poll rs]))
    (hsorted : (appendedIn (moves ++ [.poll rs])).Pairwise fun a b => stamp a ≤ stamp b)
    (hnodup : (appendedIn (moves ++ [.poll rs])).Nodup) :
    Complete (moves ++ [.poll rs]) ↔ Untied stamp (moves ++ [.poll rs]) := by
  refine ⟨untied_of_complete h hnodup, fun huntied => ?_⟩
  obtain ⟨pre, seg, hmoves, hseg, hall, -⟩ := returned_of_untied h hfew hsorted huntied
  have hnil : seg = [] := by
    rcases List.eq_nil_or_concat seg with hnil | ⟨init, m, rfl⟩
    · exact hnil
    · rw [List.concat_eq_append, ← List.append_assoc] at hmoves
      have hm := hseg m (by simp)
      rw [← (List.cons.inj (List.append_inj_right' hmoves rfl)).1] at hm
      cases hm
  rw [hnil, appendedIn_nil, List.append_nil] at hall
  exact ⟨fun a ha => hall ▸ ha, hall ▸ hnodup⟩

end

end Lib.Polling
