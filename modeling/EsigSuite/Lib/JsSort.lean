import EsigSuite.Lib.JsNumber
import Mathlib.Data.List.Perm.Basic
import Mathlib.Data.List.Count

/-!
# Sorting with a comparator

What the language promises of `sort(comparefn)`: a permutation, and the stable order
where the comparator is consistent on the items. `Sorting.orderless_iff`: when the
order in which the items are given does not show in what is made of the result.
-/

namespace Lib

abbrev Comparator (α : Type) := α → α → JsNumber

namespace Comparator

variable {α : Type} (cmp : Comparator α)

def Below (a b : α) : Prop := JsNumber.lt (cmp a b) (some (.finite 0)) = true

def Tied (a b : α) : Prop := cmp a b = some (.finite 0)

def Above (a b : α) : Prop := JsNumber.lt (some (.finite 0)) (cmp a b) = true

/-- A consistent comparator for the items. -/
structure Consistent (xs : List α) : Prop where
  number : ∀ a ∈ xs, ∀ b ∈ xs, (cmp a b).isSome
  refl : ∀ a ∈ xs, cmp.Tied a a
  symm : ∀ a ∈ xs, ∀ b ∈ xs, cmp.Tied a b → cmp.Tied b a
  tied_trans : ∀ a ∈ xs, ∀ b ∈ xs, ∀ c ∈ xs, cmp.Tied a b → cmp.Tied b c → cmp.Tied a c
  below_trans : ∀ a ∈ xs, ∀ b ∈ xs, ∀ c ∈ xs, cmp.Below a b → cmp.Below b c → cmp.Below a c
  above_trans : ∀ a ∈ xs, ∀ b ∈ xs, ∀ c ∈ xs, cmp.Above a b → cmp.Above b c → cmp.Above a c

def notAbove (a b : α) : Bool := !JsNumber.lt (some (.finite 0)) (cmp a b)

/-- How many of the items stand below. -/
def rank (xs : List α) (a : α) : Nat :=
  xs.countP fun b => JsNumber.lt (cmp b a) (some (.finite 0))

end Comparator

/-- A `sort` as the language allows it. -/
structure Sorting {α : Type} (sort : Comparator α → List α → List α) : Prop where
  perm : ∀ cmp xs, (sort cmp xs).Perm xs
  stable : ∀ cmp xs, cmp.Consistent xs → sort cmp xs = xs.mergeSort cmp.notAbove

namespace Comparator

variable {α : Type} {cmp : Comparator α} {xs ys : List α} {a b c : α}

theorem trichotomy (h : (cmp a b).isSome) : cmp.Below a b ∨ cmp.Tied a b ∨ cmp.Above a b := by
  obtain ⟨x, hx⟩ := Option.isSome_iff_exists.mp h
  simp only [Below, Tied, Above, hx, JsNumber.lt, decide_eq_true_eq, Option.some.injEq]
  exact lt_trichotomy x (.finite 0)

theorem Tied.not_below (h : cmp.Tied a b) : ¬ cmp.Below a b := by
  rw [Below, h]
  decide

theorem Tied.not_above (h : cmp.Tied a b) : ¬ cmp.Above a b := by
  rw [Above, h]
  decide

theorem Below.not_above (h : cmp.Below a b) : ¬ cmp.Above a b := by
  unfold Below at h
  unfold Above
  cases hcmp : cmp a b with
  | none => simp [JsNumber.lt]
  | some x =>
    simp only [hcmp, JsNumber.lt, decide_eq_true_eq] at h ⊢
    exact not_lt_of_gt h

namespace Consistent

variable (h : cmp.Consistent xs)
include h

theorem perm (hperm : ys.Perm xs) : cmp.Consistent ys where
  number a ha b hb := h.number a (hperm.mem_iff.mp ha) b (hperm.mem_iff.mp hb)
  refl a ha := h.refl a (hperm.mem_iff.mp ha)
  symm a ha b hb := h.symm a (hperm.mem_iff.mp ha) b (hperm.mem_iff.mp hb)
  tied_trans a ha b hb c hc :=
    h.tied_trans a (hperm.mem_iff.mp ha) b (hperm.mem_iff.mp hb) c (hperm.mem_iff.mp hc)
  below_trans a ha b hb c hc :=
    h.below_trans a (hperm.mem_iff.mp ha) b (hperm.mem_iff.mp hb) c (hperm.mem_iff.mp hc)
  above_trans a ha b hb c hc :=
    h.above_trans a (hperm.mem_iff.mp ha) b (hperm.mem_iff.mp hb) c (hperm.mem_iff.mp hc)

theorem below_iff (ha : a ∈ xs) (hb : b ∈ xs) : cmp.Below a b ↔ cmp.Above b a := by
  constructor
  · intro hbelow
    rcases trichotomy (h.number b hb a ha) with hback | hback | hback
    · exact absurd (h.below_trans a ha b hb a ha hbelow hback) (h.refl a ha).not_below
    · exact absurd hbelow (h.symm b hb a ha hback).not_below
    · exact hback
  · intro habove
    rcases trichotomy (h.number a ha b hb) with hback | hback | hback
    · exact hback
    · exact absurd habove (h.symm a ha b hb hback).not_above
    · exact absurd (h.above_trans b hb a ha b hb habove hback) (h.refl b hb).not_above

/-- What is below stays below what is tied. -/
theorem below_tied (ha : a ∈ xs) (hb : b ∈ xs) (hc : c ∈ xs) (hbelow : cmp.Below a b)
    (htied : cmp.Tied b c) : cmp.Below a c := by
  rcases trichotomy (h.number a ha c hc) with hac | hac | hac
  · exact hac
  · have hab := h.tied_trans a ha c hc b hb hac (h.symm b hb c hc htied)
    exact absurd hbelow hab.not_below
  · have hca := (h.below_iff hc ha).mpr hac
    have hcb := h.below_trans c hc a ha b hb hca hbelow
    exact absurd hcb (h.symm b hb c hc htied).not_below

theorem rank_lt (ha : a ∈ xs) (hb : b ∈ xs) (hbelow : cmp.Below a b) :
    cmp.rank xs a < cmp.rank xs b := by
  have hsub : ∀ c ∈ xs, cmp.Below c a → cmp.Below c b := fun c hc hca =>
    h.below_trans c hc a ha b hb hca hbelow
  obtain ⟨front, back, rfl⟩ := List.append_of_mem ha
  have hmono : ∀ part : List α, (∀ c ∈ part, c ∈ front ++ a :: back) →
      part.countP (fun c => JsNumber.lt (cmp c a) (some (.finite 0))) ≤
        part.countP fun c => JsNumber.lt (cmp c b) (some (.finite 0)) := fun part hpart =>
    List.countP_mono_left fun c hc hca => hsub c (hpart c hc) hca
  have hfront := hmono front (by simp +contextual)
  have hback := hmono back (by simp +contextual)
  have hself : JsNumber.lt (cmp a a) (some (.finite 0)) = false := by
    simpa [Below] using (h.refl a ha).not_below
  have hother : JsNumber.lt (cmp a b) (some (.finite 0)) = true := hbelow
  simp only [rank, List.countP_append, List.countP_cons, hself, hother] at hfront hback ⊢
  simp only [Bool.false_eq_true, if_false, if_true]
  omega

theorem rank_eq (ha : a ∈ xs) (hb : b ∈ xs) (htied : cmp.Tied a b) :
    cmp.rank xs a = cmp.rank xs b := by
  refine List.countP_congr fun c hc => ?_
  exact ⟨fun hca => h.below_tied hc ha hb hca htied,
    fun hcb => h.below_tied hc hb ha hcb (h.symm a ha b hb htied)⟩

theorem tied_iff (ha : a ∈ xs) (hb : b ∈ xs) :
    cmp.Tied a b ↔ cmp.rank xs a = cmp.rank xs b := by
  refine ⟨h.rank_eq ha hb, fun heq => ?_⟩
  rcases trichotomy (h.number a ha b hb) with hbelow | htied | habove
  · exact absurd heq (h.rank_lt ha hb hbelow).ne
  · exact htied
  · exact absurd heq (h.rank_lt hb ha ((h.below_iff hb ha).mpr habove)).ne'

theorem notAbove_eq (ha : a ∈ xs) (hb : b ∈ xs) :
    cmp.notAbove a b = decide (cmp.rank xs a ≤ cmp.rank xs b) := by
  rw [Bool.eq_iff_iff, decide_eq_true_eq, notAbove, Bool.not_eq_true', ← Bool.not_eq_true]
  constructor
  · intro hnot
    rcases trichotomy (h.number a ha b hb) with hbelow | htied | habove
    · exact (h.rank_lt ha hb hbelow).le
    · exact (h.rank_eq ha hb htied).le
    · exact absurd habove hnot
  · intro hle habove
    exact absurd (h.rank_lt hb ha ((h.below_iff hb ha).mpr habove)) (not_lt_of_ge hle)

/-- The stable order is that of the ranks. -/
theorem mergeSort_eq (hperm : ys.Perm xs) : ys.mergeSort cmp.notAbove =
    ys.mergeSort fun a b => decide (cmp.rank xs a ≤ cmp.rank xs b) := by
  have hmap := List.map_mergeSort (r := cmp.notAbove)
    (s := fun a b => decide (cmp.rank xs a ≤ cmp.rank xs b)) (f := id) (l := ys)
    fun a ha b hb => h.notAbove_eq (hperm.mem_iff.mp ha) (hperm.mem_iff.mp hb)
  simpa using hmap

end Consistent

end Comparator

-- ---------------------------------------------------------------------------
-- Orders that do not show
-- ---------------------------------------------------------------------------

section
variable {α β : Type} {cmp : Comparator α} {xs ys : List α} {a b : α}

open Classical in
/-- A sort that leaves alone what the language leaves open. -/
noncomputable def lazySort (cmp : Comparator α) (xs : List α) : List α :=
  if cmp.Consistent xs then xs.mergeSort cmp.notAbove else xs

theorem lazySort_sorting : Sorting (lazySort (α := α)) where
  perm cmp xs := by
    unfold lazySort
    split
    · exact List.mergeSort_perm _ _
    · exact List.Perm.refl _
  stable _ _ h := if_pos h

theorem exists_perm_cons (ha : a ∈ xs) : ∃ rest, (a :: rest).Perm xs := by
  obtain ⟨front, back, rfl⟩ := List.append_of_mem ha
  exact ⟨front ++ back, List.perm_middle.symm⟩

/-- The sorted items with the one that was given first: those below stand in front of it. -/
theorem mergeSort_first (rank : α → Nat) (a : α) (rest : List α) :
    ∃ front back, (a :: rest).mergeSort (fun x y => decide (rank x ≤ rank y)) = front ++ a :: back ∧
      front.length = (a :: rest).countP fun x => decide (rank x < rank a) := by
  have htrans : ∀ x y z, decide (rank x ≤ rank y) = true → decide (rank y ≤ rank z) = true →
      decide (rank x ≤ rank z) = true := fun x y z hxy hyz => by
    simp only [decide_eq_true_eq] at *
    omega
  have htotal : ∀ x y, (decide (rank x ≤ rank y) || decide (rank y ≤ rank x)) = true := fun x y => by
    simp only [Bool.or_eq_true, decide_eq_true_eq]
    omega
  obtain ⟨front, back, hsorted, -, hfront⟩ := List.mergeSort_cons htrans htotal a rest
  refine ⟨front, back, hsorted, ?_⟩
  have hpairs := List.pairwise_mergeSort htrans htotal (a :: rest)
  rw [hsorted, List.pairwise_append, List.pairwise_cons] at hpairs
  have hbelow : front.countP (fun x => decide (rank x < rank a)) = front.length := by
    refine List.countP_eq_length.mpr fun x hx => ?_
    have := hfront x hx
    simp only [Bool.not_eq_true', decide_eq_false_iff_not] at this
    simpa using this
  have habove : back.countP (fun x => decide (rank x < rank a)) = 0 := by
    refine List.countP_eq_zero.mpr fun x hx => ?_
    have := hpairs.2.1.1 x hx
    simpa using this
  have hcount := (List.mergeSort_perm (a :: rest)
    fun x y => decide (rank x ≤ rank y)).countP_eq fun x => decide (rank x < rank a)
  rw [hsorted, List.countP_append, List.countP_cons, hbelow, habove] at hcount
  simpa using hcount

/-- Of tied items, the one given first comes first. -/
theorem eq_of_tied {f : α → β} (h : cmp.Consistent xs)
    (hsame : ∀ ys : List α, ys.Perm xs → (ys.mergeSort cmp.notAbove).map f = (xs.mergeSort cmp.notAbove).map f)
    (ha : a ∈ xs) (hb : b ∈ xs) (htied : cmp.Tied a b) : f a = f b := by
  obtain ⟨rest, hperm⟩ := exists_perm_cons ha
  obtain ⟨rest', hperm'⟩ := exists_perm_cons hb
  obtain ⟨front, back, hsorted, hlength⟩ := mergeSort_first (cmp.rank xs) a rest
  obtain ⟨front', back', hsorted', hlength'⟩ := mergeSort_first (cmp.rank xs) b rest'
  have heq := (hsame _ hperm).trans (hsame _ hperm').symm
  rw [h.mergeSort_eq hperm, h.mergeSort_eq hperm', hsorted, hsorted', List.map_append,
    List.map_append, List.map_cons, List.map_cons] at heq
  have hrank := h.rank_eq ha hb htied
  have hfronts : (front.map f).length = (front'.map f).length := by
    rw [List.length_map, List.length_map, hlength, hlength', hrank,
      (hperm.trans hperm'.symm).countP_eq]
  exact (List.cons.inj (List.append_inj heq hfronts).2).1

theorem map_sorted_eq {f : α → β} (h : cmp.Consistent xs) (hperm : ys.Perm xs)
    (hties : ∀ a ∈ xs, ∀ b ∈ xs, cmp.Tied a b → f a = f b) :
    (ys.mergeSort cmp.notAbove).map f = (xs.mergeSort cmp.notAbove).map f := by
  rw [h.mergeSort_eq hperm, h.mergeSort_eq (List.Perm.refl xs)]
  have hsorted : ∀ zs : List α, ((zs.mergeSort fun a b => decide (cmp.rank xs a ≤ cmp.rank xs b)).map
      fun a => (cmp.rank xs a, f a)).Pairwise fun p q => p.1 ≤ q.1 := by
    intro zs
    rw [List.pairwise_map]
    refine (List.pairwise_mergeSort (fun x y z hxy hyz => ?_) (fun x y => ?_) zs).imp
      fun hle => by simpa using hle
    · simp only [decide_eq_true_eq] at *
      omega
    · simp only [Bool.or_eq_true, decide_eq_true_eq]
      omega
  have hsorts : (ys.mergeSort fun a b => decide (cmp.rank xs a ≤ cmp.rank xs b)).Perm
      (xs.mergeSort fun a b => decide (cmp.rank xs a ≤ cmp.rank xs b)) :=
    (List.mergeSort_perm ys _).trans (hperm.trans (List.mergeSort_perm xs _).symm)
  have hpairs := (hsorts.map fun a => (cmp.rank xs a, f a)).eq_of_pairwise (fun p q hp hq hpq hqp => ?_) (hsorted ys) (hsorted xs)
  · simpa [Function.comp_def] using congrArg (List.map Prod.snd) hpairs
  · -- items of one rank are tied
    obtain ⟨a, ha, rfl⟩ := List.mem_map.mp hp
    obtain ⟨b, hb, rfl⟩ := List.mem_map.mp hq
    have ha := hperm.mem_iff.mp (List.mem_mergeSort.mp ha)
    have hb := List.mem_mergeSort.mp hb
    have hrank := Nat.le_antisymm hpq hqp
    exact Prod.ext hrank (hties a ha b hb ((h.tied_iff ha hb).mpr hrank))

/-- The order in which the items are given never shows exactly when nothing tells them
apart, or the comparator tells apart whatever differs. -/
theorem Sorting.orderless_iff (f : α → β) :
    (∀ sort, Sorting sort → ∀ ys, ys.Perm xs → (sort cmp ys).map f = (sort cmp xs).map f) ↔
      (∀ a ∈ xs, ∀ b ∈ xs, f a = f b) ∨
        cmp.Consistent xs ∧ ∀ a ∈ xs, ∀ b ∈ xs, cmp.Tied a b → f a = f b := by
  constructor
  · intro h
    have hsame := h lazySort lazySort_sorting
    by_cases hconsistent : cmp.Consistent xs
    · refine .inr ⟨hconsistent, fun a ha b hb => eq_of_tied hconsistent (fun ys hperm => ?_) ha hb⟩
      have := hsame ys hperm
      rwa [lazySort, lazySort, if_pos (hconsistent.perm hperm), if_pos hconsistent] at this
    · refine .inl fun a ha b hb => ?_
      obtain ⟨rest, hperm⟩ := exists_perm_cons ha
      obtain ⟨rest', hperm'⟩ := exists_perm_cons hb
      have heq := (hsame _ hperm).trans (hsame _ hperm').symm
      rw [lazySort, lazySort, if_neg fun h => hconsistent (h.perm hperm.symm),
        if_neg fun h => hconsistent (h.perm hperm'.symm)] at heq
      exact (List.cons.inj heq).1
  · rintro (hall | ⟨hconsistent, hties⟩) sort hsort ys hperm
    · have hys := hsort.perm cmp ys
      have hxs := hsort.perm cmp xs
      refine List.ext_getElem (by simp [hys.length_eq, hxs.length_eq, hperm.length_eq]) ?_
      intro i hi hi'
      rw [List.getElem_map, List.getElem_map]
      exact hall _ (hperm.mem_iff.mp (hys.mem_iff.mp (List.getElem_mem _))) _
        (hxs.mem_iff.mp (List.getElem_mem _))
    · rw [hsort.stable cmp ys (hconsistent.perm hperm), hsort.stable cmp xs hconsistent]
      exact map_sorted_eq hconsistent hperm hties

end

end Lib
