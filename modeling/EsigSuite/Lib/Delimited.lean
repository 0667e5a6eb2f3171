import Mathlib.Data.List.Basic

/-!
# Pieces of a text

A text cut at a letter, and at the first place where that letter stands twice.
-/

namespace Lib.Delimited

variable {α : Type} [DecidableEq α] (sep : α)

/-- What is before and behind the first two separators in a row. -/
def cutAtDouble : List α → Option (List α × List α)
  | c :: d :: rest =>
    if c = sep ∧ d = sep then some ([], rest)
    else (cutAtDouble (d :: rest)).map fun cut => (c :: cut.1, cut.2)
  | _ => none

variable {sep} {piece rest : List α} {pieces : List (List α)}

/-- A piece is not empty and has no separator. -/
def Piece (sep : α) (piece : List α) : Prop := piece ≠ [] ∧ sep ∉ piece

theorem cutAtDouble_cons {c : α} (hc : c ≠ sep) (text : List α) :
    cutAtDouble sep (c :: text) = (cutAtDouble sep text).map fun cut => (c :: cut.1, cut.2) := by
  cases text with
  | nil => rfl
  | cons d text => rw [cutAtDouble, if_neg fun h => hc h.1]

/-- The cut is behind a text without separators. -/
theorem cutAtDouble_append (h : sep ∉ piece) (text : List α) :
    cutAtDouble sep (piece ++ text) =
      (cutAtDouble sep text).map fun cut => (piece ++ cut.1, cut.2) := by
  induction piece with
  | nil => simp
  | cons c piece ih =>
    rw [List.mem_cons, not_or] at h
    rw [List.cons_append, cutAtDouble_cons (Ne.symm h.1), ih h.2, Option.map_map]
    rfl

/-- One separator is no place to cut. -/
theorem cutAtDouble_single {text : List α} (h : text.head? ≠ some sep) :
    cutAtDouble sep (sep :: text) = (cutAtDouble sep text).map fun cut => (sep :: cut.1, cut.2) := by
  cases text with
  | nil => rfl
  | cons d text => rw [cutAtDouble, if_neg fun hd => h (congrArg some hd.2)]

theorem mem_intercalate {c : α} (h : c ∈ [sep].intercalate pieces) : c = sep ∨ ∃ p ∈ pieces, c ∈ p := by
  induction pieces with
  | nil => cases h
  | cons piece pieces ih =>
    cases pieces with
    | nil => exact .inr ⟨piece, List.mem_cons_self, by simpa using h⟩
    | cons next pieces =>
      rw [List.intercalate_cons_cons, List.append_assoc, List.mem_append, List.singleton_append,
        List.mem_cons] at h
      rcases h with h | h | h
      · exact .inr ⟨piece, List.mem_cons_self, h⟩
      · exact .inl h
      · obtain hsep | ⟨p, hp, hc⟩ := ih h
        · exact .inl hsep
        · exact .inr ⟨p, List.mem_cons_of_mem _ hp, hc⟩

theorem head?_intercalate {text : List α} (h : ∀ p ∈ pieces, Piece sep p) (hne : pieces ≠ []) :
    ([sep].intercalate pieces ++ text).head? ≠ some sep := by
  obtain ⟨piece, pieces, rfl⟩ := List.exists_cons_of_ne_nil hne
  obtain ⟨hpiece, hsep⟩ := h piece List.mem_cons_self
  obtain ⟨c, piece, rfl⟩ := List.exists_cons_of_ne_nil hpiece
  have hc : c ≠ sep := fun hc => hsep (hc ▸ List.mem_cons_self)
  cases pieces <;> simpa [List.intercalate_cons_cons] using hc

/-- Pieces that are joined by one separator are not cut. -/
theorem cutAtDouble_intercalate (h : ∀ p ∈ pieces, Piece sep p) (hne : pieces ≠ []) (text : List α) :
    cutAtDouble sep ([sep].intercalate pieces ++ text) =
      (cutAtDouble sep text).map fun cut => ([sep].intercalate pieces ++ cut.1, cut.2) := by
  induction pieces with
  | nil => exact absurd rfl hne
  | cons piece pieces ih =>
    obtain ⟨hpiece, hpieces⟩ := List.forall_mem_cons.mp h
    cases pieces with
    | nil => simpa using cutAtDouble_append hpiece.2 text
    | cons next pieces =>
      rw [List.intercalate_cons_cons, List.append_assoc, List.append_assoc,
        cutAtDouble_append hpiece.2, List.singleton_append,
        cutAtDouble_single (head?_intercalate hpieces (by simp)), ih hpieces (by simp),
        Option.map_map, Option.map_map]
      simp [Function.comp_def]

/-- A text of pieces has no place to cut. -/
theorem cutAtDouble_pieces (h : ∀ p ∈ pieces, Piece sep p) :
    cutAtDouble sep ([sep].intercalate pieces) = none := by
  rcases eq_or_ne pieces [] with rfl | hne
  · rfl
  · simpa [cutAtDouble] using cutAtDouble_intercalate h hne []

/-- The place to cut is between two texts of pieces. -/
theorem cutAtDouble_between (h : ∀ p ∈ pieces, Piece sep p) (text : List α) :
    cutAtDouble sep ([sep].intercalate pieces ++ sep :: sep :: text) =
      some ([sep].intercalate pieces, text) := by
  have hcut : cutAtDouble sep (sep :: sep :: text) = some ([], text) := by simp [cutAtDouble]
  rcases eq_or_ne pieces [] with rfl | hne
  · exact hcut
  · rw [cutAtDouble_intercalate h hne, hcut]
    simp

/-- Two cuts of one text at a separator: they are the same, or one is inside the front of the other. -/
theorem cut_cases {a b a' b' : List α} (h : a ++ sep :: b = a' ++ sep :: b') :
    (a = a' ∧ b = b') ∨ (∃ c, a' = a ++ sep :: c ∧ b = c ++ sep :: b') ∨
      ∃ c, a = a' ++ sep :: c ∧ b' = c ++ sep :: b := by
  rcases List.append_eq_append_iff.mp h with ⟨c, ha, hb⟩ | ⟨c, ha, hb⟩
  · cases c with
    | nil => exact .inl ⟨by simpa using ha.symm, by simpa using hb⟩
    | cons d c =>
      obtain ⟨rfl, hrest⟩ := List.cons.inj hb
      exact .inr (.inl ⟨c, ha, hrest⟩)
  · cases c with
    | nil => exact .inl ⟨by simpa using ha, by simpa using hb.symm⟩
    | cons d c =>
      obtain ⟨rfl, hrest⟩ := List.cons.inj hb
      exact .inr (.inr ⟨c, ha, hrest⟩)

end Lib.Delimited
