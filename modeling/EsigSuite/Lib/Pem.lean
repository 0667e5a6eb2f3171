import EsigSuite.Lib.Json

/-!
# The text form of a certificate

Base64 in lines of one width between two marker lines. Reading drops the
markers and all white space; what is left is the text that was wrapped.
-/

namespace Lib

/-- The lines around a certificate. -/
def pemMarkers : List JsString :=
  [js "-----BEGIN CERTIFICATE-----", js "-----END CERTIFICATE-----"]

/-- Without the markers; the first `n` units are those of one. -/
def dropMarkers : Nat → JsString → JsString
  | _, [] => []
  | n + 1, _ :: rest => dropMarkers n rest
  | 0, c :: rest =>
    match pemMarkers.find? (·.isPrefixOf (c :: rest)) with
    | some marker => dropMarkers (marker.length - 1) rest
    | none => c :: dropMarkers 0 rest

/-- Pieces of `width` elements, the last one shorter. -/
def wrap (width : Nat) : List α → List (List α)
  | [] => []
  | c :: rest => (c :: rest.take (width - 1)) :: wrap width (rest.drop (width - 1))
termination_by l => l.length
decreasing_by simp only [List.length_cons, List.length_drop]; omega

theorem flatten_wrap (width : Nat) (l : List α) : (wrap width l).flatten = l := by
  fun_induction wrap width l with
  | case1 => rfl
  | case2 c rest ih => rw [List.flatten_cons, ih, List.cons_append, List.take_append_drop]

/-- A separator that is filtered out leaves no trace. -/
theorem filter_intercalate {p : α → Bool} {sep : List α} (hsep : sep.filter p = [])
    (pieces : List (List α)) :
    (List.intercalate sep pieces).filter p = pieces.flatten.filter p := by
  induction pieces with
  | nil => rfl
  | cons piece pieces ih =>
    cases pieces with
    | nil => simp
    | cons next more =>
      rw [List.intercalate_cons_cons, List.filter_append, List.filter_append, hsep, ih]
      simp

theorem mem_intercalate_or {sep : List α} {pieces : List (List α)} {x : α}
    (h : x ∈ List.intercalate sep pieces) : x ∈ sep ∨ x ∈ pieces.flatten := by
  induction pieces with
  | nil => simp at h
  | cons piece pieces ih =>
    cases pieces with
    | nil => exact .inr (by simpa using h)
    | cons next more =>
      rw [List.intercalate_cons_cons, List.mem_append, List.mem_append] at h
      rcases h with (h | h) | h
      · exact .inr (List.mem_append_left _ h)
      · exact .inl h
      · exact (ih h).imp_right (List.mem_append_right _)

-- ---------------------------------------------------------------------------
-- Markers
-- ---------------------------------------------------------------------------

theorem dropMarkers_drop (n : Nat) (text : JsString) :
    dropMarkers n text = dropMarkers 0 (text.drop n) := by
  induction text generalizing n with
  | nil => simp [dropMarkers]
  | cons c rest ih =>
    cases n with
    | zero => rfl
    | succ n => rw [dropMarkers, ih, List.drop_succ_cons]

theorem head_pemMarkers : ∀ marker ∈ pemMarkers, marker.head? = some 45 := by decide

theorem isPrefixOf_head {marker : JsString} (hhead : marker.head? = some 45) {c : UInt16}
    (hc : c ≠ 45) (rest : JsString) : marker.isPrefixOf (c :: rest) = false := by
  cases marker with
  | nil => cases hhead
  | cons d marker =>
    obtain rfl : d = 45 := Option.some.inj hhead
    simp [List.isPrefixOf, hc.symm]

/-- Every marker starts with a hyphen. -/
theorem dropMarkers_append {text : JsString} (h : 45 ∉ text) (rest : JsString) :
    dropMarkers 0 (text ++ rest) = text ++ dropMarkers 0 rest := by
  induction text with
  | nil => rfl
  | cons c text ih =>
    have hc : c ≠ 45 := fun hc => h (hc ▸ List.mem_cons_self)
    have hfind : pemMarkers.find? (·.isPrefixOf (c :: (text ++ rest))) = none :=
      List.find?_eq_none.mpr fun marker hmarker => by
        simp [isPrefixOf_head (head_pemMarkers marker hmarker) hc]
    rw [List.cons_append, dropMarkers, hfind, ih fun hmem => h (List.mem_cons_of_mem _ hmem)]
    rfl

theorem dropMarkers_begin (rest : JsString) :
    dropMarkers 0 (js "-----BEGIN CERTIFICATE-----" ++ rest) = dropMarkers 0 rest := by
  have hunits : js "-----BEGIN CERTIFICATE-----" = 45 :: (js "----BEGIN CERTIFICATE-----") := by
    decide
  have hfind : pemMarkers.find? (·.isPrefixOf (js "-----BEGIN CERTIFICATE-----" ++ rest)) =
      some (js "-----BEGIN CERTIFICATE-----") := by
    rw [pemMarkers, List.find?_cons_of_pos]
    exact List.isPrefixOf_iff_prefix.mpr (List.prefix_append _ _)
  rw [hunits, List.cons_append] at hfind ⊢
  rw [dropMarkers, hfind, dropMarkers_drop, ← hunits]
  rfl

end Lib
