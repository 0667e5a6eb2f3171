import EsigSuite.Lib.Json
import Mathlib.Data.List.Induction

/-!
# Paths

`node:path` on a POSIX system. `resolve_relative`: a relative path that does not
leave its directory leads back to the file.
-/

namespace Lib.PosixPath

def slash : UInt16 := 47

def here : JsString := js "."

def up : JsString := js ".."

abbrev Segment := JsString

def isAbsolute (path : JsString) : Bool := path.head? == some slash

def segments (path : JsString) : List Segment := path.splitOn slash

def joined (parts : List Segment) : JsString := [slash].intercalate parts

/-- `above`: whether `..` may lead out of where the path starts. -/
def push (above : Bool) (parts : List Segment) (part : Segment) : List Segment :=
  if part = [] ∨ part = here then parts
  else if part = up then
    match parts.getLast? with
    | some last => if last = up then (if above then parts ++ [up] else parts) else parts.dropLast
    | none => if above then [up] else []
  else parts ++ [part]

def normalizeParts (above : Bool) (parts : List Segment) : List Segment :=
  parts.foldl (push above) []

def normalize (path : JsString) : JsString :=
  if path = [] then here
  else
    let text := joined (normalizeParts (!isAbsolute path) (segments path))
    let ending := if path.getLast? = some slash then [slash] else []
    if isAbsolute path then slash :: text ++ (if text = [] then [] else ending)
    else if text = [] then here ++ ending
    else text ++ ending

def join (a b : JsString) : JsString :=
  let text := if a = [] then b else if b = [] then a else a ++ slash :: b
  if text = [] then here else normalize text

/-- Without the last segment and the slashes behind it. -/
def dirname (path : JsString) : JsString :=
  if path = [] then here
  else
    let ending := path.reverse.dropWhile (· == slash)
    let dir := (ending.dropWhile (· != slash)).drop 1
    if isAbsolute path then
      if dir.reverse = [slash] then [slash, slash] else if dir = [] then [slash] else dir.reverse
    else if dir = [] then here else dir.reverse

-- ---------------------------------------------------------------------------
-- Paths from the root
-- ---------------------------------------------------------------------------

section
variable (cwd : JsString)

def parts (path : JsString) : List Segment :=
  normalizeParts false (segments (if isAbsolute path then path else cwd ++ slash :: path))

def resolve (path : JsString) : JsString := slash :: joined (parts cwd path)

def shared : List Segment → List Segment → Nat
  | a :: as, b :: bs => if a = b then shared as bs + 1 else 0
  | _, _ => 0

def relative (start path : JsString) : JsString :=
  let a := parts cwd start
  let b := parts cwd path
  joined (List.replicate (a.length - shared a b) up ++ b.drop (shared a b))

end

-- ---------------------------------------------------------------------------
-- Segments
-- ---------------------------------------------------------------------------

/-- A segment that names something. -/
structure Plain (part : Segment) : Prop where
  ne_nil : part ≠ []
  ne_here : part ≠ here
  ne_up : part ≠ up
  slash : slash ∉ part

section
variable {above : Bool} {part : Segment} {parts base : List Segment}

theorem segments_append (a b : JsString) : segments (a ++ slash :: b) = segments a ++ segments b :=
  List.splitOn_append_cons_self a b

theorem segments_joined (hne : parts ≠ []) (h : ∀ p ∈ parts, slash ∉ p) :
    segments (joined parts) = parts := List.splitOn_intercalate slash h hne

theorem segments_slash (path : JsString) : ∀ p ∈ segments path, slash ∉ p := by
  induction path with
  | nil => simp [segments]
  | cons c rest ih =>
    rw [segments, List.splitOn_cons_eq_if_modifyHead]
    split
    next => exact List.forall_mem_cons.mpr ⟨List.not_mem_nil, ih⟩
    next hc =>
      obtain ⟨first, more, hmore⟩ := List.exists_cons_of_ne_nil (List.splitOn_ne_nil slash rest)
      rw [segments, hmore] at ih
      obtain ⟨hfirst, hrest⟩ := List.forall_mem_cons.mp ih
      rw [hmore, List.modifyHead_cons]
      refine List.forall_mem_cons.mpr ⟨fun hmem => ?_, hrest⟩
      rcases List.mem_cons.mp hmem with heq | hmem
      · exact hc (beq_iff_eq.mpr heq.symm)
      · exact hfirst hmem

@[simp] theorem push_nil : push above parts [] = parts := by simp [push]

@[simp] theorem push_here : push above parts here = parts := by simp [push]

theorem push_plain (h : Plain part) : push above parts part = parts ++ [part] := by
  rw [push, if_neg (not_or.mpr ⟨h.ne_nil, h.ne_here⟩), if_neg h.ne_up]

theorem push_plain_up (h : Plain part) : push above (parts ++ [part]) up = parts := by
  rw [push, if_neg (by decide), if_pos rfl, List.getLast?_concat]
  simp [h.ne_up]

theorem foldl_push_plain (h : ∀ p ∈ parts, Plain p) : parts.foldl (push above) base = base ++ parts := by
  induction parts generalizing base with
  | nil => simp
  | cons p parts ih =>
    obtain ⟨hp, hparts⟩ := List.forall_mem_cons.mp h
    rw [List.foldl_cons, push_plain hp, ih hparts, List.append_assoc, List.singleton_append]

theorem push_mem {P : Segment → Prop} (hparts : ∀ p ∈ parts, P p) (hpart : part ≠ [] → part ≠ here →
    (part = up → above = true) → P part) : ∀ p ∈ push above parts part, P p := by
  unfold push
  split
  next => exact hparts
  next hnot =>
    obtain ⟨hnil, hhere⟩ := not_or.mp hnot
    have hconcat : (part = up → above = true) → ∀ p ∈ parts ++ [part], P p := fun hup p hp =>
      (List.mem_append.mp hp).elim (hparts p) fun hp => List.mem_singleton.mp hp ▸ hpart hnil hhere hup
    split
    next hup =>
      subst hup
      cases hlast : parts.getLast? with
      | none =>
        obtain rfl := List.getLast?_eq_none_iff.mp hlast
        cases habove : above with
        | true => exact hconcat fun _ => habove
        | false => simp
      | some last =>
        dsimp only
        split
        · split
          next habove => exact hconcat fun _ => habove
          next => exact hparts
        · exact fun p hp => hparts p (List.dropLast_subset _ hp)
    next hup => exact hconcat fun heq => absurd heq hup

/-- What is kept is plain, or leads out. -/
theorem normalizeParts_mem {given : List Segment} (h : ∀ p ∈ given, slash ∉ p) :
    ∀ p ∈ normalizeParts above given, Plain p ∨ (p = up ∧ above = true) := by
  induction given using List.reverseRecOn with
  | nil => simp [normalizeParts]
  | append_singleton given part ih =>
    rw [normalizeParts, List.foldl_append, List.foldl_cons, List.foldl_nil]
    refine push_mem (ih fun p hp => h p (by simp [hp])) fun hnil hhere hup => ?_
    by_cases heq : part = up
    · exact .inr ⟨heq, hup heq⟩
    · exact .inl ⟨hnil, hhere, heq, h part (by simp)⟩

theorem normalizeParts_plain (path : JsString) : ∀ p ∈ normalizeParts false (segments path), Plain p :=
  fun p hp => (normalizeParts_mem (segments_slash path) p hp).elim id fun h => absurd h.2 (by decide)

/-- Normalizing first changes nothing. -/
theorem foldl_normalizeParts {given : List Segment} (h : ∀ p ∈ given, slash ∉ p) :
    (normalizeParts true given).foldl (push false) base = given.foldl (push false) base := by
  induction given using List.reverseRecOn with
  | nil => rfl
  | append_singleton given part ih =>
    have hgiven : ∀ p ∈ given, slash ∉ p := fun p hp => h p (by simp [hp])
    have hkept := @normalizeParts_mem true _ hgiven
    have ih := ih hgiven
    rw [normalizeParts, List.foldl_append, List.foldl_cons, List.foldl_nil, List.foldl_append,
      List.foldl_cons, List.foldl_nil, ← ih]
    change ((push true (normalizeParts true given) part).foldl (push false) base) = _
    generalize normalizeParts true given = kept at hkept ih ⊢
    conv_lhs => rw [push]
    split
    next htrivial => rw [push, if_pos htrivial]
    next htrivial =>
      split
      next hup =>
        subst hup
        cases hlast : kept.getLast? with
        | none =>
          obtain rfl := List.getLast?_eq_none_iff.mp hlast
          rfl
        | some last =>
          dsimp only
          split
          next => simp
          next hne =>
            obtain ⟨front, rfl⟩ := List.getLast?_eq_some_iff.mp hlast
            have hplain := (hkept last (by simp)).resolve_right fun h => hne h.1
            rw [List.dropLast_concat, List.foldl_append, List.foldl_cons, List.foldl_nil,
              push_plain hplain, push_plain_up hplain]
      next => simp

@[simp] theorem foldl_segments_nil : (segments []).foldl (push above) base = base :=
  @push_nil above base

@[simp] theorem foldl_segments_here : (segments here).foldl (push above) base = base :=
  @push_here above base

theorem foldl_joined (h : ∀ p ∈ parts, slash ∉ p) :
    (segments (joined parts)).foldl (push above) base = parts.foldl (push above) base := by
  rcases eq_or_ne parts [] with rfl | hne
  · exact foldl_segments_nil
  · rw [segments_joined hne h]

theorem foldl_ending (path : JsString) (slashed : Prop) [Decidable slashed] :
    (segments (path ++ if slashed then [slash] else [])).foldl (push above) base =
      (segments path).foldl (push above) base := by
  split
  · rw [segments_append, List.foldl_append, foldl_segments_nil]
  · rw [List.append_nil]

/-- What starts with a named segment is relative. -/
theorem isAbsolute_joined (ending : JsString) (hne : joined parts ≠ [])
    (h : ∀ p ∈ parts, p ≠ [] ∧ slash ∉ p) : isAbsolute (joined parts ++ ending) = false := by
  cases parts with
  | nil => exact absurd rfl hne
  | cons p parts =>
    obtain ⟨⟨hp, hslash⟩, -⟩ := List.forall_mem_cons.mp h
    obtain ⟨c, rest, rfl⟩ := List.exists_cons_of_ne_nil hp
    have hc : slash ≠ c := fun heq => hslash (heq ▸ List.mem_cons_self)
    have hhead : (joined ((c :: rest) :: parts) ++ ending).head? = some c := by
      cases parts <;> simp [joined, List.intercalate]
    rw [isAbsolute, hhead]
    simpa using Ne.symm hc

end

-- ---------------------------------------------------------------------------
-- The file that a path leads to
-- ---------------------------------------------------------------------------

section
variable {cwd a b path : JsString}

/-- Where a path starts. -/
def origin (cwd path : JsString) : List Segment :=
  if isAbsolute path then [] else normalizeParts false (segments cwd)

theorem parts_eq (cwd path : JsString) :
    parts cwd path = (segments path).foldl (push false) (origin cwd path) := by
  rw [parts, origin]
  split
  · rfl
  · rw [segments_append, normalizeParts, List.foldl_append]
    rfl

theorem parts_plain (cwd path : JsString) : ∀ p ∈ parts cwd path, Plain p :=
  normalizeParts_plain _

theorem origin_of_isAbsolute {a b : JsString} (h : isAbsolute a = isAbsolute b) :
    origin cwd a = origin cwd b := by rw [origin, origin, h]

theorem isAbsolute_here (ending : JsString) : isAbsolute (here ++ ending) = false := rfl

theorem parts_normalize (cwd path : JsString) : parts cwd (normalize path) = parts cwd path := by
  rw [parts_eq, parts_eq]
  unfold normalize
  split
  next hnil =>
    subst hnil
    rw [foldl_segments_here, foldl_segments_nil]
    rfl
  next hne =>
    dsimp only
    split
    next habs =>
      -- from the root, what is kept is plain
      have hplain := normalizeParts_plain path
      rw [origin_of_isAbsolute (b := path) (by rw [habs]; rfl), habs, Bool.not_true]
      have hstart : ∀ rest base, (segments (slash :: rest)).foldl (push false) base =
          (segments rest).foldl (push false) base := fun rest base => by
        rw [← List.nil_append (slash :: rest), segments_append, List.foldl_append,
          foldl_segments_nil]
      rw [List.cons_append, hstart, origin, if_pos habs]
      have hrest : (segments (joined (normalizeParts false (segments path)))).foldl (push false) [] =
          (segments path).foldl (push false) [] := by
        rw [foldl_joined fun p hp => (hplain p hp).slash, foldl_push_plain hplain]
        rfl
      split
      · rwa [List.append_nil]
      · rwa [foldl_ending]
    next habs =>
      have hkept := @normalizeParts_mem true _ (segments_slash path)
      have hslash : ∀ p ∈ normalizeParts true (segments path), slash ∉ p := fun p hp =>
        (hkept p hp).elim (·.slash) fun h => by rw [h.1]; decide
      have hnil : ∀ p ∈ normalizeParts true (segments path), p ≠ [] := fun p hp =>
        (hkept p hp).elim (·.ne_nil) fun h => by rw [h.1]; decide
      have habs : isAbsolute path = false := by simpa using habs
      have hrest : (segments (joined (normalizeParts true (segments path)))).foldl (push false)
          (origin cwd path) = (segments path).foldl (push false) (origin cwd path) := by
        rw [foldl_joined hslash, foldl_normalizeParts (segments_slash path)]
      rw [habs, Bool.not_false]
      split
      next hempty =>
        rw [origin_of_isAbsolute (b := path) (by rw [habs, isAbsolute_here]), foldl_ending, ← hrest, hempty,
          foldl_segments_here, foldl_segments_nil]
      next hsome =>
        have hrel := isAbsolute_joined (if path.getLast? = some slash then [slash] else []) hsome
          fun p hp => ⟨hnil p hp, hslash p hp⟩
        rw [origin_of_isAbsolute (b := path) (by rw [habs, hrel]), foldl_ending, hrest]

theorem parts_join (h : isAbsolute b = false) :
    parts cwd (join a b) = (segments b).foldl (push false) (parts cwd a) := by
  unfold join
  rcases eq_or_ne a [] with rfl | ha
  · have hcwd : parts cwd [] = origin cwd b := by
      rw [parts_eq, origin_of_isAbsolute (b := b) (by rw [h]; rfl), foldl_segments_nil]
    rw [if_pos rfl, hcwd]
    dsimp only
    split
    next hb =>
      subst hb
      rw [parts_eq, foldl_segments_here, foldl_segments_nil]
      rfl
    next => rw [parts_normalize, parts_eq]
  · rw [if_neg ha]
    rcases eq_or_ne b [] with rfl | hb
    · rw [if_pos rfl]
      dsimp only
      rw [if_neg ha, parts_normalize, foldl_segments_nil]
    · rw [if_neg hb]
      dsimp only
      have hhead : isAbsolute (a ++ slash :: b) = isAbsolute a := by
        obtain ⟨c, rest, rfl⟩ := List.exists_cons_of_ne_nil ha
        rfl
      rw [if_neg (by simp), parts_normalize, parts_eq, parts_eq, segments_append, List.foldl_append,
        origin_of_isAbsolute hhead]

theorem shared_le (as bs : List Segment) : shared as bs ≤ as.length := by
  fun_induction shared as bs with
  | case1 => simpa
  | case2 => simp
  | case3 => simp

theorem take_shared (as bs : List Segment) : as.take (shared as bs) = bs.take (shared as bs) := by
  fun_induction shared as bs with
  | case1 a as bs ih => rw [List.take_succ_cons, List.take_succ_cons, ih]
  | case2 => rfl
  | case3 => rfl

/-- A relative path that does not start with `..` leads back to the file. -/
theorem resolve_relative (h : ¬ up <+: relative cwd a b) :
    resolve cwd (normalize (join a (relative cwd a b))) = resolve cwd b := by
  have hle := shared_le (parts cwd a) (parts cwd b)
  have hall : (parts cwd a).length - shared (parts cwd a) (parts cwd b) = 0 := by
    by_contra hpos
    obtain ⟨n, hn⟩ := Nat.exists_eq_succ_of_ne_zero hpos
    apply h
    rw [relative, hn, List.replicate_succ, List.cons_append]
    generalize List.replicate n up ++ _ = rest
    cases rest with
    | nil => exact ⟨[], by simp [joined]⟩
    | cons p rest => exact ⟨slash :: joined (p :: rest), by simp [joined, List.intercalate]⟩
  have hshared : shared (parts cwd a) (parts cwd b) = (parts cwd a).length := by omega
  have hrelative : relative cwd a b = joined ((parts cwd b).drop (parts cwd a).length) := by
    rw [relative, hall, List.replicate_zero, List.nil_append, hshared]
  have hsplit : parts cwd a ++ (parts cwd b).drop (parts cwd a).length = parts cwd b := by
    have htake := take_shared (parts cwd a) (parts cwd b)
    rw [hshared, List.take_length] at htake
    conv_lhs => enter [1]; rw [htake]
    exact List.take_append_drop _ _
  have hplain : ∀ p ∈ (parts cwd b).drop (parts cwd a).length, Plain p := fun p hp =>
    parts_plain cwd b p (List.mem_of_mem_drop hp)
  have habs : isAbsolute (relative cwd a b) = false := by
    rw [hrelative]
    by_cases hne : joined ((parts cwd b).drop (parts cwd a).length) = []
    · rw [hne]
      rfl
    · simpa using isAbsolute_joined [] hne fun p hp => ⟨(hplain p hp).ne_nil, (hplain p hp).slash⟩
  rw [resolve, resolve, parts_normalize, parts_join habs, hrelative,
    foldl_joined fun p hp => (hplain p hp).slash, foldl_push_plain hplain, hsplit]

end

-- ---------------------------------------------------------------------------
-- Files below a directory
-- ---------------------------------------------------------------------------

section
variable {cwd a b path : JsString} {base inner : List Segment}

end

end Lib.PosixPath
