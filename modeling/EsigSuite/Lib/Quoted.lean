import Mathlib.Data.List.Basic

/-!
# Splitting a text that has quotes

A text is cut at separators everywhere, or only outside quotes. `mem_outside_iff`:
a piece of the first kind is one of the second exactly when the separators at its
two ends stand outside quotes.
-/

namespace Lib

/-- What opens and closes a quote, and what escapes in one. -/
structure Quoting (α : Type) where
  quote : α
  escape : α

namespace Quoting

inductive Mode
  | plain
  | quoted
  | escaped
  deriving DecidableEq

variable {α : Type}

/-- Where a piece starts, and its text. -/
abbrev Piece (α : Type) := Nat × List α

def later (p : Piece α) : Piece α := (p.1 + 1, p.2)

def grow (c : α) : List (Piece α) → List (Piece α)
  | [] => []
  | (_, text) :: more => (0, c :: text) :: more.map later

theorem mem_map_later {p : Piece α} {ps : List (Piece α)} : later p ∈ ps.map later ↔ p ∈ ps := by
  refine ⟨fun h => ?_, List.mem_map_of_mem⟩
  obtain ⟨⟨i, text⟩, hmem, heq⟩ := List.mem_map.mp h
  simp only [later, Prod.mk.injEq, Nat.add_right_cancel_iff] at heq
  rwa [← (Prod.ext heq.1 heq.2 : ((i, text) : Piece α) = p)]

theorem start_ne_later {text : List α} {ps : List (Piece α)} : (0, text) ∉ ps.map later := by
  simp [later]

theorem later_ne_start {p : Piece α} {text : List α} : later p ≠ (0, text) := by
  simp [later]

theorem later_pos {ps : List (Piece α)} {p : Piece α} (h : p ∈ ps.map later) : 0 < p.1 := by
  obtain ⟨p', -, rfl⟩ := List.mem_map.mp h
  exact Nat.succ_pos _

theorem map_later_snd (ps : List (Piece α)) : (ps.map later).map (·.2) = ps.map (·.2) := by
  simp [later]

variable [DecidableEq α] (q : Quoting α)

def next : Mode → α → Mode
  | .plain, c => if c = q.quote then .quoted else .plain
  | .quoted, c => if c = q.quote then .plain else if c = q.escape then .escaped else .quoted
  | .escaped, _ => .quoted

/-- The mode before a position. -/
def modeAt (m : Mode) (text : List α) (i : Nat) : Mode := (text.take i).foldl q.next m

def pieces (cut : Mode → α → Bool) : Mode → List α → List (Piece α)
  | _, [] => [(0, [])]
  | m, c :: rest =>
    let more := pieces cut (q.next m c) rest
    if cut m c then (0, []) :: more.map later else grow c more

variable (sep : α → Bool)

/-- A separator is one anywhere. -/
def everywhere (_ : Mode) (c : α) : Bool := sep c

/-- A separator in quotes is text. -/
def outside (m : Mode) (c : α) : Bool := m = .plain && sep c

/-- The separators at both ends of a piece are outside quotes. -/
structure Bare (m : Mode) (text : List α) (p : Piece α) : Prop where
  before : ∀ i, p.1 = i + 1 → q.modeAt m text i = .plain
  after : p.1 + p.2.length < text.length → q.modeAt m text (p.1 + p.2.length) = .plain

instance (m : Mode) (text : List α) (p : Piece α) : Decidable (q.Bare m text p) :=
  decidable_of_iff ((∀ i < p.1, p.1 = i + 1 → q.modeAt m text i = .plain) ∧
      (p.1 + p.2.length < text.length → q.modeAt m text (p.1 + p.2.length) = .plain))
    ⟨fun h => ⟨fun i hi => h.1 i (hi ▸ Nat.lt_succ_self i) hi, h.2⟩,
      fun h => ⟨fun i _ => h.before i, h.after⟩⟩

variable {q sep}

@[simp] theorem modeAt_zero (m : Mode) (text : List α) : q.modeAt m text 0 = m := rfl

@[simp] theorem modeAt_succ (m : Mode) (c : α) (rest : List α) (i : Nat) :
    q.modeAt m (c :: rest) (i + 1) = q.modeAt (q.next m c) rest i := rfl

/-- The first piece starts the text, the others come later. -/
theorem pieces_start (cut : Mode → α → Bool) (m : Mode) (text : List α) :
    ∃ first more, q.pieces cut m text = (0, first) :: more ∧ ∀ p ∈ more, 0 < p.1 := by
  induction text generalizing m with
  | nil => exact ⟨[], [], rfl, by simp⟩
  | cons c rest ih =>
    obtain ⟨first, more, hmore, -⟩ := ih (q.next m c)
    rw [pieces, hmore]
    split
    · exact ⟨[], _, rfl, fun p hp => later_pos hp⟩
    · exact ⟨_, _, rfl, fun p hp => later_pos hp⟩

theorem bare_later {p : Piece α} (h : 0 < p.1) :
    q.Bare m (c :: rest) (later p) ↔ q.Bare (q.next m c) rest p := by
  obtain ⟨_ | i, text⟩ := p
  · exact absurd h (Nat.lt_irrefl 0)
  constructor
  · rintro ⟨hbefore, hafter⟩
    refine ⟨fun j hj => ?_, fun hlt => ?_⟩
    · exact hbefore (j + 1) (congrArg (· + 1) hj)
    · have := hafter (by simp only [later, List.length_cons] at hlt ⊢; omega)
      rwa [later, Nat.add_right_comm, modeAt_succ] at this
  · rintro ⟨hbefore, hafter⟩
    refine ⟨fun j hj => ?_, fun hlt => ?_⟩
    · obtain rfl : i + 1 = j := Nat.succ.inj hj
      exact hbefore i rfl
    · rw [later, Nat.add_right_comm, modeAt_succ]
      exact hafter (by simp only [later, List.length_cons] at hlt ⊢; omega)

theorem bare_later_start :
    q.Bare m (c :: rest) (later (0, text)) ↔ m = .plain ∧ q.Bare (q.next m c) rest (0, text) := by
  constructor
  · rintro ⟨hbefore, hafter⟩
    refine ⟨hbefore 0 rfl, by simp, fun hlt => ?_⟩
    have := hafter (by simp only [later, List.length_cons] at hlt ⊢; omega)
    rwa [later, Nat.add_right_comm, modeAt_succ] at this
  · rintro ⟨rfl, -, hafter⟩
    refine ⟨fun j hj => ?_, fun hlt => ?_⟩
    · obtain rfl : 0 = j := Nat.succ.inj hj
      rfl
    · rw [later, Nat.add_right_comm, modeAt_succ]
      exact hafter (by simp only [later, List.length_cons] at hlt ⊢; omega)

theorem bare_grow :
    q.Bare m (c :: rest) (0, c :: text) ↔ q.Bare (q.next m c) rest (0, text) := by
  constructor
  · rintro ⟨-, hafter⟩
    refine ⟨by simp, fun hlt => ?_⟩
    have := hafter (by simp only [List.length_cons] at hlt ⊢; omega)
    rwa [List.length_cons, ← Nat.add_assoc, modeAt_succ] at this
  · rintro ⟨-, hafter⟩
    refine ⟨by simp, fun hlt => ?_⟩
    rw [List.length_cons, ← Nat.add_assoc, modeAt_succ]
    exact hafter (by simp only [List.length_cons] at hlt ⊢; omega)

theorem bare_empty : q.Bare m (c :: rest) (0, []) ↔ m = .plain := by
  constructor
  · rintro ⟨-, hafter⟩
    exact hafter (by simp)
  · rintro rfl
    exact ⟨by simp, fun _ => rfl⟩

theorem bare_later_plain {p : Piece α} (hm : m = .plain) :
    q.Bare m (c :: rest) (later p) ↔ q.Bare (q.next m c) rest p := by
  obtain ⟨_ | i, text⟩ := p
  · rw [bare_later_start, and_iff_right hm]
  · exact bare_later (Nat.succ_pos i)

section
variable {rest : List α} {m : Mode} {c : α} {p : Piece α}
  (ih : ∀ p ∈ q.pieces (everywhere sep) (q.next m c) rest,
    (p ∈ q.pieces (outside sep) (q.next m c) rest ↔ q.Bare (q.next m c) rest p))
include ih

/-- A piece that starts later, where the text before it is not cut off. -/
theorem mem_grow_iff (hp : p ∈ q.pieces (everywhere sep) (q.next m c) rest) (hpos : 0 < p.1) :
    later p ∈ grow c (q.pieces (outside sep) (q.next m c) rest) ↔ q.Bare m (c :: rest) (later p) := by
  obtain ⟨first, more, hmore, -⟩ := pieces_start (q := q) (outside sep) (q.next m c) rest
  have hfirst : p ≠ (0, first) := by
    rintro rfl
    exact absurd hpos (Nat.lt_irrefl 0)
  rw [bare_later hpos, ← ih p hp, hmore, grow, List.mem_cons, List.mem_cons, mem_map_later,
    or_iff_right later_ne_start, or_iff_right hfirst]

/-- A separator outside quotes. -/
theorem mem_cut_iff (hm : m = .plain)
    (h : p ∈ (0, []) :: (q.pieces (everywhere sep) (q.next m c) rest).map later) :
    p ∈ (0, []) :: (q.pieces (outside sep) (q.next m c) rest).map later ↔
      q.Bare m (c :: rest) p := by
  rcases List.mem_cons.mp h with rfl | h
  · exact iff_of_true List.mem_cons_self (bare_empty.mpr hm)
  · obtain ⟨p, hp, rfl⟩ := List.mem_map.mp h
    rw [List.mem_cons, or_iff_right later_ne_start, mem_map_later, ih p hp, bare_later_plain hm]

/-- A separator in quotes. -/
theorem mem_quoted_iff (hm : m ≠ .plain)
    (h : p ∈ (0, []) :: (q.pieces (everywhere sep) (q.next m c) rest).map later) :
    p ∈ grow c (q.pieces (outside sep) (q.next m c) rest) ↔ q.Bare m (c :: rest) p := by
  obtain ⟨first, more, hmore, hstart⟩ := pieces_start (q := q) (outside sep) (q.next m c) rest
  rcases List.mem_cons.mp h with rfl | h
  · refine iff_of_false ?_ (fun hbare => hm (bare_empty.mp hbare))
    simp [hmore, grow, later]
  · obtain ⟨⟨_ | i, text⟩, hp, rfl⟩ := List.mem_map.mp h
    · refine iff_of_false ?_ (fun hbare => hm (bare_later_start.mp hbare).1)
      rw [hmore, grow, List.mem_cons, or_iff_right later_ne_start, mem_map_later]
      exact fun hmem => absurd (hstart _ hmem) (Nat.lt_irrefl 0)
    · exact mem_grow_iff ih hp (Nat.succ_pos i)

/-- No separator. -/
theorem mem_text_iff (h : p ∈ grow c (q.pieces (everywhere sep) (q.next m c) rest)) :
    p ∈ grow c (q.pieces (outside sep) (q.next m c) rest) ↔ q.Bare m (c :: rest) p := by
  obtain ⟨first, more, hmore, hstart⟩ := pieces_start (q := q) (everywhere sep) (q.next m c) rest
  obtain ⟨first', more', hmore', hstart'⟩ := pieces_start (q := q) (outside sep) (q.next m c) rest
  rw [hmore, grow, List.mem_cons] at h
  rcases h with rfl | h
  · have hfirst := ih (0, first) (by rw [hmore]; exact List.mem_cons_self)
    have hnot : (0, first) ∉ more' := fun hmem => absurd (hstart' _ hmem) (Nat.lt_irrefl 0)
    rw [bare_grow, ← hfirst, hmore', grow, List.mem_cons, List.mem_cons,
      or_iff_left start_ne_later, or_iff_left hnot]
    simp
  · obtain ⟨p, hp, rfl⟩ := List.mem_map.mp h
    exact mem_grow_iff ih (by rw [hmore]; exact .tail _ hp) (hstart p hp)

end

/-- A piece between separators is one between separators outside quotes exactly
when those at its ends are. -/
theorem mem_outside_iff {p : Piece α} (h : p ∈ q.pieces (everywhere sep) m text) :
    p ∈ q.pieces (outside sep) m text ↔ q.Bare m text p := by
  induction text generalizing m p with
  | nil =>
    obtain rfl : p = (0, []) := by simpa [pieces] using h
    exact iff_of_true (by simp [pieces]) ⟨by simp, by simp⟩
  | cons c rest ih =>
    rw [pieces, everywhere] at h
    rw [pieces, outside]
    cases hsep : sep c with
    | true =>
      rw [hsep, if_pos rfl] at h
      by_cases hm : m = .plain
      · rw [Bool.and_true, if_pos (decide_eq_true hm)]
        exact mem_cut_iff (fun p hp => ih hp) hm h
      · rw [Bool.and_true, if_neg (by simpa using hm)]
        exact mem_quoted_iff (fun p hp => ih hp) hm h
    | false =>
      rw [hsep, if_neg (by simp)] at h
      rw [Bool.and_false, if_neg (by simp)]
      exact mem_text_iff (fun p hp => ih hp) h

-- ---------------------------------------------------------------------------
-- Texts of the pieces
-- ---------------------------------------------------------------------------

/-- Cutting everywhere is `split`. -/
theorem pieces_everywhere (m : Mode) (text : List α) :
    (q.pieces (everywhere sep) m text).map (·.2) = text.splitOnP sep := by
  induction text generalizing m with
  | nil => rfl
  | cons c rest ih =>
    have hrest := ih (q.next m c)
    obtain ⟨first, more, hmore, -⟩ := pieces_start (q := q) (everywhere sep) (q.next m c) rest
    rw [pieces, everywhere, List.splitOnP_cons_eq_if_modifyHead, ← hrest]
    cases sep c with
    | true => rw [if_pos rfl, if_pos rfl, List.map_cons, map_later_snd]
    | false =>
      rw [if_neg (by simp), if_neg (by simp), hmore, grow, List.map_cons, map_later_snd]
      rfl

end Quoting

/-- Split at one separator, then each piece at another. -/
theorem splitOnP_flatMap {α : Type} (p r : α → Bool) (text : List α) :
    (text.splitOnP p).flatMap (·.splitOnP r) = text.splitOnP fun c => p c || r c := by
  induction text with
  | nil => rfl
  | cons c rest ih =>
    rw [List.splitOnP_cons_eq_if_modifyHead, List.splitOnP_cons_eq_if_modifyHead, ← ih]
    obtain ⟨first, more, hmore⟩ := List.exists_cons_of_ne_nil (List.splitOnP_ne_nil p rest)
    obtain ⟨inner, others, hinner⟩ := List.exists_cons_of_ne_nil (List.splitOnP_ne_nil r first)
    cases hp : p c with
    | true => simp
    | false =>
      rw [hmore]
      cases hr : r c <;> simp [List.splitOnP_cons_eq_if_modifyHead, hr, hinner]

end Lib
