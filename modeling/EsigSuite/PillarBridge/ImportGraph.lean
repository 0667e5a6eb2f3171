import EsigSuite.Lib.PosixPath
import EsigSuite.PillarBridge.ImportSpecifiers

/-!
# The import graph

`walkImportGraph` of `esig-pillar-bridge/src/shim.ts` over any file system.
-/

namespace EsigSuite.PillarBridge

open Lib Regex PosixPath

structure Violation where
  file : JsString
  specifier : JsString
  reason : JsString

/-- `(^|[\\/])` -/
def pathStart : Regex UInt16 := .alt start (within "\\/")

/-- `([\\/.]|$)` -/
def nameEnd : Regex UInt16 := .alt (within "\\/.") finish

def BANNED_PATTERNS : List (String × Regex UInt16) :=
  [("libp2p", folded "libp2p"),
    ("better-sqlite3", folded "better-sqlite3"),
    ("mailbox", .all [pathStart, folded "mailbox", nameEnd]),
    ("transport", .all [pathStart, folded "transport", nameEnd]),
    ("index.mjs", .all [pathStart, folded "index.mjs", finish])]

/-- The names of the patterns that a text matches. -/
def bannedNames (text : JsString) : List JsString :=
  (BANNED_PATTERNS.filter fun b => b.2.test none text).map fun b => js b.1

/-- What stands at a path. A directory is there but cannot be read. -/
inductive Entry
  | file (source : JsString)
  | directory

abbrev FileSystem := List (JsString × Entry)

structure Walk where
  visited : List JsString
  violations : List Violation
  queue : List JsString

section
variable (cwd srcRoot : JsString)

def pathOf (rel : JsString) : JsString := normalize (PosixPath.join srcRoot rel)

def targetOf (abs spec : JsString) : JsString := normalize (PosixPath.join (dirname abs) spec)

def isFollowed (spec : JsString) : Bool := (js ".").isPrefixOf spec || (js "/").isPrefixOf spec

/-- Within Pillar's own src tree. -/
def isInside (target : JsString) : Bool :=
  let targetRel := relative cwd srcRoot target
  !up.isPrefixOf targetRel && !isAbsolute targetRel

def violationsOf (rel abs spec : JsString) : List Violation :=
  (bannedNames spec).map (fun name => ⟨rel, spec, js "banned: " ++ name⟩) ++
    if isFollowed spec then
      (bannedNames (targetOf abs spec)).map fun name =>
        ⟨rel, spec, js "banned (resolved path): " ++ name⟩
    else []

/-- What a specifier adds to the queue. -/
def queued (visited : List JsString) (abs spec : JsString) : Option JsString :=
  let target := targetOf abs spec
  if isFollowed spec ∧ isInside cwd srcRoot target ∧ target ∉ visited then
    some (relative cwd srcRoot target)
  else none

variable (fs : FileSystem)

def visit (w : Walk) (rel : JsString) (queue : List JsString) : Except String Walk :=
  let abs := pathOf srcRoot rel
  if abs ∈ w.visited then .ok { w with queue := queue }
  else
    let visited := w.visited ++ [abs]
    match fs.lookup abs with
    | none => .ok ⟨visited, w.violations ++ [⟨rel, rel, js "file does not exist"⟩], queue⟩
    | some .directory => .error "EISDIR"
    | some (.file source) =>
      let specs := extractSpecifiers source
      .ok ⟨visited, w.violations ++ specs.flatMap (violationsOf rel abs),
        queue ++ specs.filterMap (queued cwd srcRoot visited abs)⟩

/-- Nothing where the rounds do not suffice. -/
def walk : Nat → Walk → Option (Except String Walk)
  | n, w =>
    match w.queue with
    | [] => some (.ok w)
    | rel :: queue =>
      match n with
      | 0 => none
      | n + 1 =>
        match visit cwd srcRoot fs w rel queue with
        | .error e => some (.error e)
        | .ok w => walk n w

def walkImportGraph (rounds : Nat) (entryFiles : List JsString) :
    Option (Except String (List JsString × List Violation)) :=
  (walk cwd srcRoot fs rounds ⟨[], [], entryFiles⟩).map (·.map fun w => (w.visited, w.violations))

end

-- ---------------------------------------------------------------------------
-- The walk ends
-- ---------------------------------------------------------------------------

section
variable {cwd srcRoot : JsString} {fs : FileSystem} {w w' : Walk} {rel : JsString}
  {queue : List JsString}

/-- The files that the walk has not come to. -/
def unvisited (fs : FileSystem) (visited : List JsString) : List JsString :=
  (fs.map (·.1)).filter (· ∉ visited)

theorem unvisited_append (visited : List JsString) (abs : JsString) :
    unvisited fs (visited ++ [abs]) = (unvisited fs visited).filter (· ≠ abs) := by
  rw [unvisited, unvisited, List.filter_filter]
  refine List.filter_congr fun path _ => ?_
  simp [and_comm]

/-- What a visit does: the path was visited before, or nothing is there, or a file is. -/
theorem visit_cases (h : visit cwd srcRoot fs w rel queue = .ok w') :
    (pathOf srcRoot rel ∈ w.visited ∧ w' = { w with queue := queue }) ∨
    (pathOf srcRoot rel ∉ w.visited ∧ fs.lookup (pathOf srcRoot rel) = none ∧
      w'.visited = w.visited ++ [pathOf srcRoot rel] ∧ w'.queue = queue) ∨
    (pathOf srcRoot rel ∉ w.visited ∧ ∃ source,
      fs.lookup (pathOf srcRoot rel) = some (.file source) ∧
      w'.visited = w.visited ++ [pathOf srcRoot rel] ∧
      w'.queue = queue ++ (extractSpecifiers source).filterMap
        (queued cwd srcRoot (w.visited ++ [pathOf srcRoot rel]) (pathOf srcRoot rel))) := by
  unfold visit at h
  dsimp only at h
  split at h
  next hvisited =>
    cases h
    exact .inl ⟨hvisited, rfl⟩
  next hvisited =>
    split at h
    next hnone =>
      cases h
      exact .inr (.inl ⟨hvisited, hnone, rfl, rfl⟩)
    next => cases h
    next source hfile =>
      cases h
      exact .inr (.inr ⟨hvisited, source, hfile, rfl, rfl⟩)

theorem mem_of_lookup {path : JsString} {entry : Entry} (h : fs.lookup path = some entry) :
    path ∈ fs.map (·.1) := by
  obtain ⟨front, back, rfl, -⟩ := List.lookup_eq_some_iff.mp h
  simp

theorem visit_fewer (h : visit cwd srcRoot fs w rel queue = .ok w') :
    (w'.queue = queue ∧ (unvisited fs w'.visited).length ≤ (unvisited fs w.visited).length) ∨
      (unvisited fs w'.visited).length < (unvisited fs w.visited).length := by
  obtain ⟨-, rfl⟩ | ⟨-, -, hvisited, hqueue⟩ | ⟨hnew, source, hfile, hvisited, -⟩ := visit_cases h
  · exact .inl ⟨rfl, Nat.le_refl _⟩
  · refine .inl ⟨hqueue, ?_⟩
    rw [hvisited, unvisited_append]
    exact List.length_filter_le _ _
  · refine .inr ?_
    rw [hvisited, unvisited_append]
    refine List.length_filter_lt_length_iff_exists.mpr ⟨pathOf srcRoot rel, ?_, by simp⟩
    exact List.mem_filter.mpr ⟨mem_of_lookup hfile, by simpa using hnew⟩

/-- Each round visits another file, or shortens the queue. -/
theorem walk_ends (n : Nat) (w : Walk) (hn : (unvisited fs w.visited).length ≤ n) :
    ∃ rounds result, walk cwd srcRoot fs rounds w = some result := by
  induction n using Nat.strong_induction_on generalizing w with
  | _ n ihn =>
    obtain ⟨visited, violations, queue⟩ := w
    induction queue generalizing visited violations with
    | nil => exact ⟨0, _, by rw [walk]⟩
    | cons rel queue ihqueue =>
      cases hvisit : visit cwd srcRoot fs ⟨visited, violations, rel :: queue⟩ rel queue with
      | error e => exact ⟨1, .error e, by simp [walk, hvisit]⟩
      | ok w' =>
        obtain ⟨rounds, result, hwalk⟩ : ∃ rounds result,
            walk cwd srcRoot fs rounds w' = some result := by
          obtain ⟨hqueue, hle⟩ | hlt := visit_fewer hvisit
          · obtain ⟨visited', violations', _⟩ := w'
            obtain rfl := hqueue
            exact ihqueue visited' violations' (Nat.le_trans hle hn)
          · exact ihn _ (Nat.lt_of_lt_of_le hlt hn) w' (Nat.le_refl _)
        exact ⟨rounds + 1, result, by simp [walk, hvisit, hwalk]⟩

-- ---------------------------------------------------------------------------
-- What is visited
-- ---------------------------------------------------------------------------

/-- The file is visited, or its turn comes. -/
def Reached (cwd srcRoot : JsString) (w : Walk) (target : JsString) : Prop :=
  target ∈ w.visited ∨ pathOf srcRoot (relative cwd srcRoot target) ∈ w.visited ∨
    relative cwd srcRoot target ∈ w.queue

/-- All that the visited files import is reached. -/
def Closed (cwd srcRoot : JsString) (fs : FileSystem) (w : Walk) : Prop :=
  ∀ abs ∈ w.visited, ∀ source, fs.lookup abs = some (.file source) →
    ∀ spec ∈ extractSpecifiers source, isFollowed spec = true →
      isInside cwd srcRoot (targetOf abs spec) = true → Reached cwd srcRoot w (targetOf abs spec)

theorem visit_mono (h : visit cwd srcRoot fs w rel queue = .ok w') :
    w.visited ⊆ w'.visited ∧ queue ⊆ w'.queue ∧ pathOf srcRoot rel ∈ w'.visited := by
  obtain ⟨hmem, rfl⟩ | ⟨-, -, hvisited, hqueue⟩ | ⟨-, source, -, hvisited, hqueue⟩ := visit_cases h
  · exact ⟨List.Subset.refl _, List.Subset.refl _, hmem⟩
  · rw [hvisited, hqueue]
    exact ⟨List.subset_append_left _ _, List.Subset.refl _, by simp⟩
  · rw [hvisited, hqueue]
    exact ⟨List.subset_append_left _ _, List.subset_append_left _ _, by simp⟩

theorem visit_reached {target : JsString} (hqueue : w.queue = rel :: queue)
    (h : visit cwd srcRoot fs w rel queue = .ok w') (hreached : Reached cwd srcRoot w target) :
    Reached cwd srcRoot w' target := by
  obtain ⟨hvisited, hlater, hrel⟩ := visit_mono h
  rcases hreached with hmem | hmem | hmem
  · exact .inl (hvisited hmem)
  · exact .inr (.inl (hvisited hmem))
  · rw [hqueue] at hmem
    rcases List.mem_cons.mp hmem with heq | hmem
    · exact .inr (.inl (heq ▸ hrel))
    · exact .inr (.inr (hlater hmem))

theorem visit_closed (hqueue : w.queue = rel :: queue)
    (h : visit cwd srcRoot fs w rel queue = .ok w') (hclosed : Closed cwd srcRoot fs w) :
    Closed cwd srcRoot fs w' := by
  intro abs habs source hfile spec hspec hfollowed hinside
  have hold : abs ∈ w.visited → Reached cwd srcRoot w' (targetOf abs spec) := fun hmem =>
    visit_reached hqueue h (hclosed abs hmem source hfile spec hspec hfollowed hinside)
  obtain ⟨-, rfl⟩ | ⟨-, hnone, hvisited, -⟩ | ⟨-, source', hfile', hvisited, hlater⟩ := visit_cases h
  · exact hold habs
  · rw [hvisited] at habs
    rcases List.mem_append.mp habs with hmem | hmem
    · exact hold hmem
    · rw [List.mem_singleton.mp hmem, hnone] at hfile
      cases hfile
  · rw [hvisited] at habs
    rcases List.mem_append.mp habs with hmem | hmem
    · exact hold hmem
    · obtain rfl := List.mem_singleton.mp hmem
      obtain rfl : source' = source := by simpa [hfile'] using hfile
      by_cases htarget : targetOf (pathOf srcRoot rel) spec ∈ w'.visited
      · exact .inl htarget
      · refine .inr (.inr ?_)
        rw [hlater]
        rw [hvisited] at htarget
        refine List.mem_append_right _ (List.mem_filterMap.mpr ⟨spec, hspec, ?_⟩)
        rw [queued, if_pos ⟨hfollowed, hinside, htarget⟩]

theorem walk_closed {rounds : Nat} (hclosed : Closed cwd srcRoot fs w)
    (h : walk cwd srcRoot fs rounds w = some (.ok w')) :
    Closed cwd srcRoot fs w' ∧ w'.queue = [] := by
  induction rounds generalizing w with
  | zero =>
    unfold walk at h
    split at h
    next hqueue =>
      cases h
      exact ⟨hclosed, hqueue⟩
    next => cases h
  | succ rounds ih =>
    unfold walk at h
    split at h
    next hqueue =>
      cases h
      exact ⟨hclosed, hqueue⟩
    next rel queue hqueue =>
      dsimp only at h
      cases hvisit : visit cwd srcRoot fs w rel queue with
      | error e =>
        rw [hvisit] at h
        cases h
      | ok next =>
        rw [hvisit] at h
        exact ih (visit_closed hqueue hvisit hclosed) h

/-- The walk ends, and what a visited file imports at the start of a line from within
the source tree is visited. -/
theorem walkImportGraph_closed (cwd srcRoot : JsString) (fs : FileSystem)
    (entryFiles : List JsString) :
    (∃ rounds result, walkImportGraph cwd srcRoot fs rounds entryFiles = some result) ∧
    ∀ rounds visited violations,
      walkImportGraph cwd srcRoot fs rounds entryFiles = some (.ok (visited, violations)) →
      ∀ abs ∈ visited, ∀ source, fs.lookup abs = some (.file source) →
        ∀ spec, Imports source spec → isFollowed spec = true →
          isInside cwd srcRoot (targetOf abs spec) = true →
          ∃ path ∈ visited, resolve cwd path = resolve cwd (targetOf abs spec) := by
  constructor
  · obtain ⟨rounds, result, hwalk⟩ := @walk_ends cwd srcRoot fs _
      ⟨[], [], entryFiles⟩ (Nat.le_refl _)
    exact ⟨rounds, _, by rw [walkImportGraph, hwalk]; rfl⟩
  · intro rounds visited violations hrun abs habs source hfile spec himports hfollowed hinside
    obtain ⟨result, hwalk, hresult⟩ := Option.map_eq_some_iff.mp hrun
    obtain _ | w := result
    · cases hresult
    obtain ⟨rfl, rfl⟩ : w.visited = visited ∧ w.violations = violations := by
      simpa [Except.map] using hresult
    obtain ⟨hclosed, hqueue⟩ := walk_closed (fun _ habs => absurd habs List.not_mem_nil) hwalk
    have hreached := hclosed abs habs source hfile spec himports.mem hfollowed hinside
    rcases hreached with hmem | hmem | hmem
    · exact ⟨_, hmem, rfl⟩
    · refine ⟨_, hmem, resolve_relative fun hup => ?_⟩
      rw [isInside, Bool.and_eq_true, Bool.not_eq_true'] at hinside
      exact absurd (List.isPrefixOf_iff_prefix.mpr hup) (by simp [hinside.1])
    · rw [hqueue] at hmem
      cases hmem

end

/-- Two files that import each other, and one that imports from outside. -/
def sampleFiles : FileSystem :=
  [(js "/p/src/a.mjs", .file (js "// a\nimport { b } from './net/b.mjs';")),
    (js "/p/src/net/b.mjs", .file (js "export * from \"../a.mjs\"")),
    (js "/p/src/c.mjs", .file (js "import '../x.mjs'")),
    (js "/p/x.mjs", .file [])]

theorem walkImportGraph_sample : ∃ visited violations,
    walkImportGraph (js "/") (js "/p/src") sampleFiles 9 [js "a.mjs"] =
      some (.ok (visited, violations)) ∧
    visited = [js "/p/src/a.mjs", js "/p/src/net/b.mjs"] ∧
    ∃ path ∈ visited, resolve (js "/") path =
      resolve (js "/") (targetOf (js "/p/src/a.mjs") (js "./net/b.mjs")) := by
  have hrun : ((walkImportGraph (js "/") (js "/p/src") sampleFiles 9 [js "a.mjs"]).bind
      (·.toOption)).map (·.1) = some [js "/p/src/a.mjs", js "/p/src/net/b.mjs"] := by decide +kernel
  obtain ⟨⟨visited, violations⟩, hresult, rfl⟩ := Option.map_eq_some_iff.mp hrun
  obtain ⟨result, hwalk, hresult⟩ := Option.bind_eq_some_iff.mp hresult
  obtain _ | ⟨visited, violations⟩ := result
  · cases hresult
  cases hresult
  have himports : Imports (js "// a\nimport { b } from './net/b.mjs';") (js "./net/b.mjs") := by
    refine ⟨js "// a\n", [], js "import { b } from ", 39, 39, js ";", by decide, .inr (by decide),
      ?_, by simp, ?_, by decide, by decide, by decide, List.forall_iff_forall_mem.mp (by decide)⟩
    · rintro ⟨front, gap, q, rest, htext, -, -, -, hq, -⟩
      have hnone : ∀ c ∈ js "// a\n", isQuote c = false :=
        List.forall_iff_forall_mem.mp (by decide)
      rw [hnone q (by rw [htext]; simp)] at hq
      cases hq
    · exact @Opening.clause (js "import") 32 (js "{ b } ") (js " ") (.inl rfl) (by decide)
        (List.forall_iff_forall_mem.mp (by decide)) (by decide) (List.forall_iff_forall_mem.mp (by decide))
  exact ⟨_, _, hwalk, rfl, (walkImportGraph_closed (js "/") (js "/p/src") sampleFiles [js "a.mjs"]).2 9
    _ _ hwalk (js "/p/src/a.mjs") (by decide) _ rfl _ himports (by decide) (by decide +kernel)⟩

/-- What lies outside the source tree is not followed. -/
theorem walkImportGraph_outside : ¬ ∀ (cwd srcRoot : JsString) (fs : FileSystem)
    (entryFiles : List JsString) (rounds : Nat) (visited : List JsString)
    (violations : List Violation),
    walkImportGraph cwd srcRoot fs rounds entryFiles = some (.ok (visited, violations)) →
    ∀ abs ∈ visited, ∀ source, fs.lookup abs = some (.file source) →
      ∀ spec, Imports source spec → isFollowed spec = true →
        ∃ path ∈ visited, resolve cwd path = resolve cwd (targetOf abs spec) := by
  intro h
  have hrun : ((walkImportGraph (js "/") (js "/p/src") sampleFiles 9 [js "c.mjs"]).bind
      (·.toOption)).map (·.1) = some [js "/p/src/c.mjs"] := by decide +kernel
  obtain ⟨⟨visited, violations⟩, hresult, hvisited⟩ := Option.map_eq_some_iff.mp hrun
  obtain ⟨result, hwalk, hresult⟩ := Option.bind_eq_some_iff.mp hresult
  obtain _ | ⟨visited, violations⟩ := result
  · cases hresult
  cases hresult
  have himports : Imports (js "import '../x.mjs'") (js "../x.mjs") := by
    refine ⟨[], [], js "import ", 39, 39, [], by decide, .inl rfl, ?_, by simp, ?_, by decide,
      by decide, by decide, List.forall_iff_forall_mem.mp (by decide)⟩
    · rintro ⟨front, gap, q, rest, htext, -⟩
      simp at htext
    · exact @Opening.bare (js " ") (by decide) (List.forall_iff_forall_mem.mp (by decide))
  subst hvisited
  obtain ⟨path, hpath, hsame⟩ := h (js "/") (js "/p/src") sampleFiles [js "c.mjs"] 9 _ _ hwalk
    (js "/p/src/c.mjs") (by decide) _ rfl (js "../x.mjs") himports (by decide)
  rw [List.mem_singleton.mp hpath] at hsame
  exact absurd hsame (by decide +kernel)

end EsigSuite.PillarBridge
