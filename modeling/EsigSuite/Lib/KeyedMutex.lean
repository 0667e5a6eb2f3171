import EsigSuite.Lib.Async

/-!
# A mutex for each key, as a chain of promises

A caller takes a ticket, waits for the ticket before it, and releases its own
when it is done. `Holds` is having waited; no two hold the same key.
-/

namespace Lib

variable {κ ι : Type}

structure Ticket (κ ι : Type) where
  key : κ
  owner : ι
  released : Bool
  deriving DecidableEq

/-- All tickets ever taken, and the last one of each key while the chain of
the key is in use. -/
structure KeyedMutex (κ ι : Type) where
  tickets : List (Ticket κ ι)
  tails : κ → Option Nat

namespace KeyedMutex

def empty : KeyedMutex κ ι := ⟨[], fun _ => none⟩

section
variable [DecidableEq κ]

/-- Up to the first `await`: the tail in front, and the own ticket. -/
def enter (m : KeyedMutex κ ι) (key : κ) (owner : ι) : (Option Nat × Nat) × KeyedMutex κ ι :=
  ((m.tails key, m.tickets.length),
    { tickets := m.tickets ++ [⟨key, owner, false⟩],
      tails := Function.update m.tails key (some m.tickets.length) })

/-- The tail in front is resolved. Whoever released it had waited before. -/
def resolved (m : KeyedMutex κ ι) : Option Nat → Prop
  | none => True
  | some t => ∃ ticket, m.tickets[t]? = some ticket ∧ ticket.released = true

def release (m : KeyedMutex κ ι) (key : κ) (mine : Nat) : KeyedMutex κ ι where
  tickets := m.tickets.modify mine fun ticket => { ticket with released := true }
  tails := if m.tails key = some mine then Function.update m.tails key none else m.tails

end

-- ---------------------------------------------------------------------------
-- The queue
-- ---------------------------------------------------------------------------

structure Ok (m : KeyedMutex κ ι) : Prop where
  tail_key : ∀ k t, m.tails k = some t → ∃ ticket, m.tickets[t]? = some ticket ∧ ticket.key = k
  before_tail : ∀ (t : Nat) (a : Ticket κ ι), m.tickets[t]? = some a → a.released = false →
    ∃ tail, m.tails a.key = some tail ∧ t ≤ tail
  in_order : ∀ (t : Nat) (a : Ticket κ ι) (t' : Nat) (a' : Ticket κ ι), m.tickets[t]? = some a → m.tickets[t']? = some a' → t' ≤ t →
    a'.key = a.key → a.released = true → a'.released = true

/-- The owner has entered and waits for `prev`. -/
structure Queued (m : KeyedMutex κ ι) (key : κ) (owner : ι) (prev : Option Nat) (mine : Nat) :
    Prop where
  taken : m.tickets[mine]? = some ⟨key, owner, false⟩
  prev_key : ∀ p, prev = some p → ∃ a : Ticket κ ι, m.tickets[p]? = some a ∧ a.key = key
  prev_lt : ∀ p, prev = some p → p < mine
  before : ∀ (t : Nat) (a : Ticket κ ι), t < mine → m.tickets[t]? = some a → a.key = key →
    a.released = false →
    ∃ p, prev = some p ∧ t ≤ p

structure Holds (m : KeyedMutex κ ι) (key : κ) (owner : ι) (mine : Nat) : Prop where
  taken : m.tickets[mine]? = some ⟨key, owner, false⟩
  before : ∀ (t : Nat) (a : Ticket κ ι), t < mine → m.tickets[t]? = some a → a.key = key → a.released = true

/-- What the others may do to the mutex, seen by `i`. -/
def Moves (i : ι) (m m' : KeyedMutex κ ι) : Prop :=
  ∀ (t : Nat) (a : Ticket κ ι), m.tickets[t]? = some a → ∃ a', m'.tickets[t]? = some a' ∧ a'.key = a.key ∧
    a'.owner = a.owner ∧ (a.released = true → a'.released = true) ∧ (a.owner = i → a' = a)

variable {m m' : KeyedMutex κ ι} {key : κ} {i j : ι}

theorem Moves.refl (i : ι) (m : KeyedMutex κ ι) : Moves i m m :=
  fun _ a ha => ⟨a, ha, rfl, rfl, id, fun _ => rfl⟩

/-- A resolved tail stays so when a ticket is taken. -/
theorem resolved.enter [DecidableEq κ] {prev : Option Nat} (h : m.resolved prev) (key : κ) (i : ι) :
    (m.enter key i).2.resolved prev := by
  cases prev with
  | none => trivial
  | some t =>
    obtain ⟨ticket, ht, hreleased⟩ := h
    refine ⟨ticket, ?_, hreleased⟩
    change (m.tickets ++ _)[t]? = _
    rw [List.getElem?_append_left (List.getElem?_eq_some_iff.mp ht).1, ht]

theorem Ok.empty : Ok (empty : KeyedMutex κ ι) where
  tail_key _ _ h := by cases h
  before_tail _ _ h := by cases h
  in_order _ _ _ _ h := by cases h

theorem lt_of_getElem? {xs : List α} {a : α} {t : Nat} (h : xs[t]? = some a) : t < xs.length :=
  (List.getElem?_eq_some_iff.mp h).1

/-- A ticket below one of the own is as old as it. -/
theorem Moves.back {t mine : Nat} {a' : Ticket κ ι} (hmoves : Moves i m m')
    (hlt : mine < m.tickets.length)
    (ht : t < mine) (ha' : m'.tickets[t]? = some a') :
    ∃ a, m.tickets[t]? = some a ∧ a'.key = a.key ∧ (a.released = true → a'.released = true) := by
  have hbound : t < m.tickets.length := Nat.lt_trans ht hlt
  have hsome : m.tickets[t]? = some m.tickets[t] := List.getElem?_eq_getElem hbound
  obtain ⟨b, hb, hkey, -, hreleased, -⟩ := hmoves t _ hsome
  rw [ha'] at hb
  cases hb
  exact ⟨_, hsome, hkey, hreleased⟩

theorem Moves.mine {t : Nat} (hmoves : Moves i m m')
    (h : m.tickets[t]? = some ⟨key, i, false⟩) : m'.tickets[t]? = some ⟨key, i, false⟩ := by
  obtain ⟨a', ha', -, -, -, hsame⟩ := hmoves t _ h
  rw [ha', hsame rfl]

theorem Queued.moves {prev : Option Nat} {mine : Nat} (h : Queued m key i prev mine)
    (hmoves : Moves i m m') : Queued m' key i prev mine where
  taken := hmoves.mine h.taken
  prev_key p hp := by
    obtain ⟨a, ha, hkey⟩ := h.prev_key p hp
    obtain ⟨a', ha', hkey', -⟩ := hmoves p a ha
    exact ⟨a', ha', hkey'.trans hkey⟩
  prev_lt := h.prev_lt
  before t a' ht ha' hkey hopen := by
    obtain ⟨a, ha, hkey', hreleased⟩ := hmoves.back (lt_of_getElem? h.taken) ht ha'
    refine h.before t a ht ha (hkey' ▸ hkey) ?_
    by_contra hdone
    rw [Bool.not_eq_false] at hdone
    rw [hreleased hdone] at hopen
    cases hopen

theorem Holds.moves {mine : Nat} (h : Holds m key i mine) (hmoves : Moves i m m') :
    Holds m' key i mine where
  taken := hmoves.mine h.taken
  before t a' ht ha' hkey := by
    obtain ⟨a, ha, hkey', hreleased⟩ := hmoves.back (lt_of_getElem? h.taken) ht ha'
    exact hreleased (h.before t a ht ha (hkey' ▸ hkey))

/-- Mutual exclusion. -/
theorem Holds.exclusive {t t' : Nat} (h : Holds m key i t) (h' : Holds m key j t') : i = j := by
  rcases Nat.lt_trichotomy t t' with hlt | rfl | hlt
  · cases h'.before t _ hlt h.taken rfl
  · have := h.taken.symm.trans h'.taken
    cases this
    rfl
  · cases h.before t' _ hlt h'.taken rfl

theorem Queued.holds {prev : Option Nat} {mine : Nat} (h : Queued m key i prev mine) (hok : Ok m)
    (hprev : m.resolved prev) : Holds m key i mine where
  taken := h.taken
  before t a ht ha hkey := by
    by_contra hopen
    rw [Bool.not_eq_true] at hopen
    obtain ⟨p, rfl, hle⟩ := h.before t a ht ha hkey hopen
    obtain ⟨b, hb, hreleased⟩ := hprev
    obtain ⟨b', hb', hkey'⟩ := h.prev_key p rfl
    rw [hb] at hb'
    cases hb'
    rw [hok.in_order p b t a hb ha hle (hkey.trans hkey'.symm) hreleased] at hopen
    cases hopen

-- ---------------------------------------------------------------------------
-- The three steps
-- ---------------------------------------------------------------------------

variable [DecidableEq κ]

theorem getElem?_enter {t : Nat} {a : Ticket κ ι}
    (h : (m.enter key j).2.tickets[t]? = some a) :
    m.tickets[t]? = some a ∨ (t = m.tickets.length ∧ a = ⟨key, j, false⟩) := by
  simp only [enter] at h
  rcases Nat.lt_or_ge t m.tickets.length with hlt | hge
  · rw [List.getElem?_append_left hlt] at h
    exact .inl h
  · rw [List.getElem?_append_right hge, List.getElem?_singleton] at h
    split at h
    next heq => exact .inr ⟨by omega, (Option.some.inj h).symm⟩
    next => cases h

theorem enter_old {t : Nat} {a : Ticket κ ι} (h : m.tickets[t]? = some a) :
    (m.enter key j).2.tickets[t]? = some a := by
  simp only [enter]
  rw [List.getElem?_append_left (lt_of_getElem? h), h]

theorem enter_moves (i : ι) : Moves i m (m.enter key j).2 :=
  fun _ a ha => ⟨a, enter_old ha, rfl, rfl, id, fun _ => rfl⟩

theorem enter_queued (hok : Ok m) :
    Queued (m.enter key j).2 key j (m.enter key j).1.1 (m.enter key j).1.2 where
  taken := by simp [enter]
  prev_key p hp := by
    obtain ⟨a, ha, hkey⟩ := hok.tail_key key p hp
    exact ⟨a, enter_old ha, hkey⟩
  prev_lt p hp := by
    obtain ⟨a, ha, -⟩ := hok.tail_key key p hp
    exact lt_of_getElem? ha
  before t a ht ha hkey hopen := by
    rcases getElem?_enter ha with ha | ⟨rfl, -⟩
    · obtain ⟨tail, htail, hle⟩ := hok.before_tail t a ha hopen
      exact ⟨tail, hkey ▸ htail, hle⟩
    · exact absurd ht (Nat.lt_irrefl _)

theorem enter_ok (hok : Ok m) : Ok (m.enter key j).2 where
  tail_key k t h := by
    simp only [enter, Function.update_apply] at h
    split at h
    next heq =>
      cases h
      exact ⟨⟨key, j, false⟩, by simp [enter], heq.symm⟩
    next =>
      obtain ⟨a, ha, hkey⟩ := hok.tail_key k t h
      exact ⟨a, enter_old ha, hkey⟩
  before_tail t a ha hopen := by
    simp only [enter, Function.update_apply]
    rcases getElem?_enter ha with ha | ⟨rfl, rfl⟩
    · split
      next => exact ⟨_, rfl, Nat.le_of_lt (lt_of_getElem? ha)⟩
      next => exact hok.before_tail t a ha hopen
    · exact ⟨_, if_pos rfl, Nat.le_refl _⟩
  in_order t a t' a' ha ha' hle hkey hreleased := by
    rcases getElem?_enter ha with ha | ⟨rfl, rfl⟩
    · rcases getElem?_enter ha' with ha' | ⟨rfl, -⟩
      · exact hok.in_order t a t' a' ha ha' hle hkey hreleased
      · exact absurd (lt_of_getElem? ha) (Nat.not_lt.mpr hle)
    · cases hreleased

theorem getElem?_release {t mine : Nat} {a' : Ticket κ ι}
    (h : (m.release key mine).tickets[t]? = some a') :
    ∃ a, m.tickets[t]? = some a ∧ a'.key = a.key ∧
      (a'.released = true ↔ t = mine ∨ a.released = true) := by
  simp only [release, List.getElem?_modify] at h
  obtain ⟨a, ha, rfl⟩ := Option.map_eq_some_iff.mp h
  refine ⟨a, ha, ?_⟩
  split
  next heq => exact ⟨rfl, by simp [heq]⟩
  next hne => exact ⟨rfl, by simp [Ne.symm hne]⟩

theorem release_moves {mine : Nat} (h : Holds m key i mine) (hij : i ≠ j) :
    Moves j m (m.release key mine) := by
  intro t a ha
  simp only [release, List.getElem?_modify, ha]
  refine ⟨_, rfl, ?_⟩
  by_cases heq : mine = t
  · subst heq
    rw [h.taken] at ha
    cases ha
    simp [hij]
  · simp [heq]

theorem release_ok {mine : Nat} (hok : Ok m) (h : Holds m key i mine) :
    Ok (m.release key mine) where
  tail_key k t ht := by
    have htail : m.tails k = some t := by
      simp only [release] at ht
      split at ht
      next =>
        rw [Function.update_apply] at ht
        split at ht
        · cases ht
        · exact ht
      next => exact ht
    obtain ⟨a, ha, hkey⟩ := hok.tail_key k t htail
    simp only [release, List.getElem?_modify, ha]
    refine ⟨_, rfl, ?_⟩
    split <;> exact hkey
  before_tail t a' ha' hopen := by
    obtain ⟨a, ha, hkey, hreleased⟩ := getElem?_release ha'
    have hne : t ≠ mine ∧ a.released = false := by
      rw [← Bool.not_eq_true, hreleased, not_or, Bool.not_eq_true] at hopen
      exact hopen
    obtain ⟨tail, htail, hle⟩ := hok.before_tail t a ha hne.2
    refine ⟨tail, ?_, hle⟩
    simp only [release]
    rw [hkey]
    split
    next hmine =>
      by_cases hk : a.key = key
      · -- The releaser was the tail, so nobody is left before it.
        exfalso
        rw [hk, hmine] at htail
        cases htail
        rw [h.before t a (Nat.lt_of_le_of_ne hle hne.1) ha hk] at hne
        cases hne.2
      · rwa [Function.update_of_ne hk]
    next => exact htail
  in_order t a' t' b' ha' hb' hle hkeys hdone := by
    obtain ⟨a, ha, hkey, hreleased⟩ := getElem?_release ha'
    obtain ⟨b, hb, hkey', hreleased'⟩ := getElem?_release hb'
    have hsame : b.key = a.key := hkey' ▸ hkey ▸ hkeys
    rw [hreleased']
    rcases hreleased.mp hdone with rfl | hdone
    · rcases Nat.lt_or_eq_of_le hle with hlt | rfl
      · refine .inr (h.before t' b hlt hb ?_)
        rw [h.taken] at ha
        cases ha
        exact hsame
      · exact .inl rfl
    · exact .inr (hok.in_order t a t' b ha hb hle hsame hdone)

end KeyedMutex

-- ---------------------------------------------------------------------------
-- Running under the mutex
-- ---------------------------------------------------------------------------

/-- The three steps as programs. -/
structure MutexOps (m : Type → Type) (κ : Type) where
  enter : κ → m (Option Nat × Nat)
  wait : Option Nat → m Unit
  release : κ → Nat → m Unit

variable {Op : Type} {Res : Op → Type} {σ α ε : Type}

/-- `KeyedMutex.run`: the mutex is released however `fn` ends. -/
def KeyedMutex.run (ops : MutexOps (Prog Op Res) κ) (key : κ) (fn : ExceptT ε (Prog Op Res) α) :
    ExceptT ε (Prog Op Res) α :=
  ExceptT.mk do
    let (prev, mine) ← ops.enter key
    ops.wait prev
    let r ← fn.run
    ops.release key mine
    return r

/-- The three steps of a thread of `p`. `Frame P` is that they do not matter
to `P`. -/
structure MutexContract (p : Protocol Op Res σ) (ops : MutexOps (Prog Op Res) κ) where
  Queued : κ → Option Nat → Nat → σ → Prop
  Held : κ → Nat → σ → Prop
  Frame : (σ → Prop) → Prop
  enter : ∀ key P, Frame P → p.Holds (ops.enter key) P fun r s => P s ∧ Queued key r.1 r.2 s
  wait : ∀ key prev mine P, Frame P → p.Holds (ops.wait prev)
    (fun s => P s ∧ Queued key prev mine s) fun _ s => P s ∧ Held key mine s
  release : ∀ key mine P, Frame P → p.Holds (ops.release key mine)
    (fun s => P s ∧ Held key mine s) fun _ => P

/-- What `fn` needs besides the mutex, and what it leaves, is there before and
after. -/
theorem MutexContract.run {p : Protocol Op Res σ} {ops : MutexOps (Prog Op Res) κ}
    (c : MutexContract p ops) {key : κ} {fn : ExceptT ε (Prog Op Res) α} {P : σ → Prop}
    {Q : α → σ → Prop} {E : ε → σ → Prop} (hP : c.Frame P) (hQ : ∀ a, c.Frame (Q a))
    (hE : ∀ e, c.Frame (E e))
    (hfn : ∀ mine, p.Triple fn (fun s => P s ∧ c.Held key mine s)
      (fun a s => Q a s ∧ c.Held key mine s) (fun e s => E e s ∧ c.Held key mine s)) :
    p.Triple (KeyedMutex.run ops key fn) P Q E := by
  refine Protocol.Holds.bind (c.enter key P hP) fun ⟨prev, mine⟩ => ?_
  refine Protocol.Holds.bind (c.wait key prev mine P hP) fun _ => ?_
  refine Protocol.Holds.bind (hfn mine) fun r => ?_
  cases r with
  | ok a => exact Protocol.Holds.bind (c.release key mine _ (hQ a)) fun _ => fun _ _ h => h
  | error e => exact Protocol.Holds.bind (c.release key mine _ (hE e)) fun _ => fun _ _ h => h

end Lib
