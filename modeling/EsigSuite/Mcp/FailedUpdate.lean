import EsigSuite.Mcp.UpdateChain

/-!
# An update that throws

The caller's object is stamped with the next revision before the inner update.
Where that one throws, the stamp stays, and the object cannot be written again.
-/

namespace EsigSuite.EnvelopeFile

open Lib ConcurrencySafe

variable {μ ι : Type} {who : ι} {raw : Bool} {o o' : Object μ}

/-- The row of the object. -/
def Object.row (o : Object μ) (rows : List (Envelope μ)) : Option (Envelope μ) :=
  rows.find? fun e => e.tenantId == o.val.tenantId && e.id == o.val.id

/-- The row of the object is stored at the revision that the object carries. -/
def Current (o : Object μ) (rows : List (Envelope μ)) : Prop :=
  ∃ fresh, o.row rows = some fresh ∧ getRev fresh = getRev o.val

/-- No access of the file fails. -/
def Succeeding (op : Op μ ι) (s : Shared μ ι) (r : Res op) (s' : Shared μ ι) : Prop :=
  exec op s r s' ∧ match op, r with
    | .readFile, r => ∃ rows, r = .ok rows
    | .rename .., r => r = .ok ()
    | _, _ => True

/-- Nobody else writes. -/
def Unwritten (s s' : Shared μ ι) : Prop := s'.rows = s.rows

/-- Every update of the object that runs to its end returns, and there is one
where the mutex is free. -/
structure Writable (who : ι) (raw : Bool) (o : Object μ) (s : Shared μ ι) : Prop where
  returns : ∀ made r s', (ConcurrencySafe.update who raw o).run.Amid Succeeding Unwritten s made r s' →
    ∃ o', r = .ok o'
  ends : s.mutex.resolved (s.mutex.tails STORE_KEY) →
    ∃ o' s', (ConcurrencySafe.update who raw o).run.Eval Succeeding s (.ok o') s'

/-- What is left by an update of `o` that made some calls and threw. -/
structure Recoverable (who : ι) (raw : Bool) (o : Object μ)
    (made : List (Made (Op μ ι) Res (Shared μ ι))) (o' : Object μ) : Prop where
  unchanged : ∀ m ∈ made, m.after.rows = m.before.rows
  rev : getRev o'.val = getRev o.val
  retry : ∀ s : Shared μ ι, Current o s.rows → Writable who raw o' s

/-- The answer of the first read of the file. -/
def firstRead : List (Made (Op μ ι) Res (Shared μ ι)) → Option (Except Thrown (List (Envelope μ)))
  | [] => none
  | ⟨.readFile, r, _, _⟩ :: _ => some r
  | _ :: rest => firstRead rest

/-- The comparison failed: the file could not be read, or the row of the object
is not there at its revision. -/
def Refused (o : Object μ) (made : List (Made (Op μ ι) Res (Shared μ ι))) : Prop :=
  ∀ rows, firstRead made = some (.ok rows) → ¬ Current o rows

-- ---------------------------------------------------------------------------
-- The calls of an update
-- ---------------------------------------------------------------------------

/-- The object with the next revision. -/
def Object.stamped (o : Object μ) : Object μ :=
  { o with val := setRev o.val (getRev o.val + 1), unfinished := true }

def Object.done (o : Object μ) : Object μ :=
  { o.stamped with readRev := getRev o.val + 1, unfinished := false }

/-- The inner update, where it has found the row to replace. -/
def replacing (who : ι) (raw : Bool) (o : Object μ) (rows : List (Envelope μ)) :
    Option Nat → Prog (Op μ ι) Res (Except (Object μ × Thrown) (Object μ))
  | none => .pure (.error (o.stamped, .error ("FsEnvelopeStore: envelope not found: " ++ o.val.id)))
  | some i =>
    .call (.rename who (rows.set i o.stamped.val) ⟨o.stamped.val, some o.readRev, raw⟩) fun
      | .ok () => .pure (.ok o.done)
      | .error thrown => .pure (.error (o.stamped, thrown))

/-- The comparison with the row that was found, and the inner update. -/
def comparing (who : ι) (raw : Bool) (o : Object μ) :
    Option (Envelope μ) → Prog (Op μ ι) Res (Except (Object μ × Thrown) (Object μ))
  | none => .pure (.error (o, .conflict o.val.id "envelope not found during concurrency check"))
  | some fresh =>
    if getRev fresh ≠ getRev o.val then
      .pure (.error (o, .conflict o.val.id
        ("stale write: envelope was read at rev " ++ toString (getRev o.val) ++ ", current rev is " ++
          toString (getRev fresh) ++ " (a concurrent update already won).")))
    else
      .call .readFile fun
        | .ok rows => replacing who raw o rows (rows.findIdx? (·.id == o.val.id))
        | .error thrown => .pure (.error (o.stamped, thrown))

/-- What the mutex guards. -/
def guarded (who : ι) (raw : Bool) (o : Object μ) :
    Prog (Op μ ι) Res (Except (Object μ × Thrown) (Object μ)) :=
  .call .readFile fun
    | .ok rows => comparing who raw o (o.row rows)
    | .error thrown => .pure (.error (o, thrown))

theorem replacing_eq (who : ι) (raw : Bool) (o : Object μ) (rows : List (Envelope μ))
    (index : Option Nat) :
    replacing who raw o rows index = (do
      let _ ← ExceptT.adapt (o.stamped, ·) (match index with
        | none => throw (.error ("FsEnvelopeStore: envelope not found: " ++ o.val.id))
        | some i => do
          FsEnvelopeStore.writeJsonAtomic who (rows.set i o.stamped.val)
            ⟨o.stamped.val, some o.readRev, raw⟩
          return o.stamped.val)
      return o.done : ExceptT (Object μ × Thrown) (Prog (Op μ ι) Res) (Object μ)).run := by
  cases index with
  | none => rfl
  | some i =>
    refine congrArg (Prog.call (Op.rename _ _ _)) (funext fun r => ?_)
    cases r <;> rfl

/-- The comparison as `update` has it. -/
def compared (who : ι) (raw : Bool) (o : Object μ) :
    Option (Envelope μ) → ExceptT (Object μ × Thrown) (Prog (Op μ ι) Res) (Object μ)
  | none => throw (o, .conflict o.val.id "envelope not found during concurrency check")
  | some fresh =>
    let current := getRev fresh
    if current ≠ getRev o.val then
      throw (o, .conflict o.val.id
        ("stale write: envelope was read at rev " ++ toString (getRev o.val) ++
          ", current rev is " ++ toString current ++ " (a concurrent update already won)."))
    else do
      let o : Object μ := { o with val := setRev o.val (current + 1), unfinished := true }
      let _ ← (FsEnvelopeStore.update who raw o.readRev o.val).adapt (o, ·)
      return { o with readRev := current + 1, unfinished := false }

theorem comparing_eq (who : ι) (raw : Bool) (o : Object μ) (found : Option (Envelope μ)) :
    comparing who raw o found = (compared who raw o found).run := by
  cases found with
  | none => rfl
  | some fresh =>
    by_cases hrev : getRev fresh = getRev o.val
    · simp only [comparing, compared, hrev, ne_eq, not_true_eq_false, if_false]
      refine congrArg (Prog.call Op.readFile) (funext fun r => ?_)
      cases r with
      | error thrown => rfl
      | ok rows => exact replacing_eq who raw o rows _
    · simp only [comparing, compared, ne_eq, hrev, not_false_eq_true, if_true]
      rfl

theorem update_eq (who : ι) (raw : Bool) (o : Object μ) :
    (ConcurrencySafe.update who raw o).run =
      .call (.begin o.unfinished) fun _ => .call (.enter STORE_KEY who) fun ticket =>
        .call (.wait ticket.1) fun _ => (guarded who raw o).bind fun r =>
          .call (.release STORE_KEY ticket.2) fun _ => .pure r := by
  have hguarded : guarded who raw o =
      ((FsEnvelopeStore.findById o.val.tenantId o.val.id).adapt (o, ·) >>=
        compared who raw o).run := by
    refine congrArg (Prog.call Op.readFile) (funext fun r => ?_)
    cases r with
    | error thrown => rfl
    | ok rows => exact comparing_eq who raw o _
  rw [hguarded]
  rfl

/-- Only a rename changes the rows. -/
theorem exec_rows {op : Op μ ι} {s s' : Shared μ ι} {r : Res op} (h : exec op s r s')
    (hop : ∀ who rows w, op ≠ .rename who rows w) : s'.rows = s.rows := by
  cases op with
  | rename who rows w => exact absurd rfl (hop who rows w)
  | readFile => rw [h.1]
  | wait => rw [h.2]
  | enter => rw [h.2]
  | now | random | begin | release | acted => rw [h]

theorem kept_nil : ∀ m ∈ ([] : List (Made (Op μ ι) Res (Shared μ ι))), m.after.rows = m.before.rows :=
  fun _ hm => nomatch hm

/-- An update makes the calls of the mutex around those of `guarded`. -/
theorem update_calls {E : (op : Op μ ι) → Shared μ ι → Res op → Shared μ ι → Prop}
    {others : Shared μ ι → Shared μ ι → Prop} (hE : ∀ op s r s', E op s r s' → exec op s r s')
    {s s' : Shared μ ι} {made : List (Made (Op μ ι) Res (Shared μ ι))}
    {r : Except (Object μ × Thrown) (Object μ)}
    (h : (ConcurrencySafe.update who raw o).run.Amid E others s made r s') :
    ∃ a b c d t inner, made = a :: b :: c :: (inner ++ [d]) ∧ firstRead made = firstRead inner ∧
      (∀ m ∈ [a, b, c, d], m.after.rows = m.before.rows) ∧ others s a.before ∧
      others a.after b.before ∧ others b.after c.before ∧
      (guarded who raw o).Amid E others c.after inner r t := by
  rw [update_eq] at h
  obtain ⟨_, t₀, t₀', _, ho₀, he₀, rfl, h⟩ := h
  obtain ⟨_, t₁, t₁', _, ho₁, he₁, rfl, h⟩ := h
  obtain ⟨_, t₂, t₂', _, ho₂, he₂, rfl, h⟩ := h
  obtain ⟨inner, _, t, _, hinner, ⟨_, t₃, t₃', _, -, he₃, rfl, rfl, rfl, -⟩, rfl⟩ := h.of_bind
  have hfirst : ∀ d, firstRead (inner ++ [d]) = firstRead inner := by
    obtain ⟨_, _, _, _, -, -, rfl, -⟩ := hinner
    exact fun _ => rfl
  refine ⟨_, _, _, _, t, inner, rfl, hfirst _, ?_, ho₀, ho₁, ho₂, hinner⟩
  simp only [List.forall_mem_cons]
  exact ⟨exec_rows (hE _ _ _ _ he₀) (by simp), exec_rows (hE _ _ _ _ he₁) (by simp),
    exec_rows (hE _ _ _ _ he₂) (by simp), exec_rows (hE _ _ _ _ he₃) (by simp), fun _ hm => nomatch hm⟩

-- ---------------------------------------------------------------------------
-- Throws
-- ---------------------------------------------------------------------------

/-- An inner update that throws has not written. -/
theorem replacing_error {others : Shared μ ι → Shared μ ι → Prop} {t t' : Shared μ ι}
    {rows : List (Envelope μ)} {index : Option Nat} {thrown : Thrown}
    {made : List (Made (Op μ ι) Res (Shared μ ι))}
    (h : (replacing who raw o rows index).Amid exec others t made (.error (o', thrown)) t') :
    (∀ m ∈ made, m.after.rows = m.before.rows) ∧ o' = o.stamped := by
  cases index with
  | none =>
    obtain ⟨rfl, heq, -⟩ := h
    cases heq
    exact ⟨kept_nil, rfl⟩
  | some i =>
    obtain ⟨r, u, u', rest, -, hrename, rfl, h⟩ := h
    rcases hrename with ⟨rfl, -⟩ | ⟨⟨thrown, rfl⟩, rfl⟩
    · obtain ⟨-, heq, -⟩ := h
      cases heq
    · obtain ⟨rfl, heq, -⟩ := h
      cases heq
      exact ⟨List.forall_mem_cons.mpr ⟨rfl, kept_nil⟩, rfl⟩

/-- A throw before the stamp is one of the comparison; after it the stamp stays. -/
theorem guarded_error {others : Shared μ ι → Shared μ ι → Prop} {t t' : Shared μ ι}
    {thrown : Thrown} {made : List (Made (Op μ ι) Res (Shared μ ι))}
    (h : (guarded who raw o).Amid exec others t made (.error (o', thrown)) t') :
    (∀ m ∈ made, m.after.rows = m.before.rows) ∧
      ((Refused o made ∧ o' = o) ∨ (¬ Refused o made ∧ o' = o.stamped)) := by
  obtain ⟨read, u, u', rest, -, hread, rfl, h⟩ := h
  have hu : u'.rows = u.rows := exec_rows hread (by simp)
  cases read with
  | error _ =>
    obtain ⟨rfl, heq, -⟩ := h
    cases heq
    exact ⟨List.forall_mem_cons.mpr ⟨hu, kept_nil⟩, .inl ⟨(fun _ h => by cases h), rfl⟩⟩
  | ok rows =>
    dsimp only at h
    cases hrow : o.row rows with
    | none =>
      rw [hrow] at h
      obtain ⟨rfl, heq, -⟩ := h
      cases heq
      refine ⟨List.forall_mem_cons.mpr ⟨hu, kept_nil⟩, .inl ⟨?_, rfl⟩⟩
      rintro _ hfirst ⟨fresh, hfresh, -⟩
      cases hfirst
      rw [hrow] at hfresh
      cases hfresh
    | some fresh =>
      rw [hrow] at h
      by_cases hrev : getRev fresh = getRev o.val
      · rw [comparing, if_neg (not_not.mpr hrev)] at h
        have hmatched : ∀ rest, ¬ Refused o (⟨Op.readFile, .ok rows, u, u'⟩ :: rest) :=
          fun _ hrefused => hrefused rows rfl ⟨fresh, hrow, hrev⟩
        obtain ⟨again, v, v', rest, -, hagain, rfl, h⟩ := h
        have hv : v'.rows = v.rows := exec_rows hagain (by simp)
        cases again with
        | error _ =>
          obtain ⟨rfl, heq, -⟩ := h
          cases heq
          exact ⟨List.forall_mem_cons.mpr ⟨hu, List.forall_mem_cons.mpr ⟨hv, kept_nil⟩⟩,
            .inr ⟨hmatched _, rfl⟩⟩
        | ok rows' =>
          obtain ⟨hkept, hstamped⟩ := replacing_error h
          exact ⟨List.forall_mem_cons.mpr ⟨hu, List.forall_mem_cons.mpr ⟨hv, hkept⟩⟩,
            .inr ⟨hmatched _, hstamped⟩⟩
      · rw [comparing, if_pos hrev] at h
        obtain ⟨rfl, heq, -⟩ := h
        cases heq
        refine ⟨List.forall_mem_cons.mpr ⟨hu, kept_nil⟩, .inl ⟨?_, rfl⟩⟩
        rintro _ hfirst ⟨fresh', hfresh, hrev'⟩
        cases hfirst
        rw [hrow] at hfresh
        cases hfresh
        exact hrev hrev'

-- ---------------------------------------------------------------------------
-- A retry
-- ---------------------------------------------------------------------------

/-- The row that was found has an index. -/
theorem exists_index {rows : List (Envelope μ)} {fresh : Envelope μ} (hrow : o.row rows = some fresh) :
    ∃ i, rows.findIdx? (·.id == o.val.id) = some i := by
  refine Option.isSome_iff_exists.mp ?_
  rw [List.findIdx?_isSome, List.any_eq_true]
  have hkey := List.find?_some hrow
  rw [Bool.and_eq_true] at hkey
  exact ⟨fresh, List.mem_of_find?_eq_some hrow, hkey.2⟩

/-- A read that succeeds has the rows that are stored. -/
theorem readFile_rows {s s' : Shared μ ι} {r : Res (Op.readFile : Op μ ι)}
    (h : Succeeding Op.readFile s r s') : r = .ok s.rows ∧ s' = s := by
  obtain ⟨⟨rfl, hread⟩, rows, rfl⟩ := h
  rcases hread with hread | ⟨_, hread⟩
  · exact ⟨hread, rfl⟩
  · cases hread

/-- An object that is current is written. -/
theorem guarded_returns {t t' : Shared μ ι} (hcurrent : Current o t.rows)
    {made : List (Made (Op μ ι) Res (Shared μ ι))} {r : Except (Object μ × Thrown) (Object μ)}
    (h : (guarded who raw o).Amid Succeeding Unwritten t made r t') : ∃ o', r = .ok o' := by
  obtain ⟨fresh, hrow, hrev⟩ := hcurrent
  obtain ⟨_, u, u', rest, hu, hread, rfl, h⟩ := h
  obtain ⟨rfl, rfl⟩ := readFile_rows hread
  have hu : u'.rows = t.rows := hu
  dsimp only at h
  rw [hu, hrow, comparing, if_neg (not_not.mpr hrev)] at h
  obtain ⟨_, v, v', rest, hv, hread, rfl, h⟩ := h
  obtain ⟨rfl, rfl⟩ := readFile_rows hread
  have hv : v'.rows = u'.rows := hv
  obtain ⟨i, hi⟩ := exists_index hrow
  dsimp only at h
  rw [hv, hu, hi] at h
  obtain ⟨_, w, w', rest, -, ⟨-, rfl⟩, rfl, h⟩ := h
  obtain ⟨-, rfl, -⟩ := h
  exact ⟨_, rfl⟩

theorem guarded_ends {t : Shared μ ι} (hcurrent : Current o t.rows) :
    ∃ t', (guarded who raw o).Eval Succeeding t (.ok o.done) t' := by
  obtain ⟨fresh, hrow, hrev⟩ := hcurrent
  obtain ⟨i, hi⟩ := exists_index hrow
  have hread : Succeeding (Op.readFile : Op μ ι) t (.ok t.rows) t := ⟨⟨rfl, .inl rfl⟩, _, rfl⟩
  have hreplacing : ∃ t', (replacing who raw o t.rows
      (t.rows.findIdx? (·.id == o.val.id))).Eval Succeeding t (.ok o.done) t' := by
    rw [hi]
    exact ⟨_, .ok (), _, ⟨.inl ⟨rfl, rfl⟩, rfl⟩, rfl, rfl⟩
  have hcomparing : ∃ t', (comparing who raw o (o.row t.rows)).Eval Succeeding t (.ok o.done) t' := by
    obtain ⟨t', hreplacing⟩ := hreplacing
    rw [hrow, comparing, if_neg (not_not.mpr hrev)]
    exact ⟨t', .ok t.rows, t, hread, hreplacing⟩
  obtain ⟨t', hcomparing⟩ := hcomparing
  exact ⟨t', .ok t.rows, t, hread, hcomparing⟩

theorem writable_of_current {s : Shared μ ι} (hcurrent : Current o s.rows) :
    Writable who raw o s where
  returns made r s' h := by
    obtain ⟨a, b, c, d, t, inner, -, -, hkept, h₀, h₁, h₂, hinner⟩ :=
      update_calls (fun _ _ _ _ h => h.1) h
    simp only [List.forall_mem_cons] at hkept
    obtain ⟨ha, hb, hc, -⟩ := hkept
    have hrows : c.after.rows = s.rows :=
      calc c.after.rows = b.after.rows := hc.trans h₂
        _ = a.after.rows := hb.trans h₁
        _ = s.rows := ha.trans h₀
    refine guarded_returns ?_ hinner
    rw [hrows]
    exact hcurrent
  ends hfree := by
    let t : Shared μ ι := { s with mutex := (s.mutex.enter STORE_KEY who).2 }
    have hguarded : ∃ t', (guarded who raw o).Eval Succeeding t (.ok o.done) t' :=
      guarded_ends hcurrent
    obtain ⟨t', hguarded⟩ := hguarded
    let left : Shared μ ι :=
      { t' with mutex := t'.mutex.release STORE_KEY s.mutex.tickets.length }
    refine ⟨o.done, left, ?_⟩
    rw [update_eq]
    exact ⟨(), s, ⟨rfl, trivial⟩, (s.mutex.tails STORE_KEY, s.mutex.tickets.length), t,
      ⟨⟨rfl, rfl⟩, trivial⟩, (), t, ⟨⟨hfree.enter STORE_KEY who, rfl⟩, trivial⟩,
      hguarded.bind ⟨(), left, ⟨rfl, trivial⟩, rfl, rfl⟩⟩

/-- After an update that threw, the file is as it was and the object can be
written again iff the comparison had failed. -/
theorem failed_update_recoverable_iff {others : Shared μ ι → Shared μ ι → Prop}
    {s s' : Shared μ ι} {made : List (Made (Op μ ι) Res (Shared μ ι))} {thrown : Thrown}
    (h : (ConcurrencySafe.update who raw o).run.Amid exec others s made (.error (o', thrown)) s') :
    Recoverable who raw o made o' ↔ Refused o made := by
  obtain ⟨a, b, c, d, t, inner, rfl, hfirst, hkept, -, -, -, hinner⟩ :=
    update_calls (fun _ _ _ _ h => h) h
  have hrefused : Refused o (a :: b :: c :: (inner ++ [d])) ↔ Refused o inner := by
    rw [Refused, Refused, hfirst]
  rw [hrefused]
  obtain ⟨hkept', ⟨hrefused, rfl⟩ | ⟨hrefused, rfl⟩⟩ := guarded_error hinner
  · refine iff_of_true ?_ hrefused
    simp only [List.forall_mem_cons] at hkept
    obtain ⟨ha, hb, hc, hd, -⟩ := hkept
    refine ⟨?_, rfl, fun s hcurrent => writable_of_current hcurrent⟩
    simp only [List.forall_mem_cons, List.forall_mem_append]
    exact ⟨ha, hb, hc, hkept', hd, kept_nil⟩
  · refine iff_of_false (fun hrecoverable => ?_) hrefused
    exact absurd hrecoverable.rev (Nat.succ_ne_self _)

namespace Sample

/-- The first client's object, edited. -/
def edited : Object Unit := ⟨titled "A" 0, 0, false⟩

/-- The mutex is taken, the file read, the mutex released. -/
def unread : List (Made (Op Unit Bool) Res (Shared Unit Bool)) :=
  [⟨.begin false, (), file, file⟩, ⟨.enter STORE_KEY false, (none, 0), file, entered file false⟩,
    ⟨.wait none, (), entered file false, entered file false⟩,
    ⟨.readFile, .error (.error "EIO"), entered file false, entered file false⟩,
    ⟨.release STORE_KEY 0, (), entered file false, failed⟩]

theorem unread_update : (ConcurrencySafe.update false true edited).run.Amid exec Eq file unread
    (.error (edited, .error "EIO")) failed :=
  .call rfl rfl <| .call rfl ⟨rfl, rfl⟩ <| .call rfl ⟨trivial, rfl⟩ <|
    .call rfl ⟨rfl, .inr ⟨_, rfl⟩⟩ <| .call rfl rfl ⟨rfl, rfl, rfl⟩

def unrenamed : List (Made (Op Unit Bool) Res (Shared Unit Bool)) :=
  [⟨.begin false, (), file, file⟩, ⟨.enter STORE_KEY false, (none, 0), file, entered file false⟩,
    ⟨.wait none, (), entered file false, entered file false⟩,
    ⟨.readFile, .ok [envelope], entered file false, entered file false⟩,
    ⟨.readFile, .ok [envelope], entered file false, entered file false⟩,
    ⟨.rename false [titled "A" 1] ⟨titled "A" 1, some 0, true⟩, .error (.error "EIO"),
      entered file false, entered file false⟩,
    ⟨.release STORE_KEY 0, (), entered file false, failed⟩]

theorem unrenamed_update : (ConcurrencySafe.update false true edited).run.Amid exec Eq file
    unrenamed (.error (edited.stamped, .error "EIO")) failed :=
  .call rfl rfl <| .call rfl ⟨rfl, rfl⟩ <| .call rfl ⟨trivial, rfl⟩ <|
    .call rfl ⟨rfl, .inl rfl⟩ <| .call rfl ⟨rfl, .inl rfl⟩ <|
    .call rfl (.inr ⟨⟨_, rfl⟩, rfl⟩) <| .call rfl rfl ⟨rfl, rfl, rfl⟩

end Sample

/-- The rename fails: the object keeps the revision that was not written. -/
theorem unrenamed_not_recoverable :
    ¬ ∀ (o o' : Object Unit) (s s' : Shared Unit Bool) made thrown,
      (ConcurrencySafe.update false true o).run.Amid exec Eq s made (.error (o', thrown)) s' →
      Recoverable false true o made o' := by
  intro h
  have hrev := (h _ _ _ _ _ _ Sample.unrenamed_update).rev
  exact absurd hrev (by decide)

theorem failed_update_sample :
    Recoverable false true Sample.edited Sample.unread Sample.edited :=
  (failed_update_recoverable_iff Sample.unread_update).mpr fun _ hread => by cases hread

end EsigSuite.EnvelopeFile
