import EsigSuite.Mcp.EnvelopeFile

/-!
# Concurrent updates

Any clients, in any interleaving, with failures: the writes of an envelope are
one chain, and a token leads to one result. An update that fails after it has
stamped its object breaks both, when the object is used again.
-/

namespace EsigSuite.EnvelopeFile

open Lib ConcurrencySafe

variable {μ ι : Type}

-- ---------------------------------------------------------------------------
-- What a client may rely on
-- ---------------------------------------------------------------------------

/-- No object is updated while an earlier update of it is unfinished, and an
inserted envelope has an id of its own. -/
def Orderly : Op μ ι → Shared μ ι → Prop
  | .begin unfinished, _ => unfinished = false
  | .rename _ _ w, s => w.readRev = none → w.row.id ∉ s.rows.map (·.id)
  | _, _ => True

def Locked (i : ι) (s : Shared μ ι) : Prop := ∃ mine, s.mutex.Holds STORE_KEY i mine

structure Rely (i : ι) (s s' : Shared μ ι) : Prop where
  mutex : KeyedMutex.Moves i s.mutex s'.mutex
  rows : Locked i s → s'.rows = s.rows
  history : ∀ w ∈ s.history, w ∈ s'.history
  tampered : s.tampered → s'.tampered
  tokens : ¬ s'.tampered → TokensKept s.rows s'.rows
  granted : ¬ s'.tampered → ∀ tokenHash, s.grantee tokenHash = some i →
    s'.grantee tokenHash = some i ∧ (tokenHash ∈ s'.acted → tokenHash ∈ s.acted)

structure Guar (i : ι) (s s' : Shared μ ι) : Prop where
  mutex : ∀ j, i ≠ j → KeyedMutex.Moves j s.mutex s'.mutex
  rows : s'.rows = s.rows ∨ Locked i s
  history : ∀ w ∈ s.history, w ∈ s'.history
  tampered : s.tampered → s'.tampered
  tokens : ¬ s'.tampered → TokensKept s.rows s'.rows
  granted : ¬ s'.tampered → ∀ tokenHash j, s.grantee tokenHash = some j →
    s'.grantee tokenHash = some j
  acted : ¬ s'.tampered → ∀ tokenHash ∈ s'.acted,
    tokenHash ∈ s.acted ∨ s.grantee tokenHash = some i

def protocol (i : ι) : Protocol (Op μ ι) Res (Shared μ ι) where
  exec := Guarded exec Orderly
  inv := Inv
  rely := Rely i
  guar := Guar i

theorem compatible :
    Protocol.Compatible (Guarded exec Orderly) Inv (protocol (μ := μ) (ι := ι)) where
  exec_eq _ := rfl
  inv_eq _ := rfl
  guar_rely i j s s' hij _ _ h := {
    mutex := h.mutex j hij
    rows := by
      rintro ⟨mine, hj⟩
      rcases h.rows with hrows | ⟨mine', hi⟩
      · exact hrows
      · exact absurd (hi.exclusive hj) hij
    history := h.history
    tampered := h.tampered
    tokens := h.tokens
    granted := fun hfair tokenHash hgrant => by
      refine ⟨h.granted hfair tokenHash j hgrant, fun hacted => ?_⟩
      rcases h.acted hfair tokenHash hacted with hacted | hgrant'
      · exact hacted
      · rw [hgrant] at hgrant'
        cases hgrant'
        exact absurd rfl hij }

theorem Guar.refl (i : ι) (s : Shared μ ι) : Guar i s s where
  mutex _ _ := .refl _ _
  rows := .inl rfl
  history _ h := h
  tampered := id
  tokens _ := .refl _
  granted _ _ _ h := h
  acted _ _ h := .inl h

/-- The mutex is nothing to the rest. -/
theorem Guar.mutex_step {i : ι} {s : Shared μ ι} {m : KeyedMutex String ι}
    (h : ∀ j, i ≠ j → KeyedMutex.Moves j s.mutex m) : Guar i s { s with mutex := m } where
  mutex := h
  rows := .inl rfl
  history _ h := h
  tampered := id
  tokens _ := .refl _
  granted _ _ _ h := h
  acted _ _ h := .inl h

theorem Inv.mutex_step {s : Shared μ ι} {m : KeyedMutex String ι} (h : Inv s) (hm : m.Ok) :
    Inv { s with mutex := m } where
  mutex := hm
  ids := h.ids
  chain := ⟨h.chain.first, h.chain.follows, h.chain.stored⟩
  tokens ht := ⟨(h.tokens ht).closed, (h.tokens ht).granted, (h.tokens ht).once⟩

/-- A write under the mutex. -/
theorem Guar.rename {i : ι} {s : Shared μ ι} {rows : List (Envelope μ)} {w : Write μ} (h : Inv s)
    (hlocked : Locked i s) (hkept : ¬ (s.renamed i rows w).tampered → TokensKept s.rows rows) :
    Guar i s (s.renamed i rows w) where
  mutex _ _ := .refl _ _
  rows := .inr hlocked
  history _ h := List.mem_append_left _ h
  tampered := .inl
  tokens := hkept
  granted hfair _ _ hj := (h.tokens fun ht => hfair (.inl ht)).grant_kept hj
  acted _ _ h := .inl h

-- ---------------------------------------------------------------------------
-- Assertions
-- ---------------------------------------------------------------------------

theorem locked_stable (i : ι) (key : String) (mine : Nat) :
    (protocol (μ := μ) i).Stable fun s => s.mutex.Holds key i mine :=
  fun _ _ _ _ hrely h => h.moves hrely.mutex

theorem stable_and_locked {i : ι} {mine : Nat} {A : Shared μ ι → Prop}
    (hA : (protocol i).Stable A) :
    (protocol i).Stable fun s => A s ∧ s.mutex.Holds STORE_KEY i mine :=
  hA.and (locked_stable i _ mine)

/-- Under the mutex the file stands still. -/
theorem locked_rows_stable {i : ι} {mine : Nat} {A : Shared μ ι → Prop}
    (hA : (protocol i).Stable A) (F : List (Envelope μ) → Prop) :
    (protocol i).Stable fun s => (F s.rows ∧ A s) ∧ s.mutex.Holds STORE_KEY i mine := by
  rintro s s' hs hs' hrely ⟨⟨hF, h⟩, hlocked⟩
  rw [hrely.rows ⟨mine, hlocked⟩]
  exact ⟨⟨hF, hA s s' hs hs' hrely h⟩, locked_stable i _ mine s s' hs hs' hrely hlocked⟩

/-- The others keep `A`, and taking the mutex does. -/
def Frame (i : ι) (A : Shared μ ι → Prop) : Prop :=
  (protocol i).Stable A ∧ ∀ s m, Inv s → Inv { s with mutex := m } →
    Guar i s { s with mutex := m } → A s → A { s with mutex := m }

theorem Frame.of_kept {i : ι} {A : Shared μ ι → Prop} (h : (protocol i).Kept A) : Frame i A :=
  ⟨h.1, fun s _ hinv hinv' hguar hA => h.2 s _ hinv hinv' hguar hA⟩

theorem Frame.and {i : ι} {A B : Shared μ ι → Prop} (hA : Frame i A) (hB : Frame i B) :
    Frame i fun s => A s ∧ B s :=
  ⟨hA.1.and hB.1, fun s m hinv hinv' hguar h =>
    ⟨hA.2 s m hinv hinv' hguar h.1, hB.2 s m hinv hinv' hguar h.2⟩⟩

theorem Frame.const (i : ι) (q : Prop) : Frame i fun _ : Shared μ ι => q :=
  .of_kept (Protocol.kept_const q)

def mutex_contract (i : ι) : MutexContract (protocol (μ := μ) i) (mutexOps i) where
  Queued key prev mine s := s.mutex.Queued key i prev mine
  Held key mine s := s.mutex.Holds key i mine
  Frame := Frame i
  enter key P hP := by
    refine Protocol.Holds.perform ?_ fun r => hP.1.and fun _ _ _ _ hrely h => h.moves hrely.mutex
    rintro s r _ hinv h ⟨⟨rfl, rfl⟩, -⟩
    have hinv' := hinv.mutex_step (KeyedMutex.enter_ok hinv.mutex : KeyedMutex.Ok (s.mutex.enter key i).2)
    have hguar : Guar i s { s with mutex := (s.mutex.enter key i).2 } :=
      .mutex_step fun j _ => KeyedMutex.enter_moves j
    exact ⟨hinv', hguar, hP.2 s _ hinv hinv' hguar h, KeyedMutex.enter_queued hinv.mutex⟩
  wait key prev mine P hP := by
    refine Protocol.Holds.perform ?_ fun _ => hP.1.and (locked_stable i key mine)
    rintro _ r s hinv h ⟨⟨hresolved, rfl⟩, -⟩
    exact ⟨hinv, .refl i s, h.1, h.2.holds hinv.mutex hresolved⟩
  release key mine P hP := by
    refine Protocol.Holds.perform ?_ fun _ => hP.1
    rintro s r _ hinv h ⟨rfl, -⟩
    have hinv' := hinv.mutex_step (KeyedMutex.release_ok hinv.mutex h.2)
    have hguar : Guar i s { s with mutex := s.mutex.release key mine } :=
      .mutex_step fun j hij => KeyedMutex.release_moves h.2 hij
    exact ⟨hinv', hguar, hP.2 s _ hinv hinv' hguar h.1⟩

-- ---------------------------------------------------------------------------
-- Reading and writing the file
-- ---------------------------------------------------------------------------

theorem now_triple {i : ι} {A : Shared μ ι → Prop} {hashToken : String → String}
    {assertImageDataUrl : String → Option String} (hA : (protocol i).Stable A) :
    (protocol i).Triple (env hashToken assertImageDataUrl).now A (fun _ => A) (fun _ => A) := by
  refine .lift (Protocol.Holds.perform ?_ fun _ => hA)
  rintro _ r s hinv h ⟨rfl, -⟩
  exact ⟨hinv, .refl i s, h⟩

/-- What holds of the file when it is read, and lasts, holds of what is read. -/
theorem rows_triple {i : ι} {A : Shared μ ι → Prop}
    {B : List (Envelope μ) → Shared μ ι → Prop} (hA : (protocol i).Stable A)
    (hB : ∀ rows, (protocol i).Stable (B rows)) (hread : ∀ s, Inv s → A s → B s.rows s) :
    (protocol i).Triple FsEnvelopeStore.rows A B (fun _ => A) := by
  refine Protocol.Holds.perform ?_ fun r => ?_
  · rintro _ r s hinv h ⟨⟨rfl, rfl | ⟨t, rfl⟩⟩, -⟩
    · exact ⟨hinv, .refl i s, hread s hinv h⟩
    · exact ⟨hinv, .refl i s, h⟩
  · cases r with
    | ok rows => exact hB rows
    | error t => exact hA

theorem writeJsonAtomic_triple {i : ι} {mine : Nat} {A B : Shared μ ι → Prop}
    {rows : List (Envelope μ)} {w : Write μ}
    (hA : (protocol i).Stable fun s => A s ∧ s.mutex.Holds STORE_KEY i mine)
    (hB : (protocol i).Stable B)
    (hwrite : ∀ s, Inv s → A s → s.mutex.Holds STORE_KEY i mine →
      (w.readRev = none → w.row.id ∉ s.rows.map (·.id)) → Inv (s.renamed i rows w) ∧
        (¬ (s.renamed i rows w).tampered → TokensKept s.rows rows) ∧
        (Guar i s (s.renamed i rows w) → B (s.renamed i rows w))) :
    (protocol i).Triple (FsEnvelopeStore.writeJsonAtomic i rows w)
      (fun s => A s ∧ s.mutex.Holds STORE_KEY i mine)
      (fun _ s => B s ∧ s.mutex.Holds STORE_KEY i mine)
      (fun _ s => A s ∧ s.mutex.Holds STORE_KEY i mine) := by
  refine Protocol.Holds.perform ?_ fun r => ?_
  · rintro s r s' hinv ⟨h, hlocked⟩ ⟨⟨rfl, rfl⟩ | ⟨⟨t, rfl⟩, rfl⟩, horderly⟩
    · obtain ⟨hinv', hkept, hB⟩ := hwrite s hinv h hlocked horderly
      have hguar := Guar.rename hinv ⟨mine, hlocked⟩ hkept
      exact ⟨hinv', hguar, hB hguar, hlocked⟩
    · exact ⟨hinv, .refl i _, h, hlocked⟩
  · cases r with
    | ok _ => exact stable_and_locked hB
    | error t => exact hA

/-- A lookup finds a row that is on record. -/
theorem findById_triple {i : ι} {A : Shared μ ι → Prop} (hA : (protocol i).Stable A)
    (tenantId id : String) :
    (protocol i).Triple (FsEnvelopeStore.findById tenantId id) A
      (fun r s => A s ∧ ∀ e, r = some e →
        (∃ t, Inv t ∧ A t ∧ e ∈ t.rows) ∧ ∃ w ∈ s.history, w.row = e) (fun _ => A) := by
  refine (rows_triple (B := fun rows s => A s ∧ ∀ e ∈ rows,
    (∃ t, Inv t ∧ A t ∧ e ∈ t.rows) ∧ ∃ w ∈ s.history, w.row = e) hA ?_ ?_).bind fun rows => ?_
  · rintro rows s s' hs hs' hrely ⟨h, hrows⟩
    refine ⟨hA s s' hs hs' hrely h, fun e he => ?_⟩
    obtain ⟨hread, w, hw, rfl⟩ := hrows e he
    exact ⟨hread, w, hrely.history w hw, rfl⟩
  · intro s hinv h
    refine ⟨h, fun e he => ⟨⟨s, hinv, h, he⟩, ?_⟩⟩
    obtain ⟨w, hw, hrow, -⟩ := hinv.stored_write he
    exact ⟨w, hw, hrow⟩
  · exact .pure fun s _ h => ⟨h.1, fun e he => h.2 e (List.mem_of_find?_eq_some he)⟩

/-- Where a token led when its envelope was read. -/
def Leads (tokenHash id : String) (s : Shared μ ι) : Prop :=
  ¬ s.tampered → ∃ e, rowOf s.rows tokenHash = some e ∧ e.id = id

theorem leads_stable {i : ι} (tokenHash id : String) :
    (protocol i).Stable (Leads (μ := μ) (ι := ι) tokenHash id) := by
  intro s s' _ _ hrely h hfair
  obtain ⟨e, he, rfl⟩ := h fun ht => hfair (hrely.tampered ht)
  obtain ⟨e', he', hid, -⟩ := hrely.tokens hfair tokenHash e he
  exact ⟨e', he', hid⟩

theorem findByTokenHash_triple {i : ι} {A : Shared μ ι → Prop} (hA : (protocol i).Stable A)
    (tokenHash : String) :
    (protocol i).Triple (FsEnvelopeStore.findByTokenHash tokenHash) A
      (fun r s => A s ∧ ∀ e, r = some e → (∃ t, Inv t ∧ A t ∧ e ∈ t.rows) ∧
        (∃ w ∈ s.history, w.row = e) ∧ Leads tokenHash e.id s) (fun _ => A) := by
  refine (rows_triple (B := fun rows s => A s ∧ ∀ e, rowOf rows tokenHash = some e →
    (∃ t, Inv t ∧ A t ∧ e ∈ t.rows) ∧ (∃ w ∈ s.history, w.row = e) ∧
      Leads tokenHash e.id s) hA ?_ ?_).bind fun rows => ?_
  · rintro rows s s' hs hs' hrely ⟨h, hrows⟩
    refine ⟨hA s s' hs hs' hrely h, fun e he => ?_⟩
    obtain ⟨hread, ⟨w, hw, rfl⟩, hleads⟩ := hrows e he
    exact ⟨hread, ⟨w, hrely.history w hw, rfl⟩, leads_stable _ _ s s' hs hs' hrely hleads⟩
  · intro s hinv h
    refine ⟨h, fun e he => ⟨⟨s, hinv, h, List.mem_of_find?_eq_some he⟩, ?_,
      fun _ => ⟨e, he, rfl⟩⟩⟩
    obtain ⟨w, hw, hrow, -⟩ := hinv.stored_write (List.mem_of_find?_eq_some he)
    exact ⟨w, hw, hrow⟩
  · exact .pure fun s _ h => h

-- ---------------------------------------------------------------------------
-- Updates
-- ---------------------------------------------------------------------------

/-- The revision of a finished object is the one it was read at. -/
def Object.Clean (o : Object μ) : Prop := o.unfinished = false → getRev o.val = o.readRev

theorem Object.read_clean (e : Envelope μ) : (Object.read e).Clean := fun _ => rfl

/-- The file after an update of row `k`. -/
abbrev Shared.replaced (s : Shared μ ι) (who : ι) (k : Nat) (e : Envelope μ) (readRev : Nat)
    (raw : Bool) : Shared μ ι :=
  s.renamed who (s.rows.set k e) ⟨e, some readRev, raw⟩

/-- Under the mutex what is found stays. -/
theorem locked_findById {i : ι} {mine : Nat} {A : Shared μ ι → Prop} (hA : (protocol i).Stable A)
    (tenantId id : String) :
    (protocol i).Triple (FsEnvelopeStore.findById tenantId id)
      (fun s => A s ∧ s.mutex.Holds STORE_KEY i mine)
      (fun r s => (s.rows.find? (fun e => e.tenantId == tenantId && e.id == id) = r ∧ A s) ∧
        s.mutex.Holds STORE_KEY i mine)
      (fun _ s => A s ∧ s.mutex.Holds STORE_KEY i mine) := by
  refine (rows_triple (B := fun rows s => (s.rows = rows ∧ A s) ∧ s.mutex.Holds STORE_KEY i mine)
    (stable_and_locked hA) (fun rows => ?_) fun s _ h => ⟨⟨rfl, h.1⟩, h.2⟩).bind fun rows => ?_
  · exact locked_rows_stable hA (· = rows)
  · exact .pure fun s _ h => ⟨⟨by rw [h.1.1], h.1.2⟩, h.2⟩

/-- Replacing the row that was found under the mutex. -/
theorem fsUpdate_triple {i : ι} {raw : Bool} {fresh e : Envelope μ} (mine : Nat)
    (find : Envelope μ → Bool) {A B : Shared μ ι → Prop} (hA : (protocol i).Stable A) (hB : (protocol i).Stable B)
    (hid : fresh.id = e.id) (hrev : getRev e = getRev fresh + 1)
    (hwrite : ∀ s k, Inv s → A s → s.rows[k]? = some fresh →
      (raw = false → TokensKept s.rows (s.rows.set k e)) ∧
      (Inv (s.replaced i k e (getRev fresh) raw) →
        Guar i s (s.replaced i k e (getRev fresh) raw) →
        B (s.replaced i k e (getRev fresh) raw))) :
    (protocol i).Triple (FsEnvelopeStore.update i raw (getRev fresh) e)
      (fun s => (s.rows.find? find = some fresh ∧ A s) ∧ s.mutex.Holds STORE_KEY i mine)
      (fun _ s => B s ∧ s.mutex.Holds STORE_KEY i mine)
      (fun _ s => A s ∧ s.mutex.Holds STORE_KEY i mine) := by
  have hfound : (protocol i).Stable fun s => (s.rows.find? find = some fresh ∧ A s) ∧
      s.mutex.Holds STORE_KEY i mine :=
    locked_rows_stable hA fun rows => rows.find? find = some fresh
  refine Protocol.Triple.bind (M := fun rows s => ((s.rows = rows ∧ s.rows.find? find = some fresh)
    ∧ A s) ∧ s.mutex.Holds STORE_KEY i mine) ?_ fun rows => ?_
  · refine (rows_triple hfound (fun rows => locked_rows_stable hA fun now =>
      now = rows ∧ now.find? find = some fresh) fun s _ h => ?_).mono (fun _ _ h => h)
      (fun _ _ _ h => h) fun _ _ _ h => ⟨h.1.2, h.2⟩
    exact ⟨⟨⟨rfl, h.1.1⟩, h.1.2⟩, h.2⟩
  · cases hk : rows.findIdx? (·.id == e.id) with
    | none => exact .throw fun _ _ h => ⟨h.1.2, h.2⟩
    | some k =>
      obtain ⟨hlt, hkey, -⟩ := List.findIdx?_eq_some_iff_getElem.mp hk
      refine (writeJsonAtomic_triple (A := fun s => (s.rows = rows ∧
        s.rows.find? find = some fresh) ∧ A s) ?_ hB ?_).mono (fun _ _ h => h)
        (fun _ _ _ h => h) (fun _ _ _ h => ⟨h.1.2, h.2⟩) |>.bind fun _ => .pure fun _ _ h => h
      · exact locked_rows_stable hA fun now => now = rows ∧ now.find? find = some fresh
      · rintro s hinv ⟨⟨rfl, hfresh⟩, h⟩ - -
        have hrow : s.rows[k]? = some fresh := by
          rw [List.getElem?_eq_getElem hlt, Option.some.injEq]
          refine eq_of_key hinv.ids (List.getElem_mem hlt) (List.mem_of_find?_eq_some hfresh) ?_
          rw [hid]
          exact beq_iff_eq.mp hkey
        obtain ⟨hkept, hB⟩ := hwrite s k hinv h hrow
        have hinv' := hinv.update i hrow hid.symm hrev hkept
        refine ⟨hinv', fun hfair => ?_, hB hinv'⟩
        cases raw with
        | false => exact hkept rfl
        | true =>
          by_contra hbroken
          exact hfair (.inr ⟨rfl, hbroken⟩)

/-- An update throws, or replaces the row it compared with. `hwrite` is that
this is fine, and what it gives. -/
theorem update_triple {i : ι} {raw : Bool} {o : Object μ} {A B : Shared μ ι → Prop}
    (hclean : o.Clean) (hA : Frame i A) (hB : Frame i B)
    (hwrite : ∀ s k fresh e, Inv s → A s → s.rows[k]? = some fresh → fresh.id = o.val.id →
      getRev fresh = getRev o.val → e = setRev o.val (getRev fresh + 1) →
      (raw = false → TokensKept s.rows (s.rows.set k e)) ∧
      (Inv (s.replaced i k e (getRev fresh) raw) →
        Guar i s (s.replaced i k e (getRev fresh) raw) →
        B (s.replaced i k e (getRev fresh) raw))) :
    (protocol i).Triple (ConcurrencySafe.update i raw o) A
      (fun o' s => o'.Clean ∧ B s) (fun r s => r.1.Clean ∧ A s) := by
  unfold ConcurrencySafe.update
  refine Protocol.Triple.bind (M := fun _ s => o.unfinished = false ∧ A s) ?_ fun _ => ?_
  · refine .lift (Protocol.Holds.perform ?_ fun _ => (Protocol.stable_const _).and hA.1)
    rintro _ r s hinv h ⟨rfl, horderly⟩
    exact ⟨hinv, .refl i s, horderly, h⟩
  refine .given fun hfinished : o.unfinished = false => ?_
  refine (mutex_contract i).run hA (fun _ => (Frame.const i _).and hB)
    (fun _ => (Frame.const i _).and hA) fun mine => ?_
  refine Protocol.Triple.bind (.adapt <| (locked_findById hA.1 _ _).mono (fun _ _ h => h)
    (fun _ _ _ h => h) fun _ _ _ h => ⟨⟨hclean, h.1⟩, h.2⟩) fun found => ?_
  cases found with
  | none => exact .throw fun _ _ h => ⟨⟨hclean, h.1.2⟩, h.2⟩
  | some fresh =>
    dsimp only
    split
    next => exact .throw fun _ _ h => ⟨⟨hclean, h.1.2⟩, h.2⟩
    next hsame =>
      rw [not_not] at hsame
      -- The object is stamped here; a throw from now on leaves it unfinished.
      refine Protocol.Triple.bind (M := fun _ s => B s ∧ s.mutex.Holds STORE_KEY i mine) (.adapt ?_)
        fun _ => .pure fun _ _ h => ⟨⟨fun _ => rfl, h.1⟩, h.2⟩
      refine .know (q := fresh.id = o.val.id) (fun s _ h => ?_) fun hid => ?_
      · have := List.find?_some h.1.1
        rw [Bool.and_eq_true, beq_iff_eq, beq_iff_eq] at this
        exact this.2
      rw [← hclean hfinished, ← hsame]
      have hreplace := fsUpdate_triple (e := setRev o.val (getRev fresh + 1)) mine
        (fun e => e.tenantId == o.val.tenantId && e.id == o.val.id) hA.1 hB.1 hid rfl
        fun s k hinv h hk => hwrite s k fresh _ hinv h hk hid hsame rfl
      exact hreplace.mono (fun _ _ h => h) (fun _ _ _ h => h)
        fun _ _ _ h => ⟨⟨fun hf => Bool.noConfusion hf, h.1⟩, h.2⟩

theorem insert_triple {i : ι} {A : Shared μ ι → Prop} (hA : (protocol i).Kept A)
    (e : Envelope μ) :
    (protocol i).Triple (ConcurrencySafe.insert i e) A (fun _ => A) (fun _ => A) := by
  unfold ConcurrencySafe.insert
  refine (mutex_contract i).run (.of_kept hA) (fun _ => .of_kept hA) (fun _ => .of_kept hA)
    fun mine => ?_
  refine (rows_triple (B := fun rows s => (s.rows = rows ∧ A s) ∧
    s.mutex.Holds STORE_KEY i mine) (stable_and_locked hA.1)
    (fun rows => locked_rows_stable hA.1 (· = rows)) fun s _ h => ⟨⟨rfl, h.1⟩, h.2⟩).bind
    fun rows => ?_
  refine (writeJsonAtomic_triple (A := fun s => s.rows = rows ∧ A s)
    (locked_rows_stable hA.1 (· = rows)) hA.1 ?_).mono (fun _ _ h => h) (fun _ _ _ h => h)
    (fun _ _ _ h => ⟨h.1.2, h.2⟩) |>.bind fun _ => .pure fun _ _ h => h
  rintro s hinv ⟨rfl, h⟩ - hnew
  have hinv' := hinv.insert i (hnew rfl)
  exact ⟨hinv', fun _ => .append _ _, fun hguar => hA.2 s _ hinv hinv' hguar h⟩

-- ---------------------------------------------------------------------------
-- The store of the envelope functions
-- ---------------------------------------------------------------------------

section
variable (hashToken : String → String) (assertImageDataUrl : String → Option String)

/-- The client has used up the token, and not yet returned. -/
def Granted (i : ι) (tokenHash : String) (s : Shared μ ι) : Prop :=
  ¬ s.tampered → s.grantee tokenHash = some i ∧ tokenHash ∉ s.acted

theorem granted_stable (i : ι) (tokenHash : String) :
    (protocol (μ := μ) i).Stable (Granted i tokenHash) := by
  intro s s' _ _ hrely h hfair
  obtain ⟨hgrant, hacted⟩ := h fun ht => hfair (hrely.tampered ht)
  obtain ⟨hgrant', hacted'⟩ := hrely.granted hfair tokenHash hgrant
  exact ⟨hgrant', fun h => hacted (hacted' h)⟩

/-- A write that takes away the use of the token it was read by. -/
theorem granted_write {i : ι} {s : Shared μ ι} {k : Nat} {read e : Envelope μ} {w : Write μ}
    {tokenHash : String} (hinv : Inv s) (hinv' : Inv (s.renamed i (s.rows.set k e) w))
    (hkept : TokensKept s.rows (s.rows.set k e)) (hk : s.rows[k]? = some read)
    (hid : e.id = read.id) (hleads : Leads tokenHash read.id s)
    (hbefore : read.usable tokenHash = true) (hafter : e.usable tokenHash = false) :
    Granted i tokenHash (s.renamed i (s.rows.set k e) w) := by
  intro hfair
  have hfair' : ¬ s.tampered := fun ht => hfair (.inl ht)
  obtain ⟨found, hfound, hfoundId⟩ := hleads hfair'
  obtain ⟨found', hfound', hfoundId', -⟩ := hkept tokenHash found hfound
  have hlt := (List.getElem?_eq_some_iff.mp hk).1
  have hold : found = read := eq_of_key hinv.ids (List.mem_of_find?_eq_some hfound)
    (List.mem_of_getElem? hk) hfoundId
  have hnew : found' = e := eq_of_key hinv'.ids (List.mem_of_find?_eq_some hfound')
    (List.mem_set hlt e) (by rw [hfoundId', hfoundId, hid])
  subst hold hnew
  constructor
  · simp only [Shared.renamed, usableIn, hfound, hfound', Option.any_some, hbefore, hafter]
    rfl
  · -- A token that led to a result is used up, and this one was not.
    intro hacted
    obtain ⟨j, hj⟩ := Option.isSome_iff_exists.mp ((hinv.tokens hfair').granted tokenHash hacted)
    obtain ⟨row, hrow, hclosed⟩ := (hinv.tokens hfair').closed tokenHash j hj
    rw [hfound] at hrow
    cases hrow
    rw [hbefore] at hclosed
    cases hclosed

/-- What is known of an envelope that was looked up: it is on record, and its
token still leads to it. -/
def Found (l : Lookup) (e : Envelope μ) (s : Shared μ ι) : Prop :=
  (∃ w ∈ s.history, w.row = e) ∧
    match l with
    | .token tokenHash => Leads tokenHash e.id s
    | .id .. => True

theorem found_stable {i : ι} (l : Lookup) (e : Envelope μ) :
    (protocol i).Stable (Found (ι := ι) l e) := by
  rintro s s' hs hs' hrely ⟨⟨w, hw, rfl⟩, hleads⟩
  refine ⟨⟨w, hrely.history w hw, rfl⟩, ?_⟩
  cases l with
  | token tokenHash => exact leads_stable tokenHash _ s s' hs hs' hrely hleads
  | id => trivial

/-- What an update by the envelope functions leaves. -/
def Used (i : ι) (l : Lookup) (read e : Envelope μ) (s : Shared μ ι) : Prop :=
  match l with
  | .token tokenHash =>
    read.usable tokenHash = true → e.usable tokenHash = false → Granted i tokenHash s
  | .id .. => True

theorem used_frame (i : ι) (l : Lookup) (read e : Envelope μ) :
    Frame i (Used (ι := ι) i l read e) := by
  cases l with
  | id => exact .const i True
  | token tokenHash =>
    refine ⟨?_, fun s m _ _ _ h hbefore hafter => h hbefore hafter⟩
    exact fun s s' hs hs' hrely h hbefore hafter =>
      granted_stable i tokenHash s s' hs hs' hrely (h hbefore hafter)

theorem store_update_triple {i : ι} {l : Lookup} {read e : Envelope μ} {P : Shared μ ι → Prop}
    (hP : (protocol i).Kept P) (hchange : SameKeys read e) :
    (protocol i).Triple ((ConcurrencySafe.store i).update e) (fun s => Found l read s ∧ P s)
      (fun _ s => Used i l read e s ∧ P s) (fun _ => P) := by
  have hframe : Frame i fun s => Found l read s ∧ P s :=
    Frame.and ⟨found_stable l read, fun s m _ _ _ h => h⟩ (.of_kept hP)
  refine Protocol.Triple.bind (M := fun _ s => Used i l read e s ∧ P s) (.adapt ?_) fun o =>
    .pure fun _ _ h => h
  refine (update_triple (Object.read_clean e) hframe ((used_frame i l read e).and (.of_kept hP))
    ?_).mono (fun _ _ h => h) (fun _ _ _ h => h.2) fun _ _ _ h => h.2.2
  rintro s k fresh e' hinv ⟨⟨hrecord, hleads⟩, h⟩ hk hid hrev rfl
  change fresh.id = e.id at hid
  change getRev fresh = getRev e at hrev
  have hread : getRev e = getRev read := congrArg (·.getD 0) hchange.mcpRev
  have hsame : fresh = read := hinv.eq_of_rev (List.mem_of_getElem? hk) hrecord
    (hid.trans hchange.id) (hrev.trans hread)
  subst hsame
  have hkept : TokensKept s.rows (s.rows.set k (setRev e (getRev fresh + 1))) :=
    TokensKept.set hk hchange.id hchange.tokens hchange.usable
  refine ⟨fun _ => hkept, fun hinv' hguar => ⟨?_, hP.2 s _ hinv hinv' hguar h⟩⟩
  cases l with
  | id => trivial
  | token tokenHash =>
    exact fun hbefore hafter =>
      granted_write hinv hinv' hkept hk hchange.id hleads hbefore hafter

def contract (i : ι) : StoreContract (protocol (μ := μ) i) (ConcurrencySafe.store i)
    (env hashToken assertImageDataUrl) where
  Stored _ e s := e ∈ s.rows
  Read := Found
  Changed := Change
  Wrote := Used i
  read_stable := found_stable
  now _ hP := now_triple hP
  findByTokenHash tokenHash _ hP := findByTokenHash_triple hP tokenHash
  findById tenantId id _ hP := (findById_triple hP tenantId id).mono (fun _ _ h => h)
    (fun _ _ _ h => ⟨h.1, fun e he => ⟨(h.2 e he).1, (h.2 e he).2, trivial⟩⟩) (fun _ _ _ h => h)
  update _ _ _ _ hP hchange := store_update_triple hP hchange.sameKeys

-- ---------------------------------------------------------------------------
-- Clients
-- ---------------------------------------------------------------------------

variable {hashToken assertImageDataUrl}

theorem signed_granted {i : ι} {tokenHash : String} {s : Shared μ ι}
    (h : (contract hashToken assertImageDataUrl i).Signed tokenHash s) :
    Granted i tokenHash s := by
  obtain ⟨e, k, signer, image, signedAt, completedAt, hlive, hsigner, hopen, -, hwrote⟩ := h
  exact hwrote (Envelope.usable_of_signerOf hlive hsigner hopen)
    (Envelope.signed_unusable hsigner image signedAt completedAt)

theorem declined_granted {i : ι} {tokenHash : String} {s : Shared μ ι}
    (h : (contract hashToken assertImageDataUrl i).Declined tokenHash s) :
    Granted i tokenHash s := by
  obtain ⟨e, k, signer, reason, declinedAt, voidedAt, hlive, hsigner, hopen, hwrote⟩ := h
  exact hwrote (Envelope.usable_of_signerOf hlive hsigner hopen)
    (Envelope.usable_of_not_live rfl tokenHash)

/-- A granted token's result is returned once. -/
theorem acting_triple {i : ι} {tokenHash : String} {x : M μ ι (Envelope μ)}
    (hx : (protocol i).Triple x (fun _ => True) (fun _ s => Granted i tokenHash s)
      (fun _ _ => True)) :
    (protocol i).Triple (acting tokenHash x) (fun _ => True) (fun _ _ => True)
      (fun _ _ => True) := by
  refine Protocol.Triple.bind hx fun e => ?_
  refine Protocol.Triple.bind (M := fun _ _ => True) (.lift (Protocol.Holds.perform ?_ fun _ =>
    Protocol.stable_const True)) fun _ => .pure fun _ _ h => h
  rintro s r s' hinv hgranted ⟨rfl, -⟩
  have hchain := hinv.chain
  refine ⟨⟨hinv.mutex, hinv.ids, ⟨hchain.first, hchain.follows, hchain.stored⟩,
    fun hfair => ?_⟩, ?_, trivial⟩
  · obtain ⟨hgrant, hnew⟩ := hgranted hfair
    have htokens := hinv.tokens hfair
    refine ⟨htokens.closed, fun h hh => ?_, List.nodup_cons.mpr ⟨hnew, htokens.once⟩⟩
    rcases List.mem_cons.mp hh with rfl | hh
    · exact Option.isSome_of_eq_some hgrant
    · exact htokens.granted h hh
  · refine ⟨fun _ _ => .refl _ _, .inl rfl, fun _ h => h, id, fun _ => .refl _,
      fun _ _ _ h => h, fun hfair h hh => ?_⟩
    rcases List.mem_cons.mp hh with rfl | hh
    · exact .inr (hgranted hfair).1
    · exact .inl hh

theorem keep_holds {i : ι} {objects : List (Object μ)} {x : M μ ι (Option (Envelope μ))}
    (hx : (protocol i).Triple x (fun _ => True) (fun _ _ => True) (fun _ _ => True))
    (hobjects : ∀ o ∈ objects, o.Clean) :
    (protocol i).Holds (keep objects x) (fun _ => True) fun r _ => ∀ o ∈ r.2, o.Clean := by
  refine Protocol.Holds.bind hx fun r => ?_
  rcases r with t | (_ | e)
  · exact fun _ _ _ => hobjects
  · exact fun _ _ _ => hobjects
  · intro _ _ _ o ho
    rcases List.mem_append.mp ho with ho | ho
    · exact hobjects o ho
    · rw [List.mem_singleton.mp ho]
      exact Object.read_clean e

theorem clean_set {objects : List (Object μ)} (hobjects : ∀ o ∈ objects, o.Clean) {o : Object μ}
    (ho : o.Clean) (k : Nat) : ∀ o' ∈ objects.set k o, o'.Clean := by
  intro o' ho'
  rcases List.mem_or_eq_of_mem_set ho' with ho' | rfl
  · exact hobjects o' ho'
  · exact ho

theorem perform_holds (i : ι) {objects : List (Object μ)} (hobjects : ∀ o ∈ objects, o.Clean)
    (c : Call μ) :
    (protocol i).Holds (perform hashToken assertImageDataUrl i objects c) (fun _ => True)
      fun r _ => ∀ o ∈ r.2, o.Clean := by
  have htrue := Protocol.kept_const (p := protocol (μ := μ) i) True
  cases c with
  | findById tenantId id =>
    exact keep_holds ((findById_triple htrue.1 tenantId id).mono (fun _ _ h => h)
      (fun _ _ _ _ => trivial) fun _ _ _ h => h) hobjects
  | findByTokenHash tokenHash =>
    exact keep_holds ((findByTokenHash_triple htrue.1 tokenHash).mono (fun _ _ h => h)
      (fun _ _ _ _ => trivial) fun _ _ _ h => h) hobjects
  | edit k edit =>
    rw [perform]
    cases hk : objects[k]? with
    | none => exact fun _ _ _ => hobjects
    | some o =>
      refine fun _ _ _ => clean_set hobjects (fun hfinished => ?_) k
      change getRev (edit.apply o.val) = o.readRev
      rw [getRev, edit.mcpRev_eq]
      exact hobjects o (List.mem_of_getElem? hk) hfinished
  | insert e => exact keep_holds (.map (insert_triple htrue e)) hobjects
  | update k =>
    rw [perform]
    cases hk : objects[k]? with
    | none => exact fun _ _ _ => hobjects
    | some o =>
      have hupdate := update_triple (A := fun _ => True) (B := fun _ => True)
        (hobjects o (List.mem_of_getElem? hk)) (.const i True) (.const i True)
        fun _ _ _ _ _ _ _ _ _ _ => ⟨fun hf : true = false => Bool.noConfusion hf, fun _ _ => trivial⟩
      refine Protocol.Holds.bind hupdate fun r => ?_
      rcases r with ⟨o', t⟩ | o'
      · exact fun _ _ h => clean_set hobjects h.1 k
      · exact fun _ _ h => clean_set hobjects h.1 k
  | recordSignature token image signedAt =>
    refine keep_holds (acting_triple ?_) hobjects
    refine ((contract hashToken assertImageDataUrl i).recordSignature
      (fun _ _ _ _ _ => .expire) ?_ htrue image signedAt).mono (fun _ _ h => h)
      (fun _ _ _ h => signed_granted h.1) fun _ _ _ h => h
    intro e t k signer image signedAt completedAt _ _ _ hlive hsigner hopen hturn
    exact .sign hlive (Envelope.signerOf_eq_some hsigner).1 hopen hturn image signedAt completedAt
  | declineEnvelope token reason =>
    refine keep_holds (acting_triple ?_) hobjects
    refine ((contract hashToken assertImageDataUrl i).declineEnvelope
      (fun _ _ _ _ _ => .expire) ?_ htrue reason).mono (fun _ _ h => h)
      (fun _ _ _ h => declined_granted h.1) fun _ _ _ h => h
    intro e t k signer reason declinedAt voidedAt _ _ _ hlive hsigner hopen
    exact .decline hlive (Envelope.signerOf_eq_some hsigner).1 hopen reason declinedAt voidedAt
  | voidEnvelope tenantId envelopeId =>
    refine keep_holds (.map ((contract hashToken assertImageDataUrl i).voidEnvelope ?_
      htrue)) hobjects
    intro e t voidedAt _ _ _ hopen
    exact .void hopen voidedAt

theorem client_holds (i : ι) {objects : List (Object μ)} (hobjects : ∀ o ∈ objects, o.Clean)
    (calls : Prog (Call μ) Answer Unit) :
    (protocol i).Holds (client hashToken assertImageDataUrl i objects calls) (fun _ => True)
      fun _ _ => True := by
  induction calls generalizing objects with
  | pure _ => exact fun _ _ h => h
  | call c k ih =>
    refine Protocol.Holds.bind (perform_holds i hobjects c) fun r => ?_
    exact Protocol.Holds.mono (.given fun hclean => ih r.1 hclean) (fun _ _ h => ⟨h, trivial⟩)
      fun _ _ _ h => h

end

-- ---------------------------------------------------------------------------
-- Runs
-- ---------------------------------------------------------------------------

/-- The file as it is found, with its rows as the first writes. -/
def Shared.start (rows : List (Envelope μ)) : Shared μ ι where
  rows
  mutex := .empty
  history := rows.map (⟨·, none, false⟩)
  grantee _ := none
  acted := []
  tampered := False

theorem writesOf_start {rows : List (Envelope μ)} (hids : (rows.map (·.id)).Nodup)
    (id : String) : writesOf (rows.map (⟨·, none, false⟩)) id =
      ((rows.find? (·.id == id)).map (⟨·, none, false⟩)).toList := by
  rw [writesOf, List.filter_map]
  change (rows.filter (·.id == id)).map _ = _
  rw [filter_key hids]
  cases rows.find? (·.id == id) <;> rfl

theorem Shared.start_inv {rows : List (Envelope μ)} (hids : (rows.map (·.id)).Nodup) :
    Inv (Shared.start (ι := ι) rows) where
  mutex := .empty
  ids := hids
  chain := by
    refine ⟨fun id w hw => ?_, fun id => ?_, fun id => ?_⟩
    · obtain ⟨e, -, rfl⟩ := List.mem_map.mp (List.mem_filter.mp (List.mem_of_mem_head? hw)).1
      rfl
    · rw [Shared.start, writesOf_start hids]
      cases rows.find? (·.id == id) with
      | none => exact .nil
      | some e => exact .singleton _
    · rw [Shared.start, writesOf_start hids]
      cases rows.find? (·.id == id) <;> rfl
  tokens _ := ⟨nofun, nofun, .nil⟩

/-- In every run in which no object is updated while an earlier update of it is
unfinished, and in which inserted envelopes have new ids: the updates of each
envelope are one chain. As long as the clients' own updates keep the tokens,
each token leads to at most one returned signature or refusal. -/
theorem updates_chain [DecidableEq ι] {hashToken : String → String}
    {assertImageDataUrl : String → Option String} {rows : List (Envelope μ)}
    (hids : (rows.map (·.id)).Nodup) {clients : ι → Prog (Call μ) Answer Unit}
    {c : Shared μ ι × (ι → Prog (Op μ ι) Res Unit)}
    (hrun : Run (Guarded exec Orderly)
      (Shared.start rows, fun i => client hashToken assertImageDataUrl i [] (clients i)) c) :
    Chain c.1 ∧ (¬ c.1.tampered → c.1.acted.Nodup) := by
  have hready : Protocol.Ready Inv protocol (fun _ _ _ => True)
      (Shared.start rows, fun i => client hashToken assertImageDataUrl i [] (clients i)) := by
    refine ⟨Shared.start_inv hids, fun i => ⟨fun _ => True, Protocol.stable_const True, trivial, ?_⟩⟩
    exact client_holds i (fun o ho => by cases ho) (clients i)
  have hinv : Inv c.1 := (hready.run compatible hrun).1
  exact ⟨hinv.chain, fun hfair => (hinv.tokens hfair).once⟩

-- ---------------------------------------------------------------------------
-- A retry after a failed write
-- ---------------------------------------------------------------------------

namespace Sample

def envelope : Envelope Unit where
  id := "envelope"
  tenantId := "acme"
  title := "Lease"
  html := "<p>Lease</p>"
  status := .sent
  signers := []
  createdAt := 0
  expiresAt := none
  metadata := none
  mcpRev := some 0

def retitle (title : String) : Edit Unit where
  apply e := { e with title }
  id_eq _ := rfl
  tenantId_eq _ := rfl
  mcpRev_eq _ := rfl

def update : Prog (Call Unit) Answer Unit := .call (.update 0) fun _ => .pure ()

/-- Both retitle the envelope; the first tries a second time. -/
def clients : Bool → Prog (Call Unit) Answer Unit
  | false =>
    .call (.findById "acme" "envelope") fun _ => .call (.edit 0 (retitle "A")) fun _ =>
      .call (.update 0) fun _ => update
  | true =>
    .call (.findById "acme" "envelope") fun _ => .call (.edit 0 (retitle "B")) fun _ => update

def entered (s : Shared Unit Bool) (who : Bool) : Shared Unit Bool :=
  { s with mutex := (s.mutex.enter STORE_KEY who).2 }

def left (s : Shared Unit Bool) (mine : Nat) : Shared Unit Bool :=
  { s with mutex := s.mutex.release STORE_KEY mine }

def file : Shared Unit Bool := Shared.start [envelope]

def titled (title : String) (rev : Nat) : Envelope Unit :=
  { envelope with title, mcpRev := some rev }

/-- The rename of the first client fails. -/
def failed : Shared Unit Bool := left (entered file false) 0

def written (s : Shared Unit Bool) (who : Bool) (mine : Nat) (e : Envelope Unit) (readRev : Nat) :
    Shared Unit Bool :=
  left ((entered s who).replaced who 0 e readRev true) mine

theorem found (who : Bool) (s : Shared Unit Bool) (h : s.rows = [envelope]) :
    (perform id some who [] (.findById "acme" "envelope")).Eval exec s
      (.ok (some envelope), [.read envelope]) s :=
  ⟨.ok [envelope], s, ⟨rfl, .inl (by rw [h])⟩, rfl, rfl⟩

theorem failing : (perform id some false [⟨titled "A" 0, 0, false⟩] (.update 0)).Eval exec file
    (.error (.error "EIO"), [⟨titled "A" 1, 0, true⟩]) failed :=
  ⟨(), file, rfl, (none, 0), entered file false, ⟨rfl, rfl⟩, (), _, ⟨trivial, rfl⟩,
    .ok [envelope], _, ⟨rfl, .inl rfl⟩, .ok [envelope], _, ⟨rfl, .inl rfl⟩,
    .error (.error "EIO"), _, .inr ⟨⟨_, rfl⟩, rfl⟩, (), _, rfl, rfl, rfl⟩

theorem updated : (perform id some true [⟨titled "B" 0, 0, false⟩] (.update 0)).Eval exec failed
    (.ok (some (titled "B" 1)), [⟨titled "B" 1, 1, false⟩]) (written failed true 1 (titled "B" 1) 0) :=
  ⟨(), failed, rfl, (none, 1), entered failed true, ⟨rfl, rfl⟩, (), _, ⟨trivial, rfl⟩,
    .ok [envelope], _, ⟨rfl, .inl rfl⟩, .ok [envelope], _, ⟨rfl, .inl rfl⟩,
    .ok (), _, .inl ⟨rfl, rfl⟩, (), _, rfl, rfl, rfl⟩

theorem retried : (perform id some false [⟨titled "A" 1, 0, true⟩] (.update 0)).Eval exec
    (written failed true 1 (titled "B" 1) 0)
    (.ok (some (titled "A" 2)), [⟨titled "A" 2, 2, false⟩])
    (written (written failed true 1 (titled "B" 1) 0) false 2 (titled "A" 2) 0) :=
  ⟨(), written failed true 1 (titled "B" 1) 0, rfl, (none, 2),
    entered (written failed true 1 (titled "B" 1) 0) false, ⟨rfl, rfl⟩, (), _, ⟨trivial, rfl⟩,
    .ok [titled "B" 1], _, ⟨rfl, .inl rfl⟩, .ok [titled "B" 1], _, ⟨rfl, .inl rfl⟩,
    .ok (), _, .inl ⟨rfl, rfl⟩, (), _, rfl, rfl, rfl⟩

def start : Shared Unit Bool × (Bool → Prog (Op Unit Bool) Res Unit) :=
  (file, fun i => client id some i [] (clients i))

/-- One call of a client, with nobody in between. -/
theorem call_run {exec : (op : Op Unit Bool) → Shared Unit Bool → Res op → Shared Unit Bool → Prop}
    {s s' : Shared Unit Bool} {threads : Bool → Prog (Op Unit Bool) Res Unit} {i : Bool}
    {objects objects' : List (Object Unit)} {c : Call Unit} {answer : Answer c}
    (k : Answer c → Prog (Call Unit) Answer Unit)
    (hi : threads i = client id some i objects (.call c k))
    (heval : (perform id some i objects c).Eval exec s (answer, objects') s') :
    Run exec (s, threads)
      (s', Function.update threads i (client id some i objects' (k answer))) :=
  Run.solo (k := fun r => client id some i r.2 (k r.1)) hi heval

end Sample

namespace Sample

theorem found_orderly :
    (perform id some true [] (.findById "acme" "envelope")).Eval (Guarded exec Orderly) file
      (.ok (some envelope), [.read envelope]) file :=
  ⟨.ok [envelope], file, ⟨⟨rfl, .inl rfl⟩, trivial⟩, rfl, rfl⟩

theorem updated_orderly :
    (perform id some true [⟨titled "B" 0, 0, false⟩] (.update 0)).Eval (Guarded exec Orderly) file
      (.ok (some (titled "B" 1)), [⟨titled "B" 1, 1, false⟩])
      (written file true 0 (titled "B" 1) 0) :=
  ⟨(), file, ⟨rfl, rfl⟩, (none, 0), entered file true, ⟨⟨rfl, rfl⟩, trivial⟩,
    (), _, ⟨⟨trivial, rfl⟩, trivial⟩, .ok [envelope], _, ⟨⟨rfl, .inl rfl⟩, trivial⟩,
    .ok [envelope], _, ⟨⟨rfl, .inl rfl⟩, trivial⟩, .ok (), _, ⟨.inl ⟨rfl, rfl⟩, nofun⟩,
    (), _, ⟨rfl, trivial⟩, rfl, rfl⟩

/-- The second client alone. -/
theorem orderly_run :
    ∃ threads, Run (Guarded exec Orderly) start (written file true 0 (titled "B" 1) 0, threads) :=
  ⟨_, (call_run (fun _ => .call (.edit 0 (retitle "B")) fun _ => update) rfl found_orderly).trans <|
    call_run (fun _ => .pure ()) rfl updated_orderly⟩

end Sample

theorem updates_chain_sample :
    Chain (Sample.written Sample.file true 0 (Sample.titled "B" 1) 0) ∧
      (¬ (Sample.written Sample.file true 0 (Sample.titled "B" 1) 0).tampered →
        (Sample.written Sample.file true 0 (Sample.titled "B" 1) 0).acted.Nodup) := by
  obtain ⟨threads, hrun⟩ := Sample.orderly_run
  refine updates_chain ?_ hrun
  exact List.nodup_singleton "envelope"

open Sample in
/-- The first client fails to write, the second writes, the first writes the
same object again: the second's update is lost. -/
theorem retry_breaks_chain : ∃ c, Run exec Sample.start c ∧ ¬ Chain c.1 := by
  refine ⟨_, (call_run (fun _ => .call (.edit 0 (retitle "A")) fun _ =>
      .call (.update 0) fun _ => update) rfl (found false file rfl)).trans <|
    (call_run (fun _ => update) rfl failing).trans <|
    (call_run (fun _ => .call (.edit 0 (retitle "B")) fun _ => update) rfl
      (found true failed rfl)).trans <|
    (call_run (fun _ => .pure ()) rfl updated).trans <|
    call_run (fun _ => .pure ()) rfl retried, fun hchain => ?_⟩
  have hfollows := hchain.follows "envelope"
  change List.IsChain Follows [⟨envelope, none, false⟩, ⟨titled "B" 1, some 0, true⟩,
    ⟨titled "A" 2, some 0, true⟩] at hfollows
  have hread := (List.isChain_cons_cons.mp (List.isChain_cons_cons.mp hfollows).2).1.read
  cases hread

end EsigSuite.EnvelopeFile
