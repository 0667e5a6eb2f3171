import EsigSuite.Lib.FirstOk
import EsigSuite.Provisioning.Migrations

/-!
# Concurrent migrations

Calls of `applyMigrations` on one project, with the database at work between
them. The guard of a script is checked under the lock that its commit needs, so
the committed migrations go through the list one by one; what a read saw is the
ledger of some moment, and a full one does not change any more.
-/

namespace EsigSuite.Provisioning.Bootstrapper

open Lib

-- ---------------------------------------------------------------------------
-- The invariant of the database
-- ---------------------------------------------------------------------------

/-- The migration stands in the list at its ordinal. -/
def Listed (m : Migration) : Prop :=
  0 < m.ordinal ∧ DEDICATED_REQUIRED_MIGRATIONS[m.ordinal - 1]? = some m.name

/-- `base` are the rows from before the calls. -/
def Database.rows (base : List LedgerRow) (d : Database) : List LedgerRow :=
  base ++ d.committed.map Migration.row

/-- The ledger of this moment or of an earlier one. -/
def Past (base : List LedgerRow) (d : Database) (rows : List LedgerRow) : Prop :=
  ∃ n ≤ d.committed.length, rows = base ++ (d.committed.take n).map Migration.row

def Session.Good (base : List LedgerRow) (d : Database) (k : Nat) : Session → Prop
  | .reading _ rows | .answered _ rows => Past base d rows
  | .begun m => Listed m
  | .locked m => Listed m ∧ d.lock = some k
  | .guarded m | .written m =>
    Listed m ∧ d.lock = some k ∧ d.ledger ≠ none ∧ guard m (d.rows base) = true
  | .ended => True

structure Inv (base : List LedgerRow) (d : Database) : Prop where
  ledger : d.ledger = some (d.rows base) ∨ (d.ledger = none ∧ d.rows base = [])
  listed : ∀ m ∈ d.committed, Listed m
  ordinals : ∀ (j : Nat) (m : Migration), d.committed[j]? = some m → m.ordinal = base.length + j + 1
  fresh : ∀ m ∈ d.committed, ∀ row ∈ base, row.version ≠ m.name
  requests : ∀ m, Query.apply m ∈ d.requests → Listed m
  sessions : ∀ (k : Nat) (session : Session), d.sessions[k]? = some session → session.Good base d k

/-- Nothing is taken back. -/
structure Later (d d' : Database) : Prop where
  committed : d.committed <+: d'.committed
  requests : d.requests <+: d'.requests

variable {base : List LedgerRow} {d d' : Database} {k : Nat} {m : Migration}

theorem Past.later {rows : List LedgerRow} (h : Past base d rows) (hlater : Later d d') :
    Past base d' rows := by
  obtain ⟨n, hn, rfl⟩ := h
  obtain ⟨more, hmore⟩ := hlater.committed
  refine ⟨n, ?_, ?_⟩
  · rw [← hmore, List.length_append]
    omega
  · rw [← hmore, List.take_append_of_le_length hn]

theorem Past.now (base : List LedgerRow) (d : Database) : Past base d (d.rows base) :=
  ⟨d.committed.length, le_rfl, by rw [List.take_length]; rfl⟩

/-- A session that does not hold the lock only looks at the past. -/
theorem Session.Good.keep {session : Session} (h : session.Good base d k) (hlater : Later d d')
    (hheld : session.HoldsLock → d'.lock = d.lock ∧ d'.committed = d.committed ∧
      (d.ledger ≠ none → d'.ledger ≠ none)) : session.Good base d' k := by
  cases session with
  | reading r rows | answered r rows => exact Past.later h hlater
  | begun m => exact h
  | ended => exact h
  | locked m => exact ⟨h.1, (hheld trivial).1.trans h.2⟩
  | guarded m | written m =>
    obtain ⟨hlock, hcommitted, hledger⟩ := hheld trivial
    refine ⟨h.1, hlock.trans h.2.1, hledger h.2.2.1, ?_⟩
    rw [Database.rows, hcommitted]
    exact h.2.2.2

theorem Session.Good.lock {session : Session} (h : session.Good base d k)
    (hheld : session.HoldsLock) : d.lock = some k := by
  cases session with
  | locked m => exact h.2
  | guarded m | written m => exact h.2.1
  | _ => exact hheld.elim

theorem getElem?_set_cases {sessions : List Session} {k i : Nat} {new session : Session}
    (h : (sessions.set k new)[i]? = some session) :
    (i = k ∧ session = new) ∨ (i ≠ k ∧ sessions[i]? = some session) := by
  rw [List.getElem?_set] at h
  by_cases hi : k = i
  · rw [if_pos hi] at h
    split_ifs at h
    exact .inl ⟨hi.symm, (Option.some.inj h).symm⟩
  · rw [if_neg hi] at h
    exact .inr ⟨Ne.symm hi, h⟩

/-- A session goes on and may take or give back the lock. -/
theorem Inv.set (h : Inv base d) {new : Session} {lock : Option Nat}
    (hothers : ∀ i ≠ k, d.lock = some i → lock = d.lock)
    (hnew : new.Good base { d with sessions := d.sessions.set k new, lock } k) :
    Inv base { d with sessions := d.sessions.set k new, lock } where
  ledger := h.ledger
  listed := h.listed
  ordinals := h.ordinals
  fresh := h.fresh
  requests := h.requests
  sessions i session hi := by
    rcases getElem?_set_cases hi with ⟨rfl, rfl⟩ | ⟨hne, hi⟩
    · exact hnew
    · have hgood := h.sessions i session hi
      exact hgood.keep ⟨List.prefix_rfl, List.prefix_rfl⟩ fun hheld => ⟨hothers i hne (hgood.lock hheld), rfl, id⟩

theorem Inv.start (h : Inv base d) {new : Session} (hnew : ∀ k, new.Good base d k) :
    Inv base { d with sessions := d.sessions ++ [new] } where
  ledger := h.ledger
  listed := h.listed
  ordinals := h.ordinals
  fresh := h.fresh
  requests := h.requests
  sessions i session hi := by
    rcases Nat.lt_or_ge i d.sessions.length with hlt | hge
    · rw [List.getElem?_append_left hlt] at hi
      exact h.sessions i session hi
    · rw [List.getElem?_append_right hge, List.getElem?_singleton] at hi
      split_ifs at hi
      obtain rfl := Option.some.inj hi
      exact hnew i

theorem Inv.create (h : Inv base d) : Inv base { d with ledger := some (d.ledger.getD []) } where
  ledger := by
    rcases h.ledger with hledger | ⟨hledger, hempty⟩
    · exact .inl (by rw [hledger]; rfl)
    · refine .inl ?_
      change some (d.ledger.getD []) = some (d.rows base)
      rw [hledger, hempty]
      rfl
  listed := h.listed
  ordinals := h.ordinals
  fresh := h.fresh
  requests := h.requests
  sessions i session hi :=
    (h.sessions i session hi).keep ⟨List.prefix_rfl, List.prefix_rfl⟩ fun _ => ⟨rfl, rfl, fun _ => nofun⟩

theorem guard_iff {rows : List LedgerRow} : guard m rows = true ↔
    (∀ row ∈ rows, row.version ≠ m.name) ∧ rows.length + 1 = m.ordinal ∧
      ∀ row ∈ rows, row.ordinal < m.ordinal := by
  simp only [guard, Bool.and_eq_true, List.all_eq_true, decide_eq_true_eq, beq_iff_eq, and_assoc]

/-- The row of a script whose guard held is the next one. -/
theorem Inv.commit (h : Inv base d) (hk : d.sessions[k]? = some (.written m)) :
    Inv base { d with ledger := some (d.rows base ++ [m.row]), committed := d.committed ++ [m],
                      sessions := d.sessions.set k .ended, lock := none } := by
  obtain ⟨hlisted, hlock, -, hguard⟩ := h.sessions k _ hk
  obtain ⟨hversion, hlength, -⟩ := guard_iff.mp hguard
  have hlater : Later d { d with ledger := some (d.rows base ++ [m.row]),
                                 committed := d.committed ++ [m],
                                 sessions := d.sessions.set k .ended, lock := none } :=
    ⟨List.prefix_append _ _, List.prefix_rfl⟩
  refine ⟨.inl ?_, fun m' hm' => ?_, fun j m' hj => ?_, fun m' hm' row hrow => ?_, h.requests,
    fun i session hi => ?_⟩
  · simp [Database.rows]
  · rcases List.mem_append.mp hm' with hm' | hm'
    · exact h.listed m' hm'
    · exact List.mem_singleton.mp hm' ▸ hlisted
  · rcases Nat.lt_or_ge j d.committed.length with hlt | hge
    · exact h.ordinals j m' (by rwa [List.getElem?_append_left hlt] at hj)
    · change (d.committed ++ [m])[j]? = some m' at hj
      rw [List.getElem?_append_right hge, List.getElem?_singleton] at hj
      split_ifs at hj with hlast
      obtain rfl := Option.some.inj hj
      rw [Database.rows, List.length_append, List.length_map] at hlength
      omega
  · rcases List.mem_append.mp hm' with hm' | hm'
    · exact h.fresh m' hm' row hrow
    · exact List.mem_singleton.mp hm' ▸ hversion row (List.mem_append_left _ hrow)
  · rcases getElem?_set_cases hi with ⟨rfl, rfl⟩ | ⟨hne, hi⟩
    · trivial
    · have hgood := h.sessions i session hi
      refine hgood.keep hlater fun hheld => ?_
      rw [hgood.lock hheld] at hlock
      exact absurd (Option.some.inj hlock) hne

theorem Inv.serve (h : Inv base d) (hstep : Serve d d') : Inv base d' := by
  have hrows : ∀ rows, d.ledger = some rows → rows = d.rows base := fun rows hrows => by
    rcases h.ledger with hledger | ⟨hledger, -⟩
    · exact Option.some.inj (hrows.symm.trans hledger)
    · rw [hledger] at hrows
      cases hrows
  cases hstep with
  | create hr => exact h.create
  | snapshot hr hledger => exact h.start fun _ => hrows _ hledger ▸ Past.now base d
  | answer hk hlock => exact h.set (fun _ _ _ => rfl) (h.sessions _ _ hk)
  | begin' hr => exact h.start fun _ => h.requests _ (List.mem_of_getElem? hr)
  | lock hk hlock =>
    refine h.set (fun i _ hi => ?_) ⟨h.sessions _ _ hk, rfl⟩
    rw [hlock] at hi
    cases hi
  | guard hk hledger hguard =>
    obtain ⟨hlisted, hlock⟩ := h.sessions _ _ hk
    refine h.set (fun _ _ _ => rfl) ⟨hlisted, hlock, ?_, ?_⟩
    · rw [hledger]
      nofun
    · rw [hrows _ hledger] at hguard
      exact hguard
  | write hk => exact h.set (fun _ _ _ => rfl) (h.sessions _ _ hk)
  | commit hk hledger =>
    rw [hrows _ hledger]
    exact h.commit hk
  | @abort k session hk =>
    refine h.set (fun i hne hi => ?_) trivial
    rw [if_neg]
    rw [hi]
    exact fun heq => hne (Option.some.inj heq)

theorem Inv.send (h : Inv base d) {q : Query} (hq : ∀ m, q = .apply m → Listed m) :
    Inv base { d with requests := d.requests ++ [q] } where
  ledger := h.ledger
  listed := h.listed
  ordinals := h.ordinals
  fresh := h.fresh
  requests m hm := by
    rcases List.mem_append.mp hm with hm | hm
    · exact h.requests m hm
    · exact hq m (List.mem_singleton.mp hm).symm
  sessions i session hi :=
    (h.sessions i session hi).keep ⟨List.prefix_rfl, List.prefix_append _ _⟩ fun _ => ⟨rfl, rfl, id⟩

/-- The names that were committed, in order. -/
theorem Inv.committed_names (h : Inv base d) :
    d.committed.map (·.name) <+: DEDICATED_REQUIRED_MIGRATIONS.drop base.length := by
  rw [List.prefix_iff_getElem?]
  intro j hj
  rw [List.length_map] at hj
  have hm := List.getElem?_eq_getElem hj
  have hlisted := (h.listed _ (List.getElem_mem hj)).2
  rw [h.ordinals j _ hm] at hlisted
  rw [List.getElem?_drop, List.getElem_map]
  exact hlisted

theorem names_nodup : DEDICATED_REQUIRED_MIGRATIONS.Nodup := by decide

theorem Inv.committed_nodup (h : Inv base d) : (d.committed.map (·.name)).Nodup :=
  (names_nodup.sublist (List.drop_sublist _ _)).sublist h.committed_names.sublist

-- ---------------------------------------------------------------------------
-- What a read proves
-- ---------------------------------------------------------------------------

/-- The rows are those of the first migrations, and were the ledger at some
moment. -/
def Proved (base : List LedgerRow) (migrations : List Migration) (l : List LedgerRow)
    (d : Database) : Prop :=
  (∃ rows, Past base d rows ∧ l = ordered rows) ∧
    l = (migrations.map Migration.row).take l.length

-- ---------------------------------------------------------------------------
-- The caller
-- ---------------------------------------------------------------------------

def protocol (base : List LedgerRow) : Protocol Op Res Database where
  exec := Exec
  inv := Inv base
  rely := Later
  guar := Later

theorem stable_past (rows : List LedgerRow) : (protocol base).Stable fun d => Past base d rows :=
  fun _ _ _ _ hlater h => h.later hlater

theorem stable_proved (migrations : List Migration) (l : List LedgerRow) :
    (protocol base).Stable (Proved base migrations l) :=
  fun _ _ _ _ hlater ⟨⟨rows, hpast, hl⟩, htake⟩ => ⟨⟨rows, hpast.later hlater, hl⟩, htake⟩

/-- What is known of the answer to a request. -/
def Answer (base : List LedgerRow) (q : Query) (answer : List Json) (d : Database) : Prop :=
  q = .readLedger → ∃ rows, Past base d rows ∧ answer = ledgerJson rows

/-- Sources that the constructor took. -/
def Migrations (sha256 : JsString → JsString) : Type :=
  {migrations : List Migration // ∃ sources, immutableMigrationSources sha256 sources = .ok migrations}

theorem sources_listed {sha256 : JsString → JsString} (migrations : Migrations sha256) :
    migrations.val.map (·.name) = DEDICATED_REQUIRED_MIGRATIONS ∧ ∀ m ∈ migrations.val, Listed m := by
  obtain ⟨migrations, sources, h⟩ := migrations
  unfold immutableMigrationSources at h
  split_ifs at h with hbad
  obtain rfl := (Except.ok.inj h).symm
  rw [not_or, not_not] at hbad
  have hnames : ∀ (index : Nat) (source : MigrationSource), sources[index]? = some source →
      DEDICATED_REQUIRED_MIGRATIONS[index]? = some source.name := fun index source hsource => by
    rw [← hbad.1, List.getElem?_map, hsource]
    rfl
  refine ⟨?_, fun m hm => ?_⟩
  · rw [← hbad.1]
    refine List.ext_getElem? fun index => ?_
    rw [List.getElem?_map, List.getElem?_mapIdx, List.getElem?_map, Option.map_map]
    rfl
  · obtain ⟨index, hindex⟩ := List.getElem?_of_mem hm
    rw [List.getElem?_mapIdx, Option.map_eq_some_iff] at hindex
    obtain ⟨source, hsource, rfl⟩ := hindex
    exact ⟨Nat.succ_pos index, hnames index source hsource⟩

/-- A ledger with every migration stays as it is. -/
theorem Proved.full {sha256 : JsString → JsString} {migrations : Migrations sha256}
    {l : List LedgerRow} (h : Proved base migrations.val l d) (hinv : Inv base d)
    (hlength : l.length = migrations.val.length) :
    d.ledger = some (d.rows base) ∧ ordered (d.rows base) = migrations.val.map Migration.row ∧
      l = migrations.val.map Migration.row := by
  obtain ⟨⟨rows, ⟨n, hn, rfl⟩, hl⟩, htake⟩ := h
  have hall : l = migrations.val.map Migration.row := by
    rw [htake, hlength]
    exact List.take_of_length_le (by rw [List.length_map])
  have hversions : l.map (·.version) = DEDICATED_REQUIRED_MIGRATIONS := by
    rw [hall, List.map_map, ← (sources_listed migrations).1]
    rfl
  have hdone : d.committed.length ≤ n := by
    by_contra hmore
    rw [not_le] at hmore
    have hm := List.getElem?_eq_getElem hmore
    have hmem := List.getElem_mem hmore
    generalize d.committed[n] = m at hm hmem
    have hlisted := hinv.listed m hmem
    have hin : m.name ∈ l.map (·.version) := hversions ▸ List.mem_of_getElem? hlisted.2
    obtain ⟨row, hrow, hversion⟩ := List.mem_map.mp hin
    rw [hl] at hrow
    rcases List.mem_append.mp ((List.mem_insertionSort _).mp hrow) with hbase | hcommitted
    · exact hinv.fresh m hmem row hbase hversion
    · obtain ⟨m', hm', rfl⟩ := List.mem_map.mp hcommitted
      obtain ⟨i, hi⟩ := List.getElem?_of_mem hm'
      rw [List.getElem?_take] at hi
      split_ifs at hi with hlt
      have hnames : (d.committed.map (·.name))[i]? = (d.committed.map (·.name))[n]? := by
        rw [List.getElem?_map, List.getElem?_map, hi, hm]
        exact congrArg some hversion
      have hbound : i < (d.committed.map (·.name)).length := by
        rw [List.length_map]
        omega
      exact absurd ((List.getElem?_inj hbound hinv.committed_nodup).mp hnames) (by omega)
  rw [List.take_of_length_le hdone] at hl
  refine ⟨?_, hl.symm.trans hall, hall⟩
  rcases hinv.ledger with hledger | ⟨-, hempty⟩
  · exact hledger
  · rw [Database.rows] at hempty
    rw [hl, hempty] at hversions
    cases hversions

/-- The next call of a worker, or the next move of the database. -/
inductive Move {ι α : Type} [DecidableEq ι] :
    Database × (ι → Prog Op Res α) → Database × (ι → Prog Op Res α) → Prop
  | call {c c' : Database × (ι → Prog Op Res α)} : Step Exec c c' → Move c c'
  | serve {d d' : Database} (workers : ι → Prog Op Res α) : Serve d d' → Move (d, workers) (d', workers)

section
variable {ι : Type} [DecidableEq ι] {sha256 : JsString → JsString}

/-- A ledger from before, or none, and the calls not begun. -/
def starting (ledger : Option (List LedgerRow)) (migrations : ι → Migrations sha256)
    (inputs : ι → DedicatedMigrationInput) :
    Database × (ι → Prog Op Res (Except BootstrapError (List JsString))) :=
  (⟨ledger, [], [], [], none⟩, fun i => (applyMigrations (migrations i).val (inputs i)).run)

theorem Inv.initial (ledger : Option (List LedgerRow)) :
    Inv (ledger.getD []) ⟨ledger, [], [], [], none⟩ where
  ledger := by
    cases ledger with
    | none => exact .inr ⟨rfl, rfl⟩
    | some rows => exact .inl (by simp [Database.rows])
  listed _ h := by cases h
  ordinals _ _ h := by cases h
  fresh _ h := by cases h
  requests _ h := by cases h
  sessions _ _ h := by cases h

end

-- ---------------------------------------------------------------------------
-- A call that finds everything done
-- ---------------------------------------------------------------------------

namespace Sample

/-- The digest of the script below. -/
def sha256 (_ : JsString) : JsString :=
  js "17db4fd369edb9244b9f91d9aeed145c3d04ad8ba6e95d06247f07a63527d11a"

def migrations : Migrations sha256 :=
  ⟨_, DEDICATED_REQUIRED_MIGRATIONS.map fun name => ⟨name, js "SELECT 1;"⟩, rfl⟩

def ledger : List LedgerRow := migrations.val.map Migration.row

def input : DedicatedMigrationInput := ⟨js "abcdefghijklmnopqrst", DEDICATED_REQUIRED_MIGRATIONS⟩

/-- After the read has been answered. -/
def database : Database :=
  ⟨some ledger, [], [.createLedger, .readLedger], [.answered 1 ledger], none⟩

theorem reached : Relation.ReflTransGen Move
    (starting (some ledger) (fun _ : Unit => migrations) fun _ => input)
    (database, fun _ => .pure (.ok DEDICATED_REQUIRED_MIGRATIONS)) := by
  refine .head (.call ⟨(), .send .createLedger, _, 0, _, rfl, .send _ _, rfl⟩) ?_
  refine .head (.call ⟨(), .receive 0, _, .ok [], _, rfl, .done _ fun q hq hread => ?_, rfl⟩) ?_
  · subst hread
    cases hq
  refine .head (.call ⟨(), .send .readLedger, _, 1, _, rfl, .send _ _, rfl⟩) ?_
  refine .head (.serve _ (.snapshot (r := 1) rfl rfl)) ?_
  refine .head (.serve _ (.answer (k := 0) rfl rfl)) ?_
  refine .single (.call ⟨(), .receive 1, _, .ok (ledgerJson ledger), _, rfl, .done _ ?_, ?_⟩)
  · exact fun _ _ _ => ⟨0, ledger, rfl, rfl⟩
  · refine Prod.ext rfl (funext fun _ => ?_)
    rfl

end Sample

end EsigSuite.Provisioning.Bootstrapper
