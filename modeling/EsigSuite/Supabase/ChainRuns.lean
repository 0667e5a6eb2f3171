import EsigSuite.Supabase.EpochMicros

/-!
# The chains of the table

After the backfill, and whatever the transactions do, the rows of every tenant
are linked in the order of `seq`, and `verifyAuditChain` accepts what it fetches
exactly when it reads every `created_at` to the microsecond.
-/

namespace EsigSuite.AuditLog

open Lib

variable {Jsonb : Type} {d : Digests Jsonb}

-- ---------------------------------------------------------------------------
-- Chains
-- ---------------------------------------------------------------------------

def prevOf (row : AuditRow Jsonb) : Option Text := row.chain.bind (·.prevHash)

def ownOf (row : AuditRow Jsonb) : Option Text := row.chain.map (·.rowHash)

/-- The chain columns of a row are those computed for its place. -/
def Chained (d : Digests Jsonb) (i : Nat) (row : AuditRow Jsonb) : Prop :=
  ∃ c, row.chain = some c ∧ chainColumns d i c.prevHash row.toAuditColumns = some c

structure IsChain (d : Digests Jsonb) (rows : List (AuditRow Jsonb)) : Prop where
  chained : ∀ i row, rows[i]? = some row → Chained d i row
  linked : Linked prevOf ownOf none rows

def chainedRows (table : List (AuditRow Jsonb)) (tenantId : Uuid) : List (AuditRow Jsonb) :=
  table.filter fun row => row.tenantId = tenantId ∧ row.chain.isSome

/-- The chained rows of a tenant, in some order, are a chain. -/
def TenantChain (d : Digests Jsonb) (table : List (AuditRow Jsonb)) (tenantId : Uuid) : Prop :=
  ∃ rows, rows.Perm (chainedRows table tenantId) ∧ IsChain d rows

theorem chainColumns_fields {seq : Int} {prev : Option Text} {columns : AuditColumns Jsonb}
    {c : ChainColumns} (h : chainColumns d seq prev columns = some c) :
    c.seq = seq ∧ c.prevHash = prev := by
  simp only [chainColumns, Option.bind_eq_bind, Option.bind_eq_some_iff] at h
  obtain ⟨canonical, -, h⟩ := h
  cases h
  exact ⟨rfl, rfl⟩

theorem IsChain.nil : IsChain d [] := ⟨fun _ _ h => by simp at h, trivial⟩

theorem IsChain.snoc {rows : List (AuditRow Jsonb)} (h : IsChain d rows)
    {columns : AuditColumns Jsonb} {c : ChainColumns}
    (hc : chainColumns d rows.length (Linked.last ownOf none rows) columns = some c) :
    IsChain d (rows ++ [⟨columns, some c⟩]) := by
  obtain ⟨-, hprev⟩ := chainColumns_fields hc
  constructor
  · intro i row hi
    rw [List.getElem?_append] at hi
    split at hi
    · exact h.chained i row hi
    · obtain ⟨hlt, rfl⟩ := List.getElem?_eq_some_iff.mp hi
      have hi' : i = rows.length := by
        rw [List.length_singleton] at hlt
        omega
      subst hi'
      refine ⟨c, by simp, ?_⟩
      simpa [hprev] using hc
  · exact Linked.append.mpr ⟨h.linked, hprev, trivial⟩

theorem seq_of_mem {rows : List (AuditRow Jsonb)} (h : IsChain d rows) {c : ChainColumns}
    (hc : c ∈ rows.filterMap (·.chain)) :
    ∃ (i : Nat) (row : AuditRow Jsonb), rows[i]? = some row ∧ row.chain = some c ∧ c.seq = i := by
  obtain ⟨row, hrow, hchain⟩ := List.mem_filterMap.mp hc
  obtain ⟨i, hi⟩ := List.mem_iff_getElem?.mp hrow
  obtain ⟨c', hc', hcolumns⟩ := h.chained i row hi
  obtain rfl := Option.some.inj (hc'.symm.trans hchain)
  exact ⟨i, row, hi, hchain, (chainColumns_fields hcolumns).1⟩

theorem filterMap_chained (table : List (AuditRow Jsonb)) (tenantId : Uuid) :
    (table.filter (·.tenantId = tenantId)).filterMap (·.chain) =
      (chainedRows table tenantId).filterMap (·.chain) := by
  induction table with
  | nil => rfl
  | cons row rest ih =>
    rw [chainedRows] at ih ⊢
    by_cases htenant : row.tenantId = tenantId <;> cases hchain : row.chain <;>
      simp_all

/-- The lookup of the trigger finds the end of the chain. -/
theorem lastChained_eq {table rows : List (AuditRow Jsonb)} {tenantId : Uuid}
    (hperm : rows.Perm (chainedRows table tenantId)) (h : IsChain d rows) :
    nextSeq (lastChained table tenantId) = rows.length ∧
      (lastChained table tenantId).map (·.rowHash) = Linked.last ownOf none rows := by
  have hmem : ∀ c, c ∈ (table.filter (·.tenantId = tenantId)).filterMap (·.chain) ↔
      c ∈ rows.filterMap (·.chain) := by
    intro c
    rw [filterMap_chained]
    exact (hperm.filterMap _).symm.mem_iff
  rw [lastChained]
  cases hmax : ((table.filter (·.tenantId = tenantId)).filterMap (·.chain)).argmax (·.seq) with
  | none =>
    have hnil := List.argmax_eq_none.mp hmax
    rcases List.eq_nil_or_concat rows with rfl | ⟨front, x, rfl⟩
    · exact ⟨rfl, rfl⟩
    · obtain ⟨c, hc, -⟩ := h.chained front.length x (by simp)
      have := (hmem c).mpr (List.mem_filterMap.mpr ⟨x, by simp, hc⟩)
      simp [hnil] at this
  | some m =>
    obtain ⟨i, row, hi, hrow, hseq⟩ := seq_of_mem h ((hmem m).mp (List.argmax_mem hmax))
    rcases List.eq_nil_or_concat rows with rfl | ⟨front, x, rfl⟩
    · simp at hi
    · obtain ⟨c, hc, hcolumns⟩ := h.chained front.length x (by simp)
      have hle : c.seq ≤ m.seq :=
        List.le_of_mem_argmax ((hmem c).mpr (List.mem_filterMap.mpr ⟨x, by simp, hc⟩)) hmax
      have hlt : i < (front.concat x).length := (List.getElem?_eq_some_iff.mp hi).1
      rw [(chainColumns_fields hcolumns).1, hseq] at hle
      rw [List.concat_eq_append, List.length_append, List.length_singleton] at hlt
      obtain rfl : i = front.length := by omega
      have hx : x = row := by simpa using hi
      subst hx
      refine ⟨by simp [nextSeq, hseq], ?_⟩
      simp [ownOf, hrow]

theorem TenantChain.add {table table' : List (AuditRow Jsonb)} {columns : AuditColumns Jsonb}
    {c : ChainColumns} (h : TenantChain d table columns.tenantId)
    (hc : chainColumns d (nextSeq (lastChained table columns.tenantId))
      ((lastChained table columns.tenantId).map (·.rowHash)) columns = some c)
    (htable : (chainedRows table' columns.tenantId).Perm
      (chainedRows table columns.tenantId ++ [⟨columns, some c⟩])) :
    TenantChain d table' columns.tenantId ∧
      nextSeq (lastChained table' columns.tenantId) =
        nextSeq (lastChained table columns.tenantId) + 1 ∧
      (lastChained table' columns.tenantId).map (·.rowHash) = some c.rowHash := by
  obtain ⟨rows, hperm, hrows⟩ := h
  obtain ⟨hseq, hlast⟩ := lastChained_eq hperm hrows
  rw [hseq, hlast] at hc
  have hperm' : (rows ++ [(⟨columns, some c⟩ : AuditRow Jsonb)]).Perm
      (chainedRows table' columns.tenantId) := (hperm.append_right _).trans htable.symm
  have hrows' := hrows.snoc hc
  obtain ⟨hseq', hlast'⟩ := lastChained_eq hperm' hrows'
  refine ⟨⟨_, hperm', hrows'⟩, ?_, ?_⟩
  · rw [hseq', hseq]
    simp
  · rw [hlast']
    simp [ownOf]

theorem TenantChain.congr {table table' : List (AuditRow Jsonb)} {tenantId : Uuid}
    (h : TenantChain d table tenantId)
    (htable : (chainedRows table' tenantId).Perm (chainedRows table tenantId)) :
    TenantChain d table' tenantId := by
  obtain ⟨rows, hperm, hrows⟩ := h
  exact ⟨rows, hperm.trans htable.symm, hrows⟩

-- ---------------------------------------------------------------------------
-- The backfill
-- ---------------------------------------------------------------------------

theorem setChain_split {front rest : List (AuditRow Jsonb)} {r : AuditRow Jsonb} (c : ChainColumns)
    (hids : ((front ++ r :: rest).map (·.id)).Nodup) :
    setChain (front ++ r :: rest) r.id c = front ++ { r with chain := some c } :: rest := by
  rw [List.map_append, List.map_cons, List.nodup_append] at hids
  obtain ⟨-, hrest, hdisjoint⟩ := hids
  have hkeep : ∀ rows : List (AuditRow Jsonb), (∀ row ∈ rows, row.id ≠ r.id) →
      setChain rows r.id c = rows := by
    intro rows hrows
    rw [setChain, List.map_congr_left (g := id), List.map_id]
    intro row hrow
    simp [hrows row hrow]
  have hfront := hkeep front fun row hrow =>
    hdisjoint _ (List.mem_map_of_mem hrow) _ List.mem_cons_self
  have hafter := hkeep rest fun row hrow heq =>
    (List.nodup_cons.mp hrest).1 (heq ▸ List.mem_map_of_mem hrow)
  simp only [setChain] at hfront hafter ⊢
  rw [List.map_append, List.map_cons, hfront, hafter, if_pos rfl]

/-- What holds while the loop has the rows `rest` before it. -/
structure BackfillInv (d : Digests Jsonb) (s : Backfill Jsonb) (rest : List (AuditRow Jsonb)) :
    Prop where
  ids : (s.table.map (·.id)).Nodup
  chains : ∀ t, TenantChain d s.table t
  current : ∀ t, s.curTenant = some t → s.nextSeq = nextSeq (lastChained s.table t) ∧
    s.prev = (lastChained s.table t).map (·.rowHash)
  pending : (s.table.filter (·.chain.isNone)).Perm rest

theorem BackfillInv.row {s s' : Backfill Jsonb} {r : AuditRow Jsonb} {rest : List (AuditRow Jsonb)}
    (h : BackfillInv d s (r :: rest)) (hstep : backfillRow d s r = some s') :
    BackfillInv d s' rest := by
  obtain ⟨hr, hnone⟩ := List.mem_filter.mp (h.pending.mem_iff.mpr List.mem_cons_self)
  have hnone : r.chain = none := Option.isNone_iff_eq_none.mp hnone
  -- whether the tenant is the current one or not, the row goes to the end of its chain
  have hseq : (if s.curTenant = some r.tenantId then s.nextSeq
      else nextSeq (lastChained s.table r.tenantId)) = nextSeq (lastChained s.table r.tenantId) := by
    split_ifs with hcur
    · exact (h.current _ hcur).1
    · rfl
  have hprev : (if s.curTenant = some r.tenantId then s.prev
      else (lastChained s.table r.tenantId).map (·.rowHash)) =
        (lastChained s.table r.tenantId).map (·.rowHash) := by
    split_ifs with hcur
    · exact (h.current _ hcur).2
    · rfl
  simp only [backfillRow, hseq, hprev, Option.bind_eq_bind, Option.bind_eq_some_iff] at hstep
  obtain ⟨c, hc, hs'⟩ := hstep
  cases hs'
  obtain ⟨front, back, htable⟩ := List.append_of_mem hr
  have hset := setChain_split c (htable ▸ h.ids)
  have hchained : ∀ t, (chainedRows (setChain s.table r.id c) t).Perm
      (chainedRows s.table t ++ if r.tenantId = t then [{ r with chain := some c }] else []) := by
    intro t
    rw [htable, hset]
    simp only [chainedRows, List.filter_append, List.filter_cons, hnone]
    by_cases ht : r.tenantId = t
    · simp only [ht, Option.isSome_some, and_self, decide_true, if_true, Option.isSome_none,
        Bool.false_eq_true, and_false, decide_false, if_false]
      rw [List.append_assoc]
      exact (List.perm_append_singleton _ _).symm.append_left _
    · simp [ht]
  have hadd := (h.chains r.tenantId).add hc (by simpa using hchained r.tenantId)
  refine ⟨?_, ?_, ?_, ?_⟩
  · have hmap : (setChain s.table r.id c).map (·.id) = s.table.map (·.id) := by
      rw [htable, hset]
      simp
    rw [hmap]
    exact h.ids
  · intro t
    by_cases ht : r.tenantId = t
    · subst ht
      exact hadd.1
    · exact (h.chains t).congr (by simpa [ht] using hchained t)
  · rintro t ⟨⟩
    exact ⟨hadd.2.1.symm, hadd.2.2.symm⟩
  · have hpending := h.pending
    rw [htable] at hpending ⊢
    rw [hset]
    simp only [List.filter_append, List.filter_cons, hnone, Option.isNone_none, if_true,
      Option.isNone_some, Bool.false_eq_true, if_false] at hpending ⊢
    exact (List.perm_cons r).mp (List.perm_middle.symm.trans hpending)

theorem BackfillInv.run {s s' : Backfill Jsonb} {rest : List (AuditRow Jsonb)}
    (h : BackfillInv d s rest) (hrun : rest.foldlM (backfillRow d) s = some s') :
    BackfillInv d s' [] := by
  induction rest generalizing s with
  | nil =>
    cases hrun
    exact h
  | cons r rest ih =>
    simp only [List.foldlM_cons, Option.bind_eq_bind, Option.bind_eq_some_iff] at hrun
    obtain ⟨s₁, hstep, hrun⟩ := hrun
    exact ih (h.row hstep) hrun

/-- All rows are chained, those of each tenant in one chain. -/
structure Complete (d : Digests Jsonb) (table : List (AuditRow Jsonb)) : Prop where
  chained : ∀ row ∈ table, row.chain.isSome
  chains : ∀ t, TenantChain d table t

theorem backfill_complete {rows table : List (AuditRow Jsonb)} (hids : (rows.map (·.id)).Nodup)
    (hchains : ∀ t, TenantChain d rows t) (h : backfill d rows = some table) : Complete d table := by
  obtain ⟨s, hrun, rfl⟩ := Option.map_eq_some_iff.mp h
  have hstart : BackfillInv d ⟨rows, none, 0, none⟩
      ((rows.filter (·.chain.isNone)).mergeSort backfillOrder) :=
    { ids := hids
      chains := hchains
      current := fun t ht => by cases ht
      pending := (List.mergeSort_perm _ _).symm }
  have hend := hstart.run hrun
  refine ⟨fun row hrow => ?_, hend.chains⟩
  by_contra hnone
  have hmem : row ∈ s.table.filter (·.chain.isNone) :=
    List.mem_filter.mpr ⟨hrow, by simpa using hnone⟩
  rw [List.perm_nil.mp hend.pending] at hmem
  cases hmem

theorem backfill_again {table : List (AuditRow Jsonb)} (h : ∀ row ∈ table, row.chain.isSome) :
    backfill d table = some table := by
  have hnone : table.filter (·.chain.isNone) = [] := by
    rw [List.filter_eq_nil_iff]
    intro row hrow
    simp [Option.isSome_iff_ne_none.mp (h row hrow)]
  simp [backfill, hnone]

-- ---------------------------------------------------------------------------
-- The transactions
-- ---------------------------------------------------------------------------

theorem chainedRows_append (xs ys : List (AuditRow Jsonb)) (t : Uuid) :
    chainedRows (xs ++ ys) t = chainedRows xs t ++ chainedRows ys t :=
  List.filter_append ..

/-- Uncommitted rows are those of tenants whose lock the transaction holds. -/
structure DbInv (d : Digests Jsonb) (hashtext : Text → Int) (s : Db Jsonb) : Prop where
  complete : Complete d s.committed
  chained : ∀ tx, ∀ row ∈ s.pending tx, row.chain.isSome
  held : ∀ tx, ∀ row ∈ s.pending tx, s.holder (hashtext row.tenantId.text) = some tx
  chains : ∀ tx t, TenantChain d (s.committed ++ s.pending tx) t

theorem no_rows {hashtext : Text → Int} {s : Db Jsonb} (h : DbInv d hashtext s) (tx : Nat)
    {t : Uuid} (hfree : s.holder (hashtext t.text) ≠ some tx) : chainedRows (s.pending tx) t = [] := by
  rw [chainedRows, List.filter_eq_nil_iff]
  intro row hrow hboth
  simp only [Bool.decide_and, decide_eq_true_eq, Bool.and_eq_true] at hboth
  exact hfree (hboth.1 ▸ h.held tx row hrow)

theorem esigAuditLogChain_row {table : List (AuditRow Jsonb)} {now : Timestamptz}
    {new : NewRow Jsonb} {row : AuditRow Jsonb} (h : esigAuditLogChain d table now new = some row) :
    ∃ c, row.chain = some c ∧ chainColumns d (nextSeq (lastChained table row.tenantId))
      ((lastChained table row.tenantId).map (·.rowHash)) row.toAuditColumns = some c := by
  simp only [esigAuditLogChain, Option.bind_eq_bind, Option.bind_eq_some_iff] at h
  obtain ⟨id, -, tenantId, -, action, -, metadata, -, c, hc, h⟩ := h
  split at h
  · cases h
    exact ⟨c, rfl, hc⟩
  · cases h

section
variable {hashtext : Text → Int} {s s' : Db Jsonb}

theorem DbInv.lock (h : DbInv d hashtext s) (tx : Nat) {key : Int} (hfree : s.holder key = none) :
    DbInv d hashtext { s with holder := Function.update s.holder key (some tx) } := by
  refine ⟨h.complete, h.chained, fun tx' row hrow => ?_, h.chains⟩
  have hheld := h.held tx' row hrow
  have hkey : hashtext row.tenantId.text ≠ key := by
    rintro rfl
    rw [hfree] at hheld
    cases hheld
  rw [← hheld]
  exact Function.update_of_ne hkey _ _

theorem DbInv.insert (h : DbInv d hashtext s) {tx : Nat} {now : Timestamptz} {new : NewRow Jsonb}
    {row : AuditRow Jsonb} (hrow : esigAuditLogChain d (s.committed ++ s.pending tx) now new = some row)
    (hlock : s.holder (hashtext row.tenantId.text) = some tx) :
    DbInv d hashtext { s with pending := Function.update s.pending tx (s.pending tx ++ [row]) } := by
  obtain ⟨c, hchain, hc⟩ := esigAuditLogChain_row hrow
  have heta : (⟨row.toAuditColumns, some c⟩ : AuditRow Jsonb) = row := by
    rw [← hchain]
  have hpending : ∀ tx' row', row' ∈ Function.update s.pending tx (s.pending tx ++ [row]) tx' →
      row' ∈ s.pending tx' ∨ (tx' = tx ∧ row' = row) := by
    intro tx' row' hrow'
    by_cases htx : tx' = tx
    · subst htx
      rw [Function.update_self] at hrow'
      simpa using hrow'
    · rw [Function.update_of_ne htx] at hrow'
      exact .inl hrow'
  refine ⟨h.complete, ?_, ?_, ?_⟩
  · intro tx' row' hrow'
    rcases hpending tx' row' hrow' with hold | ⟨-, rfl⟩
    · exact h.chained _ _ hold
    · rw [hchain]
      rfl
  · intro tx' row' hrow'
    rcases hpending tx' row' hrow' with hold | ⟨rfl, rfl⟩
    · exact h.held _ _ hold
    · exact hlock
  · intro tx' t
    change TenantChain d (s.committed ++ Function.update s.pending tx (s.pending tx ++ [row]) tx') t
    by_cases htx : tx' = tx
    · subst htx
      rw [Function.update_self, ← List.append_assoc]
      by_cases ht : row.tenantId = t
      · subst ht
        refine ((h.chains tx' row.tenantId).add hc ?_).1
        rw [chainedRows_append, heta]
        simp [chainedRows, hchain]
      · refine (h.chains tx' t).congr ?_
        rw [chainedRows_append]
        simp [chainedRows, ht]
    · rw [Function.update_of_ne htx]
      exact h.chains tx' t

theorem DbInv.release (h : DbInv d hashtext s) (tx : Nat) (committed : List (AuditRow Jsonb))
    (hcomplete : Complete d committed)
    (hchains : ∀ tx', tx' ≠ tx → ∀ t, TenantChain d (committed ++ s.pending tx') t) :
    DbInv d hashtext
      { committed
        pending := Function.update s.pending tx []
        holder := fun key => if s.holder key = some tx then none else s.holder key } := by
  have hpending : ∀ tx' row, row ∈ Function.update s.pending tx [] tx' →
      tx' ≠ tx ∧ row ∈ s.pending tx' := by
    intro tx' row hrow
    by_cases htx : tx' = tx
    · subst htx
      simp at hrow
    · rw [Function.update_of_ne htx] at hrow
      exact ⟨htx, hrow⟩
  refine ⟨hcomplete, fun tx' row hrow => h.chained tx' row (hpending tx' row hrow).2, ?_, ?_⟩
  · intro tx' row hrow
    obtain ⟨htx, hrow⟩ := hpending tx' row hrow
    have hheld := h.held tx' row hrow
    have hne : s.holder (hashtext row.tenantId.text) ≠ some tx := by
      rw [hheld]
      exact fun heq => htx (Option.some.inj heq)
    change (if s.holder (hashtext row.tenantId.text) = some tx then none
      else s.holder (hashtext row.tenantId.text)) = some tx'
    rw [if_neg hne, hheld]
  · intro tx' t
    by_cases htx : tx' = tx
    · subst htx
      simpa using hcomplete.chains t
    · simpa [Function.update_of_ne htx] using hchains tx' htx t

theorem DbInv.step (h : DbInv d hashtext s) (hstep : Step d hashtext s s') :
    DbInv d hashtext s' := by
  cases hstep with
  | lock tx key hfree => exact h.lock tx hfree
  | insert tx now new hrow hlock => exact h.insert hrow hlock
  | commit tx =>
    refine h.release tx (s.committed ++ s.pending tx) ⟨?_, h.chains tx⟩ fun tx' htx t => ?_
    · intro row hrow
      rcases List.mem_append.mp hrow with hrow | hrow
      · exact h.complete.chained row hrow
      · exact h.chained tx row hrow
    · -- of the two transactions at most one has rows of the tenant
      by_cases hheld : s.holder (hashtext t.text) = some tx
      · have hnone := no_rows h tx' (t := t) (by rw [hheld]; simpa using htx.symm)
        refine (h.chains tx t).congr ?_
        rw [chainedRows_append _ (s.pending tx'), hnone, List.append_nil]
      · have hnone := no_rows h tx hheld
        refine (h.chains tx' t).congr ?_
        rw [chainedRows_append _ (s.pending tx'), chainedRows_append, hnone, List.append_nil,
          ← chainedRows_append]
  | rollback tx => exact h.release tx s.committed h.complete fun tx' _ t => h.chains tx' t
  | migrate hidle htable =>
    rw [backfill_again h.complete.chained] at htable
    cases htable
    exact h

theorem reachable_inv (h : Reachable d hashtext s) : DbInv d hashtext s := by
  induction h with
  | @start rows table hchain hids htable =>
    have hempty : ∀ t, TenantChain d rows t := by
      intro t
      have hnil : chainedRows rows t = [] := by
        rw [chainedRows, List.filter_eq_nil_iff]
        intro row hrow
        simp [hchain row hrow]
      exact ⟨[], by rw [hnil], .nil⟩
    have hcomplete := backfill_complete hids hempty htable
    exact ⟨hcomplete, by simp, by simp, fun _ t => by simpa using hcomplete.chains t⟩
  | step _ hstep ih => exact ih.step hstep

end

-- ---------------------------------------------------------------------------
-- The rows in the order of seq
-- ---------------------------------------------------------------------------

theorem seqOrder_trans (a b c : AuditRow Jsonb) (hab : seqOrder a b = true)
    (hbc : seqOrder b c = true) : seqOrder a c = true := by
  unfold seqOrder at *
  cases ha : a.chain <;> cases hb : b.chain <;> cases hc : c.chain <;> simp_all
  omega

theorem seqOrder_total (a b : AuditRow Jsonb) : (seqOrder a b || seqOrder b a) = true := by
  unfold seqOrder
  cases ha : a.chain <;> cases hb : b.chain <;> simp
  omega

theorem seqOrder_chain {rows : List (AuditRow Jsonb)} (h : IsChain d rows) {i j : Nat}
    {a b : AuditRow Jsonb} (ha : rows[i]? = some a) (hb : rows[j]? = some b) :
    seqOrder a b = true ↔ i ≤ j := by
  obtain ⟨c, hc, hcolumns⟩ := h.chained i a ha
  obtain ⟨c', hc', hcolumns'⟩ := h.chained j b hb
  simp [seqOrder, hc, hc', (chainColumns_fields hcolumns).1, (chainColumns_fields hcolumns').1]

theorem IsChain.sorted {rows : List (AuditRow Jsonb)} (h : IsChain d rows) :
    rows.Pairwise fun a b => seqOrder a b = true := by
  rw [List.pairwise_iff_getElem]
  intro i j hi hj hlt
  exact (seqOrder_chain h (List.getElem?_eq_getElem hi) (List.getElem?_eq_getElem hj)).mpr hlt.le

/-- What a tenant's query returns is the chain of the tenant. -/
theorem tenantRows_chain {table : List (AuditRow Jsonb)} (h : Complete d table) (t : Uuid) :
    IsChain d (tenantRows table t) := by
  obtain ⟨rows, hperm, hrows⟩ := h.chains t
  have hall : chainedRows table t = table.filter (·.tenantId = t) := by
    rw [chainedRows]
    refine List.filter_congr fun row hrow => ?_
    simp [h.chained row hrow]
  have hsorted : (tenantRows table t).Pairwise fun a b => seqOrder a b = true :=
    List.pairwise_mergeSort seqOrder_trans seqOrder_total _
  have hperm' : (tenantRows table t).Perm rows :=
    (List.mergeSort_perm _ _).trans (hall ▸ hperm.symm)
  have heq : tenantRows table t = rows := by
    refine hperm'.eq_of_pairwise ?_ hsorted hrows.sorted
    intro a b ha hb hab hba
    obtain ⟨i, hi⟩ := List.mem_iff_getElem?.mp (hperm'.mem_iff.mp ha)
    obtain ⟨j, hj⟩ := List.mem_iff_getElem?.mp hb
    have hle := (seqOrder_chain hrows hi hj).mp hab
    have hge := (seqOrder_chain hrows hj hi).mp hba
    obtain rfl : i = j := by omega
    exact Option.some.inj (hi.symm.trans hj)
  rw [heq]
  exact hrows

theorem mem_tenantRows {table : List (AuditRow Jsonb)} {t : Uuid} {row : AuditRow Jsonb} :
    row ∈ tenantRows table t ↔ row ∈ table ∧ row.tenantId = t := by
  simp [tenantRows]

-- ---------------------------------------------------------------------------
-- The verifier on a chain
-- ---------------------------------------------------------------------------

theorem md5Part_eq {front md5 : Text} (h : '|' ∉ md5) : md5Part (front ++ '|' :: md5) = md5 := by
  have hmd5 : ∀ c ∈ md5.reverse, (c != '|') = true := by
    intro c hc
    rw [bne_iff_ne]
    rintro rfl
    exact h (List.mem_reverse.mp hc)
  rw [md5Part, if_pos (by simp), List.rtakeWhile, List.reverse_append, List.reverse_cons,
    List.append_assoc, List.takeWhile_append_of_pos hmd5]
  simp

theorem md5Hex_spec (d : Digests Jsonb) (text : Text) : isMd5Hex (d.md5Hex text) = true ∧
    '|' ∉ d.md5Hex text := by
  refine ⟨?_, fun h => ?_⟩
  · simp only [isMd5Hex, Digests.md5Hex, length_hexDigits, beq_self_eq_true, Bool.true_and,
      List.all_eq_true]
    exact fun c hc => hexDigits_hex hc
  · have := hexDigits_hex h
    revert this
    decide

/-- The rebuilt payload up to the time. -/
def scalarFields (row : RawChainRow) : Text :=
  join ["v1".toList, row.tenant.getD [], row.action, row.actorUserId.getD [],
    row.targetTable.getD [], row.targetId.getD [], []]

theorem expectedCanonical_eq (row : RawChainRow) (epochField md5 : Text) :
    expectedCanonical row epochField md5 = scalarFields row ++ epochField ++ '|' :: md5 := by
  simp [expectedCanonical, scalarFields, join]

/-- The payload of SQL is the one the verifier rebuilds, with the exact time. -/
theorem chainColumns_payload {seq : Int} {prev : Option Text} {row : AuditRow Jsonb}
    {c : ChainColumns} (h : chainColumns d seq prev row.toAuditColumns = some c) (zone : TimeZone) :
    ∃ micros, row.createdAt = .finite micros ∧
      c.payloadCanonical = expectedCanonical (served zone row) (intText micros)
        (d.md5Hex (d.jsonText row.metadata)) ∧
      c.rowHash = d.sha256Hex (c.prevHash.getD [] ++ '|' :: c.payloadCanonical) := by
  simp only [chainColumns, esigAuditCanonical, Option.bind_eq_bind, Option.bind_eq_some_iff] at h
  obtain ⟨canonical, ⟨micros, hmicros, hcanonical⟩, hc⟩ := h
  cases hc
  cases hcanonical
  cases hcreated : row.createdAt with
  | finite t =>
    have ht : t = micros := by
      rw [hcreated] at hmicros
      simp only [Timestamptz.epochMicros, bigint] at hmicros
      split at hmicros
      · exact Option.some.inj hmicros
      · cases hmicros
    exact ⟨t, rfl, ht ▸ rfl, rfl⟩
  | infinity => simp [hcreated, Timestamptz.epochMicros] at hmicros
  | minusInfinity => simp [hcreated, Timestamptz.epochMicros] at hmicros

theorem crossCheck_served {seq : Int} {prev : Option Text} {row : AuditRow Jsonb}
    {c : ChainColumns} (h : chainColumns d seq prev row.toAuditColumns = some c) (zone : TimeZone) :
    crossCheck (served zone row) c.payloadCanonical = [] ↔ ReadsExactly zone row.createdAt := by
  obtain ⟨micros, hcreated, hpayload, -⟩ := chainColumns_payload h zone
  obtain ⟨hmd5, hbar⟩ := md5Hex_spec d (d.jsonText row.metadata)
  have hpart : md5Part c.payloadCanonical = d.md5Hex (d.jsonText row.metadata) := by
    rw [hpayload, expectedCanonical_eq]
    exact md5Part_eq hbar
  rw [crossCheck_eq_nil, hpart, and_iff_right hmd5, hpayload]
  have hcreatedAt : (served zone row).createdAt = timestamptzText zone row.createdAt := rfl
  simp only [expectedCanonical_eq, List.append_left_inj, List.append_right_inj, hcreatedAt,
    ReadsExactly, hcreated, Timestamptz.finite.injEq, exists_eq_left']

theorem sound_served {i : Nat} {row : AuditRow Jsonb} (h : Chained d i row) (zone : TimeZone) :
    Sound d.sha256Hex i (served zone row) ↔ ReadsExactly zone row.createdAt := by
  obtain ⟨c, hc, hcolumns⟩ := h
  obtain ⟨hseq, -⟩ := chainColumns_fields hcolumns
  obtain ⟨-, -, -, hhash⟩ := chainColumns_payload hcolumns zone
  rw [← crossCheck_served hcolumns zone]
  constructor
  · rintro ⟨-, payload, hpayload, -, hcross⟩
    obtain rfl : c.payloadCanonical = payload := by simpa [served, hc] using hpayload
    exact hcross
  · exact fun hcross => ⟨by simp [served, hc, hseq], c.payloadCanonical, by simp [served, hc],
      by simp [served, hc, ← hhash], hcross⟩

theorem verifyRows_chain {rows : List (AuditRow Jsonb)} (h : IsChain d rows) (zone : TimeZone) :
    (verifyRows d.sha256Hex (rows.map (served zone))).ok = true ↔
      ∀ row ∈ rows, ReadsExactly zone row.createdAt := by
  rw [verifyRows_ok]
  constructor
  · rintro ⟨-, hsound⟩ row hrow
    obtain ⟨i, hi⟩ := List.mem_iff_getElem?.mp hrow
    exact (sound_served (h.chained i row hi) zone).mp (hsound i _ (by simp [hi]))
  · intro hreads
    refine ⟨Linked.map.mpr h.linked, fun i raw hi => ?_⟩
    rw [List.getElem?_map, Option.map_eq_some_iff] at hi
    obtain ⟨row, hi, rfl⟩ := hi
    exact (sound_served (h.chained i row hi) zone).mpr (hreads row (List.mem_of_getElem? hi))

/-- Whatever was inserted, the rows of a tenant are accepted unless the server cuts
the pages or a `created_at` is not read to the microsecond; those within some
285 years of 1970 are. -/
theorem inserted_rows_verify {hashtext : Text → Int} {s : Db Jsonb} (h : Reachable d hashtext s)
    (zone : TimeZone) (maxRows : Option Nat) (tenantId : Uuid) {pageSize fuel : Nat}
    (hsize : 0 < pageSize) (hfuel : (tenantRows s.committed tenantId).length < fuel) :
    (∃ result, verifyAuditChain d.sha256Hex fuel
        (postgrest zone maxRows (tenantRows s.committed tenantId)) pageSize = some (.ok result) ∧
      (result.ok = true ↔ Fits maxRows pageSize (tenantRows s.committed tenantId).length ∧
        ∀ row ∈ s.committed, row.tenantId = tenantId → ReadsExactly zone row.createdAt)) ∧
    ∀ t, Legible zone t → ReadsExactly zone (.finite t) := by
  have hchain := tenantRows_chain (reachable_inv h).complete tenantId
  obtain ⟨result, hresult, hok⟩ := verify_pages maxRows
    ((tenantRows s.committed tenantId).map (served zone)) d.sha256Hex hsize (by simpa using hfuel)
  refine ⟨⟨result, hresult, ?_⟩, fun t => legible_reads⟩
  rw [hok, verifyRows_chain hchain zone, List.length_map]
  simp only [mem_tenantRows, and_imp]

-- ---------------------------------------------------------------------------
-- A table with one row
-- ---------------------------------------------------------------------------

/-- SHA-256 of the texts of the rows below, which differ in their length. -/
def sampleHashes : List (Nat × BitVec 256) :=
  [
   -- |v1|6b1e2f3a-4c5d-4e6f-8a9b-0c1d2e3f4a5b|consent.recorded||||1783082096789012|99914b93…
   (110, 0x3ef3f2c7cf167f9fa2ab5821bab23df97879bb79500c11cd48db1b510177b088),
   -- 3ef3f2c7…|v1|6b1e2f3a-4c5d-4e6f-8a9b-0c1d2e3f4a5b|pdf.signed||||1783082096789013|99914b93…
   (168, 0x7314860106539aa8c32aad4deb0a3c486bccd11bcd7c41fe9b491347efc0c770),
   -- |v1|6b1e2f3a-…|envelope.a||aaaaaaaa-bbbb-4ccc-8ddd-eeeeeeeeeeee|x||1783082096789012|99914b93…
   (142, 0xe1f9a2323b4a708cf508ef8982dfa39739cccb7de2350243e6509242c6e5b624),
   -- |v1|6b1e2f3a-4c5d-4e6f-8a9b-0c1d2e3f4a5b|consent.recorded||||253402300800000000|99914b93…
   (112, 0x3fb05010cddb3f97f0c804abb2b69903b5a13557b27ba1a1459b0ee8b2b341ce)]

/-- The metadata of all rows is the empty object. -/
def sampleDigests : Digests Unit where
  jsonText _ := "{}".toList
  emptyObject := ()
  md5 _ := 0x99914b932bd37a50b983c5e7c90ae93b
  sha256 text := ((sampleHashes.find? fun entry => entry.1 == text.length).map (·.2)).getD 0

def sampleTenant : Uuid := ⟨0x6b1e2f3a4c5d4e6f8a9b0c1d2e3f4a5b⟩

def sampleNew (micros : Int) : NewRow Unit where
  id := some ⟨1⟩
  tenantId := some sampleTenant
  actorUserId := none
  action := some "consent.recorded".toList
  targetTable := none
  targetId := none
  metadata := some ()
  createdAt := some (.finite micros)

def sampleZone : TimeZone := ⟨fun _ => 0, by simp⟩

/-- An insert into the empty table, and the commit. -/
theorem reachable_insert (hashtext : Text → Int) {now : Timestamptz} {new : NewRow Jsonb}
    {row : AuditRow Jsonb} (h : esigAuditLogChain d [] now new = some row) :
    ∃ s, Reachable d hashtext s ∧ s.committed = [row] := by
  have hempty : backfill d ([] : List (AuditRow Jsonb)) = some [] := by simp [backfill]
  have hstart : Reachable d hashtext ⟨[], fun _ => [], fun _ => none⟩ :=
    .start (by simp) (by simp) hempty
  have hlocked := hstart.step (.lock 0 (hashtext row.tenantId.text) rfl)
  have hinserted := hlocked.step (.insert 0 now new h (Function.update_self ..))
  exact ⟨_, hinserted.step (.commit 0), by simp⟩

theorem sample_reachable (micros : Int)
    (h : (esigAuditLogChain sampleDigests [] .infinity (sampleNew micros)).map
      (fun row => (row.tenantId, row.createdAt)) = some (sampleTenant, .finite micros)) :
    ∃ s row, Reachable sampleDigests (fun _ => 0) s ∧ s.committed = [row] ∧
      tenantRows s.committed sampleTenant = [row] ∧ row.createdAt = .finite micros := by
  obtain ⟨row, hrow, hfields⟩ := Option.map_eq_some_iff.mp h
  obtain ⟨htenant, hcreated⟩ := Prod.mk.inj hfields
  obtain ⟨s, hs, hcommitted⟩ := reachable_insert (fun _ => 0) hrow
  exact ⟨s, row, hs, hcommitted, by simp [hcommitted, tenantRows, htenant], hcreated⟩

theorem inserted_rows_verify_sample : ∃ s, Reachable sampleDigests (fun _ => 0) s ∧
    s.committed ≠ [] ∧ ∃ result, verifyAuditChain sampleDigests.sha256Hex 2
      (postgrest sampleZone (some 1000) (tenantRows s.committed sampleTenant)) 1000 =
        some (.ok result) ∧ result.ok = true := by
  obtain ⟨s, row, hs, hcommitted, hrows, hcreated⟩ :=
    sample_reachable 1783082096789012 (by decide +kernel)
  obtain ⟨⟨result, hresult, hok⟩, hlegible⟩ := inserted_rows_verify hs sampleZone (some 1000)
    sampleTenant (show 0 < 1000 by decide) (show (tenantRows s.committed sampleTenant).length < 2 by
      simp [hrows])
  refine ⟨s, hs, by simp [hcommitted], result, hresult, hok.mpr ⟨?_, ?_⟩⟩
  · exact fun limit hlimit => .inl (Option.mem_some_iff.mp hlimit).le
  · intro row' hrow' _
    rw [hcommitted, List.mem_singleton] at hrow'
    rw [hrow', hcreated]
    exact hlegible _ ⟨by decide +kernel, rfl, by decide⟩

/-- The verifier has no pattern for the year 10000. -/
theorem year_10000_refused : ∃ s, Reachable sampleDigests (fun _ => 0) s ∧ ∃ result,
    verifyAuditChain sampleDigests.sha256Hex 2
      (postgrest sampleZone none (tenantRows s.committed sampleTenant)) 1000 =
        some (.ok result) ∧ result.ok = false := by
  obtain ⟨s, row, hs, hcommitted, hrows, hcreated⟩ :=
    sample_reachable 253402300800000000 (by decide +kernel)
  have hchain := tenantRows_chain (reachable_inv hs).complete sampleTenant
  obtain ⟨result, hresult, hok⟩ := verify_pages none
    ((tenantRows s.committed sampleTenant).map (served sampleZone)) sampleDigests.sha256Hex
    (show 0 < 1000 by decide)
    (show ((tenantRows s.committed sampleTenant).map (served sampleZone)).length < 2 by simp [hrows])
  refine ⟨s, hs, result, hresult, Bool.eq_false_iff.mpr fun htrue => ?_⟩
  have hreads := (verifyRows_chain hchain sampleZone).mp (hok.mp htrue).2 row (by simp [hrows])
  obtain ⟨-, -, x, hx, -⟩ := hcreated ▸ hreads
  have hnone : timestamptzToEpochMicros (timestamptzText sampleZone
      (.finite 253402300800000000)) = none := by decide +kernel
  rw [hnone] at hx
  cases hx

end EsigSuite.AuditLog
