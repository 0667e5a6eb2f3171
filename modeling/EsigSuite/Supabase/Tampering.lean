import EsigSuite.Lib.Table
import EsigSuite.Supabase.ChainRuns

/-!
# Deleted, reordered and edited rows

What `verifyAuditChain` still accepts of a chain it accepted before: a front
part of it when rows are gone or moved, and rows whose joined columns read the
same when columns are edited.
-/

namespace EsigSuite.AuditLog

open Lib

variable {Jsonb : Type} {d : Digests Jsonb}

-- ---------------------------------------------------------------------------
-- Texts with a bar
-- ---------------------------------------------------------------------------

theorem split_first {xs ys : Text} {a b : Text} (hxs : '|' ∉ xs) (hys : '|' ∉ ys)
    (h : xs ++ '|' :: a = ys ++ '|' :: b) : xs = ys ∧ a = b := by
  induction xs generalizing ys with
  | nil =>
    cases ys with
    | nil => exact ⟨rfl, (List.cons.inj h).2⟩
    | cons y ys => exact absurd ((List.cons.inj h).1 ▸ List.mem_cons_self) hys
  | cons x xs ih =>
    cases ys with
    | nil => exact absurd ((List.cons.inj h).1 ▸ List.mem_cons_self) hxs
    | cons y ys =>
      obtain ⟨rfl, hrest⟩ := List.cons.inj h
      obtain ⟨rfl, hab⟩ := ih (fun hmem => hxs (List.mem_cons_of_mem _ hmem))
        (fun hmem => hys (List.mem_cons_of_mem _ hmem)) hrest
      exact ⟨rfl, hab⟩

theorem split_last {xs ys : Text} {a b : Text} (ha : '|' ∉ a) (hb : '|' ∉ b)
    (h : xs ++ '|' :: a = ys ++ '|' :: b) : xs = ys ∧ a = b := by
  have hreverse := congrArg List.reverse h
  simp only [List.reverse_append, List.reverse_cons, List.append_assoc, List.singleton_append]
    at hreverse
  obtain ⟨hab, hxy⟩ := split_first (by simpa using ha) (by simpa using hb) hreverse
  exact ⟨List.reverse_injective hxy, List.reverse_injective hab⟩

theorem hexDigits_bar (width n : Nat) : '|' ∉ Lib.hexDigits width n := by
  intro h
  have := hexDigits_hex h
  revert this
  decide

-- ---------------------------------------------------------------------------
-- Deleting and reordering
-- ---------------------------------------------------------------------------

/-- What is hashed for a row. -/
def hashedText (row : RawChainRow) : Text :=
  row.prevHash.getD [] ++ '|' :: row.payloadCanonical.getD []

/-- No two texts hashed in the rows collide. -/
def CollisionFree (sha256 : Text → BitVec 256) (rows : List RawChainRow) : Prop :=
  ∀ a ∈ rows, ∀ b ∈ rows, sha256 (hashedText a) = sha256 (hashedText b) →
    hashedText a = hashedText b

/-- The rows differ in `seq` at most. -/
def SameButSeq (a b : RawChainRow) : Prop := { a with seq := b.seq } = b

theorem sha256Hex_inj {a b : Text} (h : d.sha256Hex a = d.sha256Hex b) : d.sha256 a = d.sha256 b := by
  have hmod := hexDigits_inj h
  have ha := (d.sha256 a).isLt
  have hb := (d.sha256 b).isLt
  rw [show (16 : Nat) ^ 64 = 2 ^ 256 by norm_num, Nat.mod_eq_of_lt ha, Nat.mod_eq_of_lt hb] at hmod
  exact BitVec.eq_of_toNat_eq hmod

theorem Sound.rowHash {i : Nat} {row : RawChainRow} (h : Sound d.sha256Hex i row) :
    row.rowHash = some (d.sha256Hex (hashedText row)) := by
  obtain ⟨payload, hpayload, hhash, -⟩ := h.hashed
  rw [hhash, hashedText, hpayload]
  rfl

/-- In accepted rows a `prev_hash` is a digest or missing. -/
theorem prevHash_hex {rows : List RawChainRow}
    (hlinked : Linked (·.prevHash) (·.rowHash) none rows)
    (hsound : ∀ i row, rows[i]? = some row → Sound d.sha256Hex i row) {row : RawChainRow}
    (hrow : row ∈ rows) : row.prevHash = none ∨ ∃ text, row.prevHash = some (d.sha256Hex text) := by
  obtain ⟨i, hi⟩ := List.mem_iff_getElem?.mp hrow
  rcases hlinked.named_at hi with ⟨-, hnone⟩ | ⟨l, before, -, hl, hown⟩
  · exact .inl hnone
  · exact .inr ⟨_, hown.trans (hsound l before hl).rowHash⟩

theorem settled {rows : List RawChainRow} (hlinked : Linked (·.prevHash) (·.rowHash) none rows)
    (hsound : ∀ i row, rows[i]? = some row → Sound d.sha256Hex i row)
    (hsha : CollisionFree d.sha256 rows) : Linked.Settled (·.prevHash) (·.rowHash) none rows := by
  have hrowHash : ∀ row ∈ rows, row.rowHash = some (d.sha256Hex (hashedText row)) := by
    intro row hrow
    obtain ⟨i, hi⟩ := List.mem_iff_getElem?.mp hrow
    exact (hsound i row hi).rowHash
  refine ⟨fun row hrow => ?_, fun a ha b hb hab => ?_⟩
  · rw [hrowHash row hrow]
    exact Option.some_ne_none _
  · rw [hrowHash a ha, hrowHash b hb] at hab
    have htext := hsha a ha b hb (sha256Hex_inj (Option.some.inj hab))
    have hbar : ∀ row ∈ rows, '|' ∉ row.prevHash.getD [] := by
      intro row hrow
      rcases prevHash_hex hlinked hsound hrow with hnone | ⟨text, hsome⟩
      · simp [hnone]
      · rw [hsome]
        exact hexDigits_bar _ _
    have hprev := (split_first (hbar a ha) (hbar b hb) htext).1
    -- a digest has 64 digits, the missing one none
    rcases prevHash_hex hlinked hsound ha with hnone | ⟨text, hsome⟩ <;>
      rcases prevHash_hex hlinked hsound hb with hnone' | ⟨text', hsome'⟩
    · rw [hnone, hnone']
    · rw [hnone, hsome'] at hprev
      simpa [Digests.sha256Hex] using congrArg List.length hprev
    · rw [hsome, hnone'] at hprev
      simpa [Digests.sha256Hex] using congrArg List.length hprev
    · rw [hsome, hsome'] at hprev ⊢
      exact congrArg some hprev

theorem verifyRows_front {sha256Hex : Text → Text} {rows rows' : List RawChainRow}
    (hok : (verifyRows sha256Hex rows).ok = true) (h : rows' <+: rows) :
    (verifyRows sha256Hex rows').ok = true := by
  rw [verifyRows_ok] at hok ⊢
  obtain ⟨rest, rfl⟩ := h
  refine ⟨(Linked.append.mp hok.1).1, fun i row hi => hok.2 i row ?_⟩
  rw [List.getElem?_append_left (List.getElem?_eq_some_iff.mp hi).1]
  exact hi

theorem verifyRows_remaining {rows rows' : List RawChainRow}
    (hok : (verifyRows d.sha256Hex rows).ok = true) (hsha : CollisionFree d.sha256 rows)
    (hrows : ∀ row' ∈ rows', ∃ row ∈ rows, SameButSeq row' row)
    (hok' : (verifyRows d.sha256Hex rows').ok = true) : rows' <+: rows := by
  obtain ⟨hlinked, hsound⟩ := verifyRows_ok.mp hok
  obtain ⟨hlinked', hsound'⟩ := verifyRows_ok.mp hok'
  have hsame : ∀ a b : RawChainRow, SameButSeq a b → a.prevHash = b.prevHash ∧ a.rowHash = b.rowHash := by
    intro a b h
    exact ⟨congrArg (·.prevHash) h, congrArg (·.rowHash) h⟩
  have hplaced : ∀ (i : Nat) (row' : RawChainRow), rows'[i]? = some row' → rows[i]? = some row' := by
    intro i row' hi
    obtain ⟨row, hrow, heq⟩ := hlinked.placed (settled hlinked hsound hsha) hlinked' hsame hrows hi
    have hseq : row'.seq = row.seq := (hsound' i row' hi).seq.trans (hsound i row hrow).seq.symm
    have hrow' : row' = row := by
      rw [SameButSeq, ← hseq] at heq
      exact heq
    exact hrow' ▸ hrow
  rw [List.prefix_iff_getElem?]
  exact fun i hi => hplaced i _ (List.getElem?_eq_getElem hi)

/-- Of an accepted chain, what remains after rows are deleted, reordered and
renumbered is accepted only as a front part of it. -/
theorem remaining_accepted_iff {rows rows' kept : List RawChainRow} {maxRows : Option Nat}
    {pageSize fuel : Nat} {result : VerifyAuditChainResult} (hsize : 0 < pageSize)
    (hfuel : rows.length < fuel)
    (hresult : verifyAuditChain d.sha256Hex fuel (pages maxRows rows) pageSize = some (.ok result))
    (hok : result.ok = true) (hsha : CollisionFree d.sha256 rows) (hkept : kept.Subperm rows)
    (hrows : List.Forall₂ SameButSeq rows' kept) :
    ∃ result', verifyAuditChain d.sha256Hex fuel (pages maxRows rows') pageSize =
        some (.ok result') ∧ (result'.ok = true ↔ rows' <+: rows) := by
  have hlength : rows'.length ≤ rows.length := hrows.length_eq.trans_le hkept.length_le
  obtain ⟨result₀, hresult₀, hok₀⟩ := verify_pages maxRows rows d.sha256Hex hsize hfuel
  obtain rfl : result₀ = result := by simpa [hresult₀] using hresult
  obtain ⟨hfits, haccepted⟩ := hok₀.mp hok
  obtain ⟨result', hresult', hok'⟩ := verify_pages maxRows rows' d.sha256Hex hsize
    (hlength.trans_lt hfuel)
  refine ⟨result', hresult', ?_⟩
  rw [hok']
  constructor
  · rintro ⟨-, haccepted'⟩
    refine verifyRows_remaining haccepted hsha (fun row' hrow' => ?_) haccepted'
    obtain ⟨row, hrow, hsame⟩ := exists_of_mem_forall₂ hrows.flip hrow'
    exact ⟨row, hkept.subset hrow, hsame⟩
  · refine fun hfront => ⟨fun limit hlimit => ?_, verifyRows_front haccepted hfront⟩
    exact (hfits limit hlimit).imp_right hlength.trans

/-- A row of the sample tenant, chained at its place. -/
def sampleRow (id : BitVec 128) (action : String) (table : Option String) (micros seq : Int)
    (prev : Option String) : AuditRow Unit :=
  let row : AuditColumns Unit :=
    { id := ⟨id⟩, tenantId := sampleTenant, actorUserId := none, action := action.toList,
      targetTable := table.map String.toList, targetId := none, metadata := (),
      createdAt := .finite micros }
  { row with chain := chainColumns sampleDigests seq (prev.map String.toList) row }

def consentRow : AuditRow Unit := sampleRow 1 "consent.recorded" none 1783082096789012 0 none

def signedRow : AuditRow Unit :=
  sampleRow 2 "pdf.signed" none 1783082096789013 1
    (some "3ef3f2c7cf167f9fa2ab5821bab23df97879bb79500c11cd48db1b510177b088")

def pairChain : List RawChainRow := [served sampleZone consentRow, served sampleZone signedRow]

/-- The row left when the first one is deleted, renumbered. -/
def renumbered : RawChainRow := { served sampleZone signedRow with seq := some 0 }

theorem remaining_accepted_iff_sample : ∃ result',
    verifyAuditChain sampleDigests.sha256Hex 3 (pages (some 1000) [renumbered]) 1000 =
      some (.ok result') ∧ result'.ok = false := by
  have hfuel : pairChain.length < 3 := by decide
  have hkept : [served sampleZone signedRow].Subperm pairChain :=
    List.Sublist.subperm (by simp [pairChain])
  have hrows : List.Forall₂ SameButSeq [renumbered] [served sampleZone signedRow] := .cons rfl .nil
  have hsha : CollisionFree sampleDigests.sha256 pairChain := by
    unfold CollisionFree
    decide +kernel
  obtain ⟨result, hresult, hok⟩ := verify_pages (some 1000) pairChain sampleDigests.sha256Hex
    (show 0 < 1000 by decide) hfuel
  have haccepted : result.ok = true := by
    refine hok.mpr ⟨fun limit hlimit => .inl (Option.mem_some_iff.mp hlimit).le, ?_⟩
    decide +kernel
  obtain ⟨result', hresult', hok'⟩ := remaining_accepted_iff (by decide) hfuel hresult haccepted hsha
    hkept hrows
  refine ⟨result', hresult', Bool.eq_false_iff.mpr fun htrue => ?_⟩
  obtain ⟨rest, hrest⟩ := hok'.mp htrue
  have hid : renumbered.id = (served sampleZone consentRow).id := by
    simpa [pairChain] using congrArg (fun rows : List RawChainRow => rows.head?.map (·.id)) hrest
  revert hid
  decide +kernel

/-- Without its last row the chain is accepted all the same. -/
theorem last_row_deleted :
    (verifyAuditChain sampleDigests.sha256Hex 3 (pages none pairChain) 1000).map
      (fun result => result.toOption.map (·.ok)) = some (some true) ∧
    (verifyAuditChain sampleDigests.sha256Hex 3 (pages none pairChain.dropLast) 1000).map
      (fun result => result.toOption.map (·.ok)) = some (some true) ∧
    pairChain.dropLast ≠ pairChain := by
  refine ⟨by decide +kernel, by decide +kernel, fun h => ?_⟩
  exact absurd (congrArg List.length h) (by decide)

-- ---------------------------------------------------------------------------
-- Editing
-- ---------------------------------------------------------------------------

theorem Uuid.text_bar (u : Uuid) : '|' ∉ u.text := by
  simp [Uuid.text, hexDigits_bar]

theorem Uuid.text_inj {u v : Uuid} (h : u.text = v.text) : u = v := by
  simp only [Uuid.text] at h
  obtain ⟨h₁, h⟩ := List.append_inj h (by simp)
  obtain ⟨h₂, h⟩ := List.append_inj (List.cons.inj h).2 (by simp)
  obtain ⟨h₃, h⟩ := List.append_inj (List.cons.inj h).2 (by simp)
  obtain ⟨h₄, h⟩ := List.append_inj (List.cons.inj h).2 (by simp)
  have h₁ := hexDigits_inj h₁
  have h₂ := hexDigits_inj h₂
  have h₃ := hexDigits_inj h₃
  have h₄ := hexDigits_inj h₄
  have h₅ := hexDigits_inj (List.cons.inj h).2
  have hu := u.value.isLt
  have hv := v.value.isLt
  have heq : u.value.toNat = v.value.toNat := by
    norm_num at h₁ h₂ h₃ h₄ h₅ hu hv
    omega
  cases u
  cases v
  exact congrArg Uuid.mk (BitVec.eq_of_toNat_eq heq)

theorem optionText_inj {u v : Option Uuid}
    (h : (u.map Uuid.text).getD [] = (v.map Uuid.text).getD []) : u = v := by
  have hlength : ∀ w : Uuid, w.text.length = 36 := fun w => by simp [Uuid.text]
  cases u <;> cases v
  · rfl
  · simpa [hlength] using congrArg List.length h
  · simpa [hlength] using congrArg List.length h
  · exact congrArg some (Uuid.text_inj h)

/-- An edit of the audited columns; what the chain stores stays. -/
structure Edited (row row' : AuditRow Jsonb) : Prop where
  chain : row'.chain = row.chain
  id : row'.id = row.id
  metadata : row'.metadata = row.metadata

def epochField (zone : TimeZone) (createdAt : Timestamptz) : Option Text :=
  (timestamptzToEpochMicros (timestamptzText zone createdAt)).map Double.text

def joinedText (row : AuditRow Jsonb) : Text :=
  join [row.action, (row.actorUserId.map Uuid.text).getD [], row.targetTable.getD []]

/-- The edited columns read like the old ones: the joined text of three of them, the
target, and the number of microseconds. -/
structure Hidden (zone : TimeZone) (row row' : AuditRow Jsonb) : Prop where
  joined : joinedText row' = joinedText row
  targetId : row'.targetId = row.targetId
  epoch : epochField zone row'.createdAt = epochField zone row.createdAt

section
variable {zone : TimeZone}

theorem expectedCanonical_served (zone : TimeZone) (row : AuditRow Jsonb) (epoch md5 : Text) :
    expectedCanonical (served zone row) epoch md5 =
      "v1".toList ++ '|' :: (row.tenantId.text ++ '|' :: ((joinedText row ++ '|' ::
        (row.targetId.map Uuid.text).getD []) ++ '|' :: epoch ++ '|' :: md5)) := by
  simp [expectedCanonical, served, join, joinedText]

theorem double_text_bar (x : Double) : '|' ∉ x.text := by
  intro h
  have := Double.text_chars x _ h
  revert this
  decide

theorem expectedCanonical_inj {row row' : AuditRow Jsonb} {x x' : Double} {md5 : Text}
    (htenant : row'.tenantId = row.tenantId) :
    expectedCanonical (served zone row') x'.text md5 = expectedCanonical (served zone row) x.text md5 ↔
      joinedText row' = joinedText row ∧ row'.targetId = row.targetId ∧ x'.text = x.text := by
  have htarget : ∀ r : AuditRow Jsonb, '|' ∉ (r.targetId.map Uuid.text).getD [] := by
    intro r
    cases r.targetId with
    | none => simp
    | some u => exact u.text_bar
  rw [expectedCanonical_served, expectedCanonical_served, htenant]
  simp only [List.append_right_inj, List.cons.injEq, true_and, List.append_left_inj]
  constructor
  · intro h
    obtain ⟨hfront, hepoch⟩ := split_last (double_text_bar x') (double_text_bar x) h
    obtain ⟨hjoined, hid⟩ := split_last (htarget row') (htarget row) hfront
    exact ⟨hjoined, optionText_inj hid, hepoch⟩
  · rintro ⟨hjoined, hid, hepoch⟩
    rw [hjoined, hid, hepoch]

theorem crossCheck_edited {row row' : AuditRow Jsonb} {payload : Text}
    (hcross : crossCheck (served zone row) payload = []) (htenant : row'.tenantId = row.tenantId) :
    crossCheck (served zone row') payload = [] ↔ Hidden zone row row' := by
  obtain ⟨hmd5, x, hx, hpayload⟩ := crossCheck_eq_nil.mp hcross
  have hcreated : ∀ r : AuditRow Jsonb,
      (served zone r).createdAt = timestamptzText zone r.createdAt := fun _ => rfl
  rw [hcreated] at hx
  rw [crossCheck_eq_nil, and_iff_right hmd5, hcreated]
  constructor
  · rintro ⟨x', hx', hpayload'⟩
    obtain ⟨hjoined, hid, hepoch⟩ := (expectedCanonical_inj htenant).mp (hpayload'.trans hpayload.symm)
    exact ⟨hjoined, hid, by simp [epochField, hx, hx', hepoch]⟩
  · rintro ⟨hjoined, hid, hepoch⟩
    simp only [epochField, hx, Option.map_some, Option.map_eq_some_iff] at hepoch
    obtain ⟨x', hx', hepoch⟩ := hepoch
    exact ⟨x', hx', ((expectedCanonical_inj htenant).mpr ⟨hjoined, hid, hepoch⟩).trans hpayload⟩

theorem sound_edited {i : Nat} {row row' : AuditRow Jsonb} (h : Sound d.sha256Hex i (served zone row))
    (hedited : Edited row row') (htenant : row'.tenantId = row.tenantId) :
    Sound d.sha256Hex i (served zone row') ↔ Hidden zone row row' := by
  obtain ⟨hseq, payload, hpayload, hhash, hcross⟩ := h
  rw [← crossCheck_edited hcross htenant]
  have hserved : (served zone row').seq = (served zone row).seq ∧
      (served zone row').prevHash = (served zone row).prevHash ∧
      (served zone row').rowHash = (served zone row).rowHash ∧
      (served zone row').payloadCanonical = (served zone row).payloadCanonical := by
    simp only [served, hedited.chain, and_self]
  obtain ⟨hseq', hprev', hhash', hpayload'⟩ := hserved
  constructor
  · rintro ⟨-, payload', hpayload'', -, hcross'⟩
    rw [hpayload', hpayload] at hpayload''
    cases hpayload''
    exact hcross'
  · intro hcross'
    exact ⟨hseq'.trans hseq, payload, hpayload'.trans hpayload,
      by rw [hhash', hprev']; exact hhash, hcross'⟩

/-- An edited row is accepted at its old place only. -/
theorem sound_place {i k : Nat} {row row' : AuditRow Jsonb}
    (h : Sound d.sha256Hex i (served zone row)) (hedited : Edited row row')
    (h' : Sound d.sha256Hex k (served zone row')) : i = k := by
  have hseq : (served zone row').seq = (served zone row).seq := by
    simp only [served, hedited.chain]
  have hik : (i : Int) = k := Option.some.inj (h.seq.symm.trans (hseq.symm.trans h'.seq))
  omega

theorem filter_take {α : Type} {p : α → Bool} {xs : List α} {n : Nat}
    (h : ∀ (i : Nat) x, xs[i]? = some x → (p x = true ↔ i < n)) : xs.filter p = xs.take n := by
  induction xs generalizing n with
  | nil => simp
  | cons x xs ih =>
    cases n with
    | zero =>
      rw [List.take_zero, List.filter_eq_nil_iff]
      intro y hy hpy
      obtain ⟨i, hi⟩ := List.mem_iff_getElem?.mp hy
      exact absurd ((h i y hi).mp hpy) (Nat.not_lt_zero i)
    | succ n =>
      have hx : p x = true := (h 0 x rfl).mpr (Nat.succ_pos n)
      rw [List.filter_cons_of_pos hx, List.take_succ_cons, ih]
      intro i y hi
      exact (h (i + 1) y hi).trans Nat.succ_lt_succ_iff

/-- The query of the tenant after an edit: its old rows without those that left. -/
theorem tenantRows_edit {table : List (AuditRow Jsonb)} {t : Uuid}
    {edit : AuditRow Jsonb → AuditRow Jsonb}
    (hseq : ∀ (i : Nat) row, (tenantRows table t)[i]? = some row → row.chain.map (·.seq) = some (i : Int))
    (hedit : ∀ row ∈ table, Edited row (edit row))
    (hother : ∀ row ∈ table, row.tenantId ≠ t → edit row = row) :
    tenantRows (table.map edit) t =
      ((tenantRows table t).map edit).filter fun row => row.tenantId = t := by
  have hmem : ∀ row ∈ tenantRows table t, row ∈ table := fun row h => (mem_tenantRows.mp h).1
  have hsorted : (tenantRows table t).Pairwise fun a b => seqOrder a b = true :=
    List.pairwise_mergeSort seqOrder_trans seqOrder_total _
  have horder : ∀ a ∈ tenantRows table t, ∀ b ∈ tenantRows table t,
      seqOrder (edit a) (edit b) = seqOrder a b := by
    intro a ha b hb
    rw [seqOrder, seqOrder, (hedit a (hmem a ha)).chain, (hedit b (hmem b hb)).chain]
  have hperm : ((table.map edit).filter fun row => row.tenantId = t).Perm
      (((tenantRows table t).map edit).filter fun row => row.tenantId = t) := by
    have hrows := List.mergeSort_perm (table.filter fun row => row.tenantId = t) seqOrder
    refine List.Perm.trans ?_ ((hrows.symm.map edit).filter _)
    rw [List.filter_map, List.filter_map, List.filter_filter]
    refine (List.Perm.of_eq ?_).map edit
    refine List.filter_congr fun row hrow => ?_
    by_cases ht : row.tenantId = t
    · simp [ht]
    · simp [ht, hother row hrow ht]
  have hrun : ((table.map edit).filter fun row => row.tenantId = t).mergeSort seqOrder =
      ((tenantRows table t).map edit).filter fun row => row.tenantId = t := by
    refine ((List.mergeSort_perm _ _).trans hperm).eq_of_pairwise ?_
      (List.pairwise_mergeSort seqOrder_trans seqOrder_total _) ?_
    · intro a b ha hb hab hba
      have ha' := (List.mem_filter.mp (((List.mergeSort_perm _ _).trans hperm).mem_iff.mp ha)).1
      obtain ⟨x, hx, rfl⟩ := List.mem_map.mp ha'
      obtain ⟨y, hy, rfl⟩ := List.mem_map.mp (List.mem_filter.mp hb).1
      rw [horder x hx y hy] at hab
      rw [horder y hy x hx] at hba
      obtain ⟨i, hi⟩ := List.mem_iff_getElem?.mp hx
      obtain ⟨j, hj⟩ := List.mem_iff_getElem?.mp hy
      obtain ⟨c, hc, hci⟩ := Option.map_eq_some_iff.mp (hseq i x hi)
      obtain ⟨c', hc', hcj⟩ := Option.map_eq_some_iff.mp (hseq j y hj)
      simp only [seqOrder, hc, hc', decide_eq_true_eq, hci, hcj] at hab hba
      obtain rfl : i = j := by omega
      rw [Option.some.inj (hi.symm.trans hj)]
    · refine List.Pairwise.sublist List.filter_sublist ?_
      rw [List.pairwise_map]
      exact hsorted.imp_of_mem fun ha hb hab => (horder _ ha _ hb).trans hab
  exact hrun

/-- Which edits of an accepted chain stay accepted: rows leave the tenant from the
end only, and those that stay have columns that read like before. -/
theorem edited_accepted_iff {table : List (AuditRow Jsonb)} {t : Uuid} {maxRows : Option Nat}
    {pageSize fuel : Nat} {result : VerifyAuditChainResult} (hsize : 0 < pageSize)
    (hfuel : (tenantRows table t).length < fuel)
    (hresult : verifyAuditChain d.sha256Hex fuel (postgrest zone maxRows (tenantRows table t)) pageSize =
      some (.ok result)) (hok : result.ok = true)
    {edit : AuditRow Jsonb → AuditRow Jsonb} (hedit : ∀ row ∈ table, Edited row (edit row))
    (hother : ∀ row ∈ table, row.tenantId ≠ t → edit row = row) :
    ∃ result', verifyAuditChain d.sha256Hex fuel
        (postgrest zone maxRows (tenantRows (table.map edit) t)) pageSize = some (.ok result') ∧
      (result'.ok = true ↔
        (∃ n, ∀ (i : Nat) row, (tenantRows table t)[i]? = some row →
          ((edit row).tenantId = t ↔ i < n)) ∧
        ∀ row ∈ tenantRows table t, (edit row).tenantId = t → Hidden zone row (edit row)) := by
  obtain ⟨result₀, hresult₀, hok₀⟩ := verify_pages maxRows
    ((tenantRows table t).map (served zone)) d.sha256Hex hsize (by simpa using hfuel)
  obtain rfl : result₀ = result := by
    rw [postgrest, hresult₀] at hresult
    simpa using hresult
  obtain ⟨hfits, haccepted⟩ := hok₀.mp hok
  obtain ⟨hlinked, hsound⟩ := verifyRows_ok.mp haccepted
  have hsound' : ∀ (i : Nat) row, (tenantRows table t)[i]? = some row →
      Sound d.sha256Hex i (served zone row) := fun i row hi => hsound i _ (by simp [hi])
  have hmem : ∀ row ∈ tenantRows table t, row ∈ table ∧ row.tenantId = t :=
    fun row h => mem_tenantRows.mp h
  have hrows := tenantRows_edit (fun i row hi => (hsound' i row hi).seq) hedit hother
  have hlength : (tenantRows (table.map edit) t).length ≤ (tenantRows table t).length := by
    rw [hrows]
    exact (List.length_filter_le _ _).trans_eq (List.length_map ..)
  obtain ⟨result', hresult', hok'⟩ := verify_pages maxRows
    ((tenantRows (table.map edit) t).map (served zone)) d.sha256Hex hsize
    (show _ < fuel by rw [List.length_map]; omega)
  refine ⟨result', hresult', ?_⟩
  have hfits' : Fits maxRows pageSize ((tenantRows (table.map edit) t).map (served zone)).length := by
    intro limit hlimit
    have := hfits limit hlimit
    rw [List.length_map] at this ⊢
    omega
  rw [hok', and_iff_right hfits', verifyRows_ok]
  constructor
  · rintro ⟨-, hsound''⟩
    have hkept : ∀ (k : Nat) row', (tenantRows (table.map edit) t)[k]? = some row' →
        ∃ row, (tenantRows table t)[k]? = some row ∧ row' = edit row ∧
          Sound d.sha256Hex k (served zone row') := by
      intro k row' hk
      have hrow' : row' ∈ (tenantRows table t).map edit := by
        have := List.mem_of_getElem? hk
        rw [hrows] at this
        exact (List.mem_filter.mp this).1
      obtain ⟨row, hrow, rfl⟩ := List.mem_map.mp hrow'
      obtain ⟨j, hj⟩ := List.mem_iff_getElem?.mp hrow
      have hs := hsound'' k (served zone (edit row)) (by simp [hk])
      obtain rfl := sound_place (hsound' j row hj) (hedit row (hmem row hrow).1) hs
      exact ⟨row, hj, rfl, hs⟩
    have hin : ∀ row ∈ tenantRows table t, (edit row).tenantId = t →
        edit row ∈ tenantRows (table.map edit) t := by
      intro row hrow hstay
      rw [hrows]
      exact List.mem_filter.mpr ⟨List.mem_map_of_mem hrow, by simpa using hstay⟩
    refine ⟨⟨(tenantRows (table.map edit) t).length, fun i row hi => ⟨fun hstay => ?_, fun hlt => ?_⟩⟩,
      fun row hrow hstay => ?_⟩
    · have hrow := List.mem_of_getElem? hi
      obtain ⟨k, hk⟩ := List.mem_iff_getElem?.mp (hin row hrow hstay)
      obtain ⟨-, -, -, hs⟩ := hkept k _ hk
      obtain rfl := sound_place (hsound' i row hi) (hedit row (hmem row hrow).1) hs
      exact (List.getElem?_eq_some_iff.mp hk).1
    · obtain ⟨row', hi', heq, -⟩ := hkept i _ (List.getElem?_eq_getElem hlt)
      obtain rfl := Option.some.inj (hi'.symm.trans hi)
      rw [← heq]
      exact (mem_tenantRows.mp (List.getElem_mem hlt)).2
    · obtain ⟨k, hk⟩ := List.mem_iff_getElem?.mp (hin row hrow hstay)
      obtain ⟨i, hi⟩ := List.mem_iff_getElem?.mp hrow
      obtain ⟨-, -, -, hs⟩ := hkept k _ hk
      obtain rfl := sound_place (hsound' i row hi) (hedit row (hmem row hrow).1) hs
      exact (sound_edited (hsound' i row hi) (hedit row (hmem row hrow).1)
        (hstay.trans (hmem row hrow).2.symm)).mp hs
  · rintro ⟨⟨n, hn⟩, hhidden⟩
    have hfront : tenantRows (table.map edit) t = ((tenantRows table t).take n).map edit := by
      rw [hrows, filter_take (n := n), List.map_take]
      intro i row' hi
      rw [List.getElem?_map, Option.map_eq_some_iff] at hi
      obtain ⟨row, hi, rfl⟩ := hi
      simpa using hn i row hi
    rw [hfront]
    constructor
    · rw [List.map_map, Linked.map]
      have hlinked' := Linked.map.mp hlinked
      refine Linked.congr (hlinked'.front (List.take_prefix n _)) fun row hrow => ?_
      have hchain := (hedit row (hmem row (List.mem_of_mem_take hrow)).1).chain
      simp only [Function.comp_apply, served, hchain, and_self]
    · intro i raw hi
      rw [List.getElem?_map, Option.map_eq_some_iff] at hi
      obtain ⟨row', hi, rfl⟩ := hi
      rw [List.getElem?_map, Option.map_eq_some_iff] at hi
      obtain ⟨row, hi, rfl⟩ := hi
      rw [List.getElem?_take] at hi
      obtain ⟨hlt, hi⟩ : i < n ∧ (tenantRows table t)[i]? = some row := by simpa using hi
      have hrow := List.mem_of_getElem? hi
      have hstay := (hn i row hi).mpr hlt
      exact (sound_edited (hsound' i row hi) (hedit row (hmem row hrow).1)
        (hstay.trans (hmem row hrow).2.symm)).mpr (hhidden row hrow hstay)

end

/-- A row of nobody, about a table whose name has a bar in it. -/
def formRow : AuditRow Unit :=
  sampleRow 1 "envelope.a" (some "aaaaaaaa-bbbb-4ccc-8ddd-eeeeeeeeeeee|x") 1783082096789012 0 none

def renamed (row : AuditRow Unit) : AuditRow Unit := { row with action := "envelope.b".toList }

theorem edited_accepted_iff_sample : ∃ result',
    verifyAuditChain sampleDigests.sha256Hex 2 (postgrest sampleZone (some 1000)
      (tenantRows ([formRow].map renamed) sampleTenant)) 1000 = some (.ok result') ∧
      result'.ok = false := by
  have hrows : tenantRows [formRow] sampleTenant = [formRow] := by
    simp [tenantRows, show formRow.tenantId = sampleTenant from rfl]
  have hfuel : (tenantRows [formRow] sampleTenant).length < 2 := by simp [hrows]
  obtain ⟨result, hresult, hok⟩ := verify_pages (some 1000)
    ((tenantRows [formRow] sampleTenant).map (served sampleZone)) sampleDigests.sha256Hex
    (show 0 < 1000 by decide) (by rwa [List.length_map])
  have haccepted : result.ok = true := by
    refine hok.mpr ⟨fun limit hlimit => .inl (Option.mem_some_iff.mp hlimit).le, ?_⟩
    rw [hrows]
    decide +kernel
  obtain ⟨result', hresult', hok'⟩ := edited_accepted_iff (by decide) hfuel hresult haccepted
    (show ∀ row ∈ [formRow], Edited row (renamed row) from fun _ _ => ⟨rfl, rfl, rfl⟩)
    (fun row hrow hne => absurd (List.mem_singleton.mp hrow ▸ rfl) hne)
  refine ⟨result', hresult', Bool.eq_false_iff.mpr fun htrue => ?_⟩
  have hjoined := ((hok'.mp htrue).2 formRow (by simp [hrows]) rfl).joined
  revert hjoined
  decide +kernel

/-- The bar of the table's name ends the action instead, and the event is somebody's. -/
def forged : AuditRow Unit :=
  { formRow with
    action := "envelope.a|".toList
    actorUserId := some ⟨0xaaaaaaaabbbb4ccc8dddeeeeeeeeeeee⟩
    targetTable := some "x".toList }

theorem forged_actor_accepted : formRow.actorUserId = none ∧ forged.actorUserId ≠ none ∧
    Edited formRow forged ∧ actionKnown forged.action = true ∧
    (verifyRows sampleDigests.sha256Hex [served sampleZone formRow]).ok = true ∧
    (verifyRows sampleDigests.sha256Hex [served sampleZone forged]).ok = true :=
  ⟨rfl, by simp [forged], ⟨rfl, rfl, rfl⟩, by decide +kernel, by decide +kernel, by decide +kernel⟩

end EsigSuite.AuditLog
