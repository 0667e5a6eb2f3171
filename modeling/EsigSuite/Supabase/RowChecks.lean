import EsigSuite.Supabase.AuditChain

/-!
# What the verifier accepts

`verifyRows_ok` lists what rows must satisfy, and `verify_pages` says that
the pages of the server are all rows unless its limit cuts them.
-/

namespace EsigSuite.AuditLog

open Lib

-- ---------------------------------------------------------------------------
-- Rows
-- ---------------------------------------------------------------------------

theorem crossCheck_eq_nil {row : RawChainRow} {payload : Text} : crossCheck row payload = [] ↔
    isMd5Hex (md5Part payload) = true ∧ ∃ micros, timestamptzToEpochMicros row.createdAt = some micros ∧
      expectedCanonical row micros.text (md5Part payload) = payload := by
  unfold crossCheck
  split_ifs with hmd5
  · cases timestamptzToEpochMicros row.createdAt with
    | none => simp [hmd5]
    | some micros => simp [hmd5]
  · simp [hmd5]

section
variable {sha256Hex : Text → Text}

/-- The checks of a row at its place that do not look at other rows. -/
structure Sound (sha256Hex : Text → Text) (i : Nat) (row : RawChainRow) : Prop where
  seq : row.seq = some (i : Int)
  hashed : ∃ payload, row.payloadCanonical = some payload ∧
    row.rowHash = some (sha256Hex (row.prevHash.getD [] ++ '|' :: payload)) ∧
      crossCheck row payload = []

theorem rowReasons_eq_nil {i : Nat} {expectedPrev : Option Text} {row : RawChainRow} :
    rowReasons sha256Hex i expectedPrev row = [] ↔
      row.prevHash = expectedPrev ∧ Sound sha256Hex i row := by
  unfold rowReasons
  constructor
  · intro h
    split at h
    next seq rowHash payload hseq hhash hpayload =>
      simp only [List.append_eq_nil_iff, ite_eq_right_iff, List.cons_ne_self, imp_false,
        reduceCtorEq, not_not] at h
      obtain ⟨⟨⟨hi, hprev⟩, hrow⟩, hcross⟩ := h
      exact ⟨hprev, hi ▸ hseq, payload, hpayload, hrow ▸ hhash, hcross⟩
    next => cases h
  · rintro ⟨hprev, hseq, payload, hpayload, hhash, hcross⟩
    simp [hseq, hhash, hpayload, hprev, hcross]

theorem checkRows_eq_nil {i : Nat} {expectedPrev : Option Text} {rows : List RawChainRow} :
    checkRows sha256Hex i expectedPrev rows = [] ↔
      Linked (·.prevHash) (·.rowHash) expectedPrev rows ∧
        ∀ k row, rows[k]? = some row → Sound sha256Hex (i + k) row := by
  induction rows generalizing i expectedPrev with
  | nil => simp [checkRows, Linked]
  | cons row rest ih =>
    simp only [checkRows, checkRow, List.append_eq_nil_iff, List.map_eq_nil_iff, rowReasons_eq_nil,
      ih, Linked]
    constructor
    · rintro ⟨⟨hprev, hrow⟩, hlinked, hrest⟩
      refine ⟨⟨hprev, hlinked⟩, ?_⟩
      rintro (_ | k) row' hk
      · cases hk
        exact hrow
      · rw [show i + (k + 1) = i + 1 + k by omega]
        exact hrest k row' hk
    · rintro ⟨⟨hprev, hlinked⟩, hrows⟩
      refine ⟨⟨hprev, hrows 0 row rfl⟩, hlinked, fun k row' hk => ?_⟩
      rw [show i + 1 + k = i + (k + 1) by omega]
      exact hrows (k + 1) row' hk

theorem verifyRows_ok {rows : List RawChainRow} : (verifyRows sha256Hex rows).ok = true ↔
    Linked (·.prevHash) (·.rowHash) none rows ∧
      ∀ i row, rows[i]? = some row → Sound sha256Hex i row := by
  simp [verifyRows, checkRows_eq_nil]

end

-- ---------------------------------------------------------------------------
-- Pages
-- ---------------------------------------------------------------------------

/-- No page is cut by the limit of the server. -/
def Fits (maxRows : Option Nat) (pageSize rows : Nat) : Prop :=
  ∀ limit ∈ maxRows, pageSize ≤ limit ∨ rows ≤ limit

section
variable (maxRows : Option Nat) (rows : List RawChainRow) {pageSize : Nat}

theorem page_eq (hsize : 0 < pageSize) (first : Nat) (counted : Bool) :
    (pages maxRows rows first (first + pageSize - 1) counted).data =
      some ((rows.drop first).take (min pageSize (maxRows.getD pageSize))) := by
  have hlength : first + pageSize - 1 + 1 - first = pageSize := by omega
  cases maxRows with
  | none => simp [pages, hlength]
  | some limit => simp [pages, hlength, List.take_take, Nat.min_comm]

/-- Without a cut the loop goes on until it has the end of the table. -/
theorem fetchPages_all (hsize : 0 < pageSize) (hlimit : ∀ limit ∈ maxRows, pageSize ≤ limit)
    {fuel first : Nat} (total : Option Nat) (hfirst : first ≤ rows.length)
    (hfuel : rows.length < fuel + first) (htotal : first = 0 ∨ total = some rows.length) :
    fetchPages (pages maxRows rows) pageSize fuel first
      ⟨rows.take first, total⟩ =
        some (.ok ⟨rows, some rows.length⟩) := by
  have hmin : min pageSize (maxRows.getD pageSize) = pageSize := by
    cases maxRows with
    | none => simp
    | some limit => simpa using hlimit limit rfl
  induction fuel generalizing first total with
  | zero => omega
  | succ fuel ih =>
    have hpage := page_eq maxRows rows hsize first (first == 0)
    rw [hmin] at hpage
    have hcount : (if first = 0 then (pages maxRows rows first (first + pageSize - 1)
        (first == 0)).count else total) = some rows.length := by
      split_ifs with hzero
      · simp [pages, hzero]
      · exact htotal.resolve_left hzero
    have hrows : rows.take first ++ (rows.drop first).take pageSize = rows.take (first + pageSize) :=
      List.take_add.symm
    have herror : (pages maxRows rows first (first + pageSize - 1)
        (first == 0)).error = none := rfl
    simp only [fetchPages, herror, hpage, hcount, Option.getD_some, hrows,
      List.length_take, List.length_drop]
    split_ifs with hshort
    · rw [List.take_of_length_le (by omega)]
    · exact ih (some rows.length) (by omega) (by omega) (.inr rfl)

/-- A limit below the page size ends the loop after one page. -/
theorem fetchPages_cut {limit : Nat} (hlimit : limit < pageSize) {fuel : Nat} (hfuel : 0 < fuel) :
    fetchPages (pages (some limit) rows) pageSize fuel 0 ⟨[], none⟩ =
      some (.ok ⟨rows.take limit, some rows.length⟩) := by
  obtain ⟨fuel, rfl⟩ := Nat.exists_eq_succ_of_ne_zero hfuel.ne'
  have hpage := page_eq (some limit) rows (show 0 < pageSize by omega) 0 true
  have herror : (pages (some limit) rows 0 (0 + pageSize - 1) true).error = none := rfl
  have hcount : (pages (some limit) rows 0 (0 + pageSize - 1) true).count =
      some rows.length := rfl
  rw [Option.getD_some, Nat.min_eq_right hlimit.le, List.drop_zero] at hpage
  simp only [fetchPages, beq_self_eq_true, herror, hpage, hcount, Option.getD_some,
    List.length_take, if_true, List.nil_append]
  rw [if_pos (by omega)]

/-- The verdict over the rows of a table, with enough fuel. -/
theorem verify_pages (sha256Hex : Text → Text) (hsize : 0 < pageSize) {fuel : Nat}
    (hfuel : rows.length < fuel) : ∃ result,
      verifyAuditChain sha256Hex fuel (pages maxRows rows) pageSize = some (.ok result) ∧
        (result.ok = true ↔ Fits maxRows pageSize rows.length ∧
          (verifyRows sha256Hex rows).ok = true) := by
  by_cases hlimit : ∀ limit ∈ maxRows, pageSize ≤ limit
  · have hfetch := fetchPages_all maxRows rows hsize hlimit none (Nat.zero_le _)
      (by omega) (.inl rfl)
    rw [List.take_zero] at hfetch
    rw [verifyAuditChain, hfetch]
    refine ⟨verifyRows sha256Hex rows, by simp [Except.map], ?_⟩
    exact (and_iff_right fun limit h => .inl (hlimit limit h)).symm
  · push Not at hlimit
    obtain ⟨limit, hmem, hlt⟩ := hlimit
    obtain rfl : maxRows = some limit := hmem
    rw [verifyAuditChain, fetchPages_cut rows hlt (by omega)]
    by_cases hall : rows.length ≤ limit
    · rw [List.take_of_length_le hall]
      refine ⟨verifyRows sha256Hex rows, by simp [Except.map], ?_⟩
      refine (and_iff_right fun other h => ?_).symm
      cases h
      exact .inr hall
    · refine ⟨truncated limit rows.length, ?_, ?_⟩
      · have hmin : min limit rows.length = limit := Nat.min_eq_left (by omega)
        have hne : rows.length ≠ limit := by omega
        simp [Except.map, hmin, hne]
      · simp only [truncated, Bool.false_eq_true, false_iff, not_and]
        intro hfits
        have := hfits limit rfl
        omega

end

end EsigSuite.AuditLog
