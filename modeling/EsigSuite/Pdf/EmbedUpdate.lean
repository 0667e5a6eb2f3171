import EsigSuite.Lib.LargeInt
import EsigSuite.Pdf.SealRoundTrip

/-!
# The incremental update around a seal

What `embedPqSeal` appends, with its offsets. The numbers it carries forward are
doubles, so the update is right as long as they count.
-/

namespace EsigSuite

open Lib

/-- A file ends with an update that names its object, its size and the previous
table: the entry and `startxref` hold the lengths of what stands before. -/
def Update (pdf r name size prev : Bytes) : Prop :=
  ∃ body fields : Bytes,
    let head := pdf ++ ascii "\n"
    let withObj := head ++ (name ++ ascii " 0 obj\n" ++ body)
    let xref := ascii "xref\n" ++ name ++ ascii " 1\n" ++ padStart 10 (lengthText head.length) ++
      ascii " 00000 n \ntrailer\n<<\n/Size " ++ size ++ ascii "\n" ++ fields ++ ascii "/Prev " ++
      prev ++ ascii "\n>>\nstartxref"
    r = withObj ++ xref ++ ascii "\n" ++ lengthText withObj.length ++ ascii "\n%%EOF\n"

/-- The number after the last `startxref`. -/
def previousStartxref? (pdf : Bytes) : Option Nat := do
  let sxIdx ← lastIndexOf (ascii "startxref") pdf
  let (digits, _) ← leftmost digits? (pdf.drop (sxIdx + 9))
  return digits.foldl (fun n c => 10 * n + (c.toNat - 48)) 0

/-- The number after `/Size` of the last trailer. -/
def previousSize? (pdf : Bytes) : Option Nat := do
  let sxIdx ← lastIndexOf (ascii "startxref") pdf
  let trIdx ← (lastIndexOf (ascii "trailer") pdf).filter (· ≤ sxIdx)
  let digits ← leftmost sizeAt ((pdf.take sxIdx).drop trIdx)
  return digits.foldl (fun n c => 10 * n + (c.toNat - 48)) 0

theorem readLastTrailer_numbers (h : readLastTrailer pdf = .ok trailer) :
    ∃ size prev, previousSize? pdf = some size ∧ previousStartxref? pdf = some prev ∧
      trailer.size = .round size ∧ trailer.prevStartxref = .round prev := by
  unfold readLastTrailer at h
  split at h
  · cases h
  next sxIdx hsx =>
    split at h
    · cases h
    next prev rest hprev =>
      split at h
      · cases h
      next trIdx htr =>
        dsimp only at h
        split at h
        · cases h
        · cases h
        next rootRef size hroot hsize =>
          cases h
          refine ⟨_, _, ?_, ?_, rfl, rfl⟩
          · simp [previousSize?, hsx, htr, hsize]
          · simp [previousStartxref?, hsx, hprev]

theorem embedPqSeal_update (h : embedPqSeal pdf s = .ok r) :
    ∃ trailer, readLastTrailer pdf = .ok trailer ∧
      Update pdf r (numberText trailer.size) (numberText (increment trailer.size))
        (numberText trailer.prevStartxref) := by
  have hobj : ascii " 0 obj\n<<" = ascii " 0 obj\n" ++ ascii "<<" := by decide
  have hentry : ascii " 00000 n \ntrailer\n<<\n/Size " =
      ascii " 00000 n \n" ++ (ascii "trailer\n<<\n" ++ ascii "/Size ") := by decide
  have hend : ∀ rest : Bytes, ascii "\n" ++ (ascii ">>\nstartxref\n" ++ rest) =
      ascii "\n>>\nstartxref" ++ (ascii "\n" ++ rest) := by
    intro rest
    rw [← List.append_assoc, ← List.append_assoc]
    congr 1
  unfold embedPqSeal at h
  cases htrailer : readLastTrailer pdf with
  | error e => simp [htrailer, bind, Except.bind] at h
  | ok trailer =>
    simp only [htrailer, bind, Except.bind, pure, Except.pure, Except.ok.injEq] at h
    refine ⟨trailer, rfl, ascii "<<" ++ sealDict s ++ ascii ">>\nendobj\n",
      ascii "/Root " ++ trailer.rootRef ++ ascii "\n" ++
        trailer.infoRef.elim [] (fun infoRef => ascii "/Info " ++ infoRef ++ ascii "\n"), ?_⟩
    rw [← h]
    unfold objBuf xrefBuf
    cases hinfo : trailer.infoRef <;>
      simp only [hobj, hentry, hend, hinfo, Option.elim_none, Option.elim_some, List.append_assoc,
        List.nil_append]

-- ---------------------------------------------------------------------------
-- One update for the bytes
-- ---------------------------------------------------------------------------

/-- Bytes without a space or a line feed, such as those of a number. -/
def Unbroken (text : Bytes) : Prop := 32 ∉ text ∧ 10 ∉ text

theorem unbroken_map {text : List Char} (h : ∀ c ∈ text, Double.isNumberChar c = true) :
    Unbroken (text.map fun c => UInt8.ofNat c.toNat) := by
  have hbyte : ∀ c ∈ text, ∀ b : UInt8, b.toNat < 43 → UInt8.ofNat c.toNat ≠ b := by
    rintro c hc b hb heq
    obtain ⟨hlow, hhigh, -⟩ := numberChar_range (h c hc)
    have hnat : (UInt8.ofNat c.toNat).toNat = c.toNat := by
      rw [UInt8.toNat_ofNat']
      omega
    rw [heq] at hnat
    omega
  constructor <;>
  · intro hmem
    obtain ⟨c, hc, heq⟩ := List.mem_map.mp hmem
    exact hbyte c hc _ (by decide) heq

theorem numberText_unbroken (n : Double) : Unbroken (numberText n) :=
  unbroken_map (Double.text_chars n)

theorem lengthText_unbroken (n : Nat) : Unbroken (lengthText n) :=
  unbroken_map fun c hc => Double.isNumberChar_digit (toDigits_isDigit n c hc)

theorem map_back {text : List Char} (h : ∀ c ∈ text, Double.isNumberChar c = true) :
    (text.map fun c => UInt8.ofNat c.toNat).map (fun b => Char.ofNat b.toNat) = text := by
  rw [List.map_map]
  refine (List.map_congr_left fun c hc => ?_).trans (List.map_id text)
  obtain ⟨-, hhigh, -⟩ := numberChar_range (h c hc)
  have hnat : (UInt8.ofNat c.toNat).toNat = c.toNat := by
    rw [UInt8.toNat_ofNat']
    omega
  simp [hnat]

theorem digits_numberChar (n : Nat) : ∀ c ∈ Nat.toDigits 10 n, Double.isNumberChar c = true :=
  fun c hc => Double.isNumberChar_digit (toDigits_isDigit n c hc)

theorem lengthText_eq_numberText : lengthText n = numberText x ↔ x.text = Nat.toDigits 10 n := by
  constructor
  · intro h
    rw [← map_back (Double.text_chars x), ← map_back (digits_numberChar n)]
    exact congrArg _ h.symm
  · intro h
    rw [lengthText, numberText, h]

theorem lengthText_inj (h : lengthText m = lengthText n) : m = n := by
  have hdigits : Nat.toDigits 10 m = Nat.toDigits 10 n := by
    rw [← map_back (digits_numberChar m), ← map_back (digits_numberChar n)]
    exact congrArg _ h
  rw [← Nat.ofDigitChars_ten_toDigits (n := m), hdigits, Nat.ofDigitChars_ten_toDigits]

theorem first_unique {c : UInt8} {tail x y a b : Bytes} (hx : c ∉ x) (hy : c ∉ y)
    (h : x ++ (c :: tail) ++ a = y ++ (c :: tail) ++ b) : x = y ∧ a = b := by
  rw [List.append_assoc, List.append_assoc] at h
  induction x generalizing y with
  | nil =>
    cases y with
    | nil => exact ⟨rfl, List.append_cancel_left h⟩
    | cons d y =>
      have hc : c = d := (List.cons.inj h).1
      exact absurd (hc ▸ List.mem_cons_self) hy
  | cons d x ih =>
    cases y with
    | nil =>
      have hc : d = c := (List.cons.inj h).1
      exact absurd (hc ▸ List.mem_cons_self) hx
    | cons e y =>
      obtain ⟨hhead, htail⟩ := List.cons.inj h
      obtain ⟨rfl, rfl⟩ := ih (fun hmem => hx (.tail _ hmem)) (fun hmem => hy (.tail _ hmem)) htail
      exact ⟨by rw [hhead], rfl⟩

/-- The last piece of two texts. -/
theorem last_unique {c : UInt8} {init x y a b : Bytes} (hx : c ∉ x) (hy : c ∉ y)
    (h : a ++ (init ++ [c]) ++ x = b ++ (init ++ [c]) ++ y) : a = b ∧ x = y := by
  have hreverse : x.reverse ++ (c :: init.reverse) ++ a.reverse =
      y.reverse ++ (c :: init.reverse) ++ b.reverse := by
    have heq := congrArg List.reverse h
    simpa using heq
  obtain ⟨hxy, hab⟩ := first_unique (by simpa using hx) (by simpa using hy) hreverse
  exact ⟨List.reverse_injective hab, List.reverse_injective hxy⟩

/-- The numbers an update names. -/
theorem update_unique (h : Update pdf r name size prev) (h' : Update pdf r name' size' prev')
    (hname : Unbroken name) (hname' : Unbroken name') (hsize : Unbroken size)
    (hsize' : Unbroken size') (hprev : Unbroken prev) (hprev' : Unbroken prev') :
    name = name' ∧ size = size' ∧ prev = prev' := by
  obtain ⟨body, fields, h⟩ := h
  obtain ⟨body', fields', h'⟩ := h'
  have heq := List.append_cancel_right (h.symm.trans h')
  obtain ⟨heq, hstart⟩ := @last_unique 10 [] _ _ _ _ (lengthText_unbroken _).2
    (lengthText_unbroken _).2 heq
  obtain ⟨hwithObj, hxref⟩ := List.append_inj heq (lengthText_inj hstart)
  obtain ⟨rfl, -⟩ := @first_unique 32 (ascii "0 obj\n") _ _ _ _ hname.1 hname'.1
    (List.append_cancel_left hwithObj)
  obtain ⟨hfields, rfl⟩ := @last_unique 32 (ascii "/Prev") _ _ _ _ hprev.1 hprev'.1
    (List.append_cancel_right hxref)
  rw [List.append_assoc, List.append_assoc, List.append_assoc _ _ fields', List.append_assoc _ size']
    at hfields
  obtain ⟨rfl, -⟩ := @first_unique 10 [] _ _ _ _ hsize.2 hsize'.2
    ((List.append_assoc ..).trans ((List.append_cancel_left hfields).trans
      (List.append_assoc ..).symm))
  exact ⟨rfl, rfl, rfl⟩

-- ---------------------------------------------------------------------------
-- When the numbers are right
-- ---------------------------------------------------------------------------

/-- The update of a file whose trailer counted `size` objects and whose table was
at `prev`. -/
structure Updated (pdf r : Bytes) (size prev : Nat) : Prop where
  unchanged : pdf <+: r
  update : Update pdf r (lengthText size) (lengthText (size + 1)) (lengthText prev)
  /-- The object stands where its entry says. -/
  object : lengthText size ++ ascii " 0 obj\n" <+: r.drop (pdf.length + 1)
  /-- The table stands where `startxref` says. -/
  table : ∃ offset, ascii "xref\n" <+: r.drop offset ∧
    ascii "startxref" ++ (ascii "\n" ++ lengthText offset ++ ascii "\n%%EOF\n") <:+ r

theorem Update.updated (h : Update pdf r (lengthText size) (lengthText (size + 1)) (lengthText prev)) :
    Updated pdf r size prev := by
  have hupdate := h
  obtain ⟨body, fields, rfl⟩ := h
  have hkey : ascii "\n>>\nstartxref" = ascii "\n>>\n" ++ ascii "startxref" := by decide
  refine ⟨?_, hupdate, ?_, ?_⟩
  · simp only [List.append_assoc]
    exact List.prefix_append _ _
  · have hhead : (pdf ++ ascii "\n").length = pdf.length + 1 := by simp [ascii]
    rw [← hhead]
    simp only [List.append_assoc]
    rw [← List.append_assoc pdf, List.drop_left, ← List.append_assoc (lengthText size)]
    exact List.prefix_append _ _
  · generalize pdf ++ ascii "\n" ++ (lengthText size ++ ascii " 0 obj\n" ++ body) = withObj
    refine ⟨withObj.length, ?_, ?_⟩
    · simp only [List.append_assoc, List.drop_left]
      exact List.prefix_append _ _
    · refine ⟨withObj ++ (ascii "xref\n" ++ lengthText size ++ ascii " 1\n" ++
        padStart 10 (lengthText (pdf ++ ascii "\n").length) ++
        ascii " 00000 n \ntrailer\n<<\n/Size " ++ lengthText (size + 1) ++ ascii "\n" ++ fields ++
        ascii "/Prev " ++ lengthText prev ++ ascii "\n>>\n"), ?_⟩
      simp only [hkey, List.append_assoc]

theorem counted_iff (size : Nat) :
    (numberText (.round size) = lengthText size ∧
      numberText (increment (.round size)) = lengthText (size + 1)) ↔ size < 2 ^ 53 := by
  rw [@eq_comm _ _ (lengthText size), lengthText_eq_numberText, @eq_comm _ _ (lengthText (size + 1)),
    lengthText_eq_numberText]
  constructor
  · rintro ⟨hsize, hnext⟩
    by_contra hlarge
    have hge : (2 : ℚ) ^ 53 ≤ (size : ℚ) := by exact_mod_cast not_lt.mp hlarge
    rcases Nat.mod_two_eq_zero_or_one size with heven | hodd
    · cases hround : Double.round (size : ℚ) with
      | infinite negative =>
        rw [hround] at hsize
        have hdigit := toDigits_isDigit size
        rw [← hsize] at hdigit
        cases negative <;> exact absurd (hdigit 'I' (by decide)) (by decide)
      | finite x =>
        have hx := Double.round_large hge hround
        rw [hround] at hnext
        exact Double.text_round_odd (by linarith) (by omega) (by omega) hnext
    · exact Double.text_round_odd hge hodd (by omega) hsize
  · intro hsafe
    have hexact := Double.exact_nat hsafe
    rw [Double.Exact] at hexact
    refine ⟨Double.printed_safe hsafe.le, ?_⟩
    have hnext := Double.printed_safe (n := size + 1) hsafe
    rw [Double.Printed] at hnext
    rw [hexact, increment]
    exact_mod_cast hnext

theorem updated_iff (h : embedPqSeal pdf s = .ok r) (hsize : previousSize? pdf = some size)
    (hprev : previousStartxref? pdf = some prev) :
    Updated pdf r size prev ↔ size < 2 ^ 53 ∧ Double.Printed prev := by
  obtain ⟨trailer, htrailer, hupdate⟩ := embedPqSeal_update h
  obtain ⟨_, _, hsize', hprev', htrailerSize, htrailerPrev⟩ := readLastTrailer_numbers htrailer
  obtain rfl := Option.some.inj (hsize.symm.trans hsize')
  obtain rfl := Option.some.inj (hprev.symm.trans hprev')
  rw [htrailerSize, htrailerPrev] at hupdate
  constructor
  · intro hupdated
    obtain ⟨hname, hnext, hlast⟩ := update_unique hupdate hupdated.update (numberText_unbroken _)
      (lengthText_unbroken _) (numberText_unbroken _) (lengthText_unbroken _)
      (numberText_unbroken _) (lengthText_unbroken _)
    exact ⟨(counted_iff size).mp ⟨hname, hnext⟩, lengthText_eq_numberText.mp hlast.symm⟩
  · rintro ⟨hcount, hprinted⟩
    obtain ⟨hname, hnext⟩ := (counted_iff size).mpr hcount
    rw [hname, hnext, ← lengthText_eq_numberText.mpr hprinted] at hupdate
    exact hupdate.updated

/-- The update is right exactly as long as the object number counts and the
previous offset is written as it was read. -/
theorem embedPqSeal_updated_iff (h : embedPqSeal pdf s = .ok r) :
    ∃ size prev, previousSize? pdf = some size ∧ previousStartxref? pdf = some prev ∧
      (Updated pdf r size prev ↔ size < 2 ^ 53 ∧ Double.Printed prev) := by
  obtain ⟨trailer, htrailer, -⟩ := embedPqSeal_update h
  obtain ⟨size, prev, hsize, hprev, -, -⟩ := readLastTrailer_numbers htrailer
  exact ⟨size, prev, hsize, hprev, updated_iff h hsize hprev⟩

theorem embedPqSeal_updated_iff_sample : ∃ r,
    embedPqSeal SealSample.plain.bytes (SealSample.sealBy "first") = .ok r ∧
      Updated SealSample.plain.bytes r 3 9 := by
  obtain ⟨r, hr⟩ := SealSample.embeds (ascii "%PDF-1.7" ++ [10]) (SealSample.sealBy "first")
  have hplain : ascii "%PDF-1.7" ++ [10] ++ SealSample.trailerText = SealSample.plain.bytes := by
    simp [SealSample.plain]
  rw [hplain] at hr
  obtain ⟨size, prev, hsize, hprev, hiff⟩ := embedPqSeal_updated_iff hr
  have hsize' : previousSize? SealSample.plain.bytes = some 3 := by decide +kernel
  have hprev' : previousStartxref? SealSample.plain.bytes = some 9 := by decide +kernel
  obtain rfl := Option.some.inj (hsize'.symm.trans hsize)
  obtain rfl := Option.some.inj (hprev'.symm.trans hprev)
  exact ⟨r, hr, hiff.mpr ⟨by norm_num, Double.printed_safe (by norm_num)⟩⟩

/-- A file whose trailer counts `2 ^ 53` objects. -/
def crowded : Bytes :=
  ascii "trailer\n<<\n/Size 9007199254740992\n/Root 1 0 R\n>>\nstartxref\n9\n%%EOF\n"

theorem crowded_size_kept :
    ¬ ∀ (pdf : Bytes) (s : PqSeal) (r : Bytes) (size prev : Nat), pdf.length < 10 ^ 10 →
      embedPqSeal pdf s = .ok r → previousSize? pdf = some size →
        previousStartxref? pdf = some prev → Updated pdf r size prev := by
  intro h
  have hlength : crowded.length < 10 ^ 10 := by decide +kernel
  have hsize : previousSize? crowded = some 9007199254740992 := by decide +kernel
  have hprev : previousStartxref? crowded = some 9 := by decide +kernel
  have hok : (readLastTrailer crowded).isOk = true := by decide +kernel
  cases htrailer : readLastTrailer crowded with
  | error e => simp [htrailer, Except.isOk, Except.toBool] at hok
  | ok trailer =>
    have hembed := (embedPqSeal_ok (s := SealSample.sealBy "first")).mpr ⟨trailer, htrailer, rfl⟩
    have hupdated := h _ _ _ _ _ hlength hembed hsize hprev
    exact absurd ((updated_iff hembed hsize hprev).mp hupdated).1 (by norm_num)

end EsigSuite
