import EsigSuite.Lib.JsRegex

/-!
# The imports of a source text

`extractSpecifiers` of `esig-pillar-bridge/src/shim.ts`. `Imports.mem`: a statement
at the start of a line is found, unless the text before it leaves a specifier open.
-/

namespace EsigSuite.PillarBridge

open Lib Regex

def isQuote (c : UInt16) : Bool := (js "\"'").contains c

/-- `(?:^|\n)` -/
def lineStart : Regex UInt16 := .alt start (chr '\n')

/-- `(?:^|\n)\s*(?:import|export)\s[^'"\n]*?from\s+` -/
def fromClause : Regex UInt16 :=
  .all [lineStart, many white, .alt (lit "import") (lit "export"), white,
    .star true (without "'\"\n"), lit "from", plus white]

/-- `(?:^|\n)\s*import\s+` -/
def bareImport : Regex UInt16 := .all [lineStart, many white, lit "import", plus white]

/-- `["']([^"']+)["']` -/
def specifierText : Regex UInt16 :=
  .all [.char isQuote, .group (plus (without "\"'")), .char isQuote]

def IMPORT_SPECIFIER_RE : Pattern UInt16 where
  regex := .alt (.seq fromClause specifierText) (.seq bareImport specifierText)
  consumes := rfl

/-- The group that took part holds the specifier. -/
def extractSpecifiers (source : JsString) : List JsString :=
  ((IMPORT_SPECIFIER_RE.scan source).map fun m => m.2.groups.headD []).filter (· ≠ [])

-- ---------------------------------------------------------------------------
-- Statements
-- ---------------------------------------------------------------------------

/-- A statement up to its specifier. Its words after the first stand on one line. -/
inductive Opening : JsString → Prop
  | clause {keyword : JsString} {space : UInt16} {words gap : JsString}
      (hkeyword : keyword = js "import" ∨ keyword = js "export")
      (hspace : isWhiteUnit space = true) (hwords : ∀ c ∈ words, isQuote c = false ∧ c ≠ 10)
      (hgap : gap ≠ []) (hwhite : ∀ c ∈ gap, isWhiteUnit c = true) :
      Opening (keyword ++ space :: words ++ js "from" ++ gap)
  | bare {gap : JsString} (hgap : gap ≠ []) (hwhite : ∀ c ∈ gap, isWhiteUnit c = true) :
      Opening (js "import" ++ gap)

/-- The last quote of a text stands where a specifier starts. -/
def LeavesOpen (text : JsString) : Prop :=
  ∃ front gap q rest, text = front ++ gap ++ q :: rest ∧
    (js "from" <:+ front ∨ js "import" <:+ front) ∧ gap ≠ [] ∧ (∀ c ∈ gap, isWhiteUnit c = true) ∧
    isQuote q = true ∧ ∀ c ∈ rest, isQuote c = false

/-- An import, or an export from elsewhere, at the start of a line. -/
def Imports (source spec : JsString) : Prop :=
  ∃ before indent opening q q' rest,
    source = before ++ (indent ++ opening ++ q :: spec ++ q' :: rest) ∧
    (before = [] ∨ before.getLast? = some 10) ∧ ¬ LeavesOpen before ∧
    (∀ c ∈ indent, isWhiteUnit c = true) ∧ Opening opening ∧ isQuote q = true ∧ isQuote q' = true ∧
    spec ≠ [] ∧ ∀ c ∈ spec, isQuote c = false

-- ---------------------------------------------------------------------------
-- The pattern
-- ---------------------------------------------------------------------------

theorem isQuote_iff {c : UInt16} : isQuote c = true ↔ c = 34 ∨ c = 39 := by
  simp [isQuote, js, JsString.ofText, utf16]

theorem not_quote_of_white {c : UInt16} (h : isWhiteUnit c = true) : isQuote c = false := by
  by_contra hquote
  rcases isQuote_iff.mp (by simpa using hquote) with rfl | rfl <;> exact absurd h (by decide)

/-- The quotes of a text tell where its parts end. -/
theorem quote_inj {a b a' b' : JsString} {q q' : UInt16} (ha : ∀ c ∈ a, isQuote c = false)
    (ha' : ∀ c ∈ a', isQuote c = false) (hq : isQuote q = true) (hq' : isQuote q' = true)
    (h : a ++ q :: b = a' ++ q' :: b') : a = a' ∧ q = q' ∧ b = b' := by
  induction a generalizing a' with
  | nil =>
    cases a' with
    | nil => simpa using h
    | cons c a' =>
      obtain ⟨rfl, -⟩ := List.cons.inj h
      exact absurd hq (by simp [ha' q List.mem_cons_self])
  | cons c a ih =>
    obtain ⟨hc, ha⟩ := List.forall_mem_cons.mp ha
    cases a' with
    | nil =>
      obtain ⟨rfl, -⟩ := List.cons.inj h
      exact absurd hq' (by simp [hc])
    | cons d a' =>
      obtain ⟨rfl, htail⟩ := List.cons.inj h
      obtain ⟨rfl, hrest⟩ := ih ha (fun c hc => ha' c (List.mem_cons_of_mem _ hc)) htail
      exact ⟨rfl, hrest⟩

/-- What stands in front of a specifier. -/
structure Leads (text : JsString) : Prop where
  bare : ∀ c ∈ text, isQuote c = false
  ends : ∃ front gap, text = front ++ gap ∧
    (js "from" <:+ front ∨ js "import" <:+ front) ∧ gap ≠ [] ∧ ∀ c ∈ gap, isWhiteUnit c = true

section
variable {b : Option UInt16} {w t : JsString}

theorem accepts_lineStart :
    Accepts lineStart b w t ↔ (w = [] ∧ b = none) ∨ w = [10] := by
  simp [lineStart, start, unitOf]

theorem leads_of_fromClause (h : Accepts fromClause b w t) : Leads w := by
  simp only [fromClause, Regex.all, many, white, without, accepts_seq, accepts_alt, accepts_lit,
    accepts_char, accepts_star_char, accepts_plus_char] at h
  obtain ⟨edge, _, rfl, hedge, indent, _, rfl, hindent, keyword, _, rfl, hkeyword, _, _, rfl,
    ⟨space, rfl, hspace⟩, words, _, rfl, hwords, _, gap, rfl, rfl, hgap, hwhite⟩ := h
  have hedge : ∀ c ∈ edge, isQuote c = false := by
    rcases accepts_lineStart.mp hedge with ⟨rfl, -⟩ | rfl <;> exact List.forall_iff_forall_mem.mp (by decide)
  have hkeyword : ∀ c ∈ keyword, isQuote c = false := by
    rcases hkeyword with rfl | rfl <;> exact List.forall_iff_forall_mem.mp (by decide)
  have hwords : ∀ c ∈ words, isQuote c = false := fun c hc => by
    have := hwords c hc
    by_contra hquote
    rcases isQuote_iff.mp (by simpa using hquote) with rfl | rfl <;> exact absurd this (by decide)
  refine ⟨?_, edge ++ (indent ++ (keyword ++ ([space] ++ (words ++ js "from")))), gap, by simp,
    .inl ⟨edge ++ (indent ++ (keyword ++ ([space] ++ words))), by simp⟩, hgap, hwhite⟩
  have hfrom : ∀ c ∈ js "from", isQuote c = false :=
      List.forall_iff_forall_mem.mp (by decide)
  simp only [List.forall_mem_append, List.forall_mem_singleton]
  exact ⟨hedge, fun c hc => not_quote_of_white (hindent c hc), hkeyword, not_quote_of_white hspace,
    hwords, hfrom, fun c hc => not_quote_of_white (hwhite c hc)⟩

theorem leads_of_bareImport (h : Accepts bareImport b w t) : Leads w := by
  simp only [bareImport, Regex.all, many, white, accepts_seq, accepts_lit, accepts_star_char,
    accepts_plus_char] at h
  obtain ⟨edge, _, rfl, hedge, indent, _, rfl, hindent, _, gap, rfl, rfl, hgap, hwhite⟩ := h
  have hedge : ∀ c ∈ edge, isQuote c = false := by
    rcases accepts_lineStart.mp hedge with ⟨rfl, -⟩ | rfl <;> exact List.forall_iff_forall_mem.mp (by decide)
  refine ⟨?_, edge ++ (indent ++ js "import"), gap, by simp, .inr ⟨edge ++ indent, by simp⟩, hgap, hwhite⟩
  have himport : ∀ c ∈ js "import", isQuote c = false :=
      List.forall_iff_forall_mem.mp (by decide)
  simp only [List.forall_mem_append]
  exact ⟨hedge, fun c hc => not_quote_of_white (hindent c hc), himport,
    fun c hc => not_quote_of_white (hwhite c hc)⟩

/-- A match: the words up to a specifier, and the specifier in quotes. -/
structure Reads (m : Found UInt16) (lead : JsString) (q : UInt16) (spec : JsString) (q' : UInt16) :
    Prop where
  text : m.text = lead ++ q :: (spec ++ [q'])
  groups : m.groups = [spec]
  leads : Leads lead
  quote : isQuote q = true
  quote' : isQuote q' = true
  spec : spec ≠ [] ∧ ∀ c ∈ spec, isQuote c = false

theorem exec_specifierText {m : Found UInt16} (h : m ∈ specifierText.exec b t) :
    ∃ q spec q', m.text = q :: (spec ++ [q']) ∧ m.groups = [spec] ∧ isQuote q = true ∧
      isQuote q' = true ∧ spec ≠ [] ∧ ∀ c ∈ spec, isQuote c = false := by
  obtain ⟨f, hf, _, htail, rfl⟩ := mem_exec_seq.mp h
  obtain ⟨_, hgroup, k, hk, rfl⟩ := mem_exec_seq.mp htail
  obtain ⟨inner, hinner, rfl⟩ := List.mem_map.mp hgroup
  obtain ⟨q, hq, hquote⟩ := accepts_char.mp (exec_sound hf).2
  obtain ⟨q', hq', hquote'⟩ := accepts_char.mp (exec_sound hk).2
  obtain ⟨hne, hspec⟩ := accepts_plus_char.mp (exec_sound hinner).2
  refine ⟨q, inner.text, q', ?_, ?_, hquote, hquote', hne, fun c hc => ?_⟩
  · simp [Found.append, hq, hq']
  · simp [Found.append, exec_groupless rfl hf, exec_groupless rfl hk, exec_groupless rfl hinner]
  · simpa [isQuote] using hspec c hc

theorem exec_reads {m : Found UInt16} (h : m ∈ IMPORT_SPECIFIER_RE.regex.exec b t) :
    ∃ lead q spec q', Reads m lead q spec q' := by
  have hseq : ∀ {head : Regex UInt16}, head.groupless = true →
      (∀ {b w t}, Accepts head b w t → Leads w) → m ∈ (Regex.seq head specifierText).exec b t →
      ∃ lead q spec q', Reads m lead q spec q' := by
    intro head hgroupless hleads hm
    obtain ⟨f, hf, g, hg, rfl⟩ := mem_exec_seq.mp hm
    obtain ⟨q, spec, q', htext, hgroups, hq, hq', hspec⟩ := exec_specifierText hg
    exact ⟨f.text, q, spec, q', by rw [Found.append, htext],
      by rw [Found.append, exec_groupless hgroupless hf, hgroups]; rfl, hleads (exec_sound hf).2,
      hq, hq', hspec⟩
  rcases List.mem_append.mp h with h | h
  · exact hseq rfl leads_of_fromClause h
  · exact hseq rfl leads_of_bareImport h

theorem Reads.eq_of_text {m : Found UInt16} {lead spec lead' spec' rest rest' : JsString}
    {q c q' c' : UInt16} (h : Reads m lead q spec c) (hlead' : ∀ d ∈ lead', isQuote d = false)
    (hq' : isQuote q' = true) (hspec' : ∀ d ∈ spec', isQuote d = false) (hc' : isQuote c' = true)
    (htext : m.text ++ rest = lead' ++ q' :: (spec' ++ c' :: rest')) : spec = spec' := by
  rw [h.text, List.append_assoc, List.cons_append, List.append_assoc, List.singleton_append] at htext
  obtain ⟨-, -, htext⟩ := quote_inj h.leads.bare hlead' h.quote hq' htext
  exact (quote_inj h.spec.2 hspec' h.quote' hc' htext).1

theorem accepts_specifierText {q q' : UInt16} {spec : JsString} (hq : isQuote q = true)
    (hspec : spec ≠ [] ∧ ∀ c ∈ spec, isQuote c = false) (hq' : isQuote q' = true) :
    Accepts specifierText b (q :: (spec ++ [q'])) t := by
  have hunit : ∀ c ∈ spec, (!(js "\"'").contains c) = true := fun c hc => by
    rw [Bool.not_eq_true']
    exact hspec.2 c hc
  simp only [specifierText, Regex.all, without, accepts_seq, accepts_char, accepts_group,
    accepts_plus_char]
  exact ⟨[q], _, rfl, ⟨q, rfl, hq⟩, spec, [q'], rfl, ⟨hspec.1, hunit⟩, q', rfl, hq'⟩

theorem accepts_fromClause {edge indent keyword words gap : JsString} {space : UInt16}
    (hedge : (edge = [] ∧ b = none) ∨ edge = [10]) (hindent : ∀ c ∈ indent, isWhiteUnit c = true)
    (hkeyword : keyword = js "import" ∨ keyword = js "export") (hspace : isWhiteUnit space = true)
    (hwords : ∀ c ∈ words, isQuote c = false ∧ c ≠ 10) (hgap : gap ≠ [])
    (hwhite : ∀ c ∈ gap, isWhiteUnit c = true) : Accepts fromClause b
      (edge ++ (indent ++ (keyword ++ ([space] ++ (words ++ (js "from" ++ gap)))))) t := by
  have hunit : ∀ c ∈ words, (!(js "'\"\n").contains c) = true := fun c hc => by
    obtain ⟨hquote, hline⟩ := hwords c hc
    have hne : ¬ (c = 34 ∨ c = 39) := fun h => by simp [isQuote_iff.mpr h] at hquote
    simp [js, JsString.ofText, utf16]
    tauto
  simp only [fromClause, Regex.all, many, white, without, accepts_seq, accepts_alt, accepts_lit,
    accepts_char, accepts_star_char, accepts_plus_char]
  exact ⟨edge, _, rfl, accepts_lineStart.mpr hedge, indent, _, rfl, hindent, keyword, _, rfl,
    hkeyword, [space], _, rfl, ⟨space, rfl, hspace⟩, words, _, rfl, hunit, js "from", gap, rfl, rfl,
    hgap, hwhite⟩

theorem accepts_bareImport {edge indent gap : JsString}
    (hedge : (edge = [] ∧ b = none) ∨ edge = [10]) (hindent : ∀ c ∈ indent, isWhiteUnit c = true)
    (hgap : gap ≠ []) (hwhite : ∀ c ∈ gap, isWhiteUnit c = true) :
    Accepts bareImport b (edge ++ (indent ++ (js "import" ++ gap))) t := by
  simp only [bareImport, Regex.all, many, white, accepts_seq, accepts_lit, accepts_star_char,
    accepts_plus_char]
  exact ⟨edge, _, rfl, accepts_lineStart.mpr hedge, indent, _, rfl, hindent, js "import", gap, rfl,
    rfl, hgap, hwhite⟩

theorem accepts_statement {edge indent opening spec : JsString} {q q' : UInt16}
    (hedge : (edge = [] ∧ b = none) ∨ edge = [10]) (hindent : ∀ c ∈ indent, isWhiteUnit c = true)
    (hopening : Opening opening) (hq : isQuote q = true) (hq' : isQuote q' = true)
    (hspec : spec ≠ [] ∧ ∀ c ∈ spec, isQuote c = false) :
    Accepts IMPORT_SPECIFIER_RE.regex b ((edge ++ (indent ++ opening)) ++ q :: (spec ++ [q'])) t := by
  cases hopening with
  | clause hkeyword hspace hwords hgap hwhite =>
    have hclause := accepts_fromClause (t := q :: (spec ++ [q']) ++ t) hedge hindent hkeyword hspace
      hwords hgap hwhite
    refine .left ?_
    simpa using Accepts.seq hclause (accepts_specifierText hq hspec hq')
  | bare hgap hwhite =>
    have hbare := accepts_bareImport (t := q :: (spec ++ [q']) ++ t) hedge hindent hgap hwhite
    exact .right (.seq hbare (accepts_specifierText hq hspec hq'))

theorem Opening.bare_of {opening : JsString} (h : Opening opening) : ∀ c ∈ opening, isQuote c = false := by
  have hwords : ∀ c ∈ js "import" ++ js "export" ++ js "from", isQuote c = false :=
      List.forall_iff_forall_mem.mp (by decide)
  simp only [List.forall_mem_append] at hwords
  obtain ⟨⟨himport, hexport⟩, hfrom⟩ := hwords
  cases h with
  | clause hkeyword hspace hwords hgap hwhite =>
    simp only [List.forall_mem_append, List.forall_mem_cons]
    refine ⟨⟨⟨?_, not_quote_of_white hspace, fun c hc => (hwords c hc).1⟩, hfrom⟩, fun c hc =>
      not_quote_of_white (hwhite c hc)⟩
    rcases hkeyword with rfl | rfl
    · exact himport
    · exact hexport
  | bare hgap hwhite =>
    simp only [List.forall_mem_append]
    exact ⟨himport, fun c hc => not_quote_of_white (hwhite c hc)⟩

end

-- ---------------------------------------------------------------------------
-- What is found
-- ---------------------------------------------------------------------------

/-- A match that ends behind a text has its quotes there, or the text leaves one open. -/
theorem Reads.quote_behind {m : Found UInt16} {lead u v spec x more : JsString} {q q' : UInt16}
    (h : Reads m lead q spec q') (htext : m.text = u ++ v) (hv : v ≠ [])
    (hmore : ∀ c ∈ more, isQuote c = false) (hopen : ¬ LeavesOpen (x ++ u ++ more)) :
    ∀ c ∈ u, isQuote c = false := by
  by_contra hquote
  obtain ⟨c, hc, hquote⟩ : ∃ c ∈ u, isQuote c = true := by simpa using hquote
  -- the first quote of the front is the one of the match
  obtain ⟨before, first, after, rfl, hfirst, hbefore⟩ :
      ∃ before first after, u = before ++ first :: after ∧ isQuote first = true ∧
        ∀ c ∈ before, isQuote c = false := by
    obtain ⟨first, before, after, hnot, hfirst, rfl, -⟩ :=
      List.exists_of_eraseP hc hquote
    exact ⟨before, first, after, rfl, hfirst, fun c hc => by simpa using hnot c hc⟩
  rw [h.text, List.append_assoc, List.cons_append] at htext
  obtain ⟨rfl, rfl, hrest⟩ := quote_inj h.leads.bare hbefore h.quote hfirst htext
  have hafter : ∀ c ∈ after, isQuote c = false := by
    intro c hc
    have hfront : after <+: spec := by
      refine List.prefix_of_prefix_length_le ⟨v, hrest.symm⟩ (List.prefix_append _ _) ?_
      have hlength := congrArg List.length hrest
      have hpos := List.length_pos_iff.mpr hv
      simp only [List.length_append, List.length_singleton] at hlength
      omega
    exact h.spec.2 c (hfront.subset hc)
  obtain ⟨front, gap, rfl, hends, hgap, hwhite⟩ := h.leads.ends
  refine hopen ⟨x ++ front, gap, q, after ++ more, by simp, ?_, hgap, hwhite, h.quote,
    List.forall_mem_append.mpr ⟨hafter, hmore⟩⟩
  exact hends.imp (·.trans (List.suffix_append x front)) (·.trans (List.suffix_append x front))

/-- The pattern finds a statement at the start of a line. -/
theorem Imports.mem {source spec : JsString} (h : Imports source spec) :
    spec ∈ extractSpecifiers source := by
  obtain ⟨before, indent, opening, q, q', rest, rfl, hline, hopen, hindent, hopening, hq, hq',
    hspec⟩ := h
  -- the match starts at the line break, or where the text starts
  obtain ⟨x, edge, rfl, hedge⟩ : ∃ x edge, before = x ++ edge ∧
      ((edge = [] ∧ x.getLast? = none) ∨ edge = [10]) := by
    rcases hline with rfl | hline
    · exact ⟨[], [], rfl, .inl ⟨rfl, rfl⟩⟩
    · obtain ⟨x, rfl⟩ := List.getLast?_eq_some_iff.mp hline
      exact ⟨x, [10], rfl, .inr rfl⟩
  have hlead : ∀ c ∈ edge ++ (indent ++ opening), isQuote c = false := by
    simp only [List.forall_mem_append]
    refine ⟨?_, fun c hc => not_quote_of_white (hindent c hc), hopening.bare_of⟩
    rcases hedge with ⟨rfl, -⟩ | rfl <;> exact List.forall_iff_forall_mem.mp (by decide)
  have hsource : x ++ edge ++ (indent ++ opening ++ q :: spec ++ q' :: rest) =
      x ++ ((edge ++ (indent ++ opening)) ++ q :: (spec ++ q' :: rest)) := by simp
  have haccept := accepts_statement (b := x.getLast?) (t := rest) hedge hindent hopening hq hq' hspec
  obtain ⟨m, hm, -⟩ := exec_complete haccept
  obtain ⟨found, hfound⟩ : ∃ found, IMPORT_SPECIFIER_RE.at? x.getLast?
      ((edge ++ (indent ++ opening)) ++ q :: (spec ++ q' :: rest)) = some found := by
    refine Option.isSome_iff_exists.mp ?_
    rw [Pattern.at?, List.isSome_head?]
    simpa using List.ne_nil_of_mem hm
  rw [hsource]
  have hmem : ∀ {y m lead s c d}, (y, m) ∈ IMPORT_SPECIFIER_RE.scan
      (x ++ ((edge ++ (indent ++ opening)) ++ q :: (spec ++ q' :: rest))) → Reads m lead c s d →
      s = spec → spec ∈ extractSpecifiers
        (x ++ ((edge ++ (indent ++ opening)) ++ q :: (spec ++ q' :: rest))) := by
    rintro y m lead s c d hscan hreads rfl
    refine List.mem_filter.mpr ⟨List.mem_map.mpr ⟨_, hscan, ?_⟩, by simpa using hspec.1⟩
    rw [hreads.groups, List.headD_cons]
  have hplace := @scanFrom_place _ IMPORT_SPECIFIER_RE _ []
    (x ++ ((edge ++ (indent ++ opening)) ++ q :: (spec ++ q' :: rest))) (Nat.le_refl _) x _ found rfl
    (Nat.zero_le _) hfound
  rcases hplace with hscan | ⟨x', m', u, v, hscan, htext, -, hv, rfl, hbehind⟩
  · obtain ⟨lead, c, s, c', hreads⟩ := exec_reads (List.mem_of_mem_head? hfound)
    exact hmem hscan hreads
      (hreads.eq_of_text hlead hq hspec.2 hq' (Pattern.at?_sound hfound).2.symm)
  · -- the scan has a match that begins earlier and ends in the statement
    obtain ⟨-, hat⟩ := scanFrom_split hscan
    obtain ⟨lead, c, s, c', hreads⟩ := exec_reads (List.mem_of_mem_head? hat)
    have hmore : ∀ c ∈ edge, isQuote c = false := fun c hc => hlead c (by simp [hc])
    have hu := hreads.quote_behind htext hv hmore hopen
    have hsplit : m'.text ++ m'.rest = (u ++ (edge ++ (indent ++ opening))) ++ q :: (spec ++ q' :: rest) := by
      rw [htext, List.append_assoc, ← hbehind]
      simp
    exact hmem hscan hreads
      (hreads.eq_of_text (List.forall_mem_append.mpr ⟨hu, hlead⟩) hq hspec.2 hq' hsplit)

end EsigSuite.PillarBridge
