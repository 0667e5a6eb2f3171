import EsigSuite.Mcp.Compose
import EsigSuite.Mcp.Sanitize

/-!
# Tags that composition completes

The sanitizer looks at the html alone, so a tag that is never closed is no tag to
it. What is appended then closes it.
-/

namespace EsigSuite

open Lib Lib.Regex

/-- The tags that the sanitizer strips. -/
def STRIPPED : List String := "script" :: DANGEROUS_TAGS

/-- `<name\b[^>]*>` -/
def openTag (name : String) : Regex UInt16 := .seq (tagFront name) (chr '>')

/-- A stripped kind of tag opens within the first `n` units of the text. -/
def OpensWithin (n : Nat) (text : JsString) : Prop :=
  ∃ name ∈ STRIPPED, ∃ x w t, text = x ++ (w ++ t) ∧ x.length < n ∧
    Accepts (openTag name) x.getLast? w t

/-- `/<(?:script|iframe|object|embed|form)\b[^>]*$/i` -/
def endsInOpenTag (text : JsString) : Bool :=
  STRIPPED.any fun name => (Regex.seq (tagFront name) finish).test none text

-- ---------------------------------------------------------------------------
-- The front of a tag
-- ---------------------------------------------------------------------------

section
variable {name : String} {b : Option UInt16} {w t : JsString}

/-- `\b` behind the name of a tag -/
def bounds (v : JsString) (after : Option UInt16) : Prop :=
  ((v.getLast?.or (some (unitOf '<'))).any isWordUnit != after.any isWordUnit) = true

theorem accepts_tagFront : Accepts (tagFront name) b w t ↔
    ∃ v u, w = unitOf '<' :: (v ++ u) ∧ v.map foldCase = js name ∧
      bounds v (u ++ t).head? ∧ ∀ c ∈ u, c ≠ unitOf '>' := by
  have hclose : js ">" = [unitOf '>'] := by decide
  constructor
  · intro h
    obtain ⟨_, w, rfl, hopen, h⟩ := accepts_seq.mp h
    obtain rfl := accepts_chr.mp hopen
    obtain ⟨v, w, rfl, hname, h⟩ := accepts_seq.mp h
    obtain ⟨_, u, rfl, hassert, h⟩ := accepts_seq.mp h
    obtain ⟨rfl, hbounds⟩ := accepts_assert.mp hassert
    refine ⟨v, u, rfl, accepts_folded.mp hname, hbounds, fun c hc => ?_⟩
    simpa [hclose] using accepts_star_char.mp h c hc
  · rintro ⟨v, u, rfl, hname, hbounds, hu⟩
    have hmany : Accepts (many (without ">")) (v.getLast?.or (some (unitOf '<'))) u t :=
      accepts_star_char.mpr fun c hc => by simpa [hclose] using hu c hc
    have hrest := Accepts.seq (.assert (p := fun before after =>
      before.any isWordUnit != after.any isWordUnit) hbounds) hmany
    exact .seq (accepts_chr.mpr rfl) (.seq (accepts_folded.mpr hname) hrest)

/-- Of what follows a front only the next unit counts. -/
theorem tagFront_rest {c : UInt16} {t' : JsString} (h : Accepts (tagFront name) b w (c :: t)) :
    Accepts (tagFront name) b w (c :: t') := by
  obtain ⟨v, u, rfl, hname, hbounds, hu⟩ := accepts_tagFront.mp h
  refine accepts_tagFront.mpr ⟨v, u, rfl, hname, ?_, hu⟩
  cases u with
  | nil => exact hbounds
  | cons d u => exact hbounds

theorem tagFront_ne_nil (h : Accepts (tagFront name) b w t) : w ≠ [] := h.ne_nil rfl

/-- The front goes on through units that close nothing. -/
theorem tagFront_extend {more : JsString} (h : Accepts (tagFront name) b w [])
    (hmore : ∀ c ∈ more, c ≠ unitOf '>') (hword : more.head?.any isWordUnit = false)
    (hne : more ≠ []) : Accepts (tagFront name) b (w ++ more) t := by
  obtain ⟨v, u, rfl, hname, hbounds, hu⟩ := accepts_tagFront.mp h
  refine accepts_tagFront.mpr ⟨v, u ++ more, by simp, hname, ?_, ?_⟩
  · obtain ⟨c, more, rfl⟩ := List.exists_cons_of_ne_nil hne
    have hc : isWordUnit c = false := hword
    cases u with
    | nil => simpa [bounds, hc] using hbounds
    | cons d u => exact hbounds
  · intro c hc
    exact (List.mem_append.mp hc).elim (hu c) (hmore c)

/-- A front that reaches beyond a place where no name goes on ends the text there. -/
theorem tagFront_cut {z rest : JsString} {c : UInt16} (h : Accepts (tagFront name) b (z ++ c :: rest) t)
    (hz : z ≠ []) (hc : foldCase c ∉ js name) (hword : isWordUnit c = false) :
    Accepts (tagFront name) b z [] := by
  obtain ⟨v, u, hsplit, hname, hbounds, hu⟩ := accepts_tagFront.mp h
  obtain ⟨_, z, rfl⟩ := List.exists_cons_of_ne_nil hz
  obtain ⟨rfl, hcut⟩ := List.cons.inj hsplit
  rcases List.append_eq_append_iff.mp hcut with ⟨more, hv, hrest⟩ | ⟨u', hz', hu'⟩
  · -- the text would be cut inside the name, or right behind it
    cases more with
    | nil =>
      obtain rfl : v = z := by simpa using hv
      obtain rfl : c :: rest = u := by simpa using hrest
      refine accepts_tagFront.mpr ⟨v, [], by simp, hname, ?_, by simp⟩
      simpa [bounds, hword] using hbounds
    | cons d more =>
      obtain ⟨rfl, -⟩ := List.cons.inj hrest
      have hmem : foldCase c ∈ v.map foldCase := by
        rw [hv]
        simp
      exact absurd (hname ▸ hmem) hc
  · subst hz' hu'
    refine accepts_tagFront.mpr ⟨v, u', rfl, hname, ?_, fun d hd => hu d (by simp [hd])⟩
    cases u' with
    | nil => simpa [bounds, hword] using hbounds
    | cons d u' => exact hbounds

end

-- ---------------------------------------------------------------------------
-- The rendered document
-- ---------------------------------------------------------------------------

section
variable (toLowerCase : JsString → JsString)

/-- What the sanitizer returns holds no whole tag of a kind that it strips. -/
theorem fixed_closed {html : JsString} (hfixed : (stripOnce toLowerCase html).1 = html)
    {name : String} (hname : name ∈ STRIPPED) {x w t : JsString}
    (hsplit : html = x ++ (w ++ unitOf '>' :: t)) :
    ¬ Accepts (tagFront name) x.getLast? w (unitOf '>' :: t) := by
  intro hfront
  rcases List.mem_cons.mp hname with rfl | htag
  · have hp : stripTag SCRIPT_UNTERMINATED_RE "script" ∈ tagPasses := by simp [tagPasses]
    refine fixed_none toLowerCase hfixed hp (x := x) (w := w ++ unitOf '>' :: t) (t := []) ?_ ?_
    · rw [hsplit, List.append_nil]
    · refine .seq (by simpa using hfront) (.seq (u := [unitOf '>']) (accepts_chr.mpr rfl) ?_)
      have hall : Accepts (many anyUnit) (some (unitOf '>')) t [] :=
        accepts_star_char.mpr fun _ _ => rfl
      have hend : Accepts (.seq (many anyUnit) finish) (some (unitOf '>')) (t ++ []) [] :=
        .seq hall (accepts_finish.mpr ⟨rfl, rfl⟩)
      rwa [List.append_nil] at hend
  · have hp : stripTag (solo name) name ∈ tagPasses :=
      List.mem_append_right _ (List.mem_flatMap.mpr ⟨name, htag, by simp⟩)
    refine fixed_none toLowerCase hfixed hp (x := x) (w := w ++ [unitOf '>']) (t := t) ?_ ?_
    · rw [hsplit, List.append_assoc, List.singleton_append]
    · refine .seq hfront (.seq (u := []) ?_ (accepts_chr.mpr rfl))
      exact .right .empty

theorem unnamed_newline {name : String} (hname : name ∈ STRIPPED) :
    foldCase (unitOf '\n') ∉ js name := by
  revert name
  decide

/-- The blocks' own opening tag, up to its end. -/
def blockFront : JsString := js "\n<div class=\"signature-block\""

theorem blockFront_open : ∀ c ∈ blockFront, c ≠ unitOf '>' :=
  List.forall_iff_forall_mem.mp (by decide)

theorem endsInOpenTag_iff {html : JsString} : endsInOpenTag html = true ↔
    ∃ name ∈ STRIPPED, ∃ x w, html = x ++ w ∧ Accepts (tagFront name) x.getLast? w [] := by
  rw [endsInOpenTag, List.any_eq_true]
  refine exists_congr fun name => and_congr_right fun _ => test_eq_true.trans ?_
  constructor
  · rintro ⟨x, _, _, hsplit, h⟩
    obtain ⟨w, _, rfl, hfront, hfinish⟩ := accepts_seq.mp h
    obtain ⟨rfl, rfl⟩ := accepts_finish.mp hfinish
    rw [Option.or_none] at hfront
    exact ⟨x, w, by simpa using hsplit, hfront⟩
  · rintro ⟨x, w, hsplit, hfront⟩
    refine ⟨x, w ++ [], [], by simpa using hsplit, .seq ?_ (accepts_finish.mpr ⟨rfl, rfl⟩)⟩
    rwa [Option.or_none]

/-- Where a text that holds no whole tag goes on with the blocks, a tag opens in it
iff it ends in an open one. -/
theorem opensWithin_append {html : JsString} (tail : JsString)
    (hclosed : ∀ name ∈ STRIPPED, ∀ x w t, html = x ++ (w ++ unitOf '>' :: t) →
      ¬ Accepts (tagFront name) x.getLast? w (unitOf '>' :: t)) :
    OpensWithin html.length (html ++ blockFront ++ unitOf '>' :: tail) ↔
      endsInOpenTag html = true := by
  rw [endsInOpenTag_iff]
  constructor
  · rintro ⟨name, hname, x, _, t, hsplit, hlt, hopen⟩
    obtain ⟨w, _, rfl, hfront, hgt⟩ := accepts_seq.mp hopen
    obtain rfl := accepts_chr.mp hgt
    obtain ⟨z, rfl, hrest⟩ : ∃ z, html = x ++ z ∧
        z ++ (blockFront ++ unitOf '>' :: tail) = w ++ unitOf '>' :: t := by
      rw [List.append_assoc] at hsplit
      rcases List.append_eq_append_iff.mp hsplit with ⟨z, rfl, -⟩ | ⟨z, rfl, h⟩
      · rw [List.length_append] at hlt
        omega
      · exact ⟨z, rfl, by simpa using h.symm⟩
    have hz : z ≠ [] := by
      rintro rfl
      simp at hlt
    rcases List.append_eq_append_iff.mp hrest with ⟨m, rfl, hm⟩ | ⟨m, rfl, hm⟩
    · -- the tag is closed behind the html
      cases m with
      | nil => exact absurd (List.cons.inj hm).1 (by decide)
      | cons c m =>
        obtain ⟨rfl, -⟩ := List.cons.inj hm
        exact ⟨name, hname, x, z, rfl,
          tagFront_cut hfront hz (unnamed_newline hname) (by decide)⟩
    · -- the tag is closed within the html
      cases m with
      | nil => exact absurd (List.cons.inj hm).1 (by decide)
      | cons c m =>
        obtain ⟨rfl, -⟩ := List.cons.inj hm
        exact absurd (tagFront_rest hfront) (hclosed name hname x w m rfl)
  · rintro ⟨name, hname, x, w, rfl, hfront⟩
    have hpos := List.length_pos_iff.mpr (tagFront_ne_nil hfront)
    refine ⟨name, hname, x, (w ++ blockFront) ++ [unitOf '>'], tail, by simp, by simpa using hpos,
      .seq ?_ (accepts_chr.mpr rfl)⟩
    exact tagFront_extend hfront blockFront_open (by decide) (by decide)

theorem composed_opens {toISOString : Time → JsString} {html : JsString}
    {envelope : RenderedEnvelope} {doc : JsString}
    (hhtml : envelope.html = (sanitizeEnvelopeHtml toLowerCase html).html)
    (hdoc : composed toISOString envelope = .ok doc) :
    OpensWithin envelope.html.length doc ↔ endsInOpenTag envelope.html = true := by
  obtain ⟨tail, rfl⟩ := composed_shape toISOString hdoc
  have hblock : js "\n<div class=\"signature-block\">" = blockFront ++ [unitOf '>'] := by decide
  have hfixed : (stripOnce toLowerCase envelope.html).1 = envelope.html := by
    rw [hhtml]
    exact sanitized_fixed toLowerCase html
  have hiff := opensWithin_append tail fun name hname x w t hsplit =>
    fixed_closed toLowerCase hfixed hname hsplit
  rwa [hblock, ← List.append_assoc, List.append_assoc (_ ++ _), List.singleton_append]

/-- The rendered document opens no stripped tag in the agent's html iff the html that
was stored does not end in an open tag. -/
theorem rendered_opens_no_tag_iff (toISOString : Time → JsString) (html : JsString)
    (envelope : RenderedEnvelope) (doc : JsString)
    (hhtml : envelope.html = (sanitizeEnvelopeHtml toLowerCase html).html)
    (hdoc : composed toISOString envelope = .ok doc) :
    ¬ OpensWithin envelope.html.length doc ↔ endsInOpenTag envelope.html = false := by
  rw [composed_opens toLowerCase hhtml hdoc, Bool.not_eq_true]

-- A signed envelope over a given html.

def signedOnce : RenderedSigner where
  name := js "Ada"
  email := js "ada@example.org"
  signatureImageDataUrl := some (js "data:image/png;base64,AA")
  signedAt := some 0
  roleLabel := none
  verified := none

def signedEnvelope (html : JsString) : RenderedEnvelope :=
  { status := .completed, html, signers := [signedOnce] }

theorem signedEnvelope_composed (toISOString : Time → JsString) (html : JsString) :
    ∃ doc, composed toISOString (signedEnvelope html) = .ok doc := by
  have himage : assertImageDataUrl signedOnce.signatureImageDataUrl =
      .ok (js "data:image/png;base64,AA") := by decide +kernel
  obtain ⟨row, hrow⟩ : ∃ row, signatureRow toISOString signedOnce.toSignatureBlockEntry =
      .ok row := ⟨_, bind_eq_ok.mpr ⟨_, himage, rfl⟩⟩
  refine ⟨_, bind_eq_ok.mpr ⟨_, bind_eq_ok.mpr ⟨_, bind_eq_ok.mpr ⟨[row], ?_, rfl⟩, rfl⟩, rfl⟩⟩
  simp [signedEnvelope, hrow]

theorem rendered_opens_no_tag_iff_sample :
    ∃ doc, composed (fun _ => js "1970-01-01T00:00:00.000Z") (signedEnvelope (js "<p>")) = .ok doc ∧
      ¬ OpensWithin (js "<p>").length doc := by
  obtain ⟨doc, hdoc⟩ := signedEnvelope_composed (fun _ => js "1970-01-01T00:00:00.000Z") (js "<p>")
  have hhtml : js "<p>" = (sanitizeEnvelopeHtml (List.map foldCase) (js "<p>")).html := by
    decide +kernel
  exact ⟨doc, hdoc, (rendered_opens_no_tag_iff (List.map foldCase) _ (js "<p>") _ doc hhtml
    hdoc).mpr (by decide +kernel)⟩

/-- An html that ends in `<form ` gets its form tag from the signature blocks. -/
theorem form_completed : ¬ ∀ (toLowerCase : JsString → JsString) (toISOString : Time → JsString)
    (html : JsString) (envelope : RenderedEnvelope) (doc : JsString),
    envelope.html = (sanitizeEnvelopeHtml toLowerCase html).html →
    composed toISOString envelope = .ok doc → ¬ OpensWithin envelope.html.length doc := by
  intro h
  obtain ⟨doc, hdoc⟩ := signedEnvelope_composed (fun _ => js "1970-01-01T00:00:00.000Z")
    (js "<form ")
  have hhtml : js "<form " = (sanitizeEnvelopeHtml (List.map foldCase) (js "<form ")).html := by
    decide +kernel
  refine h (List.map foldCase) _ (js "<form ") (signedEnvelope (js "<form ")) doc hhtml hdoc ?_
  exact (composed_opens (List.map foldCase) hhtml
    hdoc).mpr (by decide +kernel)

end

end EsigSuite
