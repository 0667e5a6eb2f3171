import EsigSuite.Lib.JsRegex

/-!
# The html sanitizer

`esig-mcp/src/sanitize.ts`: the patterns of one pass and the loop around it.
`toLowerCase` of strings is a parameter; the patterns themselves fold ASCII only.
-/

namespace EsigSuite

open Lib Lib.Regex

structure SanitizeResult where
  html : JsString
  removed : List JsString

-- ---------------------------------------------------------------------------
-- Tags
-- ---------------------------------------------------------------------------

/-- `<name\b[^>]*` -/
def tagFront (name : String) : Regex UInt16 :=
  .all [chr '<', folded name, boundary, many (without ">")]

/-- `<\/name\s*>` -/
def closingTag (name : String) : Regex UInt16 :=
  .all [chr '<', chr '/', folded name, many white, chr '>']

/-- `<name\b[^>]*>[\s\S]*?<\/name\s*>` -/
def paired (name : String) : Pattern UInt16 where
  regex := .seq (tagFront name) (.all [chr '>', .star true anyUnit, closingTag name])
  consumes := rfl

def SCRIPT_PAIRED_RE : Pattern UInt16 := paired "script"

def SCRIPT_VOID_RE : Pattern UInt16 where
  regex := .seq (tagFront "script") (.all [chr '/', chr '>'])
  consumes := rfl

def SCRIPT_UNTERMINATED_RE : Pattern UInt16 where
  regex := .seq (tagFront "script") (.all [chr '>', many anyUnit, finish])
  consumes := rfl

def DANGEROUS_TAGS : List String := ["iframe", "object", "embed", "form"]

/-- `<tag\b[^>]*\/?>` -/
def solo (tag : String) : Pattern UInt16 where
  regex := .seq (tagFront tag) (.all [opt (chr '/'), chr '>'])
  consumes := rfl

-- ---------------------------------------------------------------------------
-- Attributes
-- ---------------------------------------------------------------------------

/-- `(?<=[\s/"'])` -/
def attrBoundary : Regex UInt16 :=
  behind fun c => isWhiteUnit c || (js "/\"'").contains c

/-- `("[^"]*"|'[^']*'|[^\s>]+)` -/
def attrValue : Regex UInt16 :=
  .group (.oneOf [
    .all [within "\"", many (without "\""), within "\""],
    .all [within "'", many (without "'"), within "'"],
    plus (.char fun c => !isWhiteUnit c && c != unitOf '>')])

def EVENT_ATTR_RE : Pattern UInt16 where
  regex := .all [attrBoundary, folded "on", .char isLetterUnit,
    many (.char fun c => isLetterUnit c || isDigitUnit c), many white, chr '=', many white,
    attrValue]
  consumes := rfl

def URL_ATTRS : List String :=
  ["href", "src", "srcset", "action", "formaction", "background", "poster", "data", "codebase",
    "dynsrc", "lowsrc", "style"]

def URL_ATTR_RE : Pattern UInt16 where
  regex := .all [attrBoundary,
    .group (.seq (opt (.seq (plus (.char isLetterUnit)) (chr ':'))) (.oneOf (URL_ATTRS.map folded))),
    many white, chr '=', many white, attrValue]
  consumes := rfl

def NAMED_ENTITIES : List (String × JsString) :=
  [("colon", js ":"), ("tab", js "\t"), ("newline", js "\n"), ("lpar", js "("), ("rpar", js ")"),
    ("quot", js "\""), ("apos", js "'"), ("sol", js "/")]

/-- `String.fromCodePoint(n)` -/
def fromCodePoint (n : Nat) : JsString :=
  if n < 0x10000 then [UInt16.ofNat n]
  else
    [UInt16.ofNat (0xD800 + (n - 0x10000) / 0x400), UInt16.ofNat (0xDC00 + (n - 0x10000) % 0x400)]

def codePointOrReplacement (n : Nat) : JsString :=
  if n ≤ 0x10FFFF then fromCodePoint n else [0xFFFD]

/-- `parseInt` of digits that a pattern has matched. -/
def digitsValue (base : Nat) (digits : JsString) : Nat :=
  digits.foldl (fun n c =>
    base * n + if isDigitUnit c then c.toNat - 0x30 else (foldCase c).toNat - 0x57) 0

def firstGroup (m : Found UInt16) : JsString := m.groups.headD []

/-- `replace` of every match by a text. -/
def replaceAll (p : Pattern UInt16) (change : Found UInt16 → JsString) (text : JsString) : JsString :=
  (p.replace (fun m => (change m, ([] : List Unit))) text).1

/-- `/^["']|["']$/g` -/
def quotes : Pattern UInt16 where
  regex := .alt (.seq start (within "\"'")) (.seq (within "\"'") finish)
  consumes := rfl

/-- `/&#x([0-9a-f]+);?/gi` -/
def hexEntity : Pattern UInt16 where
  regex := .all [lit "&#", folded "x", .group (plus (.char isHexUnit)), opt (chr ';')]
  consumes := rfl

/-- `/&#(\d+);?/g` -/
def decimalEntity : Pattern UInt16 where
  regex := .all [lit "&#", .group (plus (.char isDigitUnit)), opt (chr ';')]
  consumes := rfl

/-- `/&(colon|…|sol);/gi` -/
def namedEntity : Pattern UInt16 where
  regex := .all [chr '&', .group (.oneOf (NAMED_ENTITIES.map fun e => folded e.1)), chr ';']
  consumes := rfl

/-- `/\\([0-9a-f]{1,6})\s?/gi` -/
def cssEscape : Pattern UInt16 where
  regex := .all [chr '\\', .group (.seq (.char isHexUnit) (upTo 5 (.char isHexUnit))), opt white]
  consumes := rfl

/-- `/\\([^0-9a-f\r\n])/gi` -/
def cssLiteral : Pattern UInt16 where
  regex := .all [chr '\\',
    .group (.char fun c => !isHexUnit c && !(js "\r\n").contains c)]
  consumes := rfl

/-- `[\s\x00-\x1f\x7f]` -/
def isIgnored (c : UInt16) : Bool := isWhiteUnit c || c ≤ 0x1F || c == 0x7F

def namedEntityText (name : JsString) : JsString :=
  ((NAMED_ENTITIES.find? fun e => js e.1 == name.map foldCase).map (·.2)).getD []

section
variable (toLowerCase : JsString → JsString)

def normalizeUrlValue (raw : JsString) : JsString :=
  let text := replaceAll quotes (fun _ => []) raw
  let text := replaceAll hexEntity (fun m => codePointOrReplacement (digitsValue 16 (firstGroup m))) text
  let text :=
    replaceAll decimalEntity (fun m => codePointOrReplacement (digitsValue 10 (firstGroup m))) text
  let text := replaceAll namedEntity (fun m => namedEntityText (firstGroup m)) text
  let text := replaceAll cssEscape (fun m => codePointOrReplacement (digitsValue 16 (firstGroup m))) text
  let text := replaceAll cssLiteral firstGroup text
  toLowerCase (text.filter fun c => !isIgnored c)

/-- `/^(?:javascript|vbscript):|^data:text\/html/` -/
def UNSAFE_SCHEME_RE : Regex UInt16 :=
  .alt (.all [start, .oneOf [lit "javascript", lit "vbscript"], chr ':'])
    (.all [start, lit "data:text/html"])

/-- `/url\(["']?(?:javascript:|vbscript:|data:text\/html)/` -/
def unsafeUrl : Regex UInt16 :=
  .all [lit "url(", opt (within "\"'"),
    .oneOf [lit "javascript:", lit "vbscript:", lit "data:text/html"]]

def isUnsafeUrlValue (attr raw : JsString) : Bool :=
  let v := normalizeUrlValue toLowerCase raw
  if attr = js "style" then unsafeUrl.test none v || (lit "expression(").test none v
  else (v.splitOn (unitOf ',')).any fun part => UNSAFE_SCHEME_RE.test none part

/-- `/\s*=/` -/
def equalsSign : Pattern UInt16 where
  regex := .all [many white, chr '=']
  consumes := rfl

def attrNameFromMatch (m : JsString) : JsString := toLowerCase (equalsSign.firstPiece none m)

/-- `attr.toLowerCase().replace(/^[a-z]+:/, "")` -/
def localName (attr : JsString) : JsString :=
  let attr := toLowerCase attr
  match ((Regex.all [plus (.char (inRange 0x61 0x7A)), chr ':']).exec none attr).head? with
  | some m => m.rest
  | none => attr

-- ---------------------------------------------------------------------------
-- One pass
-- ---------------------------------------------------------------------------

/-- `removed.push`, of a name unless it is empty. -/
def pushed (name suffix : JsString) : List JsString := if name = [] then [] else [name ++ suffix]

def stripTag (p : Pattern UInt16) (name : String) : Pass UInt16 JsString :=
  p.replace fun _ => ([], [js name])

def stripEvent (m : Found UInt16) : JsString × List JsString :=
  ([], pushed (attrNameFromMatch toLowerCase m.text) [])

def stripUrl (m : Found UInt16) : JsString × List JsString :=
  let attr := m.groups.headD []
  let value := m.groups.tail.headD []
  if isUnsafeUrlValue toLowerCase (localName toLowerCase attr) value then
    ([], pushed (attrNameFromMatch toLowerCase m.text) (js "=javascript:"))
  else (m.text, [])

def tagPasses : List (Pass UInt16 JsString) :=
  [stripTag SCRIPT_PAIRED_RE "script", stripTag SCRIPT_VOID_RE "script",
    stripTag SCRIPT_UNTERMINATED_RE "script"] ++
  DANGEROUS_TAGS.flatMap fun tag => [stripTag (paired tag) tag, stripTag (solo tag) tag]

def passes : List (Pass UInt16 JsString) :=
  tagPasses ++
    [EVENT_ATTR_RE.replace (stripEvent toLowerCase), URL_ATTR_RE.replace (stripUrl toLowerCase)]

def stripOnce : Pass UInt16 JsString := .all (passes toLowerCase)

def sanitizeEnvelopeHtml (html : JsString) : SanitizeResult :=
  let result := Pass.settle (stripOnce toLowerCase) html
  { html := result.1, removed := result.2 }

-- ---------------------------------------------------------------------------
-- What the loop leaves
-- ---------------------------------------------------------------------------

theorem stripTag_shortens (p : Pattern UInt16) (name : String) : (stripTag p name).Shortens :=
  (Removes.trims fun _ => rfl).replace_shorter

theorem stripUrl_trims : Trims (stripUrl toLowerCase) := by
  intro found hne
  unfold stripUrl
  dsimp only
  split_ifs
  · exact .inr (List.length_pos_iff.mpr hne)
  · exact .inl rfl

theorem tagPasses_tag {pass : Pass UInt16 JsString} (h : pass ∈ tagPasses) :
    ∃ p name, pass = stripTag p name := by
  rcases List.mem_append.mp h with h | h
  · simp only [List.mem_cons, List.not_mem_nil, or_false] at h
    rcases h with rfl | rfl | rfl <;> exact ⟨_, _, rfl⟩
  · obtain ⟨tag, -, h⟩ := List.mem_flatMap.mp h
    simp only [List.mem_cons, List.not_mem_nil, or_false] at h
    rcases h with rfl | rfl <;> exact ⟨_, _, rfl⟩

theorem passes_shorten : ∀ pass ∈ passes toLowerCase, pass.Shortens := by
  intro pass h
  rcases List.mem_append.mp h with h | h
  · obtain ⟨p, name, rfl⟩ := tagPasses_tag h
    exact stripTag_shortens p name
  · simp only [List.mem_cons, List.not_mem_nil, or_false] at h
    rcases h with rfl | rfl
    · exact (Removes.trims fun _ => rfl).replace_shorter
    · exact (stripUrl_trims toLowerCase).replace_shorter

theorem stripOnce_shortens : (stripOnce toLowerCase).Shortens :=
  Pass.all_shortens (passes_shorten toLowerCase)

/-- The loop ends with a pass that changes nothing. -/
theorem sanitized_fixed (html : JsString) :
    (stripOnce toLowerCase (sanitizeEnvelopeHtml toLowerCase html).html).1 =
      (sanitizeEnvelopeHtml toLowerCase html).html := by
  have h := Pass.settle_fixed (stripOnce_shortens toLowerCase) html
  simpa only [sanitizeEnvelopeHtml] using h

/-- Where one more pass changes nothing, no pattern matches whose matches are removed. -/
theorem fixed_removes {text : JsString} (hfixed : (stripOnce toLowerCase text).1 = text)
    {p : Pattern UInt16} {edit : Found UInt16 → JsString × List JsString} (hedit : Removes edit)
    (hp : p.replace edit ∈ passes toLowerCase) {x w t : JsString} (hsplit : text = x ++ (w ++ t)) :
    ¬ Accepts p.regex x.getLast? w t := by
  intro haccept
  have hpass := Pass.all_fixed (passes_shorten toLowerCase) hfixed _ hp
  have hne : w ++ t ≠ [] := by simp [haccept.ne_nil p.consumes]
  have hnone := hedit.replace_none hpass x (w ++ t) hsplit hne
  exact Pattern.at?_eq_none.mp hnone w t rfl haccept

theorem fixed_none {text : JsString} (hfixed : (stripOnce toLowerCase text).1 = text)
    {p : Pattern UInt16} {name : String} (hp : stripTag p name ∈ tagPasses) {x w t : JsString}
    (hsplit : text = x ++ (w ++ t)) : ¬ Accepts p.regex x.getLast? w t :=
  fixed_removes toLowerCase hfixed (fun _ => rfl) (List.mem_append_left _ hp) hsplit

end

end EsigSuite
