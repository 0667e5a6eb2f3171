import EsigSuite.Lib.Double

/-!
# JSON

The values of JSON with the strings of JavaScript, which are UTF-16 code units
and need not be well formed. A text is a list of characters. Members keep the
order in which they were first named. `parse_stringify`: a value whose numbers
are doubles and whose objects name no key twice comes back from its text.
-/

namespace Lib

abbrev JsString := List UInt16

instance : LawfulBEq JsString := inferInstanceAs (LawfulBEq (List UInt16))

def utf16 (c : Char) : JsString :=
  if c.toNat < 0x10000 then [UInt16.ofNat c.toNat]
  else
    [UInt16.ofNat (0xD800 + (c.toNat - 0x10000) / 0x400),
      UInt16.ofNat (0xDC00 + (c.toNat - 0x10000) % 0x400)]

def JsString.ofText (text : List Char) : JsString := text.flatMap utf16

def js (s : String) : JsString := JsString.ofText s.toList

theorem utf16_small {c : Char} (h : c.toNat < 0x10000) :
    utf16 c = [UInt16.ofNat c.toNat] :=
  if_pos h

theorem utf16_pair {c : Char} (h : ¬ c.toNat < 0x10000) :
    utf16 c = [UInt16.ofNat (0xD800 + (c.toNat - 0x10000) / 0x400),
      UInt16.ofNat (0xDC00 + (c.toNat - 0x10000) % 0x400)] :=
  if_neg h

theorem toNat_ofNat {n : Nat} (h : n.isValidChar) : (Char.ofNat n).toNat = n := by
  rw [Char.ofNat, dif_pos h]
  rfl

inductive Json
  | null
  | bool (value : Bool)
  | number (value : Double)
  | string (value : JsString)
  | array (items : List Json)
  | object (members : List (JsString × Json))

namespace Json

-- ---------------------------------------------------------------------------
-- Writing
-- ---------------------------------------------------------------------------

def hexChar (n : Nat) : Char := Nat.digitChar (n % 16)

def unicodeEscape (unit : UInt16) : List Char :=
  ['\\', 'u', hexChar (unit.toNat / 4096), hexChar (unit.toNat / 256), hexChar (unit.toNat / 16),
    hexChar unit.toNat]

def isHigh (unit : UInt16) : Bool := 0xD800 ≤ unit && unit ≤ 0xDBFF

def isLow (unit : UInt16) : Bool := 0xDC00 ≤ unit && unit ≤ 0xDFFF

def quoteUnit (unit : UInt16) : List Char :=
  if unit = 8 then ['\\', 'b']
  else if unit = 9 then ['\\', 't']
  else if unit = 10 then ['\\', 'n']
  else if unit = 12 then ['\\', 'f']
  else if unit = 13 then ['\\', 'r']
  else if unit = 34 then ['\\', '"']
  else if unit = 92 then ['\\', '\\']
  else if unit < 32 ∨ isHigh unit ∨ isLow unit then unicodeEscape unit
  else [Char.ofNat unit.toNat]

/-- `QuoteJSONString` without the quotes: a surrogate pair is its character, a
lone surrogate is escaped. -/
def quote : JsString → List Char
  | [] => []
  | [unit] => quoteUnit unit
  | unit :: next :: rest =>
    if isHigh unit && isLow next then
      Char.ofNat (0x10000 + (unit.toNat - 0xD800) * 0x400 + (next.toNat - 0xDC00)) :: quote rest
    else quoteUnit unit ++ quote (next :: rest)

def stringText (s : JsString) : List Char := '"' :: (quote s ++ ['"'])

mutual

/-- `JSON.stringify` -/
def stringify : Json → List Char
  | .null => ['n', 'u', 'l', 'l']
  | .bool true => ['t', 'r', 'u', 'e']
  | .bool false => ['f', 'a', 'l', 's', 'e']
  | .number (.finite x) => Double.text (.finite x)
  | .number (.infinite _) => ['n', 'u', 'l', 'l']
  | .string s => stringText s
  | .array items => '[' :: itemsText items
  | .object members => '{' :: membersText members

/-- The items up to the closing bracket. -/
def itemsText : List Json → List Char
  | [] => [']']
  | item :: items => stringify item ++ moreItems items

def moreItems : List Json → List Char
  | [] => [']']
  | item :: items => ',' :: (stringify item ++ moreItems items)

/-- The members up to the closing brace. -/
def membersText : List (JsString × Json) → List Char
  | [] => ['}']
  | (key, value) :: members => stringText key ++ ':' :: (stringify value ++ moreMembers members)

def moreMembers : List (JsString × Json) → List Char
  | [] => ['}']
  | (key, value) :: members =>
    ',' :: (stringText key ++ ':' :: (stringify value ++ moreMembers members))

end

-- ---------------------------------------------------------------------------
-- Reading
-- ---------------------------------------------------------------------------

def isSpace (c : Char) : Bool := c == ' ' || c == '\t' || c == '\n' || c == '\r'

def skip (text : List Char) : List Char := text.dropWhile isSpace

def hexValue? (c : Char) : Option Nat :=
  if c.isDigit then some (c.toNat - 48)
  else if 'a' ≤ c ∧ c ≤ 'f' then some (c.toNat - 87)
  else if 'A' ≤ c ∧ c ≤ 'F' then some (c.toNat - 55)
  else none

def unescape? (c : Char) : Option UInt16 :=
  if c = '"' then some 34
  else if c = '\\' then some 92
  else if c = '/' then some 47
  else if c = 'b' then some 8
  else if c = 'f' then some 12
  else if c = 'n' then some 10
  else if c = 'r' then some 13
  else if c = 't' then some 9
  else none

def hexUnit? (a b c d : Char) : Option UInt16 := do
  some (UInt16.ofNat ((← hexValue? a) * 4096 + (← hexValue? b) * 256 + (← hexValue? c) * 16 +
    (← hexValue? d)))

/-- The rest of a string after its opening quote. -/
def readString : List Char → Option (JsString × List Char)
  | [] => none
  | '"' :: rest => some ([], rest)
  | '\\' :: 'u' :: a :: b :: c :: d :: rest => do
    let unit ← hexUnit? a b c d
    let (units, rest) ← readString rest
    some (unit :: units, rest)
  | '\\' :: c :: rest => do
    let unit ← unescape? c
    let (units, rest) ← readString rest
    some (unit :: units, rest)
  | c :: rest =>
    if c.toNat < 32 ∨ c = '\\' then none
    else do
      let (units, rest) ← readString rest
      some (utf16 c ++ units, rest)

def literal? (name : List Char) (value : Json) (text : List Char) : Option (Json × List Char) :=
  if name.isPrefixOf text then some (value, text.drop name.length) else none

def readNumber (text : List Char) : Option (Json × List Char) := do
  let (numeral, rest) ← readNumeral text
  some (.number (Double.round numeral.value), rest)

/-- A key named again takes the place of the earlier one. -/
def setMember (members : List (JsString × Json)) (key : JsString) (value : Json) :
    List (JsString × Json) :=
  if members.any (·.1 == key) then
    members.map fun member => if member.1 = key then (key, value) else member
  else members ++ [(key, value)]

def ofMembers (members : List (JsString × Json)) : Json :=
  .object (members.foldl (fun found member => setMember found member.1 member.2) [])

mutual

def readValue : Nat → List Char → Option (Json × List Char)
  | 0, _ => none
  | fuel + 1, text =>
    match skip text with
    | [] => none
    | c :: rest =>
      if c = '"' then (readString rest).map fun (s, rest) => (.string s, rest)
      else if c = '[' then
        match skip rest with
        | ']' :: rest => some (.array [], rest)
        | rest => (readItems fuel rest).map fun (items, rest) => (.array items, rest)
      else if c = '{' then
        match skip rest with
        | '}' :: rest => some (.object [], rest)
        | rest => (readMembers fuel rest).map fun (members, rest) => (ofMembers members, rest)
      else if c = 'n' then literal? ['u', 'l', 'l'] .null rest
      else if c = 't' then literal? ['r', 'u', 'e'] (.bool true) rest
      else if c = 'f' then literal? ['a', 'l', 's', 'e'] (.bool false) rest
      else readNumber (c :: rest)

def readItems : Nat → List Char → Option (List Json × List Char)
  | 0, _ => none
  | fuel + 1, text => do
    let (item, rest) ← readValue fuel text
    match skip rest with
    | ']' :: rest => some ([item], rest)
    | ',' :: rest => do
      let (items, rest) ← readItems fuel rest
      some (item :: items, rest)
    | _ => none

def readMembers : Nat → List Char → Option (List (JsString × Json) × List Char)
  | 0, _ => none
  | fuel + 1, text =>
    match skip text with
    | '"' :: rest => do
      let (key, rest) ← readString rest
      match skip rest with
      | ':' :: rest => do
        let (value, rest) ← readValue fuel rest
        match skip rest with
        | '}' :: rest => some ([(key, value)], rest)
        | ',' :: rest => do
          let (members, rest) ← readMembers fuel rest
          some ((key, value) :: members, rest)
        | _ => none
      | _ => none
    | _ => none

end

/-- `JSON.parse`, nothing where it throws. -/
def parse (text : List Char) : Option Json :=
  match readValue (text.length + 1) text with
  | some (value, rest) => if skip rest = [] then some value else none
  | none => none

-- ---------------------------------------------------------------------------
-- Strings come back from their text
-- ---------------------------------------------------------------------------

theorem hexValue?_hexChar : ∀ m < 16, hexValue? (Nat.digitChar m) = some m := by decide

theorem hexUnit?_unicode (unit : UInt16) :
    hexUnit? (hexChar (unit.toNat / 4096)) (hexChar (unit.toNat / 256)) (hexChar (unit.toNat / 16))
      (hexChar unit.toNat) = some unit := by
  have hlt := unit.toNat_lt
  have hhex : ∀ n, hexValue? (hexChar n) = some (n % 16) := fun n =>
    hexValue?_hexChar _ (Nat.mod_lt _ (by decide))
  simp only [hexUnit?, hhex, Option.bind_eq_bind, Option.bind_some, Option.some.injEq]
  apply UInt16.toNat_inj.mp
  simp only [UInt16.toNat_ofNat']
  omega

theorem readString_char {c : Char} (h : 32 ≤ c.toNat) (hquote : c ≠ '"') (hescape : c ≠ '\\')
    (rest : List Char) :
    readString (c :: rest) =
      (readString rest).map fun (units, rest) => (utf16 c ++ units, rest) := by
  rw [readString.eq_def]
  split
  · contradiction
  · rename_i heq; exact absurd (List.cons.inj heq).1 hquote
  · rename_i heq; exact absurd (List.cons.inj heq).1 hescape
  · rename_i heq; exact absurd (List.cons.inj heq).1 hescape
  · rename_i c' rest' _ _ _ heq
    obtain ⟨rfl, rfl⟩ := List.cons.inj heq
    have hctl : ¬ (c.toNat < 32 ∨ c = '\\') := by simp [hescape]; omega
    rw [if_neg hctl]
    cases readString rest <;> rfl

theorem plainUnit_valid {unit : UInt16} (h : ¬ (unit < 32 ∨ isHigh unit ∨ isLow unit)) :
    unit.toNat.isValidChar := by
  have hhigh : ¬ isHigh unit = true := fun hunit => h (.inr (.inl hunit))
  have hlow : ¬ isLow unit = true := fun hunit => h (.inr (.inr hunit))
  simp only [isHigh, isLow, Bool.and_eq_true, decide_eq_true_eq, UInt16.le_iff_toNat_le]
    at hhigh hlow
  change ¬ (0xD800 ≤ unit.toNat ∧ unit.toNat ≤ 0xDBFF) at hhigh
  change ¬ (0xDC00 ≤ unit.toNat ∧ unit.toNat ≤ 0xDFFF) at hlow
  have hlt := unit.toNat_lt
  by_cases hsmall : unit.toNat < 0xD800
  · exact .inl hsmall
  · exact .inr ⟨by omega, by omega⟩

theorem readString_unit (unit : UInt16) (rest : List Char) :
    readString (quoteUnit unit ++ rest) =
      (readString rest).map fun (units, rest) => (unit :: units, rest) := by
  unfold quoteUnit
  split_ifs with h8 h9 h10 h12 h13 h34 h92 hescaped
  iterate 7
    subst unit
    simp [readString, unescape?]
    cases readString rest <;> rfl
  · simp only [unicodeEscape, List.cons_append, List.nil_append, readString, hexUnit?_unicode]
    cases readString rest <;> rfl
  · have hchar : (Char.ofNat unit.toNat).toNat = unit.toNat :=
      toNat_ofNat (plainUnit_valid hescaped)
    have hlow : 32 ≤ unit.toNat := by
      have h32 : ¬ unit < 32 := fun h => hescaped (.inl h)
      simpa [UInt16.lt_iff_toNat_lt] using h32
    have hlt := unit.toNat_lt
    rw [List.singleton_append, readString_char (by omega)]
    · rw [utf16_small (by omega), hchar, UInt16.ofNat_toNat]
      rfl
    · intro h
      rw [h] at hchar
      exact h34 (UInt16.toNat_inj.mp hchar.symm)
    · intro h
      rw [h] at hchar
      exact h92 (UInt16.toNat_inj.mp hchar.symm)

theorem pair_valid {unit next : UInt16} (h : (isHigh unit && isLow next) = true) :
    (0x10000 + (unit.toNat - 0xD800) * 0x400 + (next.toNat - 0xDC00)).isValidChar ∧
      0xD800 ≤ unit.toNat ∧ unit.toNat ≤ 0xDBFF ∧ 0xDC00 ≤ next.toNat ∧ next.toNat ≤ 0xDFFF := by
  simp only [isHigh, isLow, Bool.and_eq_true, decide_eq_true_eq, UInt16.le_iff_toNat_le] at h
  obtain ⟨⟨h1, h2⟩, h3, h4⟩ := h
  change 0xD800 ≤ unit.toNat at h1
  change unit.toNat ≤ 0xDBFF at h2
  change 0xDC00 ≤ next.toNat at h3
  change next.toNat ≤ 0xDFFF at h4
  exact ⟨.inr ⟨by omega, by omega⟩, h1, h2, h3, h4⟩

theorem readString_pair {unit next : UInt16} (h : (isHigh unit && isLow next) = true)
    (rest : List Char) :
    readString (Char.ofNat
        (0x10000 + (unit.toNat - 0xD800) * 0x400 + (next.toNat - 0xDC00)) :: rest) =
      (readString rest).map fun (units, rest) => (unit :: next :: units, rest) := by
  obtain ⟨hvalid, h1, h2, h3, h4⟩ := pair_valid h
  have hchar := toNat_ofNat hvalid
  generalize Char.ofNat _ = c at hchar ⊢
  have hunits : utf16 c = [unit, next] := by
    rw [utf16_pair (by omega), hchar, List.cons.injEq, List.cons.injEq]
    refine ⟨?_, ?_, rfl⟩ <;> apply UInt16.toNat_inj.mp <;>
      simp only [UInt16.toNat_ofNat'] <;> omega
  have hne : ∀ d : Char, d.toNat < 0x10000 → c ≠ d := by
    rintro d hd rfl
    omega
  rw [readString_char (by omega) (hne _ (by decide)) (hne _ (by decide)), hunits]
  rfl

theorem readString_quote (s : JsString) (rest : List Char) :
    readString (quote s ++ '"' :: rest) = some (s, rest) := by
  fun_induction quote s with
  | case1 => simp [readString]
  | case2 unit => simp [readString_unit, readString]
  | case3 unit next s hpair ih =>
    rw [List.cons_append, readString_pair hpair, ih]
    rfl
  | case4 unit next s hpair ih =>
    rw [List.append_assoc, readString_unit, ih]
    rfl

-- ---------------------------------------------------------------------------
-- Values come back from their text
-- ---------------------------------------------------------------------------

mutual

/-- Every number is a double and no object names a key twice. -/
def Plain : Json → Prop
  | .null | .bool _ | .string _ => True
  | .number (.finite x) => Double.Exact x
  | .number (.infinite _) => False
  | .array items => PlainItems items
  | .object members => (members.map (·.1)).Nodup ∧ PlainMembers members

def PlainItems : List Json → Prop
  | [] => True
  | item :: items => Plain item ∧ PlainItems items

def PlainMembers : List (JsString × Json) → Prop
  | [] => True
  | (_, value) :: members => Plain value ∧ PlainMembers members

end

theorem setMember_new {found : List (JsString × Json)} (h : key ∉ found.map (·.1))
    (value : Json) : setMember found key value = found ++ [(key, value)] := by
  have hany : found.any (·.1 == key) = false := by
    simp only [List.any_eq_false, beq_iff_eq]
    rintro member hmember rfl
    exact h (List.mem_map_of_mem hmember)
  simp [setMember, hany]

theorem foldl_setMember {members found : List (JsString × Json)}
    (h : ((found ++ members).map (·.1)).Nodup) :
    members.foldl (fun found member => setMember found member.1 member.2) found =
      found ++ members := by
  induction members generalizing found with
  | nil => simp
  | cons member members ih =>
    have hnew : member.1 ∉ found.map (·.1) := by
      rw [List.map_append, List.map_cons] at h
      exact fun hmem => (List.nodup_append.mp h).2.2 _ hmem _ List.mem_cons_self rfl
    rw [List.foldl_cons, setMember_new hnew, ih (by simpa using h), List.append_assoc]
    rfl

theorem ofMembers_nodup (h : (members.map (·.1)).Nodup) : ofMembers members = .object members := by
  rw [ofMembers, foldl_setMember (by simpa using h), List.nil_append]

theorem skip_cons {c : Char} (h : isSpace c = false) (text : List Char) :
    skip (c :: text) = c :: text := by
  simp [skip, h]

theorem numeral_head {n : Numeral} (valid : n.Valid) :
    ∃ c text, n.text = c :: text ∧ (c = '-' ∨ c.isDigit = true) := by
  obtain ⟨d, ds, hds⟩ := List.exists_cons_of_ne_nil valid.nonempty
  unfold Numeral.text Numeral.signText
  cases n.negative with
  | true => exact ⟨_, _, rfl, .inl rfl⟩
  | false =>
    rw [hds]
    exact ⟨d, _, rfl, .inr (valid.int d (by simp [hds]))⟩

/-- A value starts with none of the characters that go between values. -/
theorem stringify_head (h : Plain j) : ∃ c text, stringify j = c :: text ∧ isSpace c = false ∧
    c ≠ ']' ∧ c ≠ '}' := by
  match j with
  | .null | .bool true | .bool false | .string _ | .array _ | .object _ =>
    simp [stringify, stringText, isSpace]
  | .number (.infinite _) => exact absurd h (by simp [Plain])
  | .number (.finite x) =>
    simp only [Plain] at h
    obtain ⟨c, text, htext, hc⟩ := numeral_head (Double.numeral_valid h)
    refine ⟨c, text, (by rw [stringify]; exact htext), ?_⟩
    rcases hc with rfl | hc
    · decide
    · refine ⟨?_, isDigit_ne hc rfl, isDigit_ne hc rfl⟩
      simp [isSpace, isDigit_ne hc (d := ' ') rfl, isDigit_ne hc (d := '\t') rfl,
        isDigit_ne hc (d := '\n') rfl, isDigit_ne hc (d := '\r') rfl]

theorem readNumber_text {x : ℚ} (h : Double.Exact x) {rest : List Char}
    (hrest : EndsNumber rest) :
    readNumber (Double.text (.finite x) ++ rest) = some (.number (.finite x), rest) := by
  simp [readNumber, Double.read_text h hrest, Double.round_numeral h]

theorem readValue_number {x : ℚ} (h : Double.Exact x) {rest : List Char} (hrest : EndsNumber rest)
    (fuel : Nat) : readValue (fuel + 1) (stringify (.number (.finite x)) ++ rest) =
      some (.number (.finite x), rest) := by
  have hnumber := readNumber_text h hrest
  obtain ⟨c, text, htext, hc⟩ := numeral_head (Double.numeral_valid h)
  have htext' : Double.text (.finite x) = c :: text := htext
  have hne : ∀ d : Char, d.isDigit = false → d ≠ '-' → c ≠ d := by
    rintro d hd hminus rfl
    rcases hc with rfl | hc
    · exact hminus rfl
    · exact absurd hc (by simp [hd])
  have hspace : isSpace c = false := by
    simp [isSpace, hne ' ' rfl (by decide), hne '\t' rfl (by decide), hne '\n' rfl (by decide),
      hne '\r' rfl (by decide)]
  rw [htext', List.cons_append] at hnumber
  simp only [stringify, htext', List.cons_append, readValue, skip_cons hspace,
    hne '"' rfl (by decide), hne '[' rfl (by decide), hne '{' rfl (by decide),
    hne 'n' rfl (by decide), hne 't' rfl (by decide), hne 'f' rfl (by decide), if_false, hnumber]


theorem endsNumber_cons {c : Char} (h : c = ',' ∨ c = ']' ∨ c = '}') (rest : List Char) :
    EndsNumber (c :: rest) := by
  rintro d hd
  obtain rfl : c = d := by simpa using hd
  rcases h with rfl | rfl | rfl <;> decide

theorem moreItems_head (items : List Json) (rest : List Char) :
    ∃ c text, moreItems items ++ rest = c :: text ∧ (c = ',' ∨ c = ']' ∨ c = '}') := by
  cases items <;> simp [moreItems]

theorem moreMembers_head (members : List (JsString × Json)) (rest : List Char) :
    ∃ c text, moreMembers members ++ rest = c :: text ∧ (c = ',' ∨ c = ']' ∨ c = '}') := by
  obtain _ | ⟨⟨key, value⟩, members⟩ := members <;> simp [moreMembers]

theorem moreItems_ends (items : List Json) (rest : List Char) :
    EndsNumber (moreItems items ++ rest) := by
  obtain ⟨c, text, htext, hc⟩ := moreItems_head items rest
  rw [htext]
  exact endsNumber_cons hc text

theorem moreMembers_ends (members : List (JsString × Json)) (rest : List Char) :
    EndsNumber (moreMembers members ++ rest) := by
  obtain ⟨c, text, htext, hc⟩ := moreMembers_head members rest
  rw [htext]
  exact endsNumber_cons hc text

theorem skip_stringify (h : Plain j) (rest : List Char) :
    skip (stringify j ++ rest) = stringify j ++ rest := by
  obtain ⟨c, text, htext, hspace, -⟩ := stringify_head h
  rw [htext, List.cons_append, skip_cons hspace]

theorem readValue_items {c : Char} (hspace : isSpace c = false) (hc : c ≠ ']') (text : List Char)
    (fuel : Nat) : readValue (fuel + 1) ('[' :: c :: text) =
      (readItems fuel (c :: text)).map fun (items, rest) => (.array items, rest) := by
  rw [readValue, skip_cons (by decide)]
  simp only [Char.reduceEq, if_false, if_true, skip_cons hspace]
  split
  · rename_i heq
    exact absurd (List.cons.inj heq).1 hc
  · rfl

theorem readValue_members (text : List Char) (fuel : Nat) :
    readValue (fuel + 1) ('{' :: '"' :: text) = (readMembers fuel ('"' :: text)).map
      fun (members, rest) => (ofMembers members, rest) := by
  rw [readValue, skip_cons (by decide)]
  simp only [Char.reduceEq, if_false, if_true, skip_cons (show isSpace '"' = false by decide)]
  rfl

def ReadsValues (fuel : Nat) : Prop := ∀ j rest, Plain j → EndsNumber rest →
  (stringify j).length ≤ fuel → readValue fuel (stringify j ++ rest) = some (j, rest)

def ReadsItems (fuel : Nat) : Prop := ∀ item items rest, PlainItems (item :: items) →
  (itemsText (item :: items)).length ≤ fuel →
    readItems fuel (itemsText (item :: items) ++ rest) = some (item :: items, rest)

def ReadsMembers (fuel : Nat) : Prop := ∀ key value members rest,
  PlainMembers ((key, value) :: members) →
    (membersText ((key, value) :: members)).length ≤ fuel →
      readMembers fuel (membersText ((key, value) :: members) ++ rest) =
        some ((key, value) :: members, rest)

theorem readsValues_succ {fuel : Nat} (hitems : ReadsItems fuel) (hmembers : ReadsMembers fuel) :
    ReadsValues (fuel + 1) := by
  intro j rest h hrest hfuel
  match j with
  | .null | .bool true | .bool false => rfl
  | .number (.infinite _) => exact absurd h (by simp [Plain])
  | .number (.finite x) =>
    rw [Plain] at h
    exact readValue_number h hrest fuel
  | .string s =>
    have hread := readString_quote s rest
    simp [stringify, stringText, readValue, skip, isSpace, hread]
  | .array [] => rfl
  | .array (item :: items) =>
    rw [Plain] at h
    have hread := hitems item items rest h (by simpa [stringify] using hfuel)
    obtain ⟨c, text, htext, hspace, hc, -⟩ := stringify_head h.1
    simp only [stringify, itemsText, htext, List.cons_append] at hread ⊢
    rw [readValue_items hspace hc, hread]
    rfl
  | .object [] => rfl
  | .object ((key, value) :: members) =>
    rw [Plain] at h
    have hread := hmembers key value members rest h.2 (by simpa [stringify] using hfuel)
    simp only [stringify, membersText, stringText, List.cons_append] at hread ⊢
    rw [readValue_members, hread]
    exact congrArg (fun value => some (value, rest)) (ofMembers_nodup h.1)

theorem readsItems_succ {fuel : Nat} (hvalues : ReadsValues fuel) (hitems : ReadsItems fuel) :
    ReadsItems (fuel + 1) := by
  intro item items rest h hfuel
  rw [PlainItems] at h
  rw [itemsText, List.length_append] at hfuel
  have hmore : 0 < (moreItems items).length := by cases items <;> simp [moreItems]
  have hvalue := hvalues item _ h.1 (moreItems_ends items rest) (by omega)
  rw [itemsText, readItems, List.append_assoc, hvalue]
  match items with
  | [] => rfl
  | next :: items =>
    have hlength : (itemsText (next :: items)).length ≤ fuel := by
      simp only [moreItems, itemsText, List.length_cons] at hfuel ⊢
      omega
    have hread := hitems next items rest h.2 hlength
    simp only [itemsText] at hread
    simp only [Option.bind_eq_bind, Option.bind_some, moreItems, List.cons_append,
      skip_cons (show isSpace ',' = false by decide), hread]

theorem readsMembers_succ {fuel : Nat} (hvalues : ReadsValues fuel)
    (hmembers : ReadsMembers fuel) : ReadsMembers (fuel + 1) := by
  intro key value members rest h hfuel
  rw [PlainMembers] at h
  simp only [membersText, stringText, List.length_cons, List.length_append, List.length_nil]
    at hfuel
  have hmore : 0 < (moreMembers members).length := by
    obtain _ | ⟨⟨key, value⟩, members⟩ := members <;> simp [moreMembers]
  have hkey := readString_quote key (':' :: (stringify value ++ (moreMembers members ++ rest)))
  have hvalue := hvalues value _ h.1 (moreMembers_ends members rest) (by omega)
  simp only [membersText, stringText, List.cons_append, List.append_assoc, List.nil_append,
    readMembers, skip_cons (show isSpace '"' = false by decide), hkey, hvalue, Option.bind_eq_bind,
    Option.bind_some, skip_cons (show isSpace ':' = false by decide)]
  match members with
  | [] => rfl
  | (next, value') :: members =>
    have hlength : (membersText ((next, value') :: members)).length ≤ fuel := by
      simp only [moreMembers, membersText, List.length_cons, List.length_append] at hfuel ⊢
      omega
    have hread := hmembers next value' members rest h.2 hlength
    simp only [membersText, List.append_assoc, List.cons_append] at hread
    simp only [moreMembers, List.cons_append, List.append_assoc,
      skip_cons (show isSpace ',' = false by decide), hread, Option.bind_some]

theorem reads (fuel : Nat) : ReadsValues fuel ∧ ReadsItems fuel ∧ ReadsMembers fuel := by
  induction fuel with
  | zero =>
    refine ⟨?_, ?_, ?_⟩
    · intro j rest h _ hfuel
      obtain ⟨c, text, htext, -⟩ := stringify_head h
      simp [htext] at hfuel
    · intro item items rest h hfuel
      obtain ⟨c, text, htext, -⟩ := stringify_head h.1
      simp [itemsText, htext] at hfuel
    · intro key value members rest _ hfuel
      simp [membersText, stringText] at hfuel
  | succ fuel ih =>
    obtain ⟨hvalues, hitems, hmembers⟩ := ih
    exact ⟨readsValues_succ hitems hmembers, readsItems_succ hvalues hitems,
      readsMembers_succ hvalues hmembers⟩

/-- A plain value comes back from its text. -/
theorem parse_stringify (h : Plain j) : parse (stringify j) = some j := by
  have hread := (reads ((stringify j).length + 1)).1 j [] h (by simp [EndsNumber]) (Nat.le_succ _)
  rw [List.append_nil] at hread
  rw [parse, hread]
  rfl

theorem length_quoteUnit_le (unit : UInt16) : (quoteUnit unit).length ≤ 6 := by
  unfold quoteUnit
  split_ifs <;> simp [unicodeEscape]

theorem length_quote_le (s : JsString) : (quote s).length ≤ 6 * s.length := by
  fun_induction quote s with
  | case1 => exact Nat.le_refl _
  | case2 unit => exact length_quoteUnit_le unit
  | case3 unit next s hpair ih =>
    simp only [List.length_cons] at *
    omega
  | case4 unit next s hpair ih =>
    have hunit := length_quoteUnit_le unit
    simp only [List.length_cons, List.length_append] at *
    omega

end Json

end Lib
