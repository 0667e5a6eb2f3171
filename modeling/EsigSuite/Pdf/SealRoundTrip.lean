import EsigSuite.Pdf.PqEmbed

/-!
# Reading an embedded seal

The base64 text of a seal gives the seal back, and a match is never completed
across the line break that an update starts with. So embedding and reading
agree exactly on files that held no seal before, and what is appended later
changes nothing: `first_seal_extracted`.
-/

namespace EsigSuite

open Lib

-- ---------------------------------------------------------------------------
-- Matching across a line break
-- ---------------------------------------------------------------------------

theorem isPrefixOf_append {lit x : Bytes} (h : b ∉ lit) (u : Bytes) :
    lit.isPrefixOf (x ++ b :: u) = lit.isPrefixOf x := by
  induction lit generalizing x with
  | nil => simp
  | cons c lit ih =>
    obtain ⟨hc, hlit⟩ := List.ne_and_not_mem_of_not_mem_cons h
    cases x with
    | nil => simp [List.isPrefixOf, hc.symm]
    | cons d x => simp [List.isPrefixOf, ih hlit]

/-- A literal is not completed by what follows a byte it does not hold. -/
theorem literal?_append (h : b ∉ lit) (x u : Bytes) :
    literal? lit (x ++ b :: u) = (literal? lit x).map (· ++ b :: u) := by
  unfold literal?
  rw [isPrefixOf_append h]
  split_ifs with hprefix
  · have hle := (List.isPrefixOf_iff_prefix.mp hprefix).length_le
    rw [Option.map_some, List.drop_append_of_le_length hle]
  · rfl

theorem spaces?_eq (bytes : Bytes) : spaces? bytes =
    if bytes.takeWhile isSpace = [] then none else some (bytes.dropWhile isSpace) := by
  cases bytes with
  | nil => rfl
  | cons b bytes => cases h : isSpace b <;> simp [spaces?, h]

theorem takeWhile_append_of_neg {p : α → Bool} (h : p b = false) (x u : List α) :
    (x ++ b :: u).takeWhile p = x.takeWhile p := by
  induction x with
  | nil => simp [h]
  | cons c x ih => cases hc : p c <;> simp [hc, ih]

theorem dropWhile_append_of_neg {p : α → Bool} (h : p b = false) (x u : List α) :
    (x ++ b :: u).dropWhile p = x.dropWhile p ++ b :: u := by
  induction x with
  | nil => simp [h]
  | cons c x ih => cases hc : p c <;> simp [hc, ih]

theorem base64?_append (x u : Bytes) :
    base64? (x ++ 10 :: u) = (base64? x).map fun (text, rest) => (text, rest ++ 10 :: u) := by
  have hbreak : Base64.isText 10 = false := rfl
  unfold base64?
  rw [takeWhile_append_of_neg hbreak, dropWhile_append_of_neg hbreak]
  split <;> rfl

/-- What may follow a line break without completing a match. -/
structure Foreign (u : Bytes) : Prop where
  space : u.dropWhile isSpace = u
  key : literal? sealKey u = none
  openings : literal? sealOpen u = none

theorem dropSpaces_append (hu : Foreign u) (x : Bytes) : (x ++ 10 :: u).dropWhile isSpace =
    if x.dropWhile isSpace = [] then u else x.dropWhile isSpace ++ 10 :: u := by
  have hbreak : (10 :: u).dropWhile isSpace = u := by
    rw [List.dropWhile_cons_of_pos (by decide), hu.space]
  simp [List.dropWhile_append, hbreak, List.isEmpty_iff]

theorem open_append (hu : Foreign u) (x : Bytes) :
    (spaces? (x ++ 10 :: u)).bind (literal? sealOpen) =
      ((spaces? x).bind (literal? sealOpen)).map (· ++ 10 :: u) := by
  rw [spaces?_eq, spaces?_eq, dropSpaces_append hu]
  by_cases hdrop : x.dropWhile isSpace = []
  · have hnil : literal? sealOpen [] = none := rfl
    rw [if_pos hdrop, hdrop]
    split_ifs <;> simp [hu.openings, hnil]
  · have htake : (x ++ 10 :: u).takeWhile isSpace = x.takeWhile isSpace := by
      have hlt : ¬ (x.takeWhile isSpace).length = x.length := by
        intro h
        have hsum := congrArg List.length (List.takeWhile_append_dropWhile (p := isSpace) (l := x))
        rw [List.length_append] at hsum
        exact hdrop (List.length_eq_zero_iff.mp (by omega))
      rw [List.takeWhile_append, if_neg hlt]
    rw [if_neg hdrop, htake]
    split_ifs
    · rfl
    · rw [Option.bind_some, Option.bind_some, literal?_append (by decide)]

theorem sealAt_append (hu : Foreign u) (x : Bytes) :
    sealAt (x ++ 10 :: u) = (sealAt x).map fun (text, rest) => (text, rest ++ 10 :: u) := by
  have hunfold : ∀ bytes, sealAt bytes = (literal? typeKey bytes).bind fun rest =>
      (literal? sealKey (rest.dropWhile isSpace)).bind fun rest =>
        ((spaces? rest).bind (literal? sealOpen)).bind fun rest =>
          (base64? rest).bind fun (text, rest) =>
            (literal? [41] rest).map fun rest => (text, rest) := by
    intro bytes
    unfold sealAt
    simp only [Option.bind_eq_bind, Option.bind_assoc, Option.pure_def, Option.map_eq_bind]
    rfl
  rw [hunfold, hunfold, literal?_append (by decide)]
  cases literal? typeKey x with
  | none => rfl
  | some r =>
    simp only [Option.map_some, Option.bind_some, dropSpaces_append hu]
    by_cases hdrop : r.dropWhile isSpace = []
    · have hnil : literal? sealKey [] = none := rfl
      simp [hdrop, hu.key, hnil]
    rw [if_neg hdrop, literal?_append (by decide)]
    cases literal? sealKey (r.dropWhile isSpace) with
    | none => rfl
    | some r =>
      simp only [Option.map_some, Option.bind_some, open_append hu]
      cases (spaces? r).bind (literal? sealOpen) with
      | none => rfl
      | some r =>
        simp only [Option.map_some, Option.bind_some, base64?_append]
        cases base64? r with
        | none => rfl
        | some found =>
          have hclose : (10 : UInt8) ∉ [41] := by decide
          simp only [Option.map_some, Option.bind_some, literal?_append hclose]
          cases literal? [41] found.2 <;> rfl

-- ---------------------------------------------------------------------------
-- The leftmost match
-- ---------------------------------------------------------------------------

@[simp] theorem SealMatch.shift_zero : SealMatch.shift 0 = id := rfl

theorem SealMatch.shift_shift (i j : Nat) (m : SealMatch) :
    (m.shift i).shift j = m.shift (i + j) := by
  simp only [SealMatch.shift, Nat.add_assoc]

/-- The leftmost match of a file stays leftmost when a foreign text follows. -/
theorem matchSeal_append (hu : Foreign u) (x : Bytes) :
    matchSeal (x ++ 10 :: u) =
      (matchSeal x).or ((matchSeal (10 :: u)).map (.shift x.length)) := by
  induction x with
  | nil => simp [matchSeal]
  | cons b x ih =>
    have hat := sealAt_append hu (b :: x)
    rw [List.cons_append] at hat ⊢
    rw [matchSeal, matchSeal, hat]
    cases hx : sealAt (b :: x) with
    | some found =>
      simp only [Option.map_some, List.length_cons, List.length_append]
      congr 2
      omega
    | none =>
      simp only [Option.map_none, ih, Option.map_or, Option.map_map, Function.comp_def,
        SealMatch.shift_shift, List.length_cons]

theorem sealAt_head (h : b ≠ 47) (rest : Bytes) : sealAt (b :: rest) = none := by
  have hprefix : typeKey.isPrefixOf (b :: rest) = false := by
    simp [typeKey, List.isPrefixOf, h.symm]
  simp [sealAt, literal?, hprefix]

theorem matchSeal_skip (h : 47 ∉ x) (u : Bytes) :
    matchSeal (x ++ u) = (matchSeal u).map (.shift x.length) := by
  induction x with
  | nil => simp
  | cons b x ih =>
    obtain ⟨hb, hx⟩ := List.ne_and_not_mem_of_not_mem_cons h
    rw [List.cons_append, matchSeal, sealAt_head hb.symm, ih hx]
    simp only [Option.map_map, Function.comp_def, SealMatch.shift_shift, List.length_cons]

theorem literal?_self (lit u : Bytes) : literal? lit (lit ++ u) = some u := by
  simp [literal?]

theorem base64?_self (htext : ∀ b ∈ text, Base64.isText b = true) (hne : text ≠ [])
    (u : Bytes) : base64? (text ++ 41 :: u) = some (text, 41 :: u) := by
  have hbreak : Base64.isText 41 = false := rfl
  unfold base64?
  rw [List.takeWhile_append_of_pos htext, List.dropWhile_append_of_pos htext,
    List.takeWhile_cons_of_neg (by simp [hbreak]), List.dropWhile_cons_of_neg (by simp [hbreak]),
    List.append_nil]
  split
  · exact absurd rfl hne
  · rfl

theorem utf8_encode_ne_nil (h : text ≠ []) : Utf8.encode text ≠ [] := by
  intro hnil
  have hle := Utf8.length_le_encode text
  rw [hnil] at hle
  exact h (List.length_eq_zero_iff.mp (Nat.le_zero.mp hle))

theorem sealB64_ne_nil (s : PqSeal) : sealB64 s ≠ [] :=
  Base64.encode_ne_nil (utf8_encode_ne_nil (by simp [PqSeal.toJson, Json.stringify]))

theorem sealAt_sealDict (s : PqSeal) (u : Bytes) :
    sealAt (sealDict s ++ u) = some (sealB64 s, u) := by
  have hspace : (sealKey ++ ([32] ++ (sealOpen ++ (sealB64 s ++ ([41] ++ u))))).dropWhile isSpace =
      sealKey ++ ([32] ++ (sealOpen ++ (sealB64 s ++ ([41] ++ u)))) := rfl
  have hspaces : spaces? ([32] ++ (sealOpen ++ (sealB64 s ++ ([41] ++ u)))) =
      some (sealOpen ++ (sealB64 s ++ ([41] ++ u))) := rfl
  have htext : base64? (sealB64 s ++ ([41] ++ u)) = some (sealB64 s, [41] ++ u) :=
    base64?_self (Base64.isText_encode _) (sealB64_ne_nil s) u
  unfold sealAt sealDict
  simp only [List.append_assoc, literal?_self, Option.bind_eq_bind, Option.bind_some, hspace,
    hspaces, htext, Option.pure_def]

theorem matchSeal_sealDict (s : PqSeal) (u : Bytes) :
    matchSeal (sealDict s ++ u) = some ⟨0, (sealDict s).length, sealB64 s⟩ := by
  have hat := sealAt_sealDict s u
  obtain ⟨b, rest, hcons⟩ : ∃ b rest, sealDict s ++ u = b :: rest := ⟨_, _, rfl⟩
  have hlength := congrArg List.length hcons
  rw [List.length_append] at hlength
  rw [hcons] at hat ⊢
  rw [matchSeal, hat, ← hlength]
  simp

-- ---------------------------------------------------------------------------
-- A seal comes back
-- ---------------------------------------------------------------------------

theorem keys_plain (s : PqSeal) : Json.Plain s.keys := by
  have hkeys : ([js "ed25519", js "mldsa65", js "mldsa65Fpr"]).Nodup := by decide
  simpa [PqSeal.keys, Json.Plain, Json.PlainMembers] using hkeys

theorem sig_plain (s : PqSeal) : Json.Plain s.sig := by
  have hkeys : ([js "ed25519", js "mldsa65"]).Nodup := by decide
  simpa [PqSeal.sig, Json.Plain, Json.PlainMembers] using hkeys

theorem toJson_plain (s : PqSeal) : Json.Plain s.toJson := by
  have hversion : Double.Exact PQ_SEAL_VERSION := by
    have h := Double.exact_nat (n := 1) (by norm_num)
    simpa [PQ_SEAL_VERSION] using h
  have hmembers : ([js "v", js "alg", js "over", js "digest", js "coveredBytes", js "signedAt",
    js "keyId", js "uuaid", js "keys", js "sig"]).Nodup := by decide
  have hplain : ([js "v", js "alg", js "over", js "digest", js "coveredBytes", js "signedAt",
    js "keyId", js "keys", js "sig"]).Nodup := by decide
  cases huuaid : s.uuaid with
  | none =>
    simp only [PqSeal.toJson, PqSeal.payload, PqSeal.head, PqSeal.assertion, huuaid, Json.Plain]
    refine ⟨hplain, ?_⟩
    simp [Json.Plain, Json.PlainMembers, hversion, s.exact, keys_plain, sig_plain]
  | some uuaid =>
    simp only [PqSeal.toJson, PqSeal.payload, PqSeal.head, PqSeal.assertion, huuaid, Json.Plain]
    refine ⟨hmembers, ?_⟩
    simp [Json.Plain, Json.PlainMembers, hversion, s.exact, keys_plain, sig_plain]

theorem decodeSeal_sealB64 (s : PqSeal) : decodeSeal (sealB64 s) = some s.toJson := by
  simp only [decodeSeal, sealB64, Base64.decode_encode, Utf8.decode_encode,
    Json.parse_stringify (toJson_plain s)]
  rfl

-- ---------------------------------------------------------------------------
-- What embedding puts into the file
-- ---------------------------------------------------------------------------

theorem numberChar_range (h : Double.isNumberChar c = true) : 43 ≤ c.toNat ∧ c.toNat ≤ 122 ∧
    c.toNat ≠ 47 := by
  simp only [Double.isNumberChar, Char.isAlphanum] at h
  delta Char.isAlpha Char.isUpper Char.isLower at h
  simp only [Char.isDigit, Bool.or_eq_true, Bool.and_eq_true, decide_eq_true_eq, beq_iff_eq,
    UInt32.le_iff_toNat_le] at h
  rcases h with ((((⟨h1, h2⟩ | ⟨h1, h2⟩) | ⟨h1, h2⟩) | rfl) | rfl) | rfl
  · change 65 ≤ c.toNat at h1
    change c.toNat ≤ 90 at h2
    omega
  · change 97 ≤ c.toNat at h1
    change c.toNat ≤ 122 at h2
    omega
  · change 48 ≤ c.toNat at h1
    change c.toNat ≤ 57 at h2
    omega
  all_goals decide

theorem numberChar_byte (h : Double.isNumberChar c = true) :
    UInt8.ofNat c.toNat ≠ 47 ∧ isSpace (UInt8.ofNat c.toNat) = false := by
  obtain ⟨hlow, hhigh, hslash⟩ := numberChar_range h
  have hnat : (UInt8.ofNat c.toNat).toNat = c.toNat := by
    rw [UInt8.toNat_ofNat']
    omega
  refine ⟨fun heq => hslash ?_, ?_⟩
  · rw [← hnat, heq]
    rfl
  · generalize UInt8.ofNat c.toNat = b at hnat
    have h32 : b ≠ 32 := by
      rintro rfl
      change 32 = c.toNat at hnat
      omega
    have h160 : b ≠ 160 := by
      rintro rfl
      change 160 = c.toNat at hnat
      omega
    have h13 : ¬ b ≤ 13 := by
      rw [UInt8.le_iff_toNat_le, hnat]
      change ¬ c.toNat ≤ 13
      omega
    simp [isSpace, h32, h160, h13]

theorem numberText_byte (h : b ∈ numberText n) : b ≠ 47 ∧ isSpace b = false := by
  obtain ⟨c, hc, rfl⟩ := List.mem_map.mp h
  exact numberChar_byte (n.text_chars c hc)

theorem numberText_ne_nil (n : Double) : numberText n ≠ [] := by
  simp [numberText, n.text_ne_nil]

theorem literal?_none (hc : c ∈ lit) (h : c ∉ x) : literal? lit x = none := by
  unfold literal?
  rw [if_neg]
  exact fun hprefix => h ((List.isPrefixOf_iff_prefix.mp hprefix).subset hc)

/-- A number and a space do not complete a match. -/
theorem numberText_foreign (n : Double) (u : Bytes) : Foreign (numberText n ++ 32 :: u) := by
  have hslash : 47 ∉ numberText n := fun h => (numberText_byte h).1 rfl
  refine ⟨?_, ?_, ?_⟩
  · obtain ⟨b, rest, hcons⟩ := List.exists_cons_of_ne_nil (numberText_ne_nil n)
    have hspace := (numberText_byte (n := n) (b := b) (by simp [hcons])).2
    rw [hcons, List.cons_append, List.dropWhile_cons_of_neg (by simp [hspace])]
  · rw [literal?_append (by decide), literal?_none (c := 47) (by decide) hslash]
    rfl
  · rw [literal?_append (by decide), literal?_none (c := 47) (by decide) hslash]
    rfl

/-- Where the object puts the seal. -/
def sealOffset (objNum : Double) : Nat := (10 :: numberText objNum ++ ascii " 0 obj\n<<").length

theorem matchSeal_objBuf (n : Double) (s : PqSeal) (u : Bytes) :
    matchSeal (10 :: (objBuf n s ++ u)) =
      some ⟨sealOffset n, (sealDict s).length + sealOffset n, sealB64 s⟩ := by
  have hslash : 47 ∉ 10 :: numberText n ++ ascii " 0 obj\n<<" := by
    rw [List.mem_append, List.mem_cons]
    rintro ((h | h) | h)
    · exact absurd h (by decide)
    · exact (numberText_byte h).1 rfl
    · exact absurd h (by decide)
  have hsplit : 10 :: (objBuf n s ++ u) = (10 :: numberText n ++ ascii " 0 obj\n<<") ++
      (sealDict s ++ (ascii ">>\nendobj\n" ++ u)) := by
    simp [objBuf]
  rw [hsplit, matchSeal_skip hslash, matchSeal_sealDict]
  simp [SealMatch.shift, sealOffset]

/-- The embedded seal is the leftmost one of a file that held none. -/
theorem matchSeal_embedded (pdf : Bytes) (n : Double) (s : PqSeal) (u : Bytes) :
    matchSeal (pdf ++ 10 :: (objBuf n s ++ u)) = (matchSeal pdf).or
      (some ⟨sealOffset n + pdf.length, (sealDict s).length + sealOffset n + pdf.length,
        sealB64 s⟩) := by
  have hforeign : Foreign (objBuf n s ++ u) := by
    have h := numberText_foreign n
      (ascii "0 obj\n<<" ++ (sealDict s ++ (ascii ">>\nendobj\n" ++ u)))
    have hspace : ascii " 0 obj\n<<" = 32 :: ascii "0 obj\n<<" := by decide
    simpa [objBuf, hspace] using h
  rw [matchSeal_append hforeign, matchSeal_objBuf]
  rfl

theorem extract_embedded (pdf : Bytes) (n : Double) (s : PqSeal) (u : Bytes) :
    extractPqSeal (pdf ++ 10 :: (objBuf n s ++ u)) =
      if hasPqSeal pdf then extractPqSeal pdf else some s.toJson := by
  unfold extractPqSeal hasPqSeal
  rw [matchSeal_embedded]
  cases matchSeal pdf with
  | none => simp [decodeSeal_sealB64]
  | some m => simp

theorem embedPqSeal_ok : embedPqSeal pdf s = .ok sealedPdf ↔
    ∃ trailer, readLastTrailer pdf = .ok trailer ∧
      sealedPdf = pdf ++ 10 :: (objBuf trailer.size s ++ xrefBuf trailer (pdf.length + 1)
        (pdf.length + 1 + (objBuf trailer.size s).length)) := by
  have hbreak : ascii "\n" = [10] := by decide
  unfold embedPqSeal
  cases readLastTrailer pdf with
  | error e => simp [bind, Except.bind]
  | ok trailer =>
    simp [bind, Except.bind, pure, Except.pure, hbreak, Nat.add_assoc, Nat.add_comm 1, eq_comm]

theorem xrefBuf_ne_nil (trailer : LastTrailer) (i j : Nat) : xrefBuf trailer i j ≠ [] := by
  have hne : ascii "xref\n" ≠ [] := by decide
  unfold xrefBuf
  simp only [ne_eq, List.append_eq_nil_iff, hne, false_and, not_false_eq_true]

/-- What is read from a file that goes on where the embedding ended. The tool
that signs next drops a last line break before it appends. -/
theorem extract_embed (h : embedPqSeal pdf s = .ok sealedPdf)
    (hfile : sealedPdf.dropLast <+: file) :
    extractPqSeal file = if hasPqSeal pdf then extractPqSeal pdf else some s.toJson := by
  obtain ⟨trailer, -, rfl⟩ := embedPqSeal_ok.mp h
  obtain ⟨later, rfl⟩ := hfile
  rw [← List.cons_append, ← List.append_assoc,
    List.dropLast_append_of_ne_nil (xrefBuf_ne_nil _ _ _)]
  simpa using extract_embedded pdf trailer.size s _

-- ---------------------------------------------------------------------------
-- The first seal is the one that is read
-- ---------------------------------------------------------------------------

theorem lastIndexOf_append {key y : Bytes} (h : lastIndexOf key y = some i) (x : Bytes) :
    lastIndexOf key (x ++ y) = some (x.length + i) := by
  induction x with
  | nil => simpa using h
  | cons b x ih =>
    rw [List.cons_append, lastIndexOf, ih, List.length_cons]
    exact congrArg some (by omega)

/-- Only the end of the file counts. -/
theorem readLastTrailer_append {y : Bytes} (h : readLastTrailer y = .ok trailer) (x : Bytes) :
    readLastTrailer (x ++ y) = .ok trailer := by
  unfold readLastTrailer at h ⊢
  cases hsx : lastIndexOf (ascii "startxref") y with
  | none => simp [hsx] at h
  | some sxIdx =>
    have hdrop : (x ++ y).drop (x.length + sxIdx + 9) = y.drop (sxIdx + 9) := by
      rw [Nat.add_assoc, List.drop_length_add_append]
    simp only [hsx, lastIndexOf_append hsx, hdrop] at h ⊢
    cases hprev : leftmost digits? (y.drop (sxIdx + 9)) with
    | none => simp [hprev] at h
    | some prev =>
      simp only [hprev] at h ⊢
      cases htr : lastIndexOf (ascii "trailer") y with
      | none => simp [htr] at h
      | some trIdx =>
        by_cases hle : trIdx ≤ sxIdx
        · have hdict : ((x ++ y).take (x.length + sxIdx)).drop (x.length + trIdx) =
              (y.take sxIdx).drop trIdx := by
            rw [List.take_length_add_append, List.drop_length_add_append]
          simp only [htr, lastIndexOf_append htr, Option.filter_some, hle, decide_true, if_true,
            Nat.add_le_add_iff_left, hdict] at h ⊢
          exact h
        · simp [htr, Option.filter_some, hle] at h

theorem sealPdf_ok (h : sealPdf sha256 pdf (some options) = .ok r) : ∃ s,
    embedPqSeal pdf.bytes s = .ok r.basePdf ∧ r.pqKeyId = some s.keyId := by
  unfold sealPdf at h
  dsimp only [bind, Except.bind, pure, Except.pure] at h
  split at h
  · cases h
  next s hs =>
    split at h
    · cases h
    next basePdf hembed =>
      cases h
      obtain ⟨-, _, _, -, -, rfl⟩ := buildPqSeal_ok hs
      exact ⟨_, hembed, rfl⟩

theorem toJson_keyId (s : PqSeal) : member s.toJson "keyId" = some (.string s.keyId) := by
  obtain ⟨-, -, -, hkeyId, -⟩ := toJson_members s
  exact hkeyId

/-- The seal that is read from a file is the first one that was embedded. Only
in a file that held none is it the new one, under the key id `signPdf`
reports. -/
theorem first_seal_extracted (pdf : Buffer) (file : Bytes) :
    (∀ s embedded, embedPqSeal pdf.bytes s = .ok embedded → embedded.dropLast <+: file →
      extractPqSeal file = if hasPqSeal pdf.bytes then extractPqSeal pdf.bytes
        else some s.toJson) ∧
    ∀ sha256 options r, sealPdf sha256 pdf (some options) = .ok r →
      r.basePdf.dropLast <+: file → hasPqSeal pdf.bytes = false →
        (extractPqSeal file).bind (member · "keyId") = r.pqKeyId.map .string := by
  refine ⟨fun s embedded h hfile => extract_embed h hfile, fun sha256 options r h hfile hnone => ?_⟩
  obtain ⟨s, hembed, hkey⟩ := sealPdf_ok h
  rw [extract_embed hembed hfile, hnone, hkey]
  exact toJson_keyId s

-- ---------------------------------------------------------------------------
-- A file sealed twice
-- ---------------------------------------------------------------------------

namespace SealSample

def trailerText : Bytes :=
  ascii "trailer\n<<\n/Size 3\n/Root 1 0 R\n>>\nstartxref\n9\n%%EOF\n"

def sealBy (keyId : String) : PqSeal where
  digest := js "0b3f6d1f"
  coveredBytes := 8
  signedAt := js "2026-11-18T00:00:00.000Z"
  keyId := js keyId
  uuaid := none
  ed25519 := js "AQ=="
  mldsa65 := js "Ag=="
  mldsa65Fpr := js "dbc1b4c9"
  ed25519Sig := js "Aw=="
  mldsa65Sig := js "BA=="
  exact := Double.exact_nat (n := 8) (by norm_num)

/-- A file that holds no seal. -/
def plain : Buffer where
  bytes := ascii "%PDF-1.7" ++ 10 :: trailerText
  length_lt := by decide +kernel

/-- The same file with a seal of another signer in it. -/
def sealedBefore : Bytes :=
  ascii "%PDF-1.7" ++ 10 :: (objBuf (.finite 3) (sealBy "first") ++ trailerText)

def keys : PqSigningKeys where
  ed25519PublicRaw := [1]
  mldsa65PublicKey := [2]
  ed25519Sign _ := .ok [3]
  mldsa65Sign _ := .ok [4]

def sha256 (bytes : Bytes) : Bytes := List.replicate 32 (UInt8.ofNat bytes.length)

def options : PqSealOptions := ⟨keys, js "2026-11-18T00:00:00.000Z", none⟩

/-- What the code makes of the file without a seal. -/
theorem plain_checked : (readLastTrailer trailerText).isOk = true ∧
    isDigestHex (hexText (sha256 plain.bytes)) = true ∧ plain.length ≠ 0 ∧
    hasPqSeal plain.bytes = false := by
  decide +kernel

theorem trailerText_ok : ∃ trailer, readLastTrailer trailerText = .ok trailer := by
  have hok : (readLastTrailer trailerText).isOk = true := plain_checked.1
  cases h : readLastTrailer trailerText with
  | error e => simp [h, Except.isOk, Except.toBool] at hok
  | ok trailer => exact ⟨trailer, rfl⟩

theorem embeds (x : Bytes) (s : PqSeal) :
    ∃ embedded, embedPqSeal (x ++ trailerText) s = .ok embedded := by
  obtain ⟨trailer, h⟩ := trailerText_ok
  exact ⟨_, embedPqSeal_ok.mpr ⟨trailer, readLastTrailer_append h x, rfl⟩⟩

theorem built : ∃ s, buildPqSeal sha256 ⟨hexText (sha256 plain.bytes), plain.length,
    options.keys, options.signedAt, options.uuaid⟩ plain.length_lt = .ok s := by
  obtain ⟨-, hdigest, hlength, -⟩ := plain_checked
  simp [buildPqSeal, hdigest, hlength, options, keys, bind, Except.bind, pure, Except.pure]

theorem seals : ∃ r, sealPdf sha256 plain (some options) = .ok r := by
  have hsplit : plain.bytes = (ascii "%PDF-1.7" ++ [10]) ++ trailerText := by simp [plain]
  obtain ⟨s, hs⟩ := built
  let pub := publicMaterialForKeys sha256 options.keys
  obtain ⟨embedded, hembed⟩ := embeds (ascii "%PDF-1.7" ++ [10]) s
  rw [← hsplit] at hembed
  refine ⟨⟨embedded, some pub.keyId, some pub.mldsa65Fpr⟩, ?_⟩
  simp only [sealPdf, hs, hembed, bind, Except.bind]
  rfl

theorem plain_hasPqSeal : hasPqSeal plain.bytes = false := plain_checked.2.2.2

theorem sealedBefore_extract : extractPqSeal sealedBefore = some (sealBy "first").toJson := by
  have hnone : hasPqSeal (ascii "%PDF-1.7") = false := by decide
  rw [sealedBefore, extract_embedded, hnone]
  rfl

theorem sealedBefore_hasPqSeal : hasPqSeal sealedBefore = true := by
  have h := sealedBefore_extract
  unfold extractPqSeal at h
  unfold hasPqSeal
  cases hm : matchSeal sealedBefore with
  | none => simp [hm] at h
  | some m => rfl

end SealSample

/-- The second seal of a file is not the one that is read. -/
theorem sealed_twice : ¬ ∀ pdf s embedded, embedPqSeal pdf s = .ok embedded →
    extractPqSeal embedded = some s.toJson := by
  intro h
  have hsplit : SealSample.sealedBefore = (ascii "%PDF-1.7" ++
      10 :: objBuf (.finite 3) (SealSample.sealBy "first")) ++ SealSample.trailerText := by
    simp [SealSample.sealedBefore]
  obtain ⟨embedded, hembed⟩ := SealSample.embeds (ascii "%PDF-1.7" ++
    10 :: objBuf (.finite 3) (SealSample.sealBy "first")) (SealSample.sealBy "second")
  rw [← hsplit] at hembed
  have hfound := extract_embed hembed (List.dropLast_prefix embedded)
  rw [h _ _ _ hembed, SealSample.sealedBefore_hasPqSeal, if_pos rfl,
    SealSample.sealedBefore_extract, Option.some.injEq] at hfound
  have hkey := congrArg (member · "keyId") hfound
  simp only [toJson_keyId] at hkey
  have hne : js "second" ≠ js "first" := by decide
  exact hne (Json.string.inj (Option.some.inj hkey))

theorem first_seal_extracted_sample : ∃ embedded r,
    embedPqSeal SealSample.plain.bytes (SealSample.sealBy "first") = .ok embedded ∧
    extractPqSeal embedded = some (SealSample.sealBy "first").toJson ∧
    sealPdf SealSample.sha256 SealSample.plain (some SealSample.options) = .ok r ∧
    (extractPqSeal r.basePdf).bind (member · "keyId") = r.pqKeyId.map .string := by
  have hsplit : SealSample.plain.bytes =
      (ascii "%PDF-1.7" ++ [10]) ++ SealSample.trailerText := by
    simp [SealSample.plain]
  obtain ⟨embedded, hembed⟩ := SealSample.embeds (ascii "%PDF-1.7" ++ [10])
    (SealSample.sealBy "first")
  rw [← hsplit] at hembed
  obtain ⟨r, hr⟩ := SealSample.seals
  have hfound := (first_seal_extracted SealSample.plain embedded).1 _ _ hembed
    (List.dropLast_prefix embedded)
  rw [SealSample.plain_hasPqSeal] at hfound
  have hreported := (first_seal_extracted SealSample.plain r.basePdf).2 _ _ _ hr
    (List.dropLast_prefix r.basePdf) SealSample.plain_hasPqSeal
  exact ⟨embedded, r, hembed, hfound, hr, hreported⟩

end EsigSuite
