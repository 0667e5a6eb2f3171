import EsigSuite.Lib.Delimited
import EsigSuite.Lib.Digits
import EsigSuite.Lib.Prefixes

/-!
# Where a webhook may not go

The range checks of `events/webhook.ts`. An address comes as text, and a text is its
characters. Beyond ASCII only a zone can have letters, and the zone is cut off.
-/

namespace EsigSuite.Mcp.WebhookTarget

open Lib Lib.Delimited Lib.Prefixes

-- ---------------------------------------------------------------------------
-- IPv4
-- ---------------------------------------------------------------------------

/-- `\d{1,3}` -/
def isOctetText (t : List Char) : Bool := 1 ≤ t.length && t.length ≤ 3 && t.all Char.isDigit

/-- No dot is in a group, so the groups of the pattern are what the dots leave. -/
def ipv4ToInt (ip : List Char) : Option Nat :=
  match ip.splitOn '.' with
  | [m1, m2, m3, m4] =>
    if [m1, m2, m3, m4].all isOctetText then
      if [m1, m2, m3, m4].any (readNat · > 255) then none
      else some (((readNat m1 <<< 24 ||| readNat m2 <<< 16) ||| readNat m3 <<< 8) ||| readNat m4)
    else none
  | _ => none

def inCidr4 (ipInt : Nat) (base : String) (bits : Nat) : Bool :=
  match ipv4ToInt base.toList with
  | none => false
  | some baseInt =>
    let netmask := if bits = 0 then 0 else (0xffffffff <<< (32 - bits)) % 2 ^ 32
    ipInt &&& netmask == baseInt &&& netmask

def isPrivateOrLocalV4 (ip : List Char) : Bool :=
  match ipv4ToInt ip with
  | none => false
  | some ipInt =>
    ipInt == 0 || inCidr4 ipInt "127.0.0.0" 8 || inCidr4 ipInt "169.254.0.0" 16 ||
      inCidr4 ipInt "10.0.0.0" 8 || inCidr4 ipInt "172.16.0.0" 12 || inCidr4 ipInt "192.168.0.0" 16

-- ---------------------------------------------------------------------------
-- IPv6
-- ---------------------------------------------------------------------------

/-- `n.toString(16)` -/
def hex (n : Nat) : List Char := Nat.toDigits 16 n

def expandPart (s : List Char) : Option (List (List Char)) :=
  if s = [] then some []
  else
    let parts := s.splitOn ':'
    let last := parts.getLastD []
    if last.contains '.' then
      (ipv4ToInt last).map fun v4 => parts.dropLast ++ [hex ((v4 >>> 16) &&& 0xffff), hex (v4 &&& 0xffff)]
    else some parts

def expandV6 (ip : List Char) : Option (List (List Char)) :=
  let withoutZone := ip.takeWhile (· != '%')
  match cutAtDouble ':' withoutZone with
  | none => (expandPart withoutZone).bind fun parts => if parts.length = 8 then some parts else none
  | some (head, tail) =>
    match expandPart head, expandPart tail with
    | some head, some tail =>
      if 8 < head.length + tail.length then none
      else some (head ++ List.replicate (8 - (head.length + tail.length)) ['0'] ++ tail)
    | _, _ => none

def hexValue (c : Char) : Nat := if c.isDigit then c.toNat - 48 else c.toNat - 87

/-- `parseInt(h, 16)` of a text in lower case. An address has neither signs nor blanks
nor `0x`, and `NaN` counts as zero where it is used. -/
def parseHex (h : List Char) : Nat := (h.takeWhile isHexDigit).foldl (fun n c => 16 * n + hexValue c) 0

/-- The dotted text of two groups. -/
def dottedText (hi lo : Nat) : List Char :=
  ['.'].intercalate ([hi >>> 8, hi &&& 0xff, lo >>> 8, lo &&& 0xff].map (Nat.toDigits 10))

def isPrivateOrLocalV6 (ip : List Char) : Bool :=
  match expandV6 (ip.map Char.toLower) with
  | none => false
  | some hextets =>
    if (hextets.take 5).all (· == ['0']) && hextets.getD 5 [] == "ffff".toList then
      isPrivateOrLocalV4 (dottedText (parseHex (hextets.getD 6 [])) (parseHex (hextets.getD 7 [])))
    else
      let h0 := parseHex (hextets.getD 0 [])
      hextets.all (· == ['0']) ||
      ((hextets.take 7).all (· == ['0']) && hextets.getD 7 [] == ['1']) ||
      h0 &&& 0xffc0 == 0xfe80 || h0 &&& 0xfe00 == 0xfc00

-- ---------------------------------------------------------------------------
-- Addresses
-- ---------------------------------------------------------------------------

/-- Eight groups of 16 bits. -/
structure Address where
  groups : List Nat
  length_groups : groups.length = 8
  group_lt : ∀ g ∈ groups, g < 65536

/-- The 128 bits of an address. -/
def Address.value (a : Address) : Nat := a.groups.foldl (fun n g => 65536 * n + g) 0

def Unspecified (a : Address) : Prop := a.value = 0

def Loopback (a : Address) : Prop := a.value = 1

/-- fe80::/10 -/
def LinkLocal (a : Address) : Prop := Shares 128 10 (0xfe80 <<< 112) a.value

/-- fc00::/7 -/
def UniqueLocal (a : Address) : Prop := Shares 128 7 (0xfc00 <<< 112) a.value

/-- ff00::/8 -/
def Multicast (a : Address) : Prop := Shares 128 8 (0xff00 <<< 112) a.value

/-- ::ffff:0:0/96 -/
def Mapped (a : Address) : Prop := Shares 128 96 (0xffff <<< 32) a.value

/-- 0.0.0.0, 127/8, 169.254/16, 10/8, 172.16/12 and 192.168/16. -/
def PrivateV4 (v4 : Nat) : Prop :=
  v4 = 0 ∨ Shares 32 8 (127 <<< 24) v4 ∨ Shares 32 16 (169 <<< 24 + 254 <<< 16) v4 ∨
    Shares 32 8 (10 <<< 24) v4 ∨ Shares 32 12 (172 <<< 24 + 16 <<< 16) v4 ∨
    Shares 32 16 (192 <<< 24 + 168 <<< 16) v4

-- ---------------------------------------------------------------------------
-- The texts of an address
-- ---------------------------------------------------------------------------

/-- Groups with colons between them, as numerals without leading zeros. -/
def groupsText (gs : List Nat) : List Char := [':'].intercalate (gs.map hex)

/-- Groups, the last two perhaps as the four numbers of an IPv4 address. -/
inductive PartText : List Nat → List Char → Prop
  | groups (gs : List Nat) : PartText gs (groupsText gs)
  | dotted (gs : List Nat) (hi lo : Nat) :
    PartText (gs ++ [hi, lo]) ([':'].intercalate (gs.map hex ++ [dottedText hi lo]))

inductive Spelling : List Nat → List Char → Prop
  | full {gs : List Nat} {t : List Char} : PartText gs t → Spelling gs t
  /-- `::` is in the place of one or more zeros. -/
  | compressed {head tail : List Nat} {t : List Char} (zeros : Nat) : 0 < zeros → PartText tail t →
    Spelling (head ++ List.replicate zeros 0 ++ tail) (groupsText head ++ ':' :: ':' :: t)
  | zone {gs : List Nat} {t : List Char} (zone : List Char) : Spelling gs t →
    Spelling gs (t ++ '%' :: zone)

/-- The text is a form of the address, in upper or lower case. -/
def Written (a : Address) (text : List Char) : Prop := Spelling a.groups (text.map Char.toLower)

-- ---------------------------------------------------------------------------
-- Numerals
-- ---------------------------------------------------------------------------

theorem hexValue_digitChar : ∀ d < 16, hexValue (Nat.digitChar d) = d := by decide

theorem hex_isHexDigit {n : Nat} {c : Char} (h : c ∈ hex n) : isHexDigit c = true := by
  induction n using Nat.base_induction 16 (by decide) with
  | single m hm =>
    rw [hex, Nat.toDigits_of_lt_base hm, List.mem_singleton] at h
    exact h ▸ digitChar_hex m hm
  | digit m k hk hm ih =>
    rw [hex, ← Nat.toDigits_append_toDigits (by decide) hm hk, Nat.toDigits_of_lt_base hk] at h
    rcases List.mem_append.mp h with h | h
    · exact ih h
    · exact List.mem_singleton.mp h ▸ digitChar_hex k hk

theorem parseHex_hex (n : Nat) : parseHex (hex n) = n := by
  rw [parseHex, List.takeWhile_eq_self_iff.mpr fun c hc => hex_isHexDigit hc]
  induction n using Nat.base_induction 16 (by decide) with
  | single m hm =>
    rw [hex, Nat.toDigits_of_lt_base hm]
    exact (Nat.zero_add _).trans (hexValue_digitChar m hm)
  | digit m k hk hm ih =>
    rw [hex, ← Nat.toDigits_append_toDigits (by decide) hm hk, Nat.toDigits_of_lt_base hk,
      List.foldl_append, show Nat.toDigits 16 m = hex m from rfl, ih]
    exact congrArg _ (hexValue_digitChar k hk)

theorem hex_inj {m n : Nat} : hex m = hex n ↔ m = n :=
  ⟨fun h => by rw [← parseHex_hex m, h, parseHex_hex], fun h => by rw [h]⟩

theorem octet_text : ∀ n < 256, isOctetText (Nat.toDigits 10 n) = true := by decide +kernel

theorem readNat_toDigits (n : Nat) : readNat (Nat.toDigits 10 n) = n := Nat.ofDigitChars_ten_toDigits

-- ---------------------------------------------------------------------------
-- IPv4 by value
-- ---------------------------------------------------------------------------

/-- Four bytes as the code puts them together. -/
theorem bytes_or {a b c d : Nat} (hb : b < 256) (hc : c < 256) (hd : d < 256) :
    ((a <<< 24 ||| b <<< 16) ||| c <<< 8) ||| d = 16777216 * a + 65536 * b + 256 * c + d := by
  have hab : a <<< 24 ||| b <<< 16 = (a <<< 8 + b) <<< 16 := by
    rw [Nat.shiftLeft_add_eq_or_of_lt (i := 8) hb, Nat.shiftLeft_or_distrib, ← Nat.shiftLeft_add]
  have habc : (a <<< 8 + b) <<< 16 ||| c <<< 8 = ((a <<< 8 + b) <<< 8 + c) <<< 8 := by
    rw [Nat.shiftLeft_add_eq_or_of_lt (i := 8) hc, Nat.shiftLeft_or_distrib, ← Nat.shiftLeft_add]
  rw [hab, habc, ← Nat.shiftLeft_add_eq_or_of_lt (i := 8) hd]
  simp only [Nat.shiftLeft_eq]
  omega

theorem digits_no_dot {n : Nat} : '.' ∉ Nat.toDigits 10 n := fun h =>
  absurd (Nat.isDigit_of_mem_toDigits (by decide) (by decide) h) (by decide)

theorem ipv4ToInt_dottedText {hi lo : Nat} (hhi : hi < 65536) (hlo : lo < 65536) :
    ipv4ToInt (dottedText hi lo) = some (65536 * hi + lo) := by
  have hsplit : (dottedText hi lo).splitOn '.' =
      [hi >>> 8, hi &&& 0xff, lo >>> 8, lo &&& 0xff].map (Nat.toDigits 10) := by
    refine List.splitOn_intercalate _ (fun l hl => ?_) (by simp)
    obtain ⟨n, -, rfl⟩ := List.mem_map.mp hl
    exact digits_no_dot
  have hbyte (n : Nat) : n &&& 0xff = n % 256 := Nat.and_two_pow_sub_one_eq_mod n 8
  have hshift (n : Nat) : n >>> 8 = n / 256 := Nat.shiftRight_eq_div_pow n 8
  have h1 : hi / 256 < 256 := by omega
  have h2 : hi % 256 < 256 := by omega
  have h3 : lo / 256 < 256 := by omega
  have h4 : lo % 256 < 256 := by omega
  rw [ipv4ToInt, hsplit]
  simp only [List.map_cons, List.map_nil, hbyte, hshift]
  rw [if_pos (by simp [octet_text _ h1, octet_text _ h2, octet_text _ h3, octet_text _ h4])]
  rw [if_neg (by simp [readNat_toDigits]; omega)]
  simp only [readNat_toDigits]
  rw [bytes_or h2 h3 h4]
  congr 1
  omega

theorem inCidr4_iff {v4 : Nat} (h : v4 < 2 ^ 32) {base : String} {baseInt bits : Nat}
    (hbase : ipv4ToInt base.toList = some baseInt) (hlt : baseInt < 2 ^ 32) (hbits : bits ≠ 0) :
    inCidr4 v4 base bits = true ↔ Shares 32 bits baseInt v4 := by
  rw [inCidr4, hbase]
  dsimp only
  rw [if_neg hbits, beq_iff_eq]
  exact and_mask_eq_iff h hlt

theorem isPrivateOrLocalV4_iff {hi lo : Nat} (hhi : hi < 65536) (hlo : lo < 65536) :
    isPrivateOrLocalV4 (dottedText hi lo) = true ↔ PrivateV4 (65536 * hi + lo) := by
  have hv4 : 65536 * hi + lo < 2 ^ 32 := by omega
  rw [isPrivateOrLocalV4, ipv4ToInt_dottedText hhi hlo]
  simp only [Bool.or_eq_true, beq_iff_eq, or_assoc]
  have hcidr {base : String} {baseInt bits : Nat} := @inCidr4_iff _ hv4 base baseInt bits
  rw [PrivateV4, hcidr (by decide : _ = some (127 <<< 24)) (by decide) (by decide),
    hcidr (by decide : _ = some (169 <<< 24 + 254 <<< 16)) (by decide) (by decide),
    hcidr (by decide : _ = some (10 <<< 24)) (by decide) (by decide),
    hcidr (by decide : _ = some (172 <<< 24 + 16 <<< 16)) (by decide) (by decide),
    hcidr (by decide : _ = some (192 <<< 24 + 168 <<< 16)) (by decide) (by decide)]

-- ---------------------------------------------------------------------------
-- Every form expands to the same groups
-- ---------------------------------------------------------------------------

theorem hex_avoids {n : Nat} {c : Char} (hc : isHexDigit c = false) : c ∉ hex n := fun h => by
  rw [hex_isHexDigit h] at hc
  cases hc

theorem hex_piece (n : Nat) : Piece ':' (hex n) := ⟨Nat.toDigits_ne_nil, hex_avoids rfl⟩

/-- A letter of a dotted text is a dot or a digit. -/
theorem dottedText_chars {hi lo : Nat} {c : Char} (h : c ∈ dottedText hi lo) :
    c = '.' ∨ c.isDigit = true := by
  obtain hdot | ⟨p, hp, hc⟩ := Delimited.mem_intercalate h
  · exact .inl hdot
  · obtain ⟨n, -, rfl⟩ := List.mem_map.mp hp
    exact .inr (Nat.isDigit_of_mem_toDigits (by decide) (by decide) hc)

theorem dottedText_dot (hi lo : Nat) : '.' ∈ dottedText hi lo := by
  simp [dottedText, List.intercalate_cons_cons]

theorem dottedText_piece (hi lo : Nat) : Piece ':' (dottedText hi lo) := by
  refine ⟨List.ne_nil_of_mem (dottedText_dot hi lo), fun h => ?_⟩
  rcases dottedText_chars h with h | h
  · exact absurd h (by decide)
  · exact absurd h (by decide)

theorem map_hex_piece (gs : List Nat) : ∀ p ∈ gs.map hex, Piece ':' p := by
  intro p hp
  obtain ⟨g, -, rfl⟩ := List.mem_map.mp hp
  exact hex_piece g

/-- The pieces of a part. -/
theorem PartText.pieces {gs : List Nat} {t : List Char} (h : PartText gs t) :
    ∃ pieces, t = [':'].intercalate pieces ∧ ∀ p ∈ pieces, Piece ':' p := by
  cases h with
  | groups gs => exact ⟨_, rfl, map_hex_piece gs⟩
  | dotted gs hi lo =>
    exact ⟨_, rfl, List.forall_mem_append.mpr
      ⟨map_hex_piece gs, List.forall_mem_singleton.mpr (dottedText_piece hi lo)⟩⟩

theorem splitOn_pieces {pieces : List (List Char)} (h : ∀ p ∈ pieces, Piece ':' p) (hne : pieces ≠ []) :
    ([':'].intercalate pieces).splitOn ':' = pieces :=
  List.splitOn_intercalate _ (fun p hp => (h p hp).2) hne

theorem intercalate_ne_nil {pieces : List (List Char)} (h : ∀ p ∈ pieces, Piece ':' p)
    (hne : pieces ≠ []) : [':'].intercalate pieces ≠ [] := by
  obtain ⟨piece, pieces, rfl⟩ := List.exists_cons_of_ne_nil hne
  have hpiece := (h piece List.mem_cons_self).1
  cases pieces <;> simp [List.intercalate_cons_cons, hpiece]

theorem expandPart_text {gs : List Nat} {t : List Char} (h : PartText gs t) (hlt : ∀ g ∈ gs, g < 65536) :
    expandPart t = some (gs.map hex) := by
  cases h with
  | groups =>
    rcases List.eq_nil_or_concat gs with rfl | ⟨init, g, rfl⟩
    · rfl
    rw [List.concat_eq_append] at *
    have hpieces := map_hex_piece (init ++ [g])
    have hne : (init ++ [g]).map hex ≠ [] := by simp
    have hlast : (((init ++ [g]).map hex).getLastD []).contains '.' = false := by
      rw [List.map_append, List.map_singleton, List.getLastD_concat]
      simpa using hex_avoids rfl
    rw [groupsText, expandPart, if_neg (intercalate_ne_nil hpieces hne), splitOn_pieces hpieces hne]
    simp only [hlast]
    rfl
  | dotted gs hi lo =>
    have hpieces : ∀ p ∈ gs.map hex ++ [dottedText hi lo], Piece ':' p := List.forall_mem_append.mpr
      ⟨map_hex_piece gs, List.forall_mem_singleton.mpr (dottedText_piece hi lo)⟩
    have hne : gs.map hex ++ [dottedText hi lo] ≠ [] := by simp
    have hhi : hi < 65536 := hlt hi (by simp)
    have hlo : lo < 65536 := hlt lo (by simp)
    have hdot : (dottedText hi lo).contains '.' = true := by simpa using dottedText_dot hi lo
    have hlow (n : Nat) : n &&& 0xffff = n % 65536 := Nat.and_two_pow_sub_one_eq_mod n 16
    have hhigh : (65536 * hi + lo) >>> 16 = hi := by
      rw [Nat.shiftRight_eq_div_pow]
      omega
    rw [expandPart, if_neg (intercalate_ne_nil hpieces hne), splitOn_pieces hpieces hne]
    simp only [List.getLastD_concat, hdot, if_true, ipv4ToInt_dottedText hhi hlo, Option.map_some,
      List.dropLast_concat, hhigh, hlow]
    rw [Nat.mod_eq_of_lt hhi, show (65536 * hi + lo) % 65536 = lo by omega]
    simp

/-- Nothing before a zone is a percent sign. -/
theorem PartText.no_percent {gs : List Nat} {t : List Char} (h : PartText gs t) : '%' ∉ t := by
  have hhex (gs : List Nat) : ∀ p ∈ gs.map hex, '%' ∉ p := by
    intro p hp
    obtain ⟨g, -, rfl⟩ := List.mem_map.mp hp
    exact hex_avoids rfl
  have hjoin {pieces : List (List Char)} (hpieces : ∀ p ∈ pieces, '%' ∉ p) :
      '%' ∉ [':'].intercalate pieces := fun hmem => by
    obtain hcolon | ⟨p, hp, hc⟩ := Delimited.mem_intercalate hmem
    · exact absurd hcolon (by decide)
    · exact hpieces p hp hc
  cases h with
  | groups => exact hjoin (hhex gs)
  | dotted gs hi lo =>
    refine hjoin (List.forall_mem_append.mpr ⟨hhex gs, List.forall_mem_singleton.mpr fun hmem => ?_⟩)
    rcases dottedText_chars hmem with h | h
    · exact absurd h (by decide)
    · exact absurd h (by decide)

theorem takeWhile_no_percent {t : List Char} (h : '%' ∉ t) : t.takeWhile (· != '%') = t := by
  rw [List.takeWhile_eq_self_iff]
  intro c hc
  have hne : c ≠ '%' := fun heq => h (heq ▸ hc)
  simpa using hne

/-- A zone is cut off. -/
theorem takeWhile_zone (t zone : List Char) :
    (t ++ '%' :: zone).takeWhile (· != '%') = t.takeWhile (· != '%') := by
  induction t with
  | nil => rfl
  | cons c t ih => rw [List.cons_append, List.takeWhile_cons, List.takeWhile_cons, ih]

theorem expandV6_spelling {gs : List Nat} {t : List Char} (h : Spelling gs t) (hlen : gs.length = 8)
    (hlt : ∀ g ∈ gs, g < 65536) : expandV6 t = some (gs.map hex) := by
  induction h with
  | @full gs t hpart =>
    obtain ⟨pieces, hpieces, hpiece⟩ := hpart.pieces
    have hcut : cutAtDouble ':' t = none := hpieces ▸ cutAtDouble_pieces hpiece
    rw [expandV6]
    simp only [takeWhile_no_percent hpart.no_percent, hcut, expandPart_text hpart hlt, Option.bind_some]
    rw [if_pos (by simpa using hlen)]
  | @compressed head tail t zeros hpos hpart =>
    have hhead : PartText head (groupsText head) := .groups head
    have hpercent : '%' ∉ groupsText head ++ ':' :: ':' :: t := by
      simp [hhead.no_percent, hpart.no_percent]
    have hcut : cutAtDouble ':' (groupsText head ++ ':' :: ':' :: t) = some (groupsText head, t) :=
      cutAtDouble_between (map_hex_piece head) t
    have hexpand := expandPart_text hhead fun g hg => hlt g (by simp [hg])
    have hexpand' := expandPart_text hpart fun g hg => hlt g (by simp [hg])
    simp only [List.length_append, List.length_replicate] at hlen
    have hzeros : 8 - (head.length + tail.length) = zeros := by omega
    rw [expandV6]
    simp only [takeWhile_no_percent hpercent, hcut, hexpand, hexpand', List.length_map, hzeros]
    rw [if_neg (by omega), List.map_append, List.map_append, List.map_replicate]
    rfl
  | zone zone hspelling ih =>
    have hsame := ih hlen hlt
    rw [expandV6] at hsame ⊢
    rwa [takeWhile_zone]

-- ---------------------------------------------------------------------------
-- The answer by value
-- ---------------------------------------------------------------------------

theorem shares_div {width len base x : Nat} :
    Shares width len base x ↔ x / 2 ^ (width - len) = base / 2 ^ (width - len) := by
  rw [Shares, Nat.shiftRight_eq_div_pow, Nat.shiftRight_eq_div_pow]

/-- The test of the highest bits of the first group. -/
theorem and_group {g bits base : Nat} (hg : g < 65536) (hbase : base < 65536) :
    g &&& mask 16 bits = base ↔ base &&& mask 16 bits = base ∧ Shares 16 bits base g := by
  rw [← and_mask_eq_iff hg hbase]
  constructor
  · intro h
    have hbase' : base &&& mask 16 bits = base := by rw [← h, Nat.and_assoc, Nat.and_self]
    exact ⟨hbase', h.trans hbase'.symm⟩
  · rintro ⟨hbase', h⟩
    exact h.trans hbase'

theorem linkLocal_test {g : Nat} (hg : g < 65536) : g &&& 0xffc0 = 0xfe80 ↔ g / 64 = 0x3fa := by
  have hmask : 0xffc0 = mask 16 10 := by decide
  rw [hmask, and_group hg (by decide), shares_div]
  simp [show 65152 &&& mask 16 10 = 65152 by decide]

theorem uniqueLocal_test {g : Nat} (hg : g < 65536) : g &&& 0xfe00 = 0xfc00 ↔ g / 512 = 0x7e := by
  have hmask : 0xfe00 = mask 16 7 := by decide
  rw [hmask, and_group hg (by decide), shares_div]
  simp [show 64512 &&& mask 16 7 = 64512 by decide]

/-- The addresses that a webhook may not go to. -/
def Refused (a : Address) : Prop :=
  Unspecified a ∨ Loopback a ∨ LinkLocal a ∨ UniqueLocal a ∨ (Mapped a ∧ PrivateV4 (a.value % 2 ^ 32))

theorem hextets_refused {g0 g1 g2 g3 g4 g5 g6 g7 : Nat} {a : Address}
    (ha : a.groups = [g0, g1, g2, g3, g4, g5, g6, g7]) {ip : List Char}
    (hexpand : expandV6 (ip.map Char.toLower) = some (a.groups.map hex)) :
    isPrivateOrLocalV6 ip = true ↔ Refused a := by
  have hlt := a.group_lt
  rw [ha] at hexpand hlt
  simp only [List.forall_mem_cons] at hlt
  obtain ⟨h0, h1, h2, h3, h4, h5, h6, h7, -⟩ := hlt
  have hvalue : a.value = 65536 * (65536 * (65536 * (65536 * (65536 * (65536 * (65536 * (65536 * 0 + g0) +
      g1) + g2) + g3) + g4) + g5) + g6) + g7 := by rw [Address.value, ha]; rfl
  have hzero (g : Nat) : hex g = ['0'] ↔ g = 0 := hex_inj (n := 0)
  have hone (g : Nat) : hex g = ['1'] ↔ g = 1 := hex_inj (n := 1)
  have hffff (g : Nat) : hex g = "ffff".toList ↔ g = 65535 := by
    rw [← hex_inj, show hex 65535 = "ffff".toList by decide]
  have hmapped : Mapped a ↔ g0 = 0 ∧ g1 = 0 ∧ g2 = 0 ∧ g3 = 0 ∧ g4 = 0 ∧ g5 = 65535 := by
    rw [Mapped, shares_div, hvalue]
    omega
  have hlocal : LinkLocal a ↔ g0 / 64 = 0x3fa := by
    rw [LinkLocal, shares_div, hvalue]
    omega
  have hunique : UniqueLocal a ↔ g0 / 512 = 0x7e := by
    rw [UniqueLocal, shares_div, hvalue]
    omega
  rw [isPrivateOrLocalV6, hexpand, Refused, hmapped, hlocal, hunique, Unspecified, Loopback, hvalue]
  simp only [List.map_cons, List.map_nil, List.take_succ_cons, List.take_zero, List.all_cons,
    List.all_nil, Bool.and_true, List.getD_cons_succ, List.getD_cons_zero, parseHex_hex]
  have hcond : ((hex g0 == ['0'] && (hex g1 == ['0'] && (hex g2 == ['0'] && (hex g3 == ['0'] &&
      hex g4 == ['0'])))) && hex g5 == "ffff".toList) = true ↔
      g0 = 0 ∧ g1 = 0 ∧ g2 = 0 ∧ g3 = 0 ∧ g4 = 0 ∧ g5 = 65535 := by
    simp only [Bool.and_eq_true, beq_iff_eq, hzero, hffff, and_assoc]
  by_cases hcase : g0 = 0 ∧ g1 = 0 ∧ g2 = 0 ∧ g3 = 0 ∧ g4 = 0 ∧ g5 = 65535
  · rw [if_pos (hcond.mpr hcase), isPrivateOrLocalV4_iff h6 h7]
    obtain ⟨rfl, rfl, rfl, rfl, rfl, rfl⟩ := hcase
    have hv4 : (65536 * (65536 * (65536 * (65536 * (65536 * (65536 * (65536 * (65536 * 0 + 0) +
        0) + 0) + 0) + 0) + 65535) + g6) + g7) % 2 ^ 32 = 65536 * g6 + g7 := by omega
    rw [hv4]
    refine ⟨fun h => .inr (.inr (.inr (.inr ⟨by simp, h⟩))), ?_⟩
    rintro (h | h | h | h | ⟨-, h⟩)
    · omega
    · omega
    · omega
    · omega
    · exact h
  · rw [if_neg (fun h => hcase (hcond.mp h))]
    simp only [Bool.or_eq_true, Bool.and_eq_true, beq_iff_eq, hzero, hone, linkLocal_test h0,
      uniqueLocal_test h0]
    omega

/-- Every form of an address is answered by its value. -/
theorem isPrivateOrLocalV6_iff (a : Address) (text : List Char) (h : Written a text) :
    isPrivateOrLocalV6 text = true ↔ Refused a := by
  have hexpand := expandV6_spelling h a.length_groups a.group_lt
  have hlen := a.length_groups
  match hgroups : a.groups, hlen with
  | [g0, g1, g2, g3, g4, g5, g6, g7], _ => exact hextets_refused hgroups hexpand

namespace TargetSample

/-- ::ffff:10.0.0.1 -/
def mapped : Address where
  groups := [0, 0, 0, 0, 0, 0xffff, 0x0a00, 1]
  length_groups := rfl
  group_lt := by decide

/-- ff02::1 -/
def allNodes : Address where
  groups := [0xff02, 0, 0, 0, 0, 0, 0, 1]
  length_groups := rfl
  group_lt := by decide

theorem mapped_written : Written mapped "::FFFF:10.0.0.1%eth0".toList := by
  have htext : "::FFFF:10.0.0.1%eth0".toList.map Char.toLower = groupsText [] ++ ':' :: ':' ::
      [':'].intercalate ([0xffff].map hex ++ [dottedText 0x0a00 1]) ++ '%' :: "eth0".toList := by decide
  have hgroups : mapped.groups = [] ++ List.replicate 5 0 ++ ([0xffff] ++ [0x0a00, 1]) := rfl
  rw [Written, htext, hgroups]
  exact .zone _ (.compressed 5 (by decide) (.dotted [0xffff] 0x0a00 1))

theorem allNodes_written : Written allNodes "ff02::1".toList := by
  have htext : "ff02::1".toList.map Char.toLower =
      groupsText [0xff02] ++ ':' :: ':' :: groupsText [1] := by decide
  have hgroups : allNodes.groups = [0xff02] ++ List.replicate 6 0 ++ [1] := rfl
  rw [Written, htext, hgroups]
  exact .compressed 6 (by decide) (.groups [1])

end TargetSample

theorem mapped_refused : isPrivateOrLocalV6 "::FFFF:10.0.0.1%eth0".toList = true ∧
    Refused TargetSample.mapped := by
  have hrefused : isPrivateOrLocalV6 "::FFFF:10.0.0.1%eth0".toList = true := by decide
  exact ⟨hrefused, (isPrivateOrLocalV6_iff _ _ TargetSample.mapped_written).mp hrefused⟩

/-- A multicast address is let through, and so is the loopback address under a numeral
with leading zeros. -/
theorem multicast_allowed :
    (¬ ∀ a text, Written a text → Multicast a → isPrivateOrLocalV6 text = true) ∧
      isPrivateOrLocalV6 "0:0:0:0:0:0:0:1".toList = true ∧
      isPrivateOrLocalV6 "0:0:0:0:0:0:0:0001".toList = false := by
  refine ⟨fun hall => ?_, by decide, by decide⟩
  have htrue := hall _ _ TargetSample.allNodes_written (by decide : Shares _ _ _ _)
  exact absurd htrue (by decide)

end EsigSuite.Mcp.WebhookTarget
