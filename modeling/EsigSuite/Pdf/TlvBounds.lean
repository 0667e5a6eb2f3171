import EsigSuite.Pdf.ReadTlv

/-!
# The bounds of a value that was read

The long form puts its octets together with shifts of 32 bits, which have a
sign: four octets of which the first is 80 or more are a negative length, and
`end` comes to lie before the contents. Nothing else goes wrong from an offset
whose length octet is in the buffer.
-/

namespace EsigSuite.PqCert

open Lib

/-- The length octets from an index on, as an unsigned number. -/
def lengthAt (der : Bytes) (i : Nat) : Option Nat :=
  match der.drop i with
  | [] => none
  | first :: rest =>
    if first < 0x80 then some first.toNat
    else
      let octets := rest.take (first &&& 0x7f).toNat
      if octets.length < (first &&& 0x7f).toNat then none
      else some (Radix.value 256 (octets.map UInt8.toNat))

/-- `offset < contentStart <= end <= der.length`, and `end` is where the length
says. -/
def Framed (der : Bytes) (t : Tlv) : Prop :=
  ∃ (start contentStart stop : Int) (len : Nat), t.start = .int start ∧
    t.contentStart = .int contentStart ∧ t.stop = .int stop ∧ start < contentStart ∧
    contentStart ≤ stop ∧ stop ≤ der.length ∧ lengthAt der (start + 1).toNat = some len ∧
    stop = contentStart + len

/-- The length at `n + 1` has four octets and is `2 ^ 31` or more. -/
def SignedLength (der : Bytes) (n : Int) : Prop :=
  byteAt der (.int (n + 1)) = some 0x84 ∧ ∃ b, byteAt der (.int (n + 2)) = some b ∧ 0x80 ≤ b

-- ---------------------------------------------------------------------------
-- Numbers
-- ---------------------------------------------------------------------------

/-- What lies beyond the buffer still does so when it is rounded. -/
theorem lt_round {length : Nat} {m : Int} (hlength : length < 2 ^ 53) (h : length < m) :
    (Number.int length).lt (Number.round m) = true := by
  by_cases hsmall : m.natAbs < 2 ^ 53
  · rw [Number.round_small hsmall, Number.lt, decide_eq_true_eq]
    exact h
  · have hround : 2 ^ 53 ≤ roundNat m.natAbs := le_roundNat (by omega)
    unfold Number.round
    split
    · rw [Int.sign_eq_one_of_pos (by omega), Number.lt, decide_eq_true_eq]
      omega
    · rw [decide_eq_false (by omega)]
      rfl

theorem byteAt_round_neg (der : Bytes) {m : Int} (h : m < 0) :
    byteAt der (Number.round m) = none := by
  have hpos : 0 < roundNat m.natAbs := by
    by_cases hsmall : m.natAbs < 2 ^ 53
    · rw [roundNat_small hsmall]
      omega
    · have := le_roundNat (n := m.natAbs) (by omega)
      omega
  unfold Number.round
  split
  · rw [Int.sign_eq_neg_one_of_neg h, byteAt, if_neg (by omega)]
  · rfl

theorem byteAt_round {der : Bytes} (hlength : der.length < 2 ^ 53) (i : Nat) :
    byteAt der (Number.round i) = der[i]? := by
  by_cases hsmall : i < 2 ^ 53
  · rw [Number.round_small (by simpa using hsmall), byteAt, if_pos (Int.natCast_nonneg i),
      Int.toNat_natCast]
  · have hround : 2 ^ 53 ≤ roundNat i := le_roundNat (by omega)
    rw [List.getElem?_eq_none (by omega)]
    unfold Number.round
    split
    · rw [Int.sign_eq_one_of_pos (by omega), Int.natAbs_natCast, byteAt, if_pos (by omega),
        List.getElem?_eq_none (by omega)]
    · rfl

/-- The contents that end in the buffer begin in it, and all was exact. -/
theorem closeTlv_eq_ok {der : Bytes} (hlength : der.length < 2 ^ 53) {start : Number} {m len : Int}
    (hm : 0 ≤ m) (hlen : 0 ≤ len) {t : Tlv}
    (h : closeTlv der start (Number.round m) (.int len) = .ok t) :
    m + len ≤ der.length ∧ t = ⟨byteAt der start, start, .int m, .int (m + len)⟩ := by
  rw [closeTlv, Number.ofNat_small hlength] at h
  split_ifs at h with hroom
  have hsum : ∀ z : Int, (der.length : Int) < z + len →
      (Number.int der.length).lt (.int z + .int len) = true := fun z hz => by
    rw [Number.int_add_int]
    exact lt_round hlength hz
  have hbegin : m ≤ der.length := by
    by_contra hbeyond
    have hlt := lt_round hlength (not_le.mp hbeyond)
    cases hround : Number.round m with
    | int z =>
      rw [hround, Number.lt, decide_eq_true_eq] at hlt
      rw [hround, hsum z (by omega)] at hroom
      exact hroom rfl
    | inf negative =>
      rw [hround] at hlt hroom
      exact hroom hlt
    | nan =>
      rw [hround] at hlt
      cases hlt
  rw [Number.round_small (by omega)] at h hroom
  have hend : m + len ≤ der.length := by
    by_contra hbeyond
    exact hroom (hsum m (not_le.mp hbeyond))
  rw [Number.int_add_int, Number.round_small (by omega)] at h
  exact ⟨hend, (Except.ok.inj h).symm⟩

-- ---------------------------------------------------------------------------
-- Lengths
-- ---------------------------------------------------------------------------

/-- Octets outside the buffer count as zero. -/
def unsigned (octets : List (Option UInt8)) : Nat :=
  Radix.value 256 (octets.map fun b => (b.getD 0).toNat)

theorem unsigned_cons (b : Option UInt8) (octets : List (Option UInt8)) :
    unsigned (b :: octets) = (b.getD 0).toNat * 256 ^ octets.length + unsigned octets := by
  have h := Radix.foldl_value 256 (b.getD 0).toNat (octets.map fun b => (b.getD 0).toNat)
  rw [List.length_map] at h
  rw [unsigned, List.map_cons, Radix.value, List.foldl_cons, Nat.zero_mul, Nat.zero_add, h]
  rfl

theorem unsigned_lt (octets : List (Option UInt8)) : unsigned octets < 256 ^ octets.length := by
  induction octets with
  | nil => decide
  | cons b octets ih =>
    have hb : (b.getD 0).toNat < 256 := UInt8.toNat_lt _
    rw [unsigned_cons, List.length_cons, pow_succ]
    nlinarith

/-- The shifts keep the 32 bits of a number with a sign. -/
theorem foldl_shiftIn_unsigned (octets : List (Option UInt8)) :
    octets.foldl shiftIn 0 = (unsigned octets : Int).bmod (2 ^ 32) := by
  have hstep : ∀ (octets : List (Option UInt8)) (num : Nat),
      octets.foldl shiftIn ((num : Int).bmod (2 ^ 32)) =
        (((octets.map fun b => (b.getD 0).toNat).foldl (fun num digit => num * 256 + digit) num :
          Nat) : Int).bmod (2 ^ 32) := by
    intro octets
    induction octets with
    | nil =>
      intro num
      rw [List.foldl_nil, List.map_nil, List.foldl_nil]
    | cons b octets ih =>
      intro num
      have hshift : shiftIn ((num : Int).bmod (2 ^ 32)) b =
          ((num * 256 + (b.getD 0).toNat : Nat) : Int).bmod (2 ^ 32) := by
        rw [shiftIn, ← Int.bmod_add_bmod, Int.bmod_mul_bmod, Int.bmod_add_bmod]
        push_cast
        rfl
      rw [List.foldl_cons, hshift, ih, List.map_cons, List.foldl_cons]
  exact hstep octets 0

-- ---------------------------------------------------------------------------
-- The reader
-- ---------------------------------------------------------------------------

set_option maxRecDepth 2000 in
theorem long_bit (first : UInt8) : first &&& 0x80 ≠ 0 ↔ ¬ first < 0x80 := by
  have hall : ∀ n < 256, UInt8.ofNat n &&& 0x80 ≠ 0 ↔ ¬ UInt8.ofNat n < 0x80 := by decide
  simpa using hall first.toNat (UInt8.toNat_lt _)

set_option maxRecDepth 2000 in
theorem count_four (first : UInt8) : first = 0x84 ↔ ¬ first < 0x80 ∧ (first &&& 0x7f).toNat = 4 := by
  have hall : ∀ n < 256, UInt8.ofNat n = 0x84 ↔
      ¬ UInt8.ofNat n < 0x80 ∧ (UInt8.ofNat n &&& 0x7f).toNat = 4 := by decide
  simpa using hall first.toNat (UInt8.toNat_lt _)

/-- The octets of a length of the long form, as far as they are there. -/
def longOctets (first : UInt8) (rest : Bytes) : List (Option UInt8) :=
  (List.range (first &&& 0x7f).toNat).map fun k => rest[k]?

theorem length_longOctets (first : UInt8) (rest : Bytes) :
    (longOctets first rest).length = (first &&& 0x7f).toNat := by
  rw [longOctets, List.length_map, List.length_range]

section
variable {der rest : Bytes} {p : Nat} {first : UInt8} {t : Tlv}

theorem getElem?_after (hat : der.drop p = first :: rest) (k : Nat) :
    der[p + 1 + k]? = rest[k]? := by
  have h : (der.drop p)[k + 1]? = der[p + (k + 1)]? := List.getElem?_drop
  rw [hat, List.getElem?_cons_succ] at h
  rw [h, Nat.add_right_comm, Nat.add_assoc]

theorem lt_of_drop (hat : der.drop p = first :: rest) : p < der.length := by
  have h := congrArg List.length hat
  rw [List.length_drop, List.length_cons] at h
  omega

theorem byteAt_first (hat : der.drop p = first :: rest) : byteAt der (.int p) = some first := by
  have h : (der.drop p)[0]? = der[p + 0]? := List.getElem?_drop
  rw [hat, List.getElem?_cons_zero, Nat.add_zero] at h
  rw [byteAt, if_pos (Int.natCast_nonneg p), Int.toNat_natCast, ← h]

/-- `readTlv` at an offset whose length octet is there. -/
theorem readTlv_at (hlength : der.length < 2 ^ 53) (hat : der.drop p = first :: rest) :
    readTlv der (.int (p - 1)) =
      if first < 0x80 then
        closeTlv der (.int (p - 1)) (Number.round (p + 1 : Nat)) (.int first.toNat)
      else if (first &&& 0x7f).toNat = 0 ∨ (first &&& 0x7f).toNat > 4 then
        .error "DER: unsupported length encoding"
      else
        closeTlv der (.int (p - 1)) (Number.round (p + 1 + (first &&& 0x7f).toNat : Nat))
          (.int ((unsigned (longOctets first rest) : Int).bmod (2 ^ 32))) := by
  have hp := lt_of_drop hat
  have hone : (.int (p - 1) + .int 1 : Number) = .int p := by
    rw [Number.int_add_int, Number.round_small (by omega)]
    congr 1
    omega
  have htwo : (.int p + .int 1 : Number) = .int (p + 1 : Nat) := by
    rw [Number.int_add_int, Number.round_small (by omega)]
    rfl
  have hroom : ¬ (Number.int p).ge (.int der.length) = true := by
    simp only [Number.ge, Number.lt, Bool.not_eq_true', decide_eq_false_iff_not, not_not]
    omega
  have hfirst := byteAt_first hat
  have hsum : ∀ k : Nat, (.int (p + 1 : Nat) + .int k : Number) = Number.round (p + 1 + k : Nat) := by
    intro k
    rw [Number.int_add_int]
    push_cast
    rfl
  have hoctets : (List.range (first &&& 0x7f).toNat).foldl
      (fun len k => shiftIn len (byteAt der (.int (p + 1 : Nat) + .int k))) 0 =
        (unsigned (longOctets first rest) : Int).bmod (2 ^ 32) := by
    rw [← foldl_shiftIn_unsigned, longOctets, List.foldl_map]
    refine List.foldl_ext _ _ _ fun len k _ => ?_
    rw [hsum, byteAt_round hlength, getElem?_after hat]
  rw [readTlv, hone, htwo, Number.ofNat_small hlength, if_neg hroom]
  simp only [hfirst, long_bit, hoctets]
  simp only [hsum]
  have hstart : Number.int (p + 1 : Nat) = Number.round (p + 1 : Nat) :=
    (Number.round_small (by omega)).symm
  split_ifs with hshort
  · rw [hstart]
  · rfl
  · rfl

/-- A length whose octets are all there. -/
theorem lengthAt_long (hat : der.drop p = first :: rest) (hlong : ¬ first < 0x80)
    (hall : (first &&& 0x7f).toNat ≤ rest.length) :
    lengthAt der p = some (unsigned (longOctets first rest)) := by
  have hlength : (rest.take (first &&& 0x7f).toNat).length = (first &&& 0x7f).toNat :=
    List.length_take_of_le hall
  have hoctets : longOctets first rest = (rest.take (first &&& 0x7f).toNat).map some := by
    refine List.ext_getElem (by rw [length_longOctets, List.length_map, hlength]) fun k hk hk' => ?_
    rw [length_longOctets] at hk
    simp [longOctets, List.getElem?_eq_getElem (Nat.lt_of_lt_of_le hk hall)]
  have hvalue : unsigned (longOctets first rest) =
      Radix.value 256 ((rest.take (first &&& 0x7f).toNat).map UInt8.toNat) := by
    rw [unsigned, hoctets, List.map_map]
    rfl
  rw [lengthAt, hat, hvalue]
  simp only [if_neg hlong, hlength, lt_irrefl, if_false]

/-- Of four octets the first decides about the sign. -/
theorem le_unsigned_iff (hlong : ¬ first < 0x80) (hcount : (first &&& 0x7f).toNat ≤ 4) :
    2 ^ 31 ≤ unsigned (longOctets first rest) ↔
      first = 0x84 ∧ ∃ b, rest[0]? = some b ∧ 0x80 ≤ b := by
  by_cases hfour : (first &&& 0x7f).toNat = 4
  · have hoctets : longOctets first rest = rest[0]? :: [rest[1]?, rest[2]?, rest[3]?] := by
      rw [longOctets, hfour]
      rfl
    have htail := unsigned_lt [rest[1]?, rest[2]?, rest[3]?]
    rw [hoctets, unsigned_cons]
    simp only [List.length_cons, List.length_nil] at htail ⊢
    cases hfirst : rest[0]? with
    | none =>
      have hzero : ((none : Option UInt8).getD 0).toNat = 0 := rfl
      rw [hzero]
      refine ⟨fun h => ?_, ?_⟩
      · omega
      · rintro ⟨-, b, hb, -⟩
        cases hb
    | some b =>
      rw [Option.getD_some]
      refine ⟨fun h => ⟨(count_four first).mpr ⟨hlong, hfour⟩, b, rfl, ?_⟩, ?_⟩
      · rw [UInt8.le_iff_toNat_le]
        change 128 ≤ b.toNat
        omega
      · rintro ⟨-, b', hb', hle⟩
        cases hb'
        rw [UInt8.le_iff_toNat_le] at hle
        change 128 ≤ b.toNat at hle
        omega
  · have hlt := unsigned_lt (longOctets first rest)
    rw [length_longOctets] at hlt
    have hpow : 256 ^ (first &&& 0x7f).toNat ≤ 256 ^ 3 :=
      Nat.pow_le_pow_right (by omega) (by omega)
    refine ⟨fun h => absurd h (by omega), ?_⟩
    rintro ⟨h, -⟩
    exact absurd ((count_four first).mp h).2 hfour

theorem signedLength_iff (hlength : der.length < 2 ^ 53) (hat : der.drop p = first :: rest) :
    SignedLength der (p - 1) ↔ first = 0x84 ∧ ∃ b, rest[0]? = some b ∧ 0x80 ≤ b := by
  have hp := lt_of_drop hat
  have hsecond : byteAt der (.int (p + 1 : Nat)) = rest[0]? := by
    have h := byteAt_round hlength (p + 1)
    rw [Number.round_small (by omega)] at h
    rw [h, ← getElem?_after hat, Nat.add_zero]
  have hone : (p - 1 : Int) + 1 = p := by omega
  have htwo : (p - 1 : Int) + 2 = (p + 1 : Nat) := by omega
  rw [SignedLength, hone, htwo, byteAt_first hat, hsecond, Option.some_inj]

theorem closeTlv_parts {start contentStart len : Number}
    (h : closeTlv der start contentStart len = .ok t) :
    t = ⟨byteAt der start, start, contentStart, contentStart + len⟩ := by
  rw [closeTlv] at h
  split_ifs at h
  exact (Except.ok.inj h).symm

theorem framed_of_fits {m : Nat} {len : Nat} {tag : Option UInt8} (hm : p < m)
    (hfits : m + len ≤ der.length) (hlen : lengthAt der p = some len) :
    Framed der ⟨tag, .int (p - 1), .int m, .int (m + len)⟩ := by
  have hindex : ((p - 1 : Int) + 1).toNat = p := by omega
  refine ⟨_, _, _, len, rfl, rfl, rfl, ?_, ?_, ?_, ?_, rfl⟩
  · omega
  · omega
  · exact_mod_cast hfits
  · rw [hindex, hlen]

/-- A length below zero ends before the contents. -/
theorem not_framed_of_neg {start contentStart : Number} {len : Int} (hlength : der.length < 2 ^ 53)
    (hlen : len < 0) (hstart : start = .int (p - 1))
    (h : closeTlv der start contentStart (.int len) = .ok t) : ¬ Framed der t := by
  rintro ⟨s, c, e, _, hs, hc, he, hlt, hle, hfits, -, -⟩
  rw [closeTlv_parts h] at hs hc he
  dsimp only at hs hc he
  rw [hc, Number.int_add_int] at he
  rw [hstart] at hs
  have hs' := Number.int.inj hs
  have hexact := Number.round_int he (by omega)
  omega

theorem readTlv_at_framed (hlength : der.length < 2 ^ 53) (hat : der.drop p = first :: rest)
    (h : readTlv der (.int (p - 1)) = .ok t) : Framed der t ↔ ¬ SignedLength der (p - 1) := by
  have hrest : der.length = p + 1 + rest.length := by
    have hdrop := congrArg List.length hat
    have hp := lt_of_drop hat
    rw [List.length_drop, List.length_cons] at hdrop
    omega
  rw [readTlv_at hlength hat] at h
  rw [signedLength_iff hlength hat]
  by_cases hshort : first < 0x80
  · rw [if_pos hshort] at h
    obtain ⟨hfits, rfl⟩ := closeTlv_eq_ok hlength (by omega) (by omega) h
    have hframed : Framed der ⟨byteAt der (.int (p - 1)), .int (p - 1), .int (p + 1 : Nat),
        .int ((p + 1 : Nat) + first.toNat)⟩ :=
      framed_of_fits (by omega) (by exact_mod_cast hfits) (by rw [lengthAt, hat]; exact if_pos hshort)
    refine ⟨fun _ hlarge => ?_, fun _ => hframed⟩
    exact ((count_four first).mp hlarge.1).1 hshort
  · rw [if_neg hshort] at h
    split_ifs at h with hcount
    have hle : (first &&& 0x7f).toNat ≤ 4 := by omega
    rw [← le_unsigned_iff hshort hle]
    have hlt := unsigned_lt (longOctets first rest)
    rw [length_longOctets] at hlt
    have hpow : 256 ^ (first &&& 0x7f).toNat ≤ 256 ^ 4 := Nat.pow_le_pow_right (by omega) hle
    by_cases hlarge : 2 ^ 31 ≤ unsigned (longOctets first rest)
    · have hneg : (unsigned (longOctets first rest) : Int).bmod (2 ^ 32) < 0 := by
        rw [Int.bmod_def]
        push_cast
        omega
      exact ⟨fun hframed => absurd hframed (not_framed_of_neg hlength hneg rfl h),
        fun hsmall => absurd hlarge hsmall⟩
    · have hvalue : (unsigned (longOctets first rest) : Int).bmod (2 ^ 32) =
          unsigned (longOctets first rest) := by
        rw [Int.bmod_eq_of_le] <;> push_cast <;> omega
      rw [hvalue] at h
      obtain ⟨hfits, rfl⟩ := closeTlv_eq_ok hlength (by omega) (by omega) h
      have hall : (first &&& 0x7f).toNat ≤ rest.length := by omega
      refine ⟨fun _ => hlarge, fun _ => ?_⟩
      exact framed_of_fits (by omega) (by exact_mod_cast hfits) (lengthAt_long hat hshort hall)

end

theorem readTlv_start {der : Bytes} {offset : Number} {t : Tlv} (h : readTlv der offset = .ok t) :
    t.start = offset := by
  unfold readTlv at h
  split_ifs at h
  dsimp only at h
  split at h
  · rw [closeTlv_parts h]
  · split_ifs at h
    · rw [closeTlv_parts h]
    · rw [closeTlv_parts h]

theorem readTlv_beyond {der : Bytes} (hlength : der.length < 2 ^ 53) {p : Nat}
    (hp : der.length ≤ p) {t : Tlv} : readTlv der (.int (p - 1)) ≠ .ok t := by
  have hround : der.length ≤ roundNat p := by
    by_cases hsmall : p < 2 ^ 53
    · rw [roundNat_small hsmall]
      exact hp
    · exact hlength.le.trans (le_roundNat (by omega))
  have hsign : (p : Int).sign * roundNat p = roundNat p := by
    rcases Nat.eq_zero_or_pos p with rfl | hpos
    · rfl
    · rw [Int.sign_eq_one_of_pos (by omega), one_mul]
  have hroom : (.int (p - 1) + .int 1 : Number).ge (.ofNat der.length) = true := by
    rw [Number.int_add_int, sub_add_cancel, Number.ofNat_small hlength, Number.round,
      Int.natAbs_natCast, hsign]
    split
    · simp only [Number.ge, Number.lt, Bool.not_eq_true', decide_eq_false_iff_not, not_lt]
      exact_mod_cast hround
    · rw [decide_eq_false (by omega)]
      rfl
  rw [readTlv, if_pos hroom]
  intro h
  cases h

/-- Without a length octet the end is no number. -/
theorem readTlv_before {der : Bytes} {n : Int} (hn : n < -1) {t : Tlv}
    (h : readTlv der (.int n) = .ok t) : t.stop = .nan := by
  rw [readTlv, Number.int_add_int, byteAt_round_neg der (by omega)] at h
  split_ifs at h
  rw [closeTlv_parts h]
  cases Number.round (n + 1) + Number.int 1 <;> rfl

/-- What is read lies in the buffer, with the length that its octets say, but
where four octets say `2 ^ 31` or more. -/
theorem readTlv_framed_iff {der : Buffer} {offset : Number} {t : Tlv}
    (h : readTlv der.bytes offset = .ok t) :
    Framed der.bytes t ↔ ∃ n : Int, offset = .int n ∧ -1 ≤ n ∧ ¬ SignedLength der.bytes n := by
  have hstart := readTlv_start h
  have hlength := der.length_lt
  cases offset with
  | nan | inf negative =>
    refine ⟨?_, ?_⟩
    · rintro ⟨start, _, _, _, hs, -⟩
      rw [hstart] at hs
      cases hs
    · rintro ⟨n, hn, -⟩
      cases hn
  | int n =>
    have hunique : (∃ m : Int, Number.int n = .int m ∧ -1 ≤ m ∧ ¬ SignedLength der.bytes m) ↔
        -1 ≤ n ∧ ¬ SignedLength der.bytes n := by
      refine ⟨?_, fun hn => ⟨n, rfl, hn⟩⟩
      rintro ⟨m, hm, hrest⟩
      cases hm
      exact hrest
    rw [hunique]
    by_cases hn : n < -1
    · have hstop := readTlv_before hn h
      refine ⟨?_, fun hle => absurd hle.1 (by omega)⟩
      rintro ⟨_, _, _, _, -, -, hs, -⟩
      rw [hstop] at hs
      cases hs
    · rw [not_lt] at hn
      have hoffset : n = ((n + 1).toNat : Int) - 1 := by omega
      rw [and_iff_right hn, hoffset]
      rw [hoffset] at h
      cases hat : der.bytes.drop (n + 1).toNat with
      | nil =>
        exact absurd h (readTlv_beyond hlength (List.drop_eq_nil_iff.mp hat))
      | cons first rest => exact readTlv_at_framed hlength hat h

theorem readTlv_framed_short : Framed [0x30, 0x82, 0, 1, 7]
    ⟨some 0x30, .int 0, .int 4, .int 5⟩ := by
  have hread : readTlv (⟨[0x30, 0x82, 0, 1, 7], by decide⟩ : Buffer).bytes (.int 0) =
      .ok ⟨some 0x30, .int 0, .int 4, .int 5⟩ := rfl
  exact (readTlv_framed_iff hread).mpr ⟨0, rfl, by decide, fun h => by cases h.1⟩

/-- Four octets are taken for -1. -/
theorem negative_length : ¬ ∀ (der : Buffer) (offset : Nat) (t : Tlv),
    readTlv der.bytes (.int offset) = .ok t → Framed der.bytes t := by
  intro h
  obtain ⟨_, contentStart, stop, _, -, hcontent, hstop, -, hle, -⟩ :=
    h ⟨[0x30, 0x84, 255, 255, 255, 255], by decide⟩ 0 ⟨some 0x30, .int 0, .int 6, .int 5⟩ rfl
  cases hcontent
  cases hstop
  exact absurd hle (by decide)

end EsigSuite.PqCert
