import EsigSuite.Lib.Base64
import EsigSuite.Lib.JsonRead
import EsigSuite.Lib.Radix
import EsigSuite.Exchange.Jcs
import Mathlib.Data.List.TakeWhile

/-!
# Multibase

`encodeMultibase` and `decodeMultibase` of `esig-uaid-exch/src/verify.ts`. Bytes
come back from both encodings, but that nothing but zeros comes back from
base58btc with a zero more.
-/

namespace EsigSuite.Exchange

open Lib

inductive MultibasePrefix
  | z
  | u
  deriving DecidableEq

def BASE58BTC_ALPHABET : JsString :=
  js "123456789ABCDEFGHJKLMNPQRSTUVWXYZabcdefghijkmnopqrstuvwxyz"

/-- `for (const ch of s)` -/
def codePoints : JsString → List JsString
  | [] => []
  | [unit] => [[unit]]
  | unit :: next :: rest =>
    if Json.isHigh unit && Json.isLow next then [unit, next] :: codePoints rest
    else [unit] :: codePoints (next :: rest)

/-- `JSON.stringify` of a string. -/
def quoted (s : JsString) : JsString := JsString.ofText (Json.stringText s)

def BASE58BTC_INDEX : JsString → Option Nat
  | [unit] => BASE58BTC_ALPHABET.idxOf? unit
  | _ => none

def base58btcDigit (ch : JsString) : Except JsString Nat :=
  match BASE58BTC_INDEX ch with
  | none => .error (js "decodeMultibase: invalid base58btc character " ++ quoted ch)
  | some digit => .ok digit

/-- The hexadecimal text of zero is one digit and not none. -/
def base58btcDecode (s : JsString) : Except JsString Bytes := do
  let digits ← (codePoints s).mapM base58btcDigit
  let hex := Nat.toDigits 16 (Radix.value 58 digits)
  let leadingZeros := ((codePoints s).takeWhile (· == js "1")).length
  return List.replicate leadingZeros 0 ++ Radix.pairs (Radix.evened hex)

def base58btcChar (digit : Nat) : UInt16 := BASE58BTC_ALPHABET.getD digit 0

def base58btcEncode (bytes : Bytes) : JsString :=
  let num := Radix.value 256 (bytes.map (·.toNat))
  let leadingZeros := (bytes.takeWhile (· == 0)).length
  List.replicate leadingZeros (base58btcChar 0) ++ (Radix.digits 58 num).map base58btcChar

def base64UrlDigit (d : Fin 64) : UInt16 :=
  if d = 62 then 45 else if d = 63 then 95 else (Base64.digit d).toUInt16

/-- `[A-Za-z0-9_-]` -/
def isBase64Url (unit : UInt16) : Bool :=
  (65 ≤ unit && unit ≤ 90) || (97 ≤ unit && unit ≤ 122) || (48 ≤ unit && unit ≤ 57) ||
    unit == 95 || unit == 45

def base64UrlDecode (s : JsString) : Except JsString Bytes :=
  if ¬ s.all isBase64Url then .error (js "decodeMultibase: invalid base64url characters")
  else .ok (Base64.decode (s.map (·.toNat)))

def base64UrlEncode (bytes : Bytes) : JsString := (Base64.digits bytes).map base64UrlDigit

def decodeMultibase : Option Json → Except JsString Bytes
  | some (.string (prefixUnit :: rest)) =>
    if prefixUnit = 122 then base58btcDecode rest
    else if prefixUnit = 117 then base64UrlDecode rest
    else .error (js "decodeMultibase: unsupported multibase prefix " ++ quoted [prefixUnit])
  | _ => .error (js "decodeMultibase: expected a non-empty multibase string")

def encodeMultibase (bytes : Bytes) : MultibasePrefix → JsString
  | .z => js "z" ++ base58btcEncode bytes
  | .u => js "u" ++ base64UrlEncode bytes

-- ---------------------------------------------------------------------------
-- Base58
-- ---------------------------------------------------------------------------

def AllZero (bytes : Bytes) : Prop := ∀ b ∈ bytes, b = 0

instance (bytes : Bytes) : Decidable (AllZero bytes) := List.decidableBAll (· = 0) bytes

theorem codePoints_plain {s : JsString} (h : ∀ unit ∈ s, Json.isHigh unit = false) :
    codePoints s = s.map ([·]) := by
  fun_induction codePoints s with
  | case1 => rfl
  | case2 unit => rfl
  | case3 unit next rest hpair ih => simp [h unit List.mem_cons_self] at hpair
  | case4 unit next rest hpair ih =>
    rw [ih fun u hu => h u (List.mem_cons_of_mem _ hu)]
    rfl

theorem base58btcChar_plain : ∀ d < 58, Json.isHigh (base58btcChar d) = false := by
  decide +kernel

theorem base58btcDigit_char : ∀ d < 58, base58btcDigit [base58btcChar d] = .ok d := by
  decide +kernel

theorem base58btcChar_one : ∀ d < 58, [base58btcChar d] = js "1" → d = 0 := by
  decide +kernel

theorem mapM_digits {digits : List Nat} (h : ∀ d ∈ digits, d < 58) :
    ((digits.map base58btcChar).map ([·])).mapM base58btcDigit = .ok digits := by
  induction digits with
  | nil => rfl
  | cons d digits ih =>
    rw [List.map_cons, List.map_cons, List.mapM_cons,
      base58btcDigit_char d (h d List.mem_cons_self),
      ih fun x hx => h x (List.mem_cons_of_mem _ hx)]
    rfl

theorem takeWhile_ones {digits : List Nat} (k : Nat) (h : ∀ d ∈ digits, d < 58)
    (hhead : ∀ d ∈ digits.head?, d ≠ 0) :
    (((List.replicate k 0 ++ digits).map base58btcChar).map ([·])).takeWhile (· == js "1") =
      List.replicate k (js "1") := by
  have hzero : [base58btcChar 0] = js "1" := by decide
  rw [List.map_append, List.map_append, List.map_replicate, List.map_replicate, hzero,
    List.takeWhile_append_of_pos fun x hx => by rw [List.eq_of_mem_replicate hx]; decide]
  cases digits with
  | nil => simp
  | cons d digits =>
    have hd : ([base58btcChar d] == js "1") = false :=
      beq_eq_false_iff_ne.mpr fun heq => hhead d rfl (base58btcChar_one d (h d List.mem_cons_self) heq)
    simp [hd]

/-- The bytes after the leading zeros. -/
def significant (bytes : Bytes) : Bytes := bytes.dropWhile (· == 0)

theorem zeros_significant (bytes : Bytes) :
    List.replicate (bytes.takeWhile (· == 0)).length 0 ++ significant bytes = bytes := by
  have hzeros : bytes.takeWhile (· == 0) = List.replicate (bytes.takeWhile (· == 0)).length 0 :=
    List.eq_replicate_iff.mpr ⟨rfl, fun b hb => by simpa using List.mem_takeWhile_imp hb⟩
  rw [← hzeros]
  exact List.takeWhile_append_dropWhile

theorem significant_eq_nil {bytes : Bytes} : significant bytes = [] ↔ AllZero bytes := by
  simp [significant, AllZero]

theorem value_significant (bytes : Bytes) :
    Radix.value 256 (bytes.map (·.toNat)) = Radix.value 256 ((significant bytes).map (·.toNat)) := by
  have h := Radix.value_zeros 256 (bytes.takeWhile (· == 0)).length
    ((significant bytes).map (·.toNat))
  rw [← h]
  conv_lhs => rw [← zeros_significant bytes]
  simp

/-- Bytes that do not start with zero are the digits of their number. -/
theorem digits_significant (bytes : Bytes) :
    (Radix.digits 256 (Radix.value 256 ((significant bytes).map (·.toNat)))).map UInt8.ofNat =
      significant bytes := by
  cases hsig : significant bytes with
  | nil => rfl
  | cons b rest =>
    have hb : b.toNat ≠ 0 := by
      intro hzero
      have hhead : bytes.dropWhile (· == 0) = b :: rest := hsig
      have hfalse := List.head?_dropWhile_not (· == (0 : UInt8)) bytes
      rw [hhead] at hfalse
      have : b = 0 := UInt8.toNat_inj.mp hzero
      simp [this] at hfalse
    rw [List.map_cons, Radix.digits_value (by decide) ?_ hb, ← List.map_cons (f := UInt8.toNat), List.map_map]
    · exact List.map_id'' (fun u => UInt8.ofNat_toNat) (b :: rest)
    · intro x hx
      rw [← List.map_cons (f := UInt8.toNat)] at hx
      obtain ⟨u, -, rfl⟩ := List.mem_map.mp hx
      exact u.toNat_lt

/-- Nothing but zeros is decoded with a zero more. -/
theorem base58btcDecode_encode (bytes : Bytes) :
    base58btcDecode (base58btcEncode bytes) =
      .ok (if AllZero bytes then bytes ++ [0] else bytes) := by
  let k := (bytes.takeWhile (· == 0)).length
  let num := Radix.value 256 (bytes.map (·.toNat))
  have hlt : ∀ d ∈ List.replicate k 0 ++ Radix.digits 58 num, d < 58 := by
    intro d hd
    rcases List.mem_append.mp hd with hd | hd
    · rw [List.eq_of_mem_replicate hd]
      decide
    · exact Radix.digits_lt (by decide) hd
  have hencode : base58btcEncode bytes =
      (List.replicate k 0 ++ Radix.digits 58 num).map base58btcChar := by
    simp [base58btcEncode, k, num]
  have hpoints : codePoints (base58btcEncode bytes) =
      ((List.replicate k 0 ++ Radix.digits 58 num).map base58btcChar).map ([·]) := by
    rw [hencode]
    refine codePoints_plain fun unit hunit => ?_
    obtain ⟨d, hd, rfl⟩ := List.mem_map.mp hunit
    exact base58btcChar_plain d (hlt d hd)
  have hones := takeWhile_ones k (fun d hd => hlt d (List.mem_append_right _ hd))
    (Radix.digits_head 58 num)
  have hdecode : base58btcDecode (base58btcEncode bytes) =
      .ok (List.replicate k 0 ++ Radix.pairs (Radix.evened (Nat.toDigits 16 num))) := by
    rw [base58btcDecode, hpoints, mapM_digits hlt, hones, List.length_replicate]
    simp only [bind, Except.bind, pure, Except.pure, Radix.value_zeros, Radix.value_digits]
  rw [hdecode]
  have hzeros := zeros_significant bytes
  split
  next hall =>
    have hsig := significant_eq_nil.mpr hall
    have hnum : num = 0 := by
      change Radix.value 256 (bytes.map (·.toNat)) = 0
      rw [value_significant, hsig]
      rfl
    rw [hsig, List.append_nil] at hzeros
    rw [hnum, hzeros]
    rfl
  next hall =>
    have hnum : num ≠ 0 := by
      intro hzero
      have hdigits := digits_significant bytes
      rw [← value_significant] at hdigits
      change (Radix.digits 256 num).map UInt8.ofNat = significant bytes at hdigits
      rw [hzero] at hdigits
      exact hall (significant_eq_nil.mp (by simpa using hdigits.symm))
    rw [Radix.pairs_toDigits hnum]
    change Except.ok (List.replicate k 0 ++ (Radix.digits 256
      (Radix.value 256 (bytes.map (·.toNat)))).map UInt8.ofNat) = _
    rw [value_significant, digits_significant, hzeros]

-- ---------------------------------------------------------------------------
-- Base64url
-- ---------------------------------------------------------------------------

theorem base64UrlDigit_read (d : Fin 64) : Base64.digit? (base64UrlDigit d).toNat = some d := by
  revert d
  decide

theorem base64UrlDigit_ne_pad (d : Fin 64) : (base64UrlDigit d).toNat ≠ Base64.PAD.toNat := by
  revert d
  decide

theorem isBase64Url_digit (d : Fin 64) : isBase64Url (base64UrlDigit d) = true := by
  revert d
  decide

theorem base64UrlDecode_encode (bytes : Bytes) :
    base64UrlDecode (base64UrlEncode bytes) = .ok bytes := by
  have hall : (base64UrlEncode bytes).all isBase64Url = true := by
    simp [base64UrlEncode, isBase64Url_digit]
  have hcodes : (base64UrlEncode bytes).map (·.toNat) =
      (Base64.digits bytes).map fun d => (base64UrlDigit d).toNat := by simp [base64UrlEncode]
  have hread : ((Base64.digits bytes).map fun d => (base64UrlDigit d).toNat).filterMap
      Base64.digit? = Base64.digits bytes := by
    simp [List.filterMap_map, base64UrlDigit_read]
  have hpad : ((Base64.digits bytes).map fun d => (base64UrlDigit d).toNat).takeWhile
      (· ≠ Base64.PAD.toNat) = (Base64.digits bytes).map fun d => (base64UrlDigit d).toNat := by
    rw [List.takeWhile_eq_self_iff]
    intro code hcode
    obtain ⟨d, -, rfl⟩ := List.mem_map.mp hcode
    exact decide_eq_true (base64UrlDigit_ne_pad d)
  rw [base64UrlDecode, if_neg (not_not.mpr hall), Base64.decode, hcodes, hpad, hread,
    Base64.bytes_digits]

/-- What comes back from multibase. -/
theorem decodeMultibase_encode (bytes : Bytes) (p : MultibasePrefix) :
    decodeMultibase (some (.string (encodeMultibase bytes p))) =
      .ok (if p = .z ∧ AllZero bytes then bytes ++ [0] else bytes) := by
  cases p with
  | z =>
    change base58btcDecode (base58btcEncode bytes) = _
    simp [base58btcDecode_encode]
  | u =>
    change base64UrlDecode (base64UrlEncode bytes) = _
    simp [base64UrlDecode_encode]

/-- `num.toString(16)` of zero is `"0"`, never the empty text the decoder tests for: a number
that stands for no byte comes back as one zero byte. -/
theorem decodeMultibase_encode_iff (bytes : Bytes) (p : MultibasePrefix) :
    decodeMultibase (some (.string (encodeMultibase bytes p))) = .ok bytes ↔
      p = .u ∨ ¬ AllZero bytes := by
  rw [decodeMultibase_encode]
  by_cases h : p = .z ∧ AllZero bytes
  · obtain ⟨rfl, hzero⟩ := h
    simp [hzero]
  · rw [if_neg h]
    have : p = .u ∨ ¬ AllZero bytes := by
      cases p with
      | z => exact .inr fun hzero => h ⟨rfl, hzero⟩
      | u => exact .inl rfl
    simp [this]

theorem decodeMultibase_encode_empty :
    ¬ ∀ (bytes : Bytes) (p : MultibasePrefix),
      decodeMultibase (some (.string (encodeMultibase bytes p))) = .ok bytes := by
  intro h
  have := h [] .z
  rw [decodeMultibase_encode] at this
  rw [if_pos ⟨rfl, fun _ hb => nomatch hb⟩] at this
  cases this

end EsigSuite.Exchange
