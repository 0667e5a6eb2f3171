import Mathlib.Algebra.GroupWithZero.Nat
import Mathlib.Data.List.Basic

/-!
# Base64

The standard alphabet with padding to write, and the lenient reading of
Node.js: it stops at the first `=`, takes the URL-safe digits too and passes
over everything else. Text is given by its character codes.
-/

namespace Lib.Base64

def PAD : UInt8 := 61

instance neZero_sixtyFour : NeZero 64 := ⟨by decide⟩

def digit (d : Fin 64) : UInt8 :=
  UInt8.ofNat (if d.val < 26 then d.val + 65 else if d.val < 52 then d.val + 71
    else if d.val < 62 then d.val - 4 else if d.val = 62 then 43 else 47)

def digit? (code : Nat) : Option (Fin 64) :=
  if 65 ≤ code ∧ code ≤ 90 then some (Fin.ofNat 64 (code - 65))
  else if 97 ≤ code ∧ code ≤ 122 then some (Fin.ofNat 64 (code - 71))
  else if 48 ≤ code ∧ code ≤ 57 then some (Fin.ofNat 64 (code + 4))
  else if code = 43 ∨ code = 45 then some 62
  else if code = 47 ∨ code = 95 then some 63
  else none

/-- Three bytes are four digits, low bits filled up with zeros at the end. -/
def digits : List UInt8 → List (Fin 64)
  | a :: b :: c :: rest =>
    Fin.ofNat 64 (a.toNat / 4) :: Fin.ofNat 64 (a.toNat % 4 * 16 + b.toNat / 16) ::
      Fin.ofNat 64 (b.toNat % 16 * 4 + c.toNat / 64) :: Fin.ofNat 64 c.toNat :: digits rest
  | [a, b] =>
    [Fin.ofNat 64 (a.toNat / 4), Fin.ofNat 64 (a.toNat % 4 * 16 + b.toNat / 16),
      Fin.ofNat 64 (b.toNat % 16 * 4)]
  | [a] => [Fin.ofNat 64 (a.toNat / 4), Fin.ofNat 64 (a.toNat % 4 * 16)]
  | [] => []

/-- A last digit alone says nothing. -/
def bytes : List (Fin 64) → List UInt8
  | w :: x :: y :: z :: rest =>
    UInt8.ofNat (w.val * 4 + x.val / 16) :: UInt8.ofNat (x.val % 16 * 16 + y.val / 4) ::
      UInt8.ofNat (y.val % 4 * 64 + z.val) :: bytes rest
  | [w, x, y] =>
    [UInt8.ofNat (w.val * 4 + x.val / 16), UInt8.ofNat (x.val % 16 * 16 + y.val / 4)]
  | [w, x] => [UInt8.ofNat (w.val * 4 + x.val / 16)]
  | [_] | [] => []

def padding (length : Nat) : List UInt8 :=
  if length % 3 = 1 then [PAD, PAD] else if length % 3 = 2 then [PAD] else []

def encode (data : List UInt8) : List UInt8 :=
  (digits data).map digit ++ padding data.length

def decode (codes : List Nat) : List UInt8 :=
  bytes ((codes.takeWhile (· ≠ PAD.toNat)).filterMap digit?)

/-- The URL-safe alphabet. -/
def urlDigit (d : Fin 64) : UInt8 := if d = 62 then 45 else if d = 63 then 95 else digit d

/-- `base64url`, which has no padding. -/
def encodeUrl (data : List UInt8) : List UInt8 := (digits data).map urlDigit

/-- `[A-Za-z0-9+/=]` -/
def isText (code : UInt8) : Bool :=
  (65 ≤ code && code ≤ 90) || (97 ≤ code && code ≤ 122) || (48 ≤ code && code ≤ 57) ||
    code == 43 || code == 47 || code == PAD

-- ---------------------------------------------------------------------------
-- Round trip
-- ---------------------------------------------------------------------------

theorem digit?_digit (d : Fin 64) : digit? (digit d).toNat = some d := by
  revert d
  decide

theorem digit_ne_pad (d : Fin 64) : (digit d).toNat ≠ PAD.toNat := by
  revert d
  decide

theorem isText_digit (d : Fin 64) : isText (digit d) = true := by
  revert d
  decide

theorem bytes_digits (data : List UInt8) : bytes (digits data) = data := by
  fun_induction digits data with
  | case1 a b c rest ih =>
    have ha := a.toNat_lt
    have hb := b.toNat_lt
    have hc := c.toNat_lt
    simp only [bytes, ih, List.cons.injEq, and_true, Fin.val_ofNat]
    refine ⟨?_, ?_, ?_⟩ <;> apply UInt8.toNat_inj.mp <;> simp only [UInt8.toNat_ofNat'] <;> omega
  | case2 a b =>
    have ha := a.toNat_lt
    have hb := b.toNat_lt
    simp only [bytes, List.cons.injEq, and_true, Fin.val_ofNat]
    refine ⟨?_, ?_⟩ <;> apply UInt8.toNat_inj.mp <;> simp only [UInt8.toNat_ofNat'] <;> omega
  | case3 a =>
    have ha := a.toNat_lt
    simp only [bytes, List.cons.injEq, and_true, Fin.val_ofNat]
    apply UInt8.toNat_inj.mp
    simp only [UInt8.toNat_ofNat']
    omega
  | case4 => rfl

theorem padding_eq_pad (h : code ∈ padding length) : code = PAD := by
  unfold padding at h
  split at h
  · simpa using h
  · split at h
    · simpa using h
    · simp at h

theorem isText_encode (data : List UInt8) : ∀ code ∈ encode data, isText code = true := by
  intro code h
  obtain h | h := List.mem_append.mp h
  · obtain ⟨d, -, rfl⟩ := List.mem_map.mp h
    exact isText_digit d
  · rw [padding_eq_pad h]
    rfl

theorem encode_ne_nil (h : data ≠ []) : encode data ≠ [] := by
  fun_cases digits data with
  | case4 => exact absurd rfl h
  | _ => simp [encode, digits]

theorem takeWhile_append_pad {p : α → Bool} {l r : List α} (hl : ∀ x ∈ l, p x = true)
    (hr : ∀ x ∈ r, p x = false) : (l ++ r).takeWhile p = l := by
  rw [List.takeWhile_append_of_pos hl]
  cases r with
  | nil => simp
  | cons x r => simp [hr x List.mem_cons_self]

theorem filterMap_digit? {f : Fin 64 → UInt8} (h : ∀ d, digit? (f d).toNat = some d)
    (ds : List (Fin 64)) : (ds.map fun d => (f d).toNat).filterMap digit? = ds := by
  induction ds with
  | nil => rfl
  | cons d ds ih => simp [h, ih]

theorem decode_encode (data : List UInt8) : decode ((encode data).map (·.toNat)) = data := by
  have hdigits : ((encode data).map (·.toNat)).takeWhile (· ≠ PAD.toNat) =
      (digits data).map fun d => (digit d).toNat := by
    unfold encode
    rw [List.map_append, List.map_map]
    refine takeWhile_append_pad (fun x hx => ?_) (fun x hx => ?_)
    · obtain ⟨d, -, rfl⟩ := List.mem_map.mp hx
      exact decide_eq_true (digit_ne_pad d)
    · obtain ⟨code, hcode, rfl⟩ := List.mem_map.mp hx
      simp [padding_eq_pad hcode]
  unfold decode
  rw [hdigits, filterMap_digit? digit?_digit, bytes_digits]

theorem digit?_urlDigit (d : Fin 64) : digit? (urlDigit d).toNat = some d := by
  revert d
  decide

theorem urlDigit_ne_pad (d : Fin 64) : (urlDigit d).toNat ≠ PAD.toNat := by
  revert d
  decide

theorem decode_encodeUrl (data : List UInt8) :
    decode ((encodeUrl data).map (·.toNat)) = data := by
  have hdigits : ((encodeUrl data).map (·.toNat)).takeWhile (· ≠ PAD.toNat) =
      (digits data).map fun d => (urlDigit d).toNat := by
    have hall := takeWhile_append_pad (p := (· ≠ PAD.toNat)) (r := [])
      (l := (digits data).map fun d => (urlDigit d).toNat) (fun x hx => ?_) nofun
    · rw [encodeUrl, List.map_map]
      simpa [Function.comp_def] using hall
    · obtain ⟨d, -, rfl⟩ := List.mem_map.mp hx
      exact decide_eq_true (urlDigit_ne_pad d)
  unfold decode
  rw [hdigits, filterMap_digit? digit?_urlDigit, bytes_digits]

theorem length_encode_mod (data : List UInt8) : (encode data).length % 4 = 0 := by
  rw [encode, List.length_append, List.length_map]
  fun_induction digits data with
  | case1 a b c rest ih =>
    have hpadding : padding (a :: b :: c :: rest).length = padding rest.length := by
      have h : (rest.length + 3) % 3 = rest.length % 3 := Nat.add_mod_right _ _
      simp only [padding, List.length_cons, h]
    rw [hpadding]
    simp only [List.length_cons]
    omega
  | case2 | case3 | case4 => simp [padding]

theorem length_digits_le (data : List UInt8) :
    3 * (digits data).length ≤ 4 * data.length + 2 := by
  fun_induction digits data <;> simp only [List.length_cons, List.length_nil] at * <;> omega

theorem length_encode_le (data : List UInt8) :
    3 * (encode data).length ≤ 4 * data.length + 8 := by
  have hdigits := length_digits_le data
  have hpadding : (padding data.length).length ≤ 2 := by
    unfold padding
    split_ifs <;> simp
  rw [encode, List.length_append, List.length_map]
  omega

end Lib.Base64
