import EsigSuite.Lib.Json
import Mathlib.Data.Nat.Digits.Lemmas

/-!
# Numbers in a radix

Digits with the most significant one first, and the bytes that hexadecimal
digits stand for in pairs.
-/

namespace Lib.Radix

/-- `num = num * b + digit` over the digits. -/
def value (b : Nat) (ds : List Nat) : Nat := ds.foldl (fun num digit => num * b + digit) 0

/-- The digits that repeated division gives, none for zero. -/
def digits (b n : Nat) : List Nat := (Nat.digits b n).reverse

variable {b : Nat}

theorem foldl_value (b num : Nat) (ds : List Nat) :
    ds.foldl (fun num digit => num * b + digit) num = num * b ^ ds.length + value b ds := by
  induction ds generalizing num with
  | nil => simp [value]
  | cons d ds ih =>
    have hvalue : value b (d :: ds) = d * b ^ ds.length + value b ds := by
      rw [value, List.foldl_cons, ih, Nat.zero_mul, Nat.zero_add]
    rw [List.foldl_cons, ih, hvalue, List.length_cons, pow_succ]
    ring

theorem value_append (b : Nat) (hi lo : List Nat) :
    value b (hi ++ lo) = value b hi * b ^ lo.length + value b lo := by
  rw [value, List.foldl_append, foldl_value]
  rfl

theorem value_eq (b : Nat) (ds : List Nat) : value b ds = Nat.ofDigits b ds.reverse := by
  induction ds using List.reverseRecOn with
  | nil => rfl
  | append_singleton ds d ih =>
    rw [value_append, List.reverse_append, List.reverse_singleton, List.singleton_append,
      Nat.ofDigits_cons, ih]
    simp only [List.length_singleton, pow_one, value, List.foldl_cons, List.foldl_nil]
    ring

@[simp] theorem value_digits (b n : Nat) : value b (digits b n) = n := by
  rw [value_eq, digits, List.reverse_reverse, Nat.ofDigits_digits]

theorem value_zeros (b k : Nat) (ds : List Nat) :
    value b (List.replicate k 0 ++ ds) = value b ds := by
  rw [value_append, value_eq, List.reverse_replicate, Nat.ofDigits_replicate_zero]
  simp

theorem digits_value (hb : 1 < b) {d : Nat} {ds : List Nat} (hlt : ∀ x ∈ d :: ds, x < b)
    (hd : d ≠ 0) : digits b (value b (d :: ds)) = d :: ds := by
  rw [digits, value_eq, Nat.digits_ofDigits b hb, List.reverse_reverse]
  · exact fun x hx => hlt x (List.mem_reverse.mp hx)
  · intro h
    simpa using hd

theorem digits_lt (hb : 1 < b) {n d : Nat} (h : d ∈ digits b n) : d < b :=
  Nat.digits_lt_base hb (List.mem_reverse.mp h)

@[simp] theorem digits_zero (b : Nat) : digits b 0 = [] := by simp [digits]

/-- The digits of a number do not start with zero. -/
theorem digits_head (b n : Nat) : ∀ d ∈ (digits b n).head?, d ≠ 0 := by
  intro d hd
  have hlast : d ∈ (Nat.digits b n).getLast? := by simpa [digits] using hd
  obtain ⟨hne, rfl⟩ := List.mem_getLast?_eq_getLast hlast
  have hn : n ≠ 0 := fun hzero => hne (by simp [hzero])
  exact Nat.getLast_digit_ne_zero b hn

theorem digits_push (hb : 1 < b) {n d : Nat} (hd : d < b) (hpos : 0 < b * n + d) :
    digits b (b * n + d) = digits b n ++ [d] := by
  rw [digits, Nat.digits_def' hb hpos, List.reverse_cons, Nat.mul_add_mod, Nat.mod_eq_of_lt hd,
    Nat.mul_add_div (by omega), Nat.div_eq_of_lt hd, Nat.add_zero]
  rfl

-- ---------------------------------------------------------------------------
-- Pairs of hexadecimal digits
-- ---------------------------------------------------------------------------

/-- An even number of digits. -/
def evened (text : List Char) : List Char := if text.length % 2 = 1 then '0' :: text else text

/-- `parseInt(byte, 16)` of every two digits. -/
def pairs : List Char → List UInt8
  | hi :: lo :: rest =>
    UInt8.ofNat ((Json.hexValue? hi).getD 0 * 16 + (Json.hexValue? lo).getD 0) :: pairs rest
  | _ => []

theorem evened_even (text : List Char) : (evened text).length % 2 = 0 := by
  unfold evened
  split
  next h => rw [List.length_cons]; omega
  next h => omega

theorem evened_append (text : List Char) (hi lo : Char) :
    evened (text ++ [hi, lo]) = evened text ++ [hi, lo] := by
  have hlength : (text ++ [hi, lo]).length % 2 = text.length % 2 := by simp
  unfold evened
  rw [hlength]
  split <;> rfl

theorem pairs_append {text : List Char} (h : text.length % 2 = 0) (rest : List Char) :
    pairs (text ++ rest) = pairs text ++ pairs rest := by
  fun_induction pairs text with
  | case1 hi lo text ih =>
    simp only [List.length_cons] at h
    rw [List.cons_append, List.cons_append, pairs, ih (by omega), List.cons_append]
  | case2 text hshort =>
    match text, hshort, h with
    | [], _, _ => rfl
    | [c], _, h => cases h
    | hi :: lo :: rest, hshort, _ => exact absurd rfl (hshort hi lo rest)

theorem pairs_byte : ∀ n < 256, pairs (evened (Nat.toDigits 16 n)) = [UInt8.ofNat n] := by
  decide +kernel

theorem pairs_two : ∀ n < 256, pairs [Nat.digitChar (n / 16), Nat.digitChar (n % 16)] =
    [UInt8.ofNat n] := by
  decide +kernel

/-- The bytes of a number by way of its hexadecimal digits. -/
theorem pairs_toDigits {n : Nat} (h : n ≠ 0) :
    pairs (evened (Nat.toDigits 16 n)) = (digits 256 n).map UInt8.ofNat := by
  induction n using Nat.strongRecOn with
  | ind n ih =>
    have hsplit : 256 * (n / 256) + n % 256 = n := Nat.div_add_mod n 256
    have hbyte : n % 256 < 256 := Nat.mod_lt _ (by decide)
    have hpush : digits 256 n = digits 256 (n / 256) ++ [n % 256] := by
      have hpush := digits_push (b := 256) (by decide) (n := n / 256) hbyte (by omega)
      rwa [hsplit] at hpush
    by_cases hsmall : n < 256
    · rw [pairs_byte n hsmall, hpush, Nat.div_eq_of_lt hsmall, Nat.mod_eq_of_lt hsmall]
      rfl
    have hdigits : Nat.toDigits 16 n = Nat.toDigits 16 (n / 256) ++
        [Nat.digitChar (n % 256 / 16), Nat.digitChar (n % 256 % 16)] := by
      have hhigh := Nat.toDigits_append_toDigits (b := 16) (n := n / 256) (d := n % 256 / 16)
        (by decide) (by omega) (by omega)
      have hlow := Nat.toDigits_append_toDigits (b := 16) (n := 16 * (n / 256) + n % 256 / 16)
        (d := n % 256 % 16) (by decide) (by omega) (by omega)
      rw [show 16 * (16 * (n / 256) + n % 256 / 16) + n % 256 % 16 = n by omega, ← hhigh,
        Nat.toDigits_of_lt_base (by omega : n % 256 / 16 < 16),
        Nat.toDigits_of_lt_base (by omega : n % 256 % 16 < 16)] at hlow
      rw [← hlow, List.append_assoc]
      rfl
    rw [hdigits, evened_append, pairs_append (evened_even _), ih (n / 256) (by omega) (by omega),
      pairs_two _ hbyte, hpush, List.map_append]
    rfl

end Lib.Radix
