import FileFerry.Text.Decimal
import Mathlib.Algebra.Group.Nat.Defs

/-!
# Decimal digits

The value of a run of digits, by its positions. Reading a run gives its value, as far as that is in
range, and the digits that are written for a number have its value.
-/

set_option autoImplicit false

namespace FileFerry

namespace Decimal

def IsDigit (c : Char) : Prop := 48 ≤ c.toNat ∧ c.toNat ≤ 57

/-- The number that digits continue from `acc`. -/
def valueFrom (acc : Nat) (digits : Text) : Nat := digits.foldl (fun acc c => acc * 10 + (c.toNat - 48)) acc

def value (digits : Text) : Nat := valueFrom 0 digits

theorem valueFrom_cons (acc : Nat) (c : Char) (digits : Text) :
    valueFrom acc (c :: digits) = valueFrom (acc * 10 + (c.toNat - 48)) digits :=
  List.foldl_cons ..

theorem valueFrom_concat (acc : Nat) (digits : Text) (c : Char) :
    valueFrom acc (digits ++ [c]) = valueFrom acc digits * 10 + (c.toNat - 48) := by
  simp [valueFrom]

theorem le_valueFrom (acc : Nat) (digits : Text) : acc ≤ valueFrom acc digits := by
  induction digits generalizing acc with
  | nil => exact Nat.le_refl acc
  | cons c digits ih =>
    have hnext := ih (acc * 10 + (c.toNat - 48))
    rw [valueFrom_cons]
    omega

theorem digit?_of_isDigit {c : Char} (h : IsDigit c) : digit? c = some (c.toNat - 48) := if_pos h

theorem isBlank_of_isDigit {c : Char} (h : IsDigit c) : Text.isBlank c = false := by
  unfold IsDigit at h
  simp only [Text.isBlank, Bool.or_eq_false_iff, Bool.and_eq_false_iff, decide_eq_false_iff_not, beq_eq_false_iff_ne]
  omega

/-! ## Reading -/

theorem readDigits_eq {limit acc : Nat} (excess : NumberError) {digits : Text}
    (h : ∀ c ∈ digits, IsDigit c) (hacc : acc ≤ limit) : readDigits limit excess acc digits =
      if valueFrom acc digits ≤ limit then .ok (valueFrom acc digits) else .error excess := by
  induction digits generalizing acc with
  | nil => exact (if_pos hacc).symm
  | cons c digits ih =>
    have hdigits : ∀ d ∈ digits, IsDigit d := fun d hd => h d (List.mem_cons_of_mem c hd)
    rw [readDigits, digit?_of_isDigit (h c List.mem_cons_self), valueFrom_cons]
    dsimp only
    split
    · rename_i hnext
      exact ih hdigits hnext
    · rename_i hnext
      have hle := le_valueFrom (acc * 10 + (c.toNat - 48)) digits
      rw [if_neg (by omega)]

theorem readNat_eq (limit : Nat) {digits : Text} (h : ∀ c ∈ digits, IsDigit c) (hne : digits ≠ []) :
    readNat limit digits = if value digits ≤ limit then .ok (value digits) else .error .tooLarge := by
  have hread := readDigits_eq .tooLarge h (Nat.zero_le limit)
  have hplus : ∀ rest, digits ≠ '+' :: rest := by
    rintro rest rfl
    have hsign := h '+' List.mem_cons_self
    simp [IsDigit] at hsign
  unfold readNat
  split
  · exact absurd rfl hne
  · exact absurd rfl (hplus _)
  · exact absurd rfl (hplus _)
  · exact hread

theorem le_of_readDigits {limit acc n : Nat} {excess : NumberError} {t : Text} (hacc : acc ≤ limit)
    (h : readDigits limit excess acc t = .ok n) : n ≤ limit := by
  induction t generalizing acc with
  | nil =>
    obtain rfl := Except.ok.inj h
    exact hacc
  | cons c t ih =>
    unfold readDigits at h
    split at h
    · cases h
    · split at h
      · rename_i hnext
        exact ih hnext h
      · cases h

theorem le_of_readNat {limit n : Nat} {t : Text} (h : readNat limit t = .ok n) : n ≤ limit := by
  unfold readNat at h
  split at h
  · cases h
  · cases h
  · exact le_of_readDigits (Nat.zero_le _) h
  · exact le_of_readDigits (Nat.zero_le _) h

/-! ## Writing -/

theorem toNat_digitChar {d : Nat} (h : d < 10) : (digitChar d).toNat = 48 + d := by
  have hvalid : (48 + d).isValidChar := .inl (by omega)
  rw [digitChar, Char.ofNat, dif_pos hvalid]
  rfl

theorem isDigit_ofNat (n : Nat) : ∀ c ∈ ofNat n, IsDigit c := by
  have hdigit : ∀ d, d < 10 → IsDigit (digitChar d) := by
    intro d hd
    have hvalue := toNat_digitChar hd
    unfold IsDigit
    omega
  intro c hc
  fun_induction ofNat n with
  | case1 n hn =>
    obtain rfl := List.mem_singleton.mp hc
    exact hdigit n hn
  | case2 n hn ih =>
    rcases List.mem_append.mp hc with hc | hc
    · exact ih hc
    · obtain rfl := List.mem_singleton.mp hc
      exact hdigit _ (Nat.mod_lt _ (by omega))

theorem ofNat_ne_nil (n : Nat) : ofNat n ≠ [] := by
  unfold ofNat
  split <;> simp

theorem value_ofNat (n : Nat) : value (ofNat n) = n := by
  fun_induction ofNat n with
  | case1 n hn =>
    have hdigit := toNat_digitChar hn
    simp only [value, valueFrom, List.foldl_cons, List.foldl_nil, hdigit]
    omega
  | case2 n hn ih =>
    have hdigit := toNat_digitChar (Nat.mod_lt n (by omega : 0 < 10))
    rw [value, valueFrom_concat, hdigit, show valueFrom 0 (ofNat (n / 10)) = n / 10 from ih]
    omega

theorem length_ofNat_le {n k : Nat} (hk : 0 < k) (h : n < 10 ^ k) : (ofNat n).length ≤ k := by
  fun_induction ofNat n generalizing k with
  | case1 n hn => exact hk
  | case2 n hn ih =>
    obtain ⟨k, rfl⟩ := Nat.exists_eq_add_one.mpr hk
    have hmore : n < 10 ^ k * 10 := h
    have hpos : 0 < k := by
      rcases Nat.eq_zero_or_pos k with rfl | hpos
      · exact absurd hmore hn
      · exact hpos
    have hrest := ih hpos (Nat.div_lt_of_lt_mul (by omega))
    rw [List.length_append, List.length_singleton]
    omega

end Decimal

end FileFerry
