import Mathlib.Algebra.Group.Nat.Defs
import Mathlib.Data.List.Basic
import Mathlib.Data.Nat.Digits.Defs
import Rampart.Text.Blank
import Rampart.Text.Decimal

/-!
# Letters, digits and numbers

* `isAlphanum_iff`: letters and digits by their code points.
* `toNat_toLower`, `isAlphanum_toLower`, `isUpper_toUpper`: what becomes of them in lower case,
  and in upper case.
* **`toString_inj`**: a number of 64 bits is known by its digits.
* `Decimal.nat?_toDigits`: the digits of a number mean that number.
* `Decimal.nat?_padded`, `Decimal.length_padded`: zeros in front change nothing but the length.
-/

namespace Rampart.Text

theorem isDigit_iff (c : Char) : c.isDigit = true ↔ 48 ≤ c.toNat ∧ c.toNat ≤ 57 := by
  rw [Char.isDigit_iff_toNat]
  rfl

theorem isUpper_iff (c : Char) : c.isUpper = true ↔ 65 ≤ c.toNat ∧ c.toNat ≤ 90 := by
  change decide (65 ≤ c.val ∧ c.val ≤ 90) = true ↔ _
  rw [decide_eq_true_eq, UInt32.le_iff_toNat_le, UInt32.le_iff_toNat_le]
  rfl

theorem isLower_iff (c : Char) : c.isLower = true ↔ 97 ≤ c.toNat ∧ c.toNat ≤ 122 := by
  change (decide (97 ≤ c.val) && decide (c.val ≤ 122)) = true ↔ _
  rw [Bool.and_eq_true, decide_eq_true_eq, decide_eq_true_eq, UInt32.le_iff_toNat_le,
    UInt32.le_iff_toNat_le]
  rfl

theorem isAlphanum_iff (c : Char) : c.isAlphanum = true ↔
    (48 ≤ c.toNat ∧ c.toNat ≤ 57) ∨ (65 ≤ c.toNat ∧ c.toNat ≤ 90) ∨
      (97 ≤ c.toNat ∧ c.toNat ≤ 122) := by
  change (c.isUpper || c.isLower || c.isDigit) = true ↔ _
  rw [Bool.or_eq_true, Bool.or_eq_true, isDigit_iff, isUpper_iff, isLower_iff]
  omega

/-- The code point of an upper-case letter in lower case. -/
theorem toNat_toLower {c : Char} (h : c.isUpper = true) : c.toLower.toNat = c.toNat + 32 := by
  have hrange := (isUpper_iff c).mp h
  have hgap : ('a'.val - 'A'.val).toNat = 32 := rfl
  unfold Char.toLower
  rw [dif_pos ⟨UInt32.le_iff_toNat_le.mpr hrange.1, UInt32.le_iff_toNat_le.mpr hrange.2⟩,
    Char.toNat_mk, UInt32.toNat_add, hgap, Char.toNat_val]
  omega

theorem toLower_of_not_isUpper {c : Char} (h : c.isUpper = false) : c.toLower = c := by
  unfold Char.toLower
  split
  · rename_i hupper
    have hrange := (isUpper_iff c).mpr
      ⟨UInt32.le_iff_toNat_le.mp hupper.1, UInt32.le_iff_toNat_le.mp hupper.2⟩
    rw [h] at hrange
    cases hrange
  · rfl

/-- A letter in upper case is one; nothing else becomes one. -/
theorem isUpper_toUpper (c : Char) : c.toUpper.isUpper = c.isAlpha := by
  have hgap : ('A'.val - 'a'.val).toNat = 4294967264 := rfl
  change c.toUpper.isUpper = (c.isUpper || c.isLower)
  rw [Bool.eq_iff_iff, Bool.or_eq_true, isUpper_iff, isUpper_iff, isLower_iff]
  unfold Char.toUpper
  split
  · rename_i hlower
    have hrange := hlower.imp UInt32.le_iff_toNat_le.mp UInt32.le_iff_toNat_le.mp
    rw [Char.toNat_mk, UInt32.toNat_add, hgap, Char.toNat_val]
    change 97 ≤ c.toNat ∧ c.toNat ≤ 122 at hrange
    omega
  · rename_i hlower
    rw [UInt32.le_iff_toNat_le, UInt32.le_iff_toNat_le] at hlower
    change ¬ (97 ≤ c.toNat ∧ c.toNat ≤ 122) at hlower
    exact (or_iff_left hlower).symm

theorem isAlphanum_toLower {c : Char} (h : c.isAlphanum = true) : c.toLower.isAlphanum = true := by
  cases hupper : c.isUpper with
  | true =>
    have hrange := (isUpper_iff c).mp hupper
    rw [isAlphanum_iff, toNat_toLower hupper]
    omega
  | false => rwa [toLower_of_not_isUpper hupper]

/-- A letter or digit is not blank. -/
theorem not_isBlank_of_isAlphanum {c : Char} (h : c.isAlphanum = true) : isBlank c = false := by
  rw [isAlphanum_iff] at h
  simp only [isBlank, Bool.or_eq_false_iff, Bool.and_eq_false_iff, decide_eq_false_iff_not,
    beq_eq_false_iff_ne, ne_eq]
  omega

/-! ## Numbers -/

theorem toList_toString (n : UInt64) : (toString n).toList = Nat.toDigits 10 n.toNat :=
  Nat.toList_repr

theorem isDigit_of_mem_toString {n : UInt64} {c : Char} (h : c ∈ (toString n).toList) :
    c.isDigit = true := by
  rw [toList_toString] at h
  exact Nat.isDigit_of_mem_toDigits (by decide) (by decide) h

/-- **A number is known by its digits.** -/
theorem toString_inj {m n : UInt64} (h : toString m = toString n) : m = n := by
  have hdigits : Nat.toDigits 10 m.toNat = Nat.toDigits 10 n.toNat := by
    rw [← toList_toString, ← toList_toString, h]
  have hvalue := congrArg (fun digits => Nat.ofDigitChars 10 digits 0) hdigits
  simp only [Nat.ofDigitChars_ten_toDigits] at hvalue
  exact UInt64.toNat_inj.mp hvalue

end Rampart.Text

namespace Rampart.Text.Decimal

/-! ## Numbers that are read back -/

theorem digit?_digitChar {n : Nat} (h : n < 10) : digit? n.digitChar = some n := by
  have hall : ∀ n < 10, digit? n.digitChar = some n := by decide
  exact hall n h

theorem extend?_append (value : Nat) (xs ys : List Char) :
    extend? value (xs ++ ys) = (extend? value xs).bind fun value => extend? value ys := by
  induction xs generalizing value with
  | nil => rfl
  | cons x xs ih =>
    rw [List.cons_append, extend?, extend?]
    split
    · exact ih _
    · rfl

theorem extend?_toDigits (n : Nat) : extend? 0 (Nat.toDigits 10 n) = some n := by
  induction n using Nat.strongRecOn with
  | _ n ih =>
    rw [Nat.toDigits_eq_if (by decide)]
    split
    case isTrue hsmall =>
      rw [extend?, digit?_digitChar hsmall]
      exact congrArg some (Nat.zero_add n)
    case isFalse hlarge =>
      rw [extend?_append, ih (n / 10) (by omega), Option.bind_some, extend?,
        digit?_digitChar (Nat.mod_lt n (by decide))]
      exact congrArg some (Nat.div_add_mod n 10)

theorem nat?_of_ne_nil {cs : List Char} (h : cs ≠ []) : nat? cs = extend? 0 cs := by
  obtain ⟨c, cs, rfl⟩ := List.exists_cons_of_ne_nil h
  rfl

/-- **The digits of a number mean that number.** -/
theorem nat?_toDigits (n : Nat) : nat? (Nat.toDigits 10 n) = some n := by
  rw [nat?_of_ne_nil Nat.toDigits_ne_nil, extend?_toDigits]

theorem isDigit_of_mem_toDigits {n : Nat} {c : Char} (h : c ∈ Nat.toDigits 10 n) :
    c.isDigit = true :=
  Nat.isDigit_of_mem_toDigits (by decide : 0 < 10) (by decide) h

/-- Only zero begins with a zero. -/
theorem eq_nil_of_toDigits_eq {n : Nat} {cs : List Char} (h : Nat.toDigits 10 n = '0' :: cs) :
    cs = [] := by
  induction n using Nat.strongRecOn generalizing cs with
  | _ n ih =>
    rw [Nat.toDigits_eq_if (by decide)] at h
    split at h
    case isTrue => exact (List.cons.inj h).2.symm
    case isFalse hlarge =>
      obtain ⟨c, front, hfront⟩ := List.exists_cons_of_ne_nil
        (Nat.toDigits_ne_nil (n := n / 10) (b := 10))
      rw [hfront, List.cons_append] at h
      obtain ⟨rfl, -⟩ := List.cons.inj h
      have hzero : n / 10 = 0 := by
        have hvalue := extend?_toDigits (n / 10)
        rw [hfront, ih (n / 10) (by omega) hfront] at hvalue
        exact (Option.some.inj hvalue).symm
      omega

theorem toList_toString (n : Nat) : (toString n).toList = Nat.toDigits 10 n :=
  Nat.toList_repr

theorem toList_padded (width n : Nat) :
    (padded width n).toList =
      List.replicate (width - (Nat.toDigits 10 n).length) '0' ++ Nat.toDigits 10 n := by
  have hlength : (toString n).length = (Nat.toDigits 10 n).length := by
    rw [← String.length_toList, toList_toString]
  rw [padded, String.toList_append, String.toList_ofList, toList_toString, hlength]

theorem padded_ne_nil (width n : Nat) : (padded width n).toList ≠ [] := by
  rw [toList_padded]
  exact List.append_ne_nil_of_right_ne_nil _ Nat.toDigits_ne_nil

theorem isDigit_of_mem_padded {width n : Nat} {c : Char} (h : c ∈ (padded width n).toList) :
    c.isDigit = true := by
  rw [toList_padded] at h
  rcases List.mem_append.mp h with h | h
  · rw [List.eq_of_mem_replicate h]
    rfl
  · exact isDigit_of_mem_toDigits h

/-- A number of no more than the given digits has just as many. -/
theorem length_padded {width n : Nat} (hwidth : 0 < width) (h : n < 10 ^ width) :
    (padded width n).toList.length = width := by
  have hle : (Nat.toDigits 10 n).length ≤ width :=
    (Nat.length_toDigits_le_iff (by decide) hwidth).mpr h
  rw [toList_padded, List.length_append, List.length_replicate]
  omega

theorem extend?_zeros (count : Nat) (cs : List Char) :
    extend? 0 (List.replicate count '0' ++ cs) = extend? 0 cs := by
  induction count with
  | zero => rfl
  | succ count ih =>
    rw [List.replicate_succ, List.cons_append, extend?]
    exact ih

theorem nat?_padded (width n : Nat) : nat? (padded width n).toList = some n := by
  rw [nat?_of_ne_nil (padded_ne_nil width n), toList_padded, extend?_zeros, extend?_toDigits]

end Rampart.Text.Decimal
