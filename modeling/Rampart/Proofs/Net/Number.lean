import Mathlib.Data.List.TakeWhile
import Rampart.Net.Address

/-!
# Numbers in addresses

What `Address.number?` takes from the front of a text, and that it reads back what has been written.

* `Takes ok cs rest`: what is left of a text when characters of a kind are taken from its front.
* `takes_of_number?`: digits are taken; `toNat_of_digitValue?` says where these are among all
  characters.
* `ofDigits_toDigits`: digits mean what they were written for.
* **`number?_toDigits`**, **`octet?_toDigits`**: a number is read back, whatever follows that is no
  digit.
-/

namespace Rampart.Address

/-! ## What is taken -/

/-- Characters of a kind are taken from the front of a text. -/
def Takes (ok : Char → Prop) (cs rest : List Char) : Prop :=
  ∃ front, cs = front ++ rest ∧ ∀ c ∈ front, ok c

namespace Takes

variable {ok ok' : Char → Prop} {cs ds rest : List Char}

theorem refl (ok : Char → Prop) (cs : List Char) : Takes ok cs cs :=
  ⟨[], rfl, fun _ hc => absurd hc List.not_mem_nil⟩

theorem cons {c : Char} (hc : ok c) (h : Takes ok cs rest) : Takes ok (c :: cs) rest := by
  obtain ⟨front, rfl, hfront⟩ := h
  exact ⟨c :: front, rfl, List.forall_mem_cons.mpr ⟨hc, hfront⟩⟩

theorem trans (h : Takes ok cs ds) (h' : Takes ok ds rest) : Takes ok cs rest := by
  obtain ⟨front, rfl, hfront⟩ := h
  obtain ⟨next, rfl, hnext⟩ := h'
  refine ⟨front ++ next, (List.append_assoc ..).symm, fun c hc => ?_⟩
  exact (List.mem_append.mp hc).elim (hfront c) (hnext c)

theorem mono (h : Takes ok cs rest) (himp : ∀ c, ok c → ok' c) : Takes ok' cs rest := by
  obtain ⟨front, hcs, hfront⟩ := h
  exact ⟨front, hcs, fun c hc => himp c (hfront c hc)⟩

/-- What is not taken is left. -/
theorem mem_iff_of_not (h : Takes ok cs rest) {c : Char} (hc : ¬ ok c) : c ∈ cs ↔ c ∈ rest := by
  obtain ⟨front, rfl, hfront⟩ := h
  rw [List.mem_append]
  exact or_iff_right fun hmem => hc (hfront c hmem)

end Takes

theorem eq_cons_of_after? {c : Char} {cs rest : List Char} (h : after? c cs = some rest) :
    cs = c :: rest := by
  unfold after? at h
  split at h
  · split at h
    · rename_i hc
      rw [hc, Option.some.inj h]
    · cases h
  · cases h

theorem takes_of_number? {base width bound n : Nat} {cs rest : List Char}
    (h : number? base width bound cs = some (n, rest)) :
    Takes (fun c => (digitValue? base c).isSome = true) cs rest ∧ n < bound := by
  unfold number? at h
  dsimp only at h
  split at h
  · cases h
  · split at h
    · rename_i hbound
      obtain ⟨rfl, rfl⟩ := Prod.mk.inj (Option.some.inj h)
      exact ⟨⟨_, (List.takeWhile_append_dropWhile).symm, fun c => List.mem_takeWhile_imp⟩, hbound⟩
    · cases h

theorem number?_of_octet? {padded : Bool} {n : Nat} {cs rest : List Char}
    (h : octet? padded cs = some (n, rest)) : number? 10 3 256 cs = some (n, rest) := by
  unfold octet? at h
  split at h
  · rename_i hnumber
    split at h
    · cases h
    · rw [hnumber, ← h]
  · cases h

/-- Where digits are among all characters. -/
theorem toNat_of_digitValue? {base : Nat} {c : Char} (h : (digitValue? base c).isSome = true) :
    48 ≤ c.toNat ∧ c.toNat ≤ 102 := by
  have hle (c d : Char) : decide (c ≤ d) = true ↔ c.toNat ≤ d.toNat := by
    rw [decide_eq_true_eq, Char.le_def, UInt32.le_iff_toNat_le]
    rfl
  unfold digitValue? at h
  simp only [Bool.and_eq_true, hle] at h
  have hzero : '0'.toNat = 48 := rfl
  have hnine : '9'.toNat = 57 := rfl
  have ha : 'a'.toNat = 97 := rfl
  have hf : 'f'.toNat = 102 := rfl
  have hA : 'A'.toNat = 65 := rfl
  have hF : 'F'.toNat = 70 := rfl
  split at h
  · omega
  · split at h
    · omega
    · split at h
      · omega
      · cases h

/-! ## What is written -/

theorem digitValue?_digitChar {base n : Nat} (hbase : base ≤ 16) (hn : n < base) :
    digitValue? base n.digitChar = some n := by
  have hsixteen : ∀ n < 16, digitValue? 16 n.digitChar = some n := by decide
  have hvalue := hsixteen n (Nat.lt_of_lt_of_le hn hbase)
  unfold digitValue? at hvalue ⊢
  rw [Option.filter_eq_some_iff] at hvalue ⊢
  exact ⟨hvalue.1, decide_eq_true hn⟩

/-- Digits are those of numbers below the base. -/
theorem isSome_of_mem_toDigits {base : Nat} (htwo : 1 < base) (hbase : base ≤ 16) {n : Nat}
    {c : Char} (hc : c ∈ Nat.toDigits base n) : (digitValue? base c).isSome = true := by
  induction n using Nat.strongRecOn with
  | _ n ih =>
    rw [Nat.toDigits_eq_if htwo] at hc
    split at hc
    · rename_i hn
      rw [List.mem_singleton.mp hc, digitValue?_digitChar hbase hn]
      rfl
    · rename_i hn
      rcases List.mem_append.mp hc with hc | hc
      · exact ih (n / base) (Nat.div_lt_self (by omega) htwo) hc
      · rw [List.mem_singleton.mp hc,
          digitValue?_digitChar hbase (Nat.mod_lt n (by omega))]
        rfl

theorem not_mem_toDigits {base : Nat} (htwo : 1 < base) (hbase : base ≤ 16) {c : Char}
    (hc : digitValue? base c = none) (n : Nat) : c ∉ Nat.toDigits base n := by
  intro hmem
  have hsome := isSome_of_mem_toDigits htwo hbase hmem
  rw [hc] at hsome
  cases hsome

/-- **Digits mean what they were written for.** -/
theorem ofDigits_toDigits {base : Nat} (htwo : 1 < base) (hbase : base ≤ 16) (n : Nat) :
    ofDigits base (Nat.toDigits base n) = n := by
  induction n using Nat.strongRecOn with
  | _ n ih =>
    rw [Nat.toDigits_eq_if htwo]
    split
    · rename_i hn
      simp [ofDigits, digitValue?_digitChar hbase hn]
    · have hlast := digitValue?_digitChar hbase (Nat.mod_lt n (show 0 < base by omega))
      have hfront : ofDigits base (Nat.toDigits base (n / base)) = n / base :=
        ih (n / base) (Nat.div_lt_self (by omega) htwo)
      unfold ofDigits at hfront ⊢
      rw [List.foldl_append, hfront, List.foldl_cons, List.foldl_nil, hlast]
      exact Nat.div_add_mod n base

/-- What follows a number is no digit. -/
def Apart (base : Nat) (rest : List Char) : Prop :=
  ∀ c ∈ rest.head?, digitValue? base c = none

/-- What is no digit in base sixteen is none in a smaller base. -/
theorem digitValue?_eq_none {base : Nat} (hbase : base ≤ 16) {c : Char}
    (h : digitValue? 16 c = none) : digitValue? base c = none := by
  unfold digitValue? at h ⊢
  rw [Option.filter_eq_none_iff] at h ⊢
  intro value hvalue
  have hlarge := h value hvalue
  rw [decide_eq_true_eq] at hlarge ⊢
  omega

theorem Apart.mono {base : Nat} (hbase : base ≤ 16) {rest : List Char} (h : Apart 16 rest) :
    Apart base rest :=
  fun c hc => digitValue?_eq_none hbase (h c hc)

theorem apart_cons {c : Char} (h : digitValue? 16 c = none) (rest : List Char) :
    Apart 16 (c :: rest) := by
  intro d hd
  rwa [← Option.some.inj hd]

theorem number?_eq_none_of_apart {base width bound : Nat} {cs : List Char} (h : Apart base cs) :
    number? base width bound cs = none := by
  cases cs with
  | nil => rfl
  | cons c cs => simp [number?, h c rfl]

/-- **A number is read back.** -/
theorem number?_toDigits {base width bound n : Nat} (htwo : 1 < base) (hbase : base ≤ 16)
    (hwidth : (Nat.toDigits base n).length ≤ width) (hbound : n < bound) {rest : List Char}
    (hrest : Apart base rest) :
    number? base width bound (Nat.toDigits base n ++ rest) = some (n, rest) := by
  have hdigits : ∀ c ∈ Nat.toDigits base n, (digitValue? base c).isSome = true :=
    fun c hc => isSome_of_mem_toDigits htwo hbase hc
  have hnone : rest.takeWhile (fun c => (digitValue? base c).isSome) = [] ∧
      rest.dropWhile (fun c => (digitValue? base c).isSome) = rest := by
    cases rest with
    | nil => exact ⟨rfl, rfl⟩
    | cons c rest => simp [hrest c rfl]
  unfold number?
  dsimp only
  rw [List.takeWhile_append_of_pos hdigits, List.dropWhile_append_of_pos hdigits, hnone.1, hnone.2,
    List.append_nil, ofDigits_toDigits htwo hbase, if_neg, if_pos hbound]
  simp only [Bool.or_eq_true, List.isEmpty_iff, decide_eq_true_eq, not_or]
  exact ⟨Nat.toDigits_ne_nil, Nat.not_lt.mpr hwidth⟩

/-- **An octet is read back**; it is written without zeros in front. -/
theorem octet?_toDigits (padded : Bool) {n : Nat} (hn : n < 256) {rest : List Char}
    (hrest : Apart 10 rest) : octet? padded (Nat.toDigits 10 n ++ rest) = some (n, rest) := by
  have hzero : ∀ n < 256,
      (Nat.toDigits 10 n).head? = some '0' → (Nat.toDigits 10 n).length = 1 := by
    decide +kernel
  have hnumber : number? 10 3 256 (Nat.toDigits 10 n ++ rest) = some (n, rest) :=
    number?_toDigits (by decide) (by decide)
      ((Nat.length_toDigits_le_iff (by decide) (by decide)).mpr (by omega)) hn hrest
  unfold octet?
  rw [hnumber]
  refine if_neg fun hpadded => ?_
  simp only [Bool.and_eq_true, beq_iff_eq, decide_eq_true_eq, List.length_append,
    Nat.add_sub_cancel_right] at hpadded
  obtain ⟨⟨_, hhead⟩, hlong⟩ := hpadded
  have hhead' : (Nat.toDigits 10 n).head? = some '0' := by
    obtain ⟨c, cs, hdigits⟩ := List.exists_cons_of_ne_nil (Nat.toDigits_ne_nil (n := n) (b := 10))
    rwa [hdigits] at hhead ⊢
  have hone := hzero n hn hhead'
  omega

end Rampart.Address
