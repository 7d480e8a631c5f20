import Mathlib.Algebra.Group.Nat.Defs
import Rampart.Net.Network
import Rampart.Proofs.Net.Address

/-!
# Networks are read back

The text of a network is read as that network, and a text is never both an address and a network.
Clearing the host bits changes what a network is written as, not which addresses it holds.

* `slash_mem_of_parse?`, `Address.slash_not_mem_of_parse?`: a slash tells networks from addresses.
* `le_width_of_parse?`: a network that has been read is no longer than its addresses.
* **`parse?_toText`**: a network is read back.
* `Address.LiesIn`: an address shares the leading bits of a network. **`contains_iff`**: a network
  holds these; `liesIn_trunc`, `liesIn_iff_of_isSingle` say what that means for the two forms in
  which networks are written down again.
-/

namespace Rampart

namespace Address

/-- A bit of an address, from the front. -/
def bit (a : Address) (i : Nat) : Bool :=
  match a with
  | .v4 bits => bits.getMsbD i
  | .v6 bits => bits.getMsbD i

/-- The address is of the network's version and shares its leading bits. -/
structure LiesIn (a : Address) (n : Network) : Prop where
  version : Network.width a = Network.width n.address
  bits : ∀ i < n.length, a.bit i = n.address.bit i

/-- **A text with a slash is no address.** -/
theorem slash_not_mem_of_parse? {text : String} {a : Address}
    (h : parse? text = some a) : '/' ∉ text.toList := by
  intro hslash
  rcases isChar_of_parse? h '/' hslash with hdigit | hpoint | hcolon
  · exact absurd hdigit (by decide)
  · exact absurd hpoint (by decide)
  · exact absurd hcolon (by decide)

end Address

namespace Network

/-! ## What a network is made of -/

/-- What has been read is a slash, and a length that is no longer than an address. -/
theorem of_length? {digits bits length : Nat} {cs rest : List Char}
    (h : length? digits bits cs = some (length, rest)) : '/' ∈ cs ∧ length ≤ bits := by
  unfold length? at h
  split at h
  · rename_i hslash
    rw [Address.eq_cons_of_after? hslash]
    exact ⟨List.mem_cons_self, Nat.le_of_lt_succ (Address.takes_of_number? h).2⟩
  · cases h

/-- What is taken from the front of a text leaves its slash. -/
theorem slash_mem_of_takes {cs rest : List Char} (h : Address.Takes Address.IsChar cs rest)
    (hslash : '/' ∈ rest) : '/' ∈ cs := by
  obtain ⟨front, rfl, _⟩ := h
  exact List.mem_append_right front hslash

theorem of_dotted? {cs rest : List Char} {n : Network} (h : dotted? cs = some (n, rest)) :
    '/' ∈ cs ∧ n.length ≤ width n.address := by
  unfold dotted? at h
  simp only [Option.bind_eq_bind, Option.bind_eq_some_iff, Prod.exists, Option.pure_def,
    Option.some.injEq, Prod.mk.injEq] at h
  obtain ⟨bits, after, hbits, length, last, hlength, rfl, -⟩ := h
  obtain ⟨hslash, hle⟩ := of_length? hlength
  exact ⟨slash_mem_of_takes (Address.takes_of_dotted? hbits) hslash, hle⟩

theorem of_colons? {cs rest : List Char} {n : Network} (h : colons? cs = some (n, rest)) :
    '/' ∈ cs ∧ n.length ≤ width n.address := by
  unfold colons? at h
  simp only [Option.bind_eq_bind, Option.bind_eq_some_iff, Prod.exists, Option.pure_def,
    Option.some.injEq, Prod.mk.injEq] at h
  obtain ⟨bits, after, hbits, length, last, hlength, rfl, -⟩ := h
  obtain ⟨hslash, hle⟩ := of_length? hlength
  exact ⟨slash_mem_of_takes (Address.takes_of_colons? hbits) hslash, hle⟩

theorem of_parse? {text : String} {n : Network} (h : parse? text = some n) :
    '/' ∈ text.toList ∧ n.length ≤ width n.address := by
  unfold parse? at h
  dsimp only at h
  split at h
  · rename_i hdotted
    split at h
    · obtain rfl := Option.some.inj h
      exact of_dotted? hdotted
    · cases h
  · split at h
    · rename_i hcolons
      obtain rfl := Option.some.inj h
      exact of_colons? hcolons
    · cases h

/-- **A text without a slash is no network.** -/
theorem slash_mem_of_parse? {text : String} {n : Network} (h : parse? text = some n) :
    '/' ∈ text.toList :=
  (of_parse? h).1

/-- **A network is no longer than its addresses.** -/
theorem le_width_of_parse? {text : String} {n : Network} (h : parse? text = some n) :
    n.length ≤ width n.address :=
  (of_parse? h).2

/-! ## What is read back -/

theorem toList_toText (n : Network) :
    n.toText.toList = n.address.toText.toList ++ '/' :: Nat.toDigits 10 n.length := by
  have hslash : "/".toList = ['/'] := rfl
  simp only [toText, String.toList_append, hslash, Nat.toString_eq_ofList_toDigits,
    String.toList_ofList, List.append_assoc, List.singleton_append]

/-- A length is read back. -/
theorem length?_toDigits {digits bits length : Nat} (hle : length ≤ bits)
    (hdigits : bits < 10 ^ digits) (hpos : 0 < digits) :
    length? digits bits ('/' :: Nat.toDigits 10 length) = some (length, []) := by
  have hwidth : (Nat.toDigits 10 length).length ≤ digits :=
    (Nat.length_toDigits_le_iff (by decide) hpos).mpr (Nat.lt_of_le_of_lt hle hdigits)
  have hread := Address.number?_toDigits (by decide) (by decide) hwidth
    (Nat.lt_succ_of_le hle) (show Address.Apart 10 [] from fun _ hc => by cases hc)
  rw [List.append_nil] at hread
  rw [length?, Address.after?_cons]
  exact hread

theorem follows_toDigits (length : Nat) : Address.Follows ('/' :: Nat.toDigits 10 length) :=
  .inr ⟨_, rfl, Address.not_mem_toDigits (by decide) (by decide) rfl length⟩

/-- **A network is read back**, if it is no longer than its addresses. -/
theorem parse?_toText {n : Network} (h : n.length ≤ width n.address) :
    parse? n.toText = some n := by
  obtain ⟨address, length⟩ := n
  have hfollows := follows_toDigits length
  unfold parse?
  rw [toList_toText]
  dsimp only at h ⊢
  cases address with
  | v4 bits =>
    have hread : Address.dotted? true ((Address.v4 bits).toText.toList ++ '/' ::
        Nat.toDigits 10 length) = some (bits, '/' :: Nat.toDigits 10 length) :=
      Address.dotted?_dotted true bits (hfollows.apart.mono (by decide))
    have hlength : length? 2 32 ('/' :: Nat.toDigits 10 length) = some (length, []) :=
      length?_toDigits h (by decide) (by decide)
    simp only [dotted?, hread, hlength, Option.bind_eq_bind, Option.bind_some, Option.pure_def,
      List.isEmpty_nil, if_true]
  | v6 bits =>
    have hboth : Address.dotted? true ((Address.v6 bits).toText.toList ++ '/' ::
        Nat.toDigits 10 length) = none ∧ Address.colons? true 0 ((Address.v6 bits).toText.toList ++
          '/' :: Nat.toDigits 10 length) = some (bits, '/' :: Nat.toDigits 10 length) :=
      Address.colons?_toText bits (Nat.zero_le 1) hfollows
    have hlength : length? 3 128 ('/' :: Nat.toDigits 10 length) = some (length, []) :=
      length?_toDigits h (by decide) (by decide)
    simp only [dotted?, colons?, hboth.1, hboth.2, hlength, Option.bind_eq_bind, Option.bind_some,
      Option.bind_none, Option.pure_def]

/-! ## What a network holds -/

/-- Words agree under a mask if they agree in the bits that it keeps. -/
theorem and_mask_eq_iff {w : Nat} (x y : BitVec w) (length : Nat) :
    x &&& mask w length = y &&& mask w length ↔ ∀ i < length, x.getMsbD i = y.getMsbD i := by
  have hkept (z : BitVec w) (i : Nat) :
      (z &&& mask w length).getMsbD i = (z.getMsbD i && decide (i + (w - length) < w)) := by
    rw [mask, BitVec.getMsbD_and, BitVec.getMsbD_shiftLeft, BitVec.getMsbD_allOnes]
  constructor
  · intro h i hi
    by_cases hwidth : i < w
    · have hbit := congrArg (·.getMsbD i) h
      have hin : i + (w - length) < w := by omega
      simpa only [hkept, hin, decide_true, Bool.and_true] using hbit
    · rw [BitVec.getMsbD_of_ge x i (by omega), BitVec.getMsbD_of_ge y i (by omega)]
  · intro h
    refine BitVec.eq_of_getMsbD_eq fun i hi => ?_
    rw [hkept, hkept]
    by_cases hlength : i < length
    · rw [h i hlength]
    · have hout : ¬ i + (w - length) < w := by omega
      simp only [hout, decide_false, Bool.and_false]

theorem clearHost_eq_iff {a b : Address} (h : width a = width b) (length : Nat) :
    clearHost length a = clearHost length b ↔ ∀ i < length, a.bit i = b.bit i := by
  cases a with
  | v4 x =>
    cases b with
    | v4 y => simp only [clearHost, Address.v4.injEq, and_mask_eq_iff, Address.bit]
    | v6 y => exact absurd h (show 32 ≠ 128 by decide)
  | v6 x =>
    cases b with
    | v4 y => exact absurd h (show 128 ≠ 32 by decide)
    | v6 y => simp only [clearHost, Address.v6.injEq, and_mask_eq_iff, Address.bit]

/-- **A network holds the addresses that share its leading bits.** -/
theorem contains_iff {n : Network} {a : Address} : n.contains a = true ↔ a.LiesIn n := by
  unfold contains
  rw [Bool.and_eq_true, beq_iff_eq, beq_iff_eq]
  constructor
  · rintro ⟨hwidth, hcleared⟩
    exact ⟨hwidth, (clearHost_eq_iff hwidth n.length).mp hcleared⟩
  · rintro ⟨hwidth, hbits⟩
    exact ⟨hwidth, (clearHost_eq_iff hwidth n.length).mpr hbits⟩

theorem width_clearHost (length : Nat) (a : Address) : width (clearHost length a) = width a := by
  cases a <;> rfl

theorem clearHost_clearHost (length : Nat) (a : Address) :
    clearHost length (clearHost length a) = clearHost length a := by
  cases a <;> simp only [clearHost, BitVec.and_assoc, BitVec.and_self]

theorem mask_self (w : Nat) : mask w w = BitVec.allOnes w := by
  rw [mask, Nat.sub_self, BitVec.shiftLeft_zero]

theorem clearHost_width (a : Address) : clearHost (width a) a = a := by
  cases a <;> rw [clearHost, width, mask_self, BitVec.and_allOnes]

theorem trunc_trunc (n : Network) : n.trunc.trunc = n.trunc := by
  simp only [trunc, clearHost_clearHost]

/-- **Clearing the host bits loses no address and adds none.** -/
theorem liesIn_trunc (n : Network) (a : Address) : a.LiesIn n.trunc ↔ a.LiesIn n := by
  simp only [← contains_iff, contains, trunc, width_clearHost, clearHost_clearHost]

/-- **A network of one address holds that address.** -/
theorem liesIn_iff_of_isSingle {n : Network} (h : n.isSingle = true) (a : Address) :
    a.LiesIn n ↔ n.address = a := by
  have hlength : n.length = width n.address := beq_iff_eq.mp h
  rw [← contains_iff, contains, hlength, Bool.and_eq_true, beq_iff_eq, beq_iff_eq, clearHost_width]
  constructor
  · rintro ⟨hwidth, hcleared⟩
    rw [← hwidth, clearHost_width] at hcleared
    exact hcleared.symm
  · rintro rfl
    exact ⟨rfl, clearHost_width _⟩

end Network

end Rampart
