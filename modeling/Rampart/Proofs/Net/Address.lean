import Rampart.Proofs.Net.Number

/-!
# Addresses are read back

The canonical text of an address is read as that address, alone or in front of the length of a
network.

* `dotted?_dotted`: octets are read back.
* `groupsFrom_hexGroups`: groups are read back, as far as there is room.
* `longestZeros_zeros`: what is written `::` are zeros.
* `colons?_toText`: an address of version 6 is read back.
* **`parse?_toText`**: every address is.
* `isChar_of_parse?`: what an address is made of.
-/

namespace Rampart.Address

/-! ## Version 4 -/

/-- What may follow an address: nothing, or the length of a network. -/
def Follows (rest : List Char) : Prop :=
  rest = [] ∨ ∃ length, rest = '/' :: length ∧ '.' ∉ length

theorem Follows.apart {rest : List Char} (h : Follows rest) : Apart 16 rest := by
  rcases h with rfl | ⟨length, rfl, _⟩
  · exact fun _ hc => by cases hc
  · exact apart_cons rfl length

theorem Follows.not_mem_dot {rest : List Char} (h : Follows rest) : '.' ∉ rest := by
  rcases h with rfl | ⟨length, rfl, hdot⟩
  · exact List.not_mem_nil
  · exact List.not_mem_cons_of_ne_of_not_mem (by decide) hdot

theorem after?_cons (c : Char) (rest : List Char) : after? c (c :: rest) = some rest :=
  if_pos rfl

theorem toList_dotted (bits : BitVec 32) :
    (dotted bits).toList = Nat.toDigits 10 (bits.toNat / 16777216) ++
      '.' :: (Nat.toDigits 10 (bits.toNat / 65536 % 256) ++
        '.' :: (Nat.toDigits 10 (bits.toNat / 256 % 256) ++
          '.' :: Nat.toDigits 10 (bits.toNat % 256))) := by
  have hpoint : ".".toList = ['.'] := rfl
  simp only [dotted, octets, String.toList_intercalate, List.map_cons, List.map_nil, hpoint,
    Nat.toString_eq_ofList_toDigits, String.toList_ofList, List.intercalate_cons_cons,
    List.intercalate_singleton, List.append_assoc, List.singleton_append]

/-- **Octets are read back.** -/
theorem dotted?_dotted (padded : Bool) (bits : BitVec 32) {rest : List Char}
    (hrest : Apart 10 rest) :
    dotted? padded ((dotted bits).toList ++ rest) = some (bits, rest) := by
  have hlt := bits.isLt
  have ha : bits.toNat / 16777216 < 256 := by omega
  have hb : bits.toNat / 65536 % 256 < 256 := by omega
  have hc : bits.toNat / 256 % 256 < 256 := by omega
  have hd : bits.toNat % 256 < 256 := by omega
  have hpoint : ∀ rest, Apart 10 ('.' :: rest) := fun rest => (apart_cons rfl rest).mono (by decide)
  have hbits : BitVec.ofNat 32 (((bits.toNat / 16777216 * 256 + bits.toNat / 65536 % 256) * 256 +
      bits.toNat / 256 % 256) * 256 + bits.toNat % 256) = bits := by
    apply BitVec.eq_of_toNat_eq
    rw [BitVec.toNat_ofNat]
    omega
  simp only [dotted?, toList_dotted, List.append_assoc, List.cons_append,
    octet?_toDigits padded ha (hpoint _), octet?_toDigits padded hb (hpoint _),
    octet?_toDigits padded hc (hpoint _), octet?_toDigits padded hd hrest, after?_cons,
    Option.bind_eq_bind, Option.bind_some, hbits, Option.pure_def]

/-! ## Texts that are no octets -/

theorem dotted?_eq_none_of_head {padded : Bool} {cs : List Char} (h : Apart 10 cs) :
    dotted? padded cs = none := by
  have hnone : octet? padded cs = none := by
    rw [octet?, number?_eq_none_of_apart h]
  rw [dotted?, hnone]
  rfl

theorem dotted?_eq_none_of_not_mem {padded : Bool} {cs : List Char} (h : '.' ∉ cs) :
    dotted? padded cs = none := by
  unfold dotted?
  cases hoctet : octet? padded cs with
  | none => rfl
  | some found =>
    obtain ⟨n, rest⟩ := found
    have htakes := (takes_of_number? (number?_of_octet? hoctet)).1
    have hrest : '.' ∉ rest := (htakes.mem_iff_of_not (by decide)).not.mp h
    have hafter : after? '.' rest = none := by
      refine Option.eq_none_iff_forall_ne_some.mpr fun next hnext => hrest ?_
      rw [eq_cons_of_after? hnext]
      exact List.mem_cons_self
    simp only [Option.bind_eq_bind, Option.bind_some, hafter, Option.bind_none]

/-! ## Groups -/

/-- Groups with a colon in front of each. -/
def texts (gs : List Nat) : List Char :=
  gs.flatMap fun g => ':' :: Nat.toDigits 16 g

theorem toList_hexGroups (g : Nat) (gs : List Nat) :
    (hexGroups (g :: gs)).toList = Nat.toDigits 16 g ++ texts gs := by
  have hcolon : ":".toList = [':'] := rfl
  induction gs generalizing g with
  | nil => simp [hexGroups, texts]
  | cons h gs ih =>
    have hcons : (hexGroups (g :: h :: gs)).toList =
        Nat.toDigits 16 g ++ ':' :: (hexGroups (h :: gs)).toList := by
      simp only [hexGroups, String.toList_intercalate, List.map_cons, hcolon, String.toList_ofList,
        List.intercalate_cons_cons, List.append_assoc, List.singleton_append]
    rw [hcons, ih]
    simp [texts]

theorem not_mem_dot_toDigits (g : Nat) : '.' ∉ Nat.toDigits 16 g :=
  not_mem_toDigits (by decide) (by decide) rfl g

theorem not_mem_dot_texts (gs : List Nat) : '.' ∉ texts gs := by
  intro hmem
  obtain ⟨g, _, hg⟩ := List.mem_flatMap.mp hmem
  rcases List.mem_cons.mp hg with hcolon | hdigit
  · exact absurd hcolon (by decide)
  · exact not_mem_dot_toDigits g hdigit

/-- No group goes on from here: nothing follows, a length, or two colons. -/
def Stops (rest : List Char) : Prop :=
  rest = [] ∨ (∃ length, rest = '/' :: length) ∨ ∃ more, rest = ':' :: ':' :: more

theorem Follows.stops {rest : List Char} (h : Follows rest) : Stops rest :=
  h.imp_right fun ⟨length, hrest, _⟩ => .inl ⟨length, hrest⟩

theorem Stops.apart {rest : List Char} (h : Stops rest) : Apart 16 rest := by
  rcases h with rfl | ⟨length, rfl⟩ | ⟨more, rfl⟩
  · exact fun _ hc => by cases hc
  · exact apart_cons rfl length
  · exact apart_cons rfl (':' :: more)

section

variable {padded first ended : Bool} {room g : Nat} {gs : List Nat} {cs body rest last : List Char}

/-- Where no digit stands, no group begins. -/
theorem groupsFrom_eq_nil
    (h : ∀ body, (if first then some cs else after? ':' cs) = some body → Apart 16 body) :
    groupsFrom padded room first cs = ([], false, cs) := by
  cases room with
  | zero => rfl
  | succ room =>
    rw [groupsFrom]
    split
    · rfl
    · rename_i body hbody
      have hapart := h body hbody
      have hdotted : (if room > 0 then dotted? padded body else none) = none := by
        split
        · exact dotted?_eq_none_of_head (hapart.mono (by decide))
        · rfl
      rw [hdotted, number?_eq_none_of_apart hapart]

theorem groupsFrom_cons (hbody : (if first then some cs else after? ':' cs) = some body)
    (hdotted : dotted? padded body = none) (hnumber : number? 16 4 65536 body = some (g, rest))
    (hrest : groupsFrom padded room false rest = (gs, ended, last)) :
    groupsFrom padded (room + 1) first cs = (g :: gs, ended, last) := by
  rw [groupsFrom, hbody]
  simp only [hdotted, ite_self, hnumber, hrest]

theorem number?_group (hg : g < 65536) (hrest : Apart 16 rest) :
    number? 16 4 65536 (Nat.toDigits 16 g ++ rest) = some (g, rest) :=
  number?_toDigits (by decide) (by decide)
    ((Nat.length_toDigits_le_iff (by decide) (by decide)).mpr hg) hg hrest

theorem apart_texts (hstops : Stops rest) (gs : List Nat) : Apart 16 (texts gs ++ rest) := by
  cases gs with
  | nil => exact hstops.apart
  | cons g gs => exact apart_cons rfl _

/-- A group and those that follow it. -/
theorem groupsFrom_group
    (hbody : (if first then some cs else after? ':' cs) =
      some (Nat.toDigits 16 g ++ (texts gs ++ rest)))
    (hg : g < 65536) (hstops : Stops rest) (hdot : '.' ∉ rest)
    (hrest : groupsFrom padded room false (texts gs ++ rest) = (gs, false, rest)) :
    groupsFrom padded (room + 1) first cs = (g :: gs, false, rest) := by
  have hnone : '.' ∉ Nat.toDigits 16 g ++ (texts gs ++ rest) := by
    simp only [List.mem_append, not_or]
    exact ⟨not_mem_dot_toDigits g, not_mem_dot_texts gs, hdot⟩
  exact groupsFrom_cons hbody (dotted?_eq_none_of_not_mem hnone)
    (number?_group hg (apart_texts hstops gs)) hrest

theorem groupsFrom_texts (hgs : ∀ g ∈ gs, g < 65536) (hroom : gs.length ≤ room)
    (hstops : Stops rest) (hdot : '.' ∉ rest) :
    groupsFrom padded room false (texts gs ++ rest) = (gs, false, rest) := by
  induction gs generalizing room with
  | nil =>
    refine groupsFrom_eq_nil fun body hbody => ?_
    obtain rfl | ⟨length, rfl⟩ | ⟨more, rfl⟩ := hstops
    · cases hbody
    · cases hbody
    · obtain rfl := Option.some.inj hbody
      exact apart_cons rfl more
  | cons g gs ih =>
    obtain ⟨hg, hgs⟩ := List.forall_mem_cons.mp hgs
    cases room with
    | zero => exact absurd hroom (Nat.not_succ_le_zero _)
    | succ room =>
      refine groupsFrom_group ?_ hg hstops hdot (ih hgs (Nat.le_of_succ_le_succ hroom))
      simp [texts, after?]

/-- **Groups are read back**, as far as there is room. -/
theorem groupsFrom_hexGroups (hgs : ∀ g ∈ gs, g < 65536) (hroom : gs.length ≤ room)
    (hstops : Stops rest) (hdot : '.' ∉ rest) :
    groupsFrom padded room true ((hexGroups gs).toList ++ rest) = (gs, false, rest) := by
  cases gs with
  | nil =>
    refine groupsFrom_eq_nil fun body hbody => ?_
    obtain rfl := Option.some.inj hbody
    exact hstops.apart
  | cons g gs =>
    obtain ⟨hg, hgs⟩ := List.forall_mem_cons.mp hgs
    rw [toList_hexGroups, List.append_assoc]
    cases room with
    | zero => exact absurd hroom (Nat.not_succ_le_zero _)
    | succ room =>
      exact groupsFrom_group rfl hg hstops hdot
        (groupsFrom_texts hgs (Nat.le_of_succ_le_succ hroom) hstops hdot)

end

/-! ## Words of groups -/

theorem length_groups (bits : BitVec 128) : (groups bits).length = 8 :=
  (List.length_map _).trans List.length_range

theorem lt_of_mem_groups {bits : BitVec 128} {g : Nat} (h : g ∈ groups bits) : g < 65536 := by
  obtain ⟨i, _, rfl⟩ := List.mem_map.mp h
  exact Nat.mod_lt _ (by decide)

theorem ofGroups_groups (bits : BitVec 128) : ofGroups (groups bits) = bits := by
  have hlt := bits.isLt
  apply BitVec.eq_of_toNat_eq
  rw [ofGroups, BitVec.toNat_ofNat]
  simp only [groups, List.range, List.range.loop, List.map_cons, List.map_nil, List.foldl_cons,
    List.foldl_nil, Nat.shiftRight_eq_div_pow]
  omega

/-! ## The longest run of zeros -/

/-- Some groups, from a position on, are zeros. -/
def AreZeros (all : List Nat) (run : Nat × Nat) : Prop :=
  ∀ i, run.1 ≤ i → i < run.1 + run.2 → all[i]? = some 0

/-- **What is chosen are zeros**, if what was chosen before are, and those right in front. -/
theorem longestZeros_zeros {all rest : List Nat} {position run : Nat} {best : Nat × Nat}
    (hrest : all.drop position = rest) (hle : run ≤ position)
    (hrun : AreZeros all (position - run, run)) (hbest : AreZeros all best) :
    AreZeros all (longestZeros position run rest best) := by
  induction rest generalizing position run best with
  | nil => exact hbest
  | cons n rest ih =>
    have hn : all[position]? = some n := by
      rw [← List.head?_drop, hrest]
      rfl
    have hnext : all.drop (position + 1) = rest := by
      rw [← List.drop_drop, hrest]
      rfl
    rw [longestZeros]
    split
    · rename_i hzero
      subst hzero
      have hlonger : AreZeros all (position + 1 - (run + 1), run + 1) := by
        intro i hle' hlt
        dsimp only at hle' hlt
        by_cases hi : i = position
        · rw [hi, hn]
        · exact hrun i (by dsimp only; omega) (by dsimp only; omega)
      refine ih hnext (by omega) hlonger ?_
      split
      · exact hlonger
      · exact hbest
    · refine ih hnext (Nat.zero_le _) (fun i hle' hlt => ?_) hbest
      dsimp only at hle' hlt
      omega

theorem areZeros_zero (all : List Nat) (start : Nat) : AreZeros all (start, 0) := by
  intro i hle hlt
  dsimp only at hle hlt
  omega

theorem areZeros_longestZeros (all : List Nat) : AreZeros all (longestZeros 0 0 all (0, 0)) :=
  longestZeros_zeros rfl (Nat.le_refl 0) (areZeros_zero all 0) (areZeros_zero all 0)

theorem AreZeros.le_length {all : List Nat} {start length : Nat}
    (h : AreZeros all (start, length)) (hpos : 0 < length) : start + length ≤ all.length := by
  have hlast := h (start + length - 1) (by dsimp only; omega) (by dsimp only; omega)
  obtain ⟨hlt, _⟩ := List.getElem?_eq_some_iff.mp hlast
  omega

/-- Zeros may be written for the groups. -/
theorem AreZeros.fill {all : List Nat} {start length : Nat} (h : AreZeros all (start, length))
    (hle : start + length ≤ all.length) :
    all.take start ++ List.replicate length 0 ++ all.drop (start + length) = all := by
  have hzeros : (all.drop start).take length = List.replicate length 0 := by
    refine List.eq_replicate_iff.mpr ⟨?_, fun n hn => ?_⟩
    · rw [List.length_take, List.length_drop]
      omega
    · obtain ⟨i, hi, rfl⟩ := List.mem_iff_getElem.mp hn
      have hlt : i < length := by
        rw [List.length_take] at hi
        omega
      have hzero := h (start + i) (by dsimp only; omega) (by dsimp only; omega)
      rw [List.getElem_take, List.getElem_drop]
      exact (List.getElem?_eq_some_iff.mp hzero).2
  rw [← hzeros, List.append_assoc, ← List.drop_drop, List.take_append_drop, List.take_append_drop]

/-! ## Version 6 -/

section

variable {padded : Bool} {gap : Nat} {rest : List Char}

theorem not_mem_dot_hexGroups (gs : List Nat) : '.' ∉ (hexGroups gs).toList := by
  cases gs with
  | nil => exact List.not_mem_nil
  | cons g gs =>
    rw [toList_hexGroups, List.mem_append, not_or]
    exact ⟨not_mem_dot_toDigits g, not_mem_dot_texts gs⟩

/-- What two colons stand for, where a head has been read before them and a tail after them. -/
theorem colons?_eq {cs body : List Char} {head tail : List Nat} {ended : Bool}
    (hhead : groupsFrom padded 8 true cs = (head, false, ':' :: ':' :: body))
    (hlength : head.length ≠ 8)
    (htail : groupsFrom padded (8 - gap - head.length) true body = (tail, ended, rest)) :
    colons? padded gap cs =
      some (ofGroups (head ++ List.replicate (8 - head.length - tail.length) 0 ++ tail), rest) := by
  rw [colons?, hhead]
  simp only [hlength, if_false, Bool.false_eq_true, htail]

theorem colons?_of_full {gs : List Nat} (hgs : ∀ g ∈ gs, g < 65536) (hlength : gs.length = 8)
    (hrest : Follows rest) :
    colons? padded gap ((hexGroups gs).toList ++ rest) = some (ofGroups gs, rest) := by
  rw [colons?, groupsFrom_hexGroups hgs (Nat.le_of_eq hlength) hrest.stops hrest.not_mem_dot]
  exact if_pos hlength

/-- Groups around two colons, where the colons stand for enough of them. -/
theorem colons?_of_gap {head tail : List Nat} (hhead : ∀ g ∈ head, g < 65536)
    (htail : ∀ g ∈ tail, g < 65536) (hlength : head.length + tail.length < 8)
    (hgap : head.length + tail.length + gap ≤ 8) (hrest : Follows rest) :
    colons? padded gap
        ((hexGroups head).toList ++ ':' :: ':' :: ((hexGroups tail).toList ++ rest)) =
      some (ofGroups (head ++ List.replicate (8 - head.length - tail.length) 0 ++ tail), rest) := by
  have hdot : '.' ∉ ':' :: ':' :: ((hexGroups tail).toList ++ rest) := by
    simp only [List.mem_cons, List.mem_append, not_or]
    exact ⟨by decide, by decide, not_mem_dot_hexGroups tail, hrest.not_mem_dot⟩
  exact colons?_eq (groupsFrom_hexGroups hhead (by omega) (.inr (.inr ⟨_, rfl⟩)) hdot) (by omega)
    (groupsFrom_hexGroups htail (by omega) hrest.stops hrest.not_mem_dot)

/-- A dotted ending behind the mark of version 4; it fills two groups. -/
theorem groupsFrom_mapped (bits : BitVec 32) (hrest : Apart 16 rest) (room : Nat) :
    groupsFrom padded (room + 3) true
        (Nat.toDigits 16 0xFFFF ++ ':' :: ((dotted bits).toList ++ rest)) =
      ([0xFFFF, bits.toNat / 65536, bits.toNat % 65536], true, rest) := by
  have hdotted : dotted? padded ((dotted bits).toList ++ rest) = some (bits, rest) :=
    dotted?_dotted padded bits (hrest.mono (by decide))
  have hlast : groupsFrom padded (room + 2) false (':' :: ((dotted bits).toList ++ rest)) =
      ([bits.toNat / 65536, bits.toNat % 65536], true, rest) := by
    rw [groupsFrom]
    simp only [after?_cons, hdotted, Bool.false_eq_true, if_false, Nat.succ_pos, if_true,
      gt_iff_lt]
  -- The mark begins with a letter, so that it is not taken for an octet.
  have hletter : Apart 10 (Nat.toDigits 16 0xFFFF ++ ':' :: ((dotted bits).toList ++ rest)) := by
    rw [show Nat.toDigits 16 0xFFFF = ['f', 'f', 'f', 'f'] by decide]
    exact fun c hc => by rw [← Option.some.inj hc]; rfl
  exact groupsFrom_cons rfl (dotted?_eq_none_of_head hletter)
    (number?_group (by decide) (apart_cons rfl _)) hlast

theorem ofGroups_mapped {bits : BitVec 128} (hmapped : bits.toNat >>> 32 = 0xFFFF) :
    ofGroups (List.replicate 5 0 ++
      [0xFFFF, (bits.setWidth 32).toNat / 65536, (bits.setWidth 32).toNat % 65536]) = bits := by
  have hlow : (bits.setWidth 32).toNat = bits.toNat % 4294967296 := BitVec.toNat_setWidth ..
  have hlt := bits.isLt
  rw [Nat.shiftRight_eq_div_pow] at hmapped
  apply BitVec.eq_of_toNat_eq
  rw [ofGroups, BitVec.toNat_ofNat, hlow]
  simp only [List.replicate, List.nil_append, List.cons_append, List.foldl_cons, List.foldl_nil]
  omega

/-- An address of version 4 within version 6 keeps its points. -/
theorem colons?_of_mapped {bits : BitVec 128} (hmapped : bits.toNat >>> 32 = 0xFFFF)
    (hgap : gap ≤ 1) (hrest : Apart 16 rest) :
    colons? padded gap (':' :: ':' :: (Nat.toDigits 16 0xFFFF ++
      ':' :: ((dotted (bits.setWidth 32)).toList ++ rest))) = some (bits, rest) := by
  have hhead : groupsFrom padded 8 true (':' :: ':' :: (Nat.toDigits 16 0xFFFF ++
      ':' :: ((dotted (bits.setWidth 32)).toList ++ rest))) =
        ([], false, ':' :: ':' :: (Nat.toDigits 16 0xFFFF ++
          ':' :: ((dotted (bits.setWidth 32)).toList ++ rest))) := by
    refine groupsFrom_eq_nil fun body hbody => ?_
    obtain rfl := Option.some.inj hbody
    exact apart_cons rfl _
  have hroom : 8 - gap - ([] : List Nat).length = 5 - gap + 3 := by
    rw [List.length_nil]
    omega
  have hread := colons?_eq hhead (by decide) (hroom ▸ groupsFrom_mapped _ hrest (5 - gap))
  rw [hread]
  exact congrArg (fun word => some (word, rest)) (ofGroups_mapped hmapped)

/-- An address whose zeros are written `::`, if there are enough of them. -/
theorem colons?_of_zeros {bits : BitVec 128} {start length : Nat}
    (hzeros : AreZeros (groups bits) (start, length)) (hlong : 1 < length) (hgap : gap ≤ 1)
    (hrest : Follows rest) :
    colons? padded gap ((hexGroups ((groups bits).take start)).toList ++ ':' :: ':' ::
      ((hexGroups ((groups bits).drop (start + length))).toList ++ rest)) = some (bits, rest) := by
  have hle := hzeros.le_length (by omega)
  have hall := length_groups bits
  have hhead : ((groups bits).take start).length = start :=
    List.length_take_of_le (by omega)
  have htail : ((groups bits).drop (start + length)).length = 8 - (start + length) := by
    rw [List.length_drop, hall]
  have hcount : 8 - start - (8 - (start + length)) = length := by omega
  rw [colons?_of_gap (fun g hg => lt_of_mem_groups (List.mem_of_mem_take hg))
    (fun g hg => lt_of_mem_groups (List.mem_of_mem_drop hg)) (by rw [hhead, htail]; omega)
    (by rw [hhead, htail]; omega) hrest, hhead, htail, hcount, hzeros.fill hle, ofGroups_groups]

/-- **An address of version 6 is read back**, and it is not mistaken for one of version 4. -/
theorem colons?_toText (bits : BitVec 128) (hgap : gap ≤ 1) (hrest : Follows rest) :
    dotted? padded ((toText (.v6 bits)).toList ++ rest) = none ∧
      colons? padded gap ((toText (.v6 bits)).toList ++ rest) = some (bits, rest) := by
  have hdot := hrest.not_mem_dot
  unfold toText
  dsimp only
  split
  · rename_i hmapped
    have hmark : "::ffff:".toList = ':' :: ':' :: (Nat.toDigits 16 0xFFFF ++ [':']) := by decide
    rw [String.toList_append, hmark]
    simp only [List.cons_append, List.append_assoc, List.nil_append]
    exact ⟨dotted?_eq_none_of_head ((apart_cons rfl _).mono (by decide)),
      colons?_of_mapped hmapped hgap hrest.apart⟩
  · have hzeros := areZeros_longestZeros (groups bits)
    rcases hrun : longestZeros 0 0 (groups bits) (0, 0) with ⟨start, length⟩
    rw [hrun] at hzeros
    dsimp only
    split
    · rename_i hlong
      have hcolons : "::".toList = [':', ':'] := rfl
      simp only [String.toList_append, hcolons, List.append_assoc, List.cons_append,
        List.nil_append]
      refine ⟨dotted?_eq_none_of_not_mem ?_, colons?_of_zeros hzeros hlong hgap hrest⟩
      simp only [List.mem_append, List.mem_cons, not_or]
      exact ⟨not_mem_dot_hexGroups _, by decide, by decide, not_mem_dot_hexGroups _, hdot⟩
    · refine ⟨dotted?_eq_none_of_not_mem ?_, ?_⟩
      · rw [List.mem_append, not_or]
        exact ⟨not_mem_dot_hexGroups _, hdot⟩
      · rw [colons?_of_full (fun g => lt_of_mem_groups) (length_groups bits) hrest,
          ofGroups_groups]

end

/-- **Every address is read back.** -/
theorem parse?_toText (a : Address) : parse? a.toText = some a := by
  cases a with
  | v4 bits =>
    have hread : dotted? false ((dotted bits).toList ++ []) = some (bits, []) :=
      dotted?_dotted false bits fun _ hc => by cases hc
    rw [List.append_nil] at hread
    simp only [parse?, toText, hread]
  | v6 bits =>
    have hread : dotted? false ((toText (.v6 bits)).toList ++ []) = none ∧
        colons? false 1 ((toText (.v6 bits)).toList ++ []) = some (bits, []) :=
      colons?_toText bits (Nat.le_refl 1) (.inl rfl)
    rw [List.append_nil] at hread
    simp only [parse?, hread.1, hread.2]

/-! ## Characters -/

/-- The characters of addresses. -/
def IsChar (c : Char) : Prop :=
  (digitValue? 16 c).isSome = true ∨ c = '.' ∨ c = ':'

theorem isChar_of_digit {base : Nat} (hbase : base ≤ 16) {c : Char}
    (h : (digitValue? base c).isSome = true) : IsChar c := by
  refine .inl (Option.isSome_iff_ne_none.mpr fun hnone => ?_)
  rw [digitValue?_eq_none hbase hnone] at h
  cases h

/-- Where the characters of addresses are among all characters. -/
theorem IsChar.toNat {c : Char} (h : IsChar c) : 46 ≤ c.toNat ∧ c.toNat ≤ 102 := by
  rcases h with hdigit | rfl | rfl
  · have hrange := toNat_of_digitValue? hdigit
    omega
  · decide
  · decide

theorem takes_of_after? {c : Char} (hc : IsChar c) {cs rest : List Char}
    (h : after? c cs = some rest) : Takes IsChar cs rest := by
  rw [eq_cons_of_after? h]
  exact (Takes.refl IsChar rest).cons hc

theorem takes_of_octet? {padded : Bool} {n : Nat} {cs rest : List Char}
    (h : octet? padded cs = some (n, rest)) : Takes IsChar cs rest :=
  (takes_of_number? (number?_of_octet? h)).1.mono fun _ hc => isChar_of_digit (by decide) hc

theorem takes_of_dotted? {padded : Bool} {bits : BitVec 32} {cs rest : List Char}
    (h : dotted? padded cs = some (bits, rest)) : Takes IsChar cs rest := by
  have hpoint : IsChar '.' := .inr (.inl rfl)
  unfold dotted? at h
  simp only [Option.bind_eq_bind, Option.bind_eq_some_iff, Prod.exists, Option.pure_def,
    Option.some.injEq, Prod.mk.injEq] at h
  obtain ⟨a, afterA, ha, frontB, hfrontB, b, afterB, hb, frontC, hfrontC, c, afterC, hc, frontD,
    hfrontD, d, afterD, hd, -, rfl⟩ := h
  exact (takes_of_octet? ha).trans <| (takes_of_after? hpoint hfrontB).trans <|
    (takes_of_octet? hb).trans <| (takes_of_after? hpoint hfrontC).trans <|
    (takes_of_octet? hc).trans <| (takes_of_after? hpoint hfrontD).trans (takes_of_octet? hd)

theorem takes_of_groupsFrom {padded first ended : Bool} {room : Nat} {gs : List Nat}
    {cs rest : List Char} (h : groupsFrom padded room first cs = (gs, ended, rest)) :
    Takes IsChar cs rest := by
  induction room generalizing first cs gs ended with
  | zero =>
    cases h
    exact .refl IsChar _
  | succ room ih =>
    rw [groupsFrom] at h
    split at h
    · cases h
      exact .refl IsChar _
    · rename_i body hbody
      have hcolon : Takes IsChar cs body := by
        split at hbody
        · cases hbody
          exact .refl IsChar _
        · exact takes_of_after? (.inr (.inr rfl)) hbody
      split at h
      · rename_i bits after hdotted
        cases h
        split at hdotted
        · exact hcolon.trans (takes_of_dotted? hdotted)
        · cases hdotted
      · split at h
        · rename_i group after hnumber
          rcases hgroups : groupsFrom padded room false after with ⟨gs', ended', rest'⟩
          rw [hgroups] at h
          cases h
          have hdigits := (takes_of_number? hnumber).1.mono fun _ hc =>
            isChar_of_digit (Nat.le_refl 16) hc
          exact hcolon.trans (hdigits.trans (ih hgroups))
        · cases h
          exact .refl IsChar _

theorem takes_of_colons? {padded : Bool} {gap : Nat} {bits : BitVec 128} {cs rest : List Char}
    (h : colons? padded gap cs = some (bits, rest)) : Takes IsChar cs rest := by
  have hcolon : IsChar ':' := .inr (.inr rfl)
  unfold colons? at h
  rcases hhead : groupsFrom padded 8 true cs with ⟨head, ended, body⟩
  have htakes := takes_of_groupsFrom hhead
  rw [hhead] at h
  dsimp only at h
  split at h
  · cases h
    exact htakes
  · split at h
    · cases h
    · split at h
      · rename_i more
        rcases htail : groupsFrom padded (8 - gap - head.length) true more with
          ⟨tail, ended', rest'⟩
        rw [htail] at h
        cases h
        exact htakes.trans (((takes_of_groupsFrom htail).cons hcolon).cons hcolon)
      · cases h

/-- **What an address is made of.** -/
theorem isChar_of_parse? {text : String} {a : Address} (h : parse? text = some a) :
    ∀ c ∈ text.toList, IsChar c := by
  have hall : Takes IsChar text.toList [] := by
    unfold parse? at h
    dsimp only at h
    split at h
    · rename_i hdotted
      exact takes_of_dotted? hdotted
    · split at h
      · rename_i hcolons
        exact takes_of_colons? hcolons
      · cases h
  obtain ⟨front, hfront, hchars⟩ := hall
  rwa [hfront, List.append_nil]

end Rampart.Address
