import Mathlib.Data.String.Basic
import Rampart.Json.Encode
import Rampart.Proofs.Except
import Rampart.Proofs.Json.Text

/-!
# Forms that give their values back

A value is given back by its JSON form if the form loses nothing when it is written and the decoder
takes the form to the value.

* `Json.GivesBack`: the form of a value gives it back.
* `Json.Fields.read_seq` and its like: what is read of a record whose fields are all given, one
  field after another; **`Fields.decode_obj`** is what the record is then.
* `givesBack_nullable`, `givesBack_list`, `dictionary_map`: composite values.
* **`decodeText_pretty`**, **`decodeText_compress`**: values that are given back by their texts.
-/

namespace Rampart.Json

/-! ## Scalars -/

theorem word_encode (n : UInt64) : word (encode n) = .ok n := by
  have hlt : n.toNat < UInt64.size := n.toNat_lt_size
  have hbound : (0 : Int) ≤ n.toNat ∧ (n.toNat : Int) ≤ UInt64.size - 1 := by omega
  have hinteger : integer 0 (UInt64.size - 1) (encode n) = .ok (n.toNat : Int) := if_pos hbound
  rw [word, hinteger]
  exact congrArg Except.ok UInt64.ofNat_toNat

/-- A form is exact, and a value is decoded from it. -/
structure GivesBack {α : Type} (decode : Decoder α) (j : Json) (a : α) : Prop where
  isExact : isExact j = true
  decode_eq : decode j = .ok a

theorem isExact_nat {n : Nat} (h : n < 2 ^ 64) : isExact (.int n) = true := by
  rw [isExact, Bool.and_eq_true, decide_eq_true_eq, decide_eq_true_eq]
  omega

theorem givesBack_word (n : UInt64) : GivesBack word (encode n) n where
  isExact := isExact_nat n.toNat_lt
  decode_eq := word_encode n

theorem givesBack_word16 (n : UInt16) : GivesBack word16 (encode n) n where
  isExact := isExact_nat (Nat.lt_trans n.toNat_lt (by decide))
  decode_eq := by
    have hlt : n.toNat < UInt16.size := n.toNat_lt_size
    have hbound : (0 : Int) ≤ n.toNat ∧ (n.toNat : Int) ≤ UInt16.size - 1 := by omega
    have hinteger : integer 0 (UInt16.size - 1) (encode n) = .ok (n.toNat : Int) := if_pos hbound
    rw [word16, hinteger]
    exact congrArg Except.ok UInt16.ofNat_toNat

theorem givesBack_signed32 (n : Int32) : GivesBack signed32 (encode n) n where
  isExact := by
    have hle := n.le_toInt
    have hlt := n.toInt_lt
    show isExact (.int n.toInt) = true
    rw [Json.isExact, Bool.and_eq_true, decide_eq_true_eq, decide_eq_true_eq]
    omega
  decode_eq := by
    have hinteger : integer Int32.minValue.toInt Int32.maxValue.toInt (encode n) =
        .ok n.toInt := if_pos ⟨n.minValue_le_toInt, n.toInt_le⟩
    rw [signed32, hinteger]
    exact congrArg Except.ok n.ofInt_toInt

theorem givesBack_string (s : String) : GivesBack string (encode s) s := ⟨rfl, rfl⟩

theorem givesBack_boolean (b : Bool) : GivesBack boolean (encode b) b := ⟨rfl, rfl⟩

/-! ## Composite values -/

section Composite

variable {α : Type} {decode : Decoder α}

theorem nullable_of_ne {j : Json} (h : j ≠ .null) : nullable decode j = (decode j).map some := by
  cases j <;> first | rfl | exact absurd rfl h

/-- An entry with a later name than all others comes behind them. -/
theorem insertEntry_eq_append {name : String} {value : α} {entries : List (String × α)}
    (h : ∀ entry ∈ entries, entry.1 < name) :
    insertEntry name value entries = entries ++ [(name, value)] := by
  induction entries with
  | nil => rfl
  | cons entry entries ih =>
    obtain ⟨hlt, hrest⟩ := List.forall_mem_cons.mp h
    rw [insertEntry, if_neg hlt.ne', if_neg hlt.asymm, ih hrest]
    rfl

variable [Encode α]

theorem givesBack_nullable {o : Option α} (h : ∀ a ∈ o, GivesBack decode (encode a) a)
    (hne : ∀ a ∈ o, encode a ≠ .null) : GivesBack (nullable decode) (encode o) o := by
  cases o with
  | none => exact ⟨rfl, rfl⟩
  | some a =>
    have hback := h a rfl
    refine ⟨hback.isExact, ?_⟩
    show nullable decode (encode a) = _
    rw [nullable_of_ne (hne a rfl), hback.decode_eq]
    rfl

theorem areExact_map {as : List α} (h : ∀ a ∈ as, GivesBack decode (encode a) a) :
    areExact (as.map encode) = true := by
  induction as with
  | nil => rfl
  | cons a as ih =>
    rw [List.map_cons, areExact, (h a List.mem_cons_self).isExact,
      ih fun b hb => h b (List.mem_cons_of_mem a hb)]
    rfl

theorem givesBack_list {as : List α} (h : ∀ a ∈ as, GivesBack decode (encode a) a) :
    GivesBack (list decode) (encode as) as where
  isExact := areExact_map h
  decode_eq := by
    show (as.map encode).mapM decode = .ok as
    rw [Except.mapM_eq_ok_iff, List.forall₂_map_left_iff, List.forall₂_same]
    exact fun a ha => (h a ha).decode_eq

theorem haveExact_map {entries : List (String × α)}
    (h : ∀ entry ∈ entries, GivesBack decode (encode entry.2) entry.2) :
    haveExact (entries.map fun (name, a) => (name, encode a)) = true := by
  induction entries with
  | nil => rfl
  | cons entry entries ih =>
    rw [List.map_cons, haveExact, (h entry List.mem_cons_self).isExact,
      ih fun b hb => h b (List.mem_cons_of_mem entry hb)]
    rfl

/-- **A dictionary is given back** if its entries stand in order of their names. -/
theorem dictionary_map {entries : List (String × α)}
    (hsorted : entries.Pairwise fun a b => a.1 < b.1)
    (h : ∀ entry ∈ entries, GivesBack decode (encode entry.2) entry.2) :
    dictionary decode (.obj (entries.map fun (name, a) => (name, encode a))) = .ok entries := by
  suffices hall : ∀ front, (front ++ entries).Pairwise (fun a b => a.1 < b.1) →
      (entries.map fun entry => (entry.1, encode entry.2)).foldlM (fun entries member =>
        (decode member.2).map fun value => insertEntry member.1 value entries) front =
          .ok (front ++ entries) by
    exact hall [] hsorted
  clear hsorted
  induction entries with
  | nil =>
    intro front _
    rw [List.append_nil]
    rfl
  | cons entry entries ih =>
    obtain ⟨name, value⟩ := entry
    intro front hfront
    obtain ⟨hentry, hentries⟩ := List.forall_mem_cons.mp h
    have hbefore : ∀ other ∈ front, other.1 < name := fun other hother =>
      (List.pairwise_append.mp hfront).2.2 other hother _ List.mem_cons_self
    have hnext := ih hentries (front ++ [(name, value)]) (by rwa [List.append_assoc])
    rw [List.append_assoc, List.singleton_append] at hnext
    rw [List.map_cons, List.foldlM_cons]
    dsimp only at hentry ⊢
    rw [hentry.decode_eq, ← hnext, ← insertEntry_eq_append hbefore]
    rfl

theorem givesBack_dictionary {entries : List (String × α)}
    (hsorted : entries.Pairwise fun a b => a.1 < b.1)
    (h : ∀ entry ∈ entries, GivesBack decode (encode entry.2) entry.2) :
    GivesBack (dictionary decode) (.obj (entries.map fun (name, a) => (name, encode a))) entries :=
  ⟨haveExact_map h, dictionary_map hsorted h⟩

end Composite

/-! ## Records -/

theorem both_eq_ok_iff {α β : Type} {f : Except Fault (α → β)} {x : Except Fault α} {b : β} :
    both f x = .ok b ↔ ∃ g a, f = .ok g ∧ x = .ok a ∧ g a = b := by
  rcases f with (_ | _) | g <;> cases x <;> simp [both]

namespace Fields

variable {α β : Type} {fields : Fields α} {m : Members} {name : String} {decode : Decoder α}
  {j : Json} {a : α}

/-- A record that has been read is made of fields that have been read. -/
theorem exists_read_of_decode (h : fields.decode j = .ok a) : ∃ m, fields.read m = .ok a := by
  cases j with
  | obj members =>
    simp only [Fields.decode] at h
    split at h
    · cases h
    · split at h
      · next hread =>
        split at h
        · cases h
        · exact ⟨_, hread.trans h⟩
      · cases h
  | arr items =>
    simp only [Fields.decode] at h
    split at h
    · next hread =>
      split at h
      · cases h
      · exact ⟨_, hread.trans h⟩
    · cases h
  | _ => cases h

theorem read_map {f : α → β} (h : fields.read m = .ok a) : (f <$> fields).read m = .ok (f a) :=
  congrArg (Except.map f) h

theorem read_seq {makers : Fields (α → β)} {f : α → β} (hf : makers.read m = .ok f)
    (h : fields.read m = .ok a) : (makers <*> fields).read m = .ok (f a) :=
  both_eq_ok_iff.mpr ⟨f, a, hf, h, rfl⟩

theorem read_required (hback : GivesBack decode j a) (h : m.find name = some j) :
    (required name decode).read m = .ok a := by
  simp only [required, h, hback.decode_eq]

theorem read_withDefault (hback : GivesBack decode j a) {other : α} (h : m.find name = some j) :
    (withDefault name decode other).read m = .ok a := by
  simp only [withDefault, h, hback.decode_eq]

theorem read_orNull {o : Option α} (hback : GivesBack (nullable decode) j o)
    (h : m.find name = some j) : (orNull name decode).read m = .ok o := by
  simp only [orNull, h, hback.decode_eq]

theorem read_optional {o : Option α} (hback : GivesBack (nullable decode) j o)
    (h : m.find name = some j) : (optional name decode).read m = .ok o :=
  read_withDefault hback h

/-- What an object gives for the fields of a record. -/
def given (members : List (String × Json)) : Members :=
  ⟨false, .mismatched, fun name => (members.find? (·.1 == name)).map (·.2)⟩

/-- **A record is decoded** from an exact object without repetitions of which it can be read. -/
theorem decode_obj {members : List (String × Json)} (hexact : haveExact members = true)
    (hrepeats : repeats fields.names members = false)
    (hread : fields.read (given members) = .ok a) : fields.decode (.obj members) = .ok a := by
  have hcut := haveCutShort_of_haveExact hexact
  unfold given at hread
  simp only [Fields.decode, hcut, hrepeats, Bool.false_eq_true, if_false, hread]

end Fields

/-! ## Members -/

variable {α : Type} {decode : Decoder α} {j : Json} {a : α} {members : List (String × Json)}

theorem haveExact_cons (hback : GivesBack decode j a) (name : String)
    (h : haveExact members = true) : haveExact ((name, j) :: members) = true := by
  rw [haveExact, hback.isExact, h]
  rfl

/-- **A record is given back** if its fields can be read of its form. -/
theorem givesBack_obj {fields : Fields α} (hexact : haveExact members = true)
    (hrepeats : Fields.repeats fields.names members = false)
    (hread : fields.read (Fields.given members) = .ok a) :
    GivesBack fields.decode (.obj members) a :=
  ⟨hexact, Fields.decode_obj hexact hrepeats hread⟩

/-! ## Texts -/

/-- **A text on one line gives back its value.** -/
theorem decodeText_compress (h : GivesBack decode j a) : decodeText decode j.compress = .ok a :=
  (decodeText_of_read decode (read_compress h.isExact)).trans h.decode_eq

/-- **A text on many lines gives back its value.** -/
theorem decodeText_pretty (h : GivesBack decode j a) : decodeText decode j.pretty = .ok a :=
  (decodeText_of_read decode (read_pretty h.isExact)).trans h.decode_eq

end Rampart.Json
