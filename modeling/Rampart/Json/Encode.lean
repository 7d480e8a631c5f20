import Rampart.Json

/-!
# Encoding values as JSON

`Encode` names the JSON form of a type; `Json.ofOption` writes a missing value as `null`.
-/

namespace Rampart

/-- Types with a JSON form. -/
class Encode (α : Type) where
  /-- The JSON form of a value. -/
  encode : α → Json

export Encode (encode)

instance : Encode Json := ⟨id⟩
instance : Encode String := ⟨.str⟩
instance : Encode Bool := ⟨.bool⟩
instance : Encode Nat := ⟨fun n => .int n⟩
instance : Encode Int := ⟨.int⟩
instance : Encode UInt64 := ⟨fun n => .int n.toNat⟩
instance : Encode UInt32 := ⟨fun n => .int n.toNat⟩
instance : Encode UInt16 := ⟨fun n => .int n.toNat⟩
instance : Encode Int32 := ⟨fun n => .int n.toInt⟩
instance : Encode Unit := ⟨fun _ => .null⟩

instance {α : Type} [Encode α] : Encode (Option α) where
  encode
    | some a => encode a
    | none => .null

instance {α : Type} [Encode α] : Encode (List α) where
  encode items := .arr (items.map encode)

/-- A member of an object. -/
def Json.member {α : Type} [Encode α] (name : String) (value : α) : String × Json :=
  (name, encode value)

end Rampart
