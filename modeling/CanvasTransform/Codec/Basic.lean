import CanvasTransform.Json.Basic

set_option autoImplicit false

/-! # Values as JSON

A `Codec` writes the values of a type as JSON and reads them back. Reading has no value for JSON of
the wrong form, and does not say what is wrong with it.

Three forms cover the types of the engine:

* A **record** is an object with named members, or an array of its fields in order. Unknown members
  are ignored, and a known one may occur only once. A field may have a default, or may be left unset.
* A **name** is a string, or an object with that one member and `null` for its value.
* A **variant** is an object with one member: its name, with what it carries. -/

namespace CanvasTransform

/-- Writing and reading the values of a type as JSON. -/
class Codec (β : Type) where
  toJson : β → Json
  ofJson? : Json → Option β

export Codec (toJson ofJson?)

namespace Json

/-! ## Records -/

/-- What a record has for one of its fields. -/
inductive Slot
  | value (j : Json)
  /-- An object has no member with the field's name. -/
  | absent
  /-- An array ends before the field. -/
  | beyond

namespace Slot

variable {β : Type} [Codec β]

/-- The value of a field that has to be there. -/
def required? : Slot → Option β
  | value j => ofJson? j
  | absent | beyond => none

/-- The value of a field that has a default. -/
def withDefault? (default : β) : Slot → Option β
  | value j => ofJson? j
  | absent | beyond => some default

/-- The value of a field that an object may leave out or set to `null`. -/
def optional? : Slot → Option (Option β)
  | value .null | absent => some none
  | value j => (ofJson? j).map some
  | beyond => none

end Slot

/-- What the members of an object have for a field. A repeated field has no answer. -/
def slotOf? (members : List (Option String × Json)) (name : String) : Option Slot :=
  match members.filter (·.1 == some name) with
  | [] => some .absent
  | [member] => some (.value member.2)
  | _ => none

/-- What a record has for each of its fields, in order. Every key has to be a text, and an array must
    not be longer than the record. -/
def slots? (names : List String) : Json → Option (List Slot)
  | .object members =>
    if members.all (·.1.isSome) then names.mapM (slotOf? members) else none
  | .array elements =>
    if elements.length ≤ names.length then
      some (elements.map Slot.value ++
        List.replicate (names.length - elements.length) Slot.beyond)
    else none
  | _ => none

/-! ## Names and variants -/

/-- The name that a value spells: a string, or an object with `null` under the name. -/
def name? : Json → Option String
  | .string s => s
  | .object [(key, .null)] => key
  | _ => none

/-- The name of a variant, with what it carries. -/
def variant? : Json → Option (String × Json)
  | .object [(some key, j)] => some (key, j)
  | _ => none

/-- The one of the given values whose name is spelled. -/
def named? {β : Type} (all : List β) (name : β → String) (j : Json) : Option β :=
  j.name?.bind fun s => all.find? fun b => name b == s

end Json

/-! ## Basic types -/

instance : Codec Bool where
  toJson := .bool
  ofJson?
    | .bool b => some b
    | _ => none

/-- An unsigned 64-bit integer is written without a point or an exponent. -/
instance : Codec UInt64 where
  toJson n := .number (.ofInt n.toNat)
  ofJson?
    | .number n =>
      let magnitude := Numeral.ofDigits n.whole
      if n.isInteger && !n.negative && magnitude < 1 <<< 64 then some (.ofNat magnitude) else none
    | _ => none

/-- A signed 64-bit integer is written without a point or an exponent. A minus needs a digit other
    than zero. -/
instance : Codec Int64 where
  toJson n := .number (.ofInt n.toInt)
  ofJson?
    | .number n =>
      let magnitude := Numeral.ofDigits n.whole
      if !n.isInteger then none
      else if n.negative then
        if 0 < magnitude && magnitude ≤ 1 <<< 63 then some (.ofInt (-magnitude)) else none
      else if magnitude < 1 <<< 63 then some (.ofInt magnitude)
      else none
    | _ => none

instance {β : Type} [Codec β] : Codec (List β) where
  toJson xs := .array (xs.map toJson)
  ofJson?
    | .array elements => elements.mapM ofJson?
    | _ => none

/-- A pair is an array of two elements. -/
instance {β γ : Type} [Codec β] [Codec γ] : Codec (β × γ) where
  toJson p := .array [toJson p.1, toJson p.2]
  ofJson?
    | .array [a, b] => do return (← ofJson? a, ← ofJson? b)
    | _ => none

end CanvasTransform
