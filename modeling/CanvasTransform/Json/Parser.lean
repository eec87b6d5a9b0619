import CanvasTransform.Json.Lexer

set_option autoImplicit false

/-! # Reading JSON

The parser takes one token after the other. Containers that are still open wait on a stack, each with
the parts that it has so far, so the depth of nesting is bounded by nothing but the text. -/

namespace CanvasTransform.Json

/-- A container that is still open, with its parts so far, last first. -/
inductive Frame
  | array (before : List Json)
  /-- The key is that of the member whose value is being read. -/
  | object (before : List (Option String × Json)) (key : Option String)

/-- What the parser waits for, and the containers that are open around it. -/
inductive ParseState
  /-- A value. -/
  | value (stack : List Frame)
  /-- The first element of an array, or its end. -/
  | arrayStart (stack : List Frame)
  /-- The first key of an object, or its end. -/
  | objectStart (stack : List Frame)
  /-- A key, after the given members. -/
  | key (before : List (Option String × Json)) (stack : List Frame)
  /-- The colon after a key. -/
  | colon (before : List (Option String × Json)) (key : Option String) (stack : List Frame)
  /-- What may follow a complete value. -/
  | complete (value : Json) (stack : List Frame)

/-- A value begins. -/
def beginValue (stack : List Frame) : Token → Option ParseState
  | .atom j => some (.complete j stack)
  | .beginArray => some (.arrayStart stack)
  | .beginObject => some (.objectStart stack)
  | _ => none

/-- Take one token. -/
def ParseState.step : ParseState → Token → Option ParseState
  | .value stack, t => beginValue stack t
  | .arrayStart stack, .endArray => some (.complete (.array []) stack)
  | .arrayStart stack, t => beginValue (.array [] :: stack) t
  | .objectStart stack, .endObject => some (.complete (.object []) stack)
  | .objectStart stack, .atom (.string name) => some (.colon [] name stack)
  | .key before stack, .atom (.string name) => some (.colon before name stack)
  | .colon before name stack, .colon => some (.value (.object before name :: stack))
  | .complete j (.array before :: stack), .comma => some (.value (.array (j :: before) :: stack))
  | .complete j (.array before :: stack), .endArray =>
    some (.complete (.array (j :: before).reverse) stack)
  | .complete j (.object before name :: stack), .comma => some (.key ((name, j) :: before) stack)
  | .complete j (.object before name :: stack), .endObject =>
    some (.complete (.object ((name, j) :: before).reverse) stack)
  | _, _ => none

/-- The value that a whole text spells. -/
def parse? (text : String) : Option Json := do
  match ← (← tokens? text).foldlM ParseState.step (.value []) with
  | .complete j [] => some j
  | _ => none

end CanvasTransform.Json
