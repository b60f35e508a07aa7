/-!
# JSON values

A number keeps the literal it was written with, because whether a field
takes it depends on how it is written: `1` is an integer and `1.0` is
not.  An object keeps its members in their order and with their
repetitions.  Text is `none` where a quoted literal is well formed but
stands for no Unicode text (half a surrogate pair, or bytes that are not
UTF-8); such a literal may be skipped but not read.
-/

namespace OpcSession

/-- The text of a quoted literal, `none` if it stands for no text. -/
abbrev Json.Quoted := Option String

/-- A JSON value as it is written: numbers are kept as literals, and members
in their order, also where a name occurs twice. -/
inductive Json where
  | null
  | bool (b : Bool)
  | num (literal : String)
  | str (text : Json.Quoted)
  | arr (items : List Json)
  | obj (members : List (Json.Quoted × Json))
deriving Inhabited

namespace Json

/-- A piece of text, as all texts are that the client writes. -/
def text (s : String) : Json := .str (some s)

/-- A natural number, by its decimal digits. -/
def nat (n : Nat) : Json := .num (toString n)

/-- An integer, by its decimal digits and a minus sign where it has one. -/
def int (n : Int) : Json := .num (toString n)

/-- An object with the given members, in this order, which is that of the
fields of a structure. -/
def record (members : List (String × Json)) : Json :=
  .obj (members.map fun (name, value) => (some name, value))

/-- A list of values, each written in the same way. -/
def list {α : Type} (f : α → Json) (xs : List α) : Json := .arr (xs.map f)

/-- A value or nothing, which is written `null`. -/
def optional {α : Type} (f : α → Json) : Option α → Json
  | none => .null
  | some x => f x

/-- Bytes as an array of numbers, since texts could not hold all of them. -/
def bytes (bs : List UInt8) : Json := .arr (bs.map fun b => nat b.toNat)

/-- The members of an object; other values have none. -/
def members : Json → List (Quoted × Json)
  | .obj ms => ms
  | _ => []

/-- The first member of an object with the given name, if there is any. -/
def get? (j : Json) (name : String) : Option Json :=
  (j.members.find? fun m => m.1 == some name).map (·.2)

mutual

/-- How many brackets are open at the deepest place of a value, counting
braces as brackets. -/
def height : Json → Nat
  | .arr items => heightItems items + 1
  | .obj members => heightMembers members + 1
  | _ => 0

/-- The greatest height among the items, none for an empty list. -/
def heightItems : List Json → Nat
  | [] => 0
  | x :: xs => max x.height (heightItems xs)

/-- The greatest height among the members, none for an empty object. -/
def heightMembers : List (Quoted × Json) → Nat
  | [] => 0
  | (_, x) :: xs => max x.height (heightMembers xs)

end

end Json

end OpcSession
