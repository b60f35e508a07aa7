import OpcSession.Binary64.Shortest
import OpcSession.Json.Basic

/-!
# The shapes values take in JSON

Records, lists, options, numbers, and enumerations with and without a
payload: one reader for each shape, from which the readers of messages
are put together.  All readers are strict; none converts between kinds.

A record is an object with its fields in any order, each at most once and
among fields that are passed over, or an array of exactly its fields.  An
enumeration with a payload comes in two shapes.  In the *adjacent* shape
a tag and a content stand side by side.  In the *inline* shape the tag
stands among the fields of the payload; such a value is first held as a
whole, whatever the order of its members, and a held value must be
readable in every part: numbers within range, texts that are texts, and
no more than `bracketLimit` open brackets.  A value that is only passed
over, outside held ones, is free of these conditions.

A number with a fraction is taken to be read as the double nearest to it.  A JSON
library may promise that on request only and else do its best, which can miss the
nearest double by one where a literal has more than fifteen digits or a power of
ten beyond the twenty-second.
-/

namespace OpcSession.Json

/-- Where a value stands: how many brackets are open around it, and whether it
is part of a held value. -/
structure Place where
  /-- How many brackets are open around it. -/
  depth : Nat := 0
  /-- Whether it is kept aside, where brackets are counted and texts have to
  be sound. -/
  held : Bool := false

/-- One bracket further in, where the parts of a value stand. -/
def Place.inner (p : Place) : Place := { p with depth := p.depth + 1 }

/-- The same place in a held value, as the fields of an inline shape are. -/
def Place.hold (p : Place) : Place := { p with held := true }

/-- How many brackets may be open in a held value; one more is refused. -/
def bracketLimit : Nat := 127

/-! ## Numbers -/

/-- Splits off a minus sign, if there is one. -/
def splitSign : List Char → Bool × List Char
  | '-' :: rest => (true, rest)
  | cs => (false, cs)

/-- The integer a literal stands for; `-0` and literals with a fraction or an
exponent stand for none. -/
def integer? (literal : String) : Option Int :=
  match splitSign literal.toList with
  | (false, cs) => (Text.natural? cs).map Int.ofNat
  | (true, cs) => (Text.natural? cs).bind fun n =>
      if n = 0 then none else some (-(n : Int))

/-- The digits at the front of a literal, and the rest of it. -/
def digitsAndRest (cs : List Char) : List Char × List Char :=
  cs.span fun c => (Text.digit? c).isSome

/-- The value of an exponent, `0` if there is none; a plus sign says
nothing. -/
def exponentValue : List Char → Int
  | _ :: '-' :: cs => -((Text.natural? cs).getD 0 : Int)
  | _ :: '+' :: cs => ((Text.natural? cs).getD 0 : Int)
  | _ :: cs => ((Text.natural? cs).getD 0 : Int)
  | [] => 0

/-- The double nearest to what a literal stands for, if it is in range.  That
is what a JSON reader is taken to give.  One that only does its best may be
off by a unit in the last place, where the digits of the literal or the power
of ten are no double themselves. -/
def double? (literal : String) : Option Binary64 :=
  let (negative, cs) := splitSign literal.toList
  let (whole, rest) := digitsAndRest cs
  let (fraction, rest) := match rest with
    | '.' :: rest => digitsAndRest rest
    | rest => ([], rest)
  let coefficient := (Text.natural? (whole ++ fraction)).getD 0
  Binary64.ofDecimal? negative coefficient (exponentValue rest - (fraction.length : Int))

/-- A finite double by its shortest text, anything else as `null`, since there
is no literal for it. -/
def double (x : Binary64) : Json :=
  if x.isFinite then .num (String.ofList x.scientificText) else .null

/-- A natural number of at most `limit`; a literal with a point or an exponent
is none. -/
def asNat? (limit : Nat) : Json → Option Nat
  | .num literal => match integer? literal with
    | some (.ofNat n) => if n ≤ limit then some n else none
    | _ => none
  | _ => none

/-- An integer from `low` to `high`, by a literal without a point or an
exponent. -/
def asInt? (low high : Int) : Json → Option Int
  | .num literal => (integer? literal).filter fun i => low ≤ i ∧ i ≤ high
  | _ => none

def asUInt8? (j : Json) : Option UInt8 := (asNat? 0xFF j).map UInt8.ofNat

def asUInt16? (j : Json) : Option UInt16 := (asNat? 0xFFFF j).map UInt16.ofNat

def asUInt32? (j : Json) : Option UInt32 := (asNat? 0xFFFFFFFF j).map UInt32.ofNat

def asUInt64? (j : Json) : Option UInt64 :=
  (asNat? 0xFFFFFFFFFFFFFFFF j).map UInt64.ofNat

/-- A double by any literal that is in range; `null` is none. -/
def asDouble? : Json → Option Binary64
  | .num literal => double? literal
  | _ => none

/-! ## Plain values -/

def asBool? : Json → Option Bool
  | .bool b => some b
  | _ => none

def asText? : Json → Option String
  | .str s => s
  | _ => none

def asList? {α : Type} (f : Json → Option α) : Json → Option (List α)
  | .arr items => items.mapM f
  | _ => none

/-- Nothing, written `null`, or a value; anything that is neither is
refused. -/
def asOptional? {α : Type} (f : Json → Option α) : Json → Option (Option α)
  | .null => some none
  | j => (f j).map some

def asBytes? : Json → Option (List UInt8) := asList? asUInt8?

/-! ## Fields -/

/-- A field that has to be there; a record without it is refused. -/
def needed {α : Type} (f : Json → Option α) (field : Option Json) : Option α :=
  field.bind f

/-- A field that may be missing or `null`, which comes to the same. -/
def maybe {α : Type} (f : Json → Option α) : Option Json → Option (Option α)
  | none => some none
  | some j => asOptional? f j

/-- A field that has a default, which it gets if it is missing; `null` is no
default. -/
def orElse {α : Type} (default : α) (f : Json → Option α) : Option Json → Option α
  | none => some default
  | some j => f j

/-- How often a name occurs among members; a record with a field twice is
refused. -/
def occurrences (name : String) (ms : List (Quoted × Json)) : Nat :=
  ms.countP fun m => m.1 == some name

/-- The fields of the given names, each `none` where it is missing.  No field
may occur twice, and every name must be a text. -/
def pick? (names : List String) (ms : List (Quoted × Json)) :
    Option (List (Option Json)) :=
  if ms.all (·.1.isSome) && names.all (occurrences · ms ≤ 1) then
    some (names.map fun name => (ms.find? (·.1 == some name)).map (·.2))
  else none

/-- The fields of a record, by their names from an object, or by their order
from a list with as many items. -/
def fields? (names : List String) : Json → Option (List (Option Json))
  | .obj ms => pick? names ms
  | .arr items =>
    if items.length = names.length then some (items.map some) else none
  | _ => none

/-- The fields of a record of settings, whose array may end early: the fields
that it leaves out have their defaults. -/
def settings? (names : List String) : Json → Option (List (Option Json))
  | .obj ms => pick? names ms
  | .arr items =>
    if items.length ≤ names.length then
      some (items.map some ++ List.replicate (names.length - items.length) none)
    else none
  | _ => none

/-- The fields of a record that knows no others: an object with another name
is refused. -/
def closedFields? (names : List String) : Json → Option (List (Option Json))
  | .obj ms =>
    if ms.all fun m => names.any (some · == m.1) then pick? names ms else none
  | j => fields? names j

/-! ## Held values -/

mutual

/-- Whether every part of a value can be read: numbers are in range, and texts
have no half pairs. -/
def sound : Json → Bool
  | .num literal => (double? literal).isSome
  | .str s => s.isSome
  | .arr items => soundItems items
  | .obj members => soundMembers members
  | _ => true

def soundItems : List Json → Bool
  | [] => true
  | x :: xs => x.sound && soundItems xs

def soundMembers : List (Quoted × Json) → Bool
  | [] => true
  | (name, x) :: xs => name.isSome && x.sound && soundMembers xs

end

/-- Whether a value may be held at a place: it is sound and not too deep, or
part of a value that is held already. -/
def holdable (p : Place) (j : Json) : Bool :=
  p.held || (j.sound && p.depth + j.height ≤ bracketLimit)

/-! ## Enumerations -/

/-- A name out of a list, written as text or as an object whose only member
has the name and no content.  In a held value an empty object is no content
too. -/
def choice? (names : List String) (p : Place) : Json → Option String
  | .str (some s) => if names.contains s then some s else none
  | .obj [(some s, .null)] => if names.contains s then some s else none
  | .obj [(some s, .obj [])] =>
    if p.held && names.contains s then some s else none
  | _ => none

/-- The tag, the content and the place of the content of an enumeration in the
adjacent shape.  A content in front of its tag is held. -/
def adjacent? (tag content : String) (p : Place) :
    Json → Option (Json × Option Json × Place)
  | .arr [t, c] => some (t, some c, p.inner)
  | .obj ms =>
    match pick? [tag, content] ms with
    | some [some t, c] =>
      let first := (ms.find? fun m => m.1 == some tag || m.1 == some content).map (·.1)
      if first == some (some tag) then some (t, c, p.inner)
      else if c.all (holdable p.inner) then some (t, c, p.inner.hold)
      else none
    | _ => none
  | _ => none

/-- The name of a tag in the inline shape; in a held value it may be a number,
the place of the name in the list. -/
def tagName? (names : List String) (p : Place) : Json → Option String
  | .str (some s) => if names.contains s then some s else none
  | .num literal =>
    if p.held then
      match integer? literal with
      | some (.ofNat n) => names[n]?
      | _ => none
    else none
  | _ => none

/-- The tag and the remaining fields of an enumeration in the inline shape. -/
def inline? (tag : String) (names : List String) (p : Place) (j : Json) :
    Option (String × Json) :=
  if ¬ holdable p j then none
  else match j with
    | .obj ms =>
      if occurrences tag ms = 1 then do
        let t ← (ms.find? (·.1 == some tag)).map (·.2)
        let name ← tagName? names p t
        return (name, .obj (ms.filter (·.1 != some tag)))
      else none
    | .arr (t :: items) => do
      let name ← tagName? names p t
      return (name, .arr items)
    | _ => none

/-- An enumeration in the adjacent shape, with a content beside its name. -/
def tagged (tag content name : String) (value : Json) : Json :=
  record [(tag, text name), (content, value)]

end OpcSession.Json
