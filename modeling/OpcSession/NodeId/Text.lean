import OpcSession.NodeId.Basic
import OpcSession.Text.Digits

/-!
# The text of a node id

A node id is written `ns=N;X`, without the first part in namespace zero.
`X` is `i=` and a number, `s=` or `g=` and a text that is written as it
is, or `b=` and pairs of hexadecimal digits.

Reading takes the first semicolon and the first equals sign for the
separators.  Hexadecimal text has an even number of bytes and is cut into
pieces of two bytes from left to right.  A piece is two hexadecimal
digits, or one digit behind a plus sign.  Reading ends at the first piece
that is none; a cut that falls into the middle of a character cannot be
made at all, and is a failure of its own.
-/

namespace OpcSession.NodeId

/-- Why a text is no node id.  The second case is no error of the program,
which ends there without an answer. -/
inductive TextError
  /-- The text does not have the form of a node id, or a number in it is out
  of range. -/
  | invalid (text : String)
  /-- Two bytes of hexadecimal text end within a character, where no text can
  be cut. -/
  | splitCharacter
deriving DecidableEq, Repr

/-- The message of an error; that of the first case names the text that was to
be read. -/
def TextError.message : TextError → String
  | invalid text => "invalid message: invalid node id: " ++ text
  | splitCharacter => "hexadecimal text is cut within a character"

/-! ## Writing -/

def identifierChars : Identifier → List Char
  | .numeric id => 'i' :: '=' :: Text.decimal id.toNat
  | .string id => 's' :: '=' :: id.toList
  | .guid id => 'g' :: '=' :: id.toList
  | .bytes id => 'b' :: '=' :: Text.hex id

def chars (n : NodeId) : List Char :=
  if n.space = 0 then identifierChars n.identifier
  else 'n' :: 's' :: '=' :: Text.decimal n.space.toNat
    ++ ';' :: identifierChars n.identifier

/-- The text of a node id, without the namespace where it is zero. -/
def text (n : NodeId) : String := String.ofList n.chars

/-! ## Reading -/

/-- The text before the first `c` and the text behind it, if there is a `c` at
all. -/
def splitAt? (c : Char) : List Char → Option (List Char × List Char)
  | [] => none
  | d :: rest =>
    if d = c then some ([], rest)
    else (splitAt? c rest).map fun (before, behind) => (d :: before, behind)

/-- How many bytes a text takes in UTF-8, by which it is cut into pieces. -/
def byteLength (cs : List Char) : Nat := cs.foldr (fun c n => c.utf8Size + n) 0

/-- The byte that a piece of two characters stands for.  A plus sign in front
of one digit counts as a sign, as it does for numbers. -/
def piece? (a b : Char) : Option UInt8 :=
  match Text.hexValue? b with
  | none => none
  | some low =>
    if a = '+' then some (UInt8.ofNat low)
    else (Text.hexValue? a).map fun high => UInt8.ofNat (16 * high + low)

/-- How reading hexadecimal text ends: with bytes, with an error, or within a
character. -/
inductive HexText
  | bytes (bs : List UInt8)
  | invalid
  /-- A piece would end within a character. -/
  | split
deriving DecidableEq, Repr

/-- Reads hexadecimal text in pieces of two bytes, which may be two characters
or one. -/
def hexText : List Char → HexText
  | [] => .bytes []
  | [a] => if a.utf8Size = 2 then .invalid else .split
  | a :: b :: rest =>
    if a.utf8Size = 2 then .invalid
    else if a.utf8Size ≠ 1 ∨ b.utf8Size ≠ 1 then .split
    else match piece? a b with
      | none => .invalid
      | some byte => match hexText rest with
        | .bytes bs => .bytes (byte :: bs)
        | failure => failure

/-- Splits off the namespace index: the text behind it and the index, zero if
the text does not start with one. -/
def splitSpace? : List Char → Option (UInt16 × List Char)
  | 'n' :: 's' :: '=' :: rest => do
    let (number, rest) ← splitAt? ';' rest
    let n ← Text.bounded? 0xFFFF number
    return (UInt16.ofNat n, rest)
  | cs => some (0, cs)

/-- Reads a node id; the errors name the whole text, also where only a part of
it is wrong. -/
def parse (s : String) : Except TextError NodeId :=
  match splitSpace? s.toList with
  | none => .error (.invalid s)
  | some (space, rest) =>
    match splitAt? '=' rest with
    | some (['i'], value) =>
      match Text.bounded? 0xFFFFFFFF value with
      | some n => .ok ⟨space, .numeric (UInt32.ofNat n)⟩
      | none => .error (.invalid s)
    | some (['s'], value) => .ok ⟨space, .string (String.ofList value)⟩
    | some (['g'], value) => .ok ⟨space, .guid (String.ofList value)⟩
    | some (['b'], value) =>
      if byteLength value % 2 ≠ 0 then .error (.invalid s)
      else match hexText value with
        | .bytes bs => .ok ⟨space, .bytes bs⟩
        | .invalid => .error (.invalid s)
        | .split => .error .splitCharacter
    | _ => .error (.invalid s)

end OpcSession.NodeId
