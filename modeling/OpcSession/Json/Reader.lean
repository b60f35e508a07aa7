import OpcSession.Json.Basic
import OpcSession.Text.Utf8
import OpcSession.Text.Digits

/-!
# Reading JSON

The reader takes exactly the grammar of RFC 8259: white space is space,
tab, line feed and carriage return; numbers have no leading zeros and no
plus sign; quoted text has no raw control characters.  It works on glyphs,
so that a quoted text with stray bytes is still delimited.

`read?` reads one whole value with nothing but white space around it.
The fuel of the inner functions counts values and list items; the length
of the text is always enough.
-/

namespace OpcSession.Json

open OpcSession.Text (Glyph)

/-- Drops white space, of which there are four characters; a stray byte is
none. -/
def skipSpace : List Glyph → List Glyph
  | some c :: rest =>
    if c = ' ' ∨ c = '\t' ∨ c = '\n' ∨ c = '\r' then skipSpace rest
    else some c :: rest
  | gs => gs

/-- Splits off the digits at the front, up to the first glyph that is no
digit. -/
def spanDigits : List Glyph → List Char × List Glyph
  | some c :: rest =>
    if (Text.digit? c).isSome then
      let (digits, rest) := spanDigits rest
      (c :: digits, rest)
    else ([], some c :: rest)
  | gs => ([], gs)

/-- The digits before the point: a zero alone, or no zero in front. -/
def wholePart? (gs : List Glyph) : Option (List Char × List Glyph) :=
  match spanDigits gs with
  | ([], _) => none
  | ('0' :: _ :: _, _) => none
  | (digits, rest) => some (digits, rest)

/-- The point and its decimals, if there is a point; a point without decimals
is refused. -/
def fractionPart? : List Glyph → Option (List Char × List Glyph)
  | some '.' :: rest =>
    match spanDigits rest with
    | ([], _) => none
    | (digits, rest) => some ('.' :: digits, rest)
  | gs => some ([], gs)

/-- The exponent, if there is one: a letter, a sign if any, and one digit at
least. -/
def exponentPart? : List Glyph → Option (List Char × List Glyph)
  | some c :: rest =>
    if c = 'e' ∨ c = 'E' then
      let (sign, rest) := match rest with
        | some '+' :: rest => (['+'], rest)
        | some '-' :: rest => (['-'], rest)
        | rest => ([], rest)
      match spanDigits rest with
      | ([], _) => none
      | (digits, rest) => some (c :: sign ++ digits, rest)
    else some ([], some c :: rest)
  | gs => some ([], gs)

/-- A number literal: sign, whole part, decimals and exponent, each read as
far as it goes. -/
def literal? (gs : List Glyph) : Option (List Char × List Glyph) := do
  let (sign, gs) := match gs with
    | some '-' :: rest => (['-'], rest)
    | gs => ([], gs)
  let (whole, gs) ← wholePart? gs
  let (fraction, gs) ← fractionPart? gs
  let (exponent, gs) ← exponentPart? gs
  return (sign ++ whole ++ fraction ++ exponent, gs)

/-- The value of four hexadecimal digits, of either case. -/
def unit? : List Glyph → Option (Nat × List Glyph)
  | some a :: some b :: some c :: some d :: rest => do
    let a ← Text.hexValue? a
    let b ← Text.hexValue? b
    let c ← Text.hexValue? c
    let d ← Text.hexValue? d
    return (((a * 16 + b) * 16 + c) * 16 + d, rest)
  | _ => none

/-- One character of a quoted literal, as far as it can be told before the
literal has been read to its end. -/
inductive Piece
  /-- A character, written plainly or by an escape of one letter. -/
  | char (c : Char)
  /-- A stray byte, which spoils the text but does not end it. -/
  | stray
  /-- One code unit, written by four hexadecimal digits, which may be half of
  a pair. -/
  | codeUnit (u : Nat)
deriving DecidableEq, Repr

/-- What a letter after a backslash stands for, if it is one of the eight that
stand for a character. -/
def simpleEscape? : Char → Option Char
  | '"' => some '"'
  | '\\' => some '\\'
  | '/' => some '/'
  | 'b' => some '\x08'
  | 'f' => some '\x0c'
  | 'n' => some '\n'
  | 'r' => some '\r'
  | 't' => some '\t'
  | _ => none

/-- The pieces of a quoted literal up to its closing quote, with a fuel of at
least the number of glyphs. -/
def pieces? : (fuel : Nat) → List Glyph → Option (List Piece × List Glyph)
  | 0, _ => none
  | _, [] => none
  | _, some '"' :: rest => some ([], rest)
  | fuel + 1, some '\\' :: rest =>
    match rest with
    | some 'u' :: rest => do
      let (u, rest) ← unit? rest
      let (ps, rest) ← pieces? fuel rest
      return (.codeUnit u :: ps, rest)
    | some c :: rest => do
      let c ← simpleEscape? c
      let (ps, rest) ← pieces? fuel rest
      return (.char c :: ps, rest)
    | _ => none
  | fuel + 1, some c :: rest =>
    if c.toNat < 32 then none
    else do
      let (ps, rest) ← pieces? fuel rest
      return (.char c :: ps, rest)
  | fuel + 1, none :: rest => do
    let (ps, rest) ← pieces? fuel rest
    return (.stray :: ps, rest)

/-- The text that pieces stand for: a high code unit and the low one behind it
make one character, and neither may stand alone. -/
def assemble? : List Piece → Option (List Char)
  | [] => some []
  | .char c :: rest => (assemble? rest).map (c :: ·)
  | .stray :: _ => none
  | .codeUnit u :: rest =>
    if u < 0xD800 ∨ 0xDFFF < u then
      (assemble? rest).map (Char.ofNat u :: ·)
    else if 0xDC00 ≤ u then none
    else match rest with
      | .codeUnit v :: rest =>
        if 0xDC00 ≤ v ∧ v ≤ 0xDFFF then
          (assemble? rest).map
            (Char.ofNat (0x10000 + (u - 0xD800) * 0x400 + (v - 0xDC00)) :: ·)
        else none
      | _ => none

/-- A quoted literal behind its opening quote, and what follows its closing
one.  The text may be one that cannot be read. -/
def quotedTail? (gs : List Glyph) : Option (Quoted × List Glyph) :=
  (pieces? gs.length gs).map fun (ps, rest) =>
    ((assemble? ps).map String.ofList, rest)

mutual

/-- One value, at the front of text without leading white space, and what
follows it.  Each value and each bracket takes one of the fuel, of which the
length of the text is enough. -/
def value? : (fuel : Nat) → List Glyph → Option (Json × List Glyph)
  | 0, _ => none
  | fuel + 1, gs =>
    match gs with
    | some 'n' :: some 'u' :: some 'l' :: some 'l' :: rest => some (.null, rest)
    | some 't' :: some 'r' :: some 'u' :: some 'e' :: rest =>
      some (.bool true, rest)
    | some 'f' :: some 'a' :: some 'l' :: some 's' :: some 'e' :: rest =>
      some (.bool false, rest)
    | some '"' :: rest =>
      (quotedTail? rest).map fun (s, rest) => (.str s, rest)
    | some '[' :: rest =>
      match skipSpace rest with
      | some ']' :: rest => some (.arr [], rest)
      | rest => do
        let (x, rest) ← value? fuel rest
        let (xs, rest) ← items? fuel rest
        return (.arr (x :: xs), rest)
    | some '{' :: rest =>
      match skipSpace rest with
      | some '}' :: rest => some (.obj [], rest)
      | rest => do
        let (m, rest) ← member? fuel rest
        let (ms, rest) ← members? fuel rest
        return (.obj (m :: ms), rest)
    | gs =>
      (literal? gs).map fun (cs, rest) => (.num (String.ofList cs), rest)

/-- The items after the first one, up to and with the closing bracket. -/
def items? : (fuel : Nat) → List Glyph → Option (List Json × List Glyph)
  | 0, _ => none
  | fuel + 1, gs =>
    match skipSpace gs with
    | some ']' :: rest => some ([], rest)
    | some ',' :: rest => do
      let (x, rest) ← value? fuel (skipSpace rest)
      let (xs, rest) ← items? fuel rest
      return (x :: xs, rest)
    | _ => none

/-- One member: a name in quotes, a colon and a value, with white space around
them. -/
def member? : (fuel : Nat) → List Glyph →
    Option ((Quoted × Json) × List Glyph)
  | 0, _ => none
  | fuel + 1, gs =>
    match gs with
    | some '"' :: rest => do
      let (name, rest) ← quotedTail? rest
      match skipSpace rest with
      | some ':' :: rest => do
        let (x, rest) ← value? fuel (skipSpace rest)
        return ((name, x), rest)
      | _ => none
    | _ => none

/-- The members after the first one, up to and with the closing brace. -/
def members? : (fuel : Nat) → List Glyph →
    Option (List (Quoted × Json) × List Glyph)
  | 0, _ => none
  | fuel + 1, gs =>
    match skipSpace gs with
    | some '}' :: rest => some ([], rest)
    | some ',' :: rest => do
      let (m, rest) ← member? fuel (skipSpace rest)
      let (ms, rest) ← members? fuel rest
      return (m :: ms, rest)
    | _ => none

end

/-- Reads one value with nothing but white space around it; what follows must
not be anything else. -/
def read? (gs : List Glyph) : Option Json := do
  let (j, rest) ← value? (2 * gs.length + 2) (skipSpace gs)
  match skipSpace rest with
  | [] => some j
  | _ => none

end OpcSession.Json
