/-!
# Characters out of bytes

Bytes are read as UTF-8 one character at a time.  A byte that begins no
well-formed character stands for itself as a *stray* and reading goes on
behind it, so that text around it is still understood.  Well-formed means
the shortest encoding of a Unicode scalar value: no overlong forms, no
surrogates, nothing beyond the last plane.
-/

namespace OpcSession.Text

/-- One character of a text read from bytes; `none` is a stray byte. -/
abbrev Glyph := Option Char

/-- The six payload bits of a continuation byte, if the byte is one. -/
def continuation? (b : UInt8) : Option Nat :=
  if 0x80 ≤ b ∧ b ≤ 0xBF then some (b.toNat - 0x80) else none

/-- The scalar value made of a payload, if it needs at least `least`. -/
def scalar? (least value : Nat) : Option Char :=
  if h : least ≤ value ∧ value.isValidChar then
    some (Char.ofNatAux value h.2)
  else none

/-- The character at the head of the bytes and what follows it; overlong forms
and halves of pairs are none. -/
def headGlyph? : List UInt8 → Option (Char × List UInt8)
  | a :: rest =>
    if a < 0x80 then some (Char.ofNat a.toNat, rest)
    else if 0xC2 ≤ a ∧ a ≤ 0xDF then
      match rest with
      | b :: rest => do
        let b ← continuation? b
        let c ← scalar? 0x80 ((a.toNat - 0xC0) * 64 + b)
        return (c, rest)
      | _ => none
    else if 0xE0 ≤ a ∧ a ≤ 0xEF then
      match rest with
      | b :: c :: rest => do
        let b ← continuation? b
        let c ← continuation? c
        let d ← scalar? 0x800 (((a.toNat - 0xE0) * 64 + b) * 64 + c)
        return (d, rest)
      | _ => none
    else if 0xF0 ≤ a ∧ a ≤ 0xF4 then
      match rest with
      | b :: c :: d :: rest => do
        let b ← continuation? b
        let c ← continuation? c
        let d ← continuation? d
        let e ← scalar? 0x10000
          ((((a.toNat - 0xF0) * 64 + b) * 64 + c) * 64 + d)
        return (e, rest)
      | _ => none
    else none
  | [] => none

/-- Reads at most `fuel` glyphs.  A byte that begins no character is a stray
of its own. -/
def glyphsWithin : (fuel : Nat) → List UInt8 → List Glyph
  | 0, _ => []
  | _, [] => []
  | fuel + 1, a :: rest =>
    match headGlyph? (a :: rest) with
    | some (c, rest) => some c :: glyphsWithin fuel rest
    | none => none :: glyphsWithin fuel rest

/-- All bytes, as characters and strays, in their order. -/
def glyphs (bytes : List UInt8) : List Glyph := glyphsWithin bytes.length bytes

/-- A text as glyphs: it has no strays, since it is made of characters. -/
def glyphsOf (text : String) : List Glyph := text.toList.map some

end OpcSession.Text
