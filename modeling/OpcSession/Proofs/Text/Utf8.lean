import Mathlib.Tactic.Common
import OpcSession.Text.Utf8

/-!
# Encoded text has no strays

The library encodes a text by one to four bytes for each character.  Read as
glyphs, these bytes are the characters of the text and nothing else.

* `headGlyph?_encoded` — the encoding of one character is read as the character;
* `glyphs_encoded` — the encoding of a text is read as the text.
-/

namespace OpcSession.Text

/-! ## Bytes by their numbers -/

/-- A number below 256 is the value of its byte. -/
theorem byte_toNat {n : Nat} (h : n < 256) : (UInt8.ofNat n).toNat = n := by
  rw [UInt8.toNat_ofNat', Nat.mod_eq_of_lt h]

/-- Bytes compare as their values do, with a number to the left. -/
theorem byte_le {n : Nat} {b : UInt8} (h : n < 256) : UInt8.ofNat n ≤ b ↔ n ≤ b.toNat := by
  rw [UInt8.le_iff_toNat_le, byte_toNat h]

/-- Bytes compare as their values do, with a number to the right. -/
theorem le_byte {n : Nat} {b : UInt8} (h : n < 256) : b ≤ UInt8.ofNat n ↔ b.toNat ≤ n := by
  rw [UInt8.le_iff_toNat_le, byte_toNat h]

/-- A byte lies above a number if its value does. -/
theorem byte_lt {n : Nat} {b : UInt8} (h : n < 256) : UInt8.ofNat n < b ↔ n < b.toNat := by
  rw [UInt8.lt_iff_toNat_lt, byte_toNat h]

/-- The six bits of a continuation byte are read from it. -/
theorem continuation?_byte {n : Nat} (h : n < 64) :
    continuation? (UInt8.ofNat (n + 128)) = some n := by
  have hlow : (0x80 : UInt8) ≤ UInt8.ofNat (n + 128) :=
    (le_byte (by omega)).mpr (show 0x80 ≤ _ by omega)
  have hhigh : UInt8.ofNat (n + 128) ≤ 0xBF :=
    (byte_le (by omega)).mpr (show _ ≤ 0xBF by omega)
  rw [continuation?, if_pos ⟨hlow, hhigh⟩, byte_toNat (by omega), Nat.add_sub_cancel]

/-- The value of a character is a scalar, if it is not too small for the
length that it was written in. -/
theorem scalar?_toNat {least : Nat} {c : Char} (h : least ≤ c.toNat) :
    scalar? least c.toNat = some c := by
  have hsame : Char.ofNat c.toNat = Char.ofNatAux c.toNat c.valid := dif_pos c.valid
  rw [scalar?, dif_pos ⟨h, c.valid⟩, ← hsame, Char.ofNat_toNat]

/-- No character has a value of more than 21 bits, so four bytes are
enough. -/
theorem toNat_lt_limit (c : Char) : c.toNat < 0x110000 := by
  rcases c.valid with h | ⟨-, h⟩
  · exact Nat.lt_trans h (by decide)
  · exact h

/-! ## One character -/

section Lead

variable {n : Nat} {rest : List UInt8}

/-! What the first byte says about the length of an encoding. -/

theorem headGlyph?_single (h : n < 0x80) :
    headGlyph? (UInt8.ofNat n :: rest) = some (Char.ofNat n, rest) := by
  have hascii : UInt8.ofNat n < 0x80 := (byte_lt (by omega)).mpr h
  simp only [headGlyph?, if_pos hascii, byte_toNat (show n < 256 by omega)]

/-- A leading byte of two takes one continuation byte, with five and six bits
of the value. -/
theorem headGlyph?_pair {b : UInt8} (hlow : 2 ≤ n) (hhigh : n < 32) :
    headGlyph? (UInt8.ofNat (n + 192) :: b :: rest) =
      (continuation? b).bind fun b => (scalar? 0x80 (n * 64 + b)).map (·, rest) := by
  have hnotAscii : ¬ UInt8.ofNat (n + 192) < 0x80 := by
    rw [byte_lt (by omega)]
    exact Nat.not_lt.mpr (show 0x80 ≤ _ by omega)
  have htwo : 0xC2 ≤ UInt8.ofNat (n + 192) ∧ UInt8.ofNat (n + 192) ≤ 0xDF :=
    ⟨(le_byte (by omega)).mpr (show 0xC2 ≤ _ by omega),
      (byte_le (by omega)).mpr (show _ ≤ 0xDF by omega)⟩
  rw [headGlyph?, if_neg hnotAscii, if_pos htwo, byte_toNat (by omega)]
  simp only [Nat.add_sub_cancel, Option.bind_eq_bind, Option.pure_def, Option.map_eq_bind]
  rfl

theorem headGlyph?_triple {b c : UInt8} (hhigh : n < 16) :
    headGlyph? (UInt8.ofNat (n + 224) :: b :: c :: rest) =
      (continuation? b).bind fun b => (continuation? c).bind fun c =>
        (scalar? 0x800 ((n * 64 + b) * 64 + c)).map (·, rest) := by
  have hnotAscii : ¬ UInt8.ofNat (n + 224) < 0x80 := by
    rw [byte_lt (by omega)]
    exact Nat.not_lt.mpr (show 0x80 ≤ _ by omega)
  have hnotTwo : ¬ (0xC2 ≤ UInt8.ofNat (n + 224) ∧ UInt8.ofNat (n + 224) ≤ 0xDF) := by
    rw [byte_le (by omega)]
    exact fun h => absurd h.2 (Nat.not_le.mpr (show 0xDF < _ by omega))
  have hthree : 0xE0 ≤ UInt8.ofNat (n + 224) ∧ UInt8.ofNat (n + 224) ≤ 0xEF :=
    ⟨(le_byte (by omega)).mpr (show 0xE0 ≤ _ by omega),
      (byte_le (by omega)).mpr (show _ ≤ 0xEF by omega)⟩
  rw [headGlyph?, if_neg hnotAscii, if_neg hnotTwo, if_pos hthree, byte_toNat (by omega)]
  simp only [Nat.add_sub_cancel, Option.bind_eq_bind, Option.pure_def, Option.map_eq_bind]
  rfl

theorem headGlyph?_quadruple {b c d : UInt8} (hhigh : n < 5) :
    headGlyph? (UInt8.ofNat (n + 240) :: b :: c :: d :: rest) =
      (continuation? b).bind fun b => (continuation? c).bind fun c =>
        (continuation? d).bind fun d =>
          (scalar? 0x10000 (((n * 64 + b) * 64 + c) * 64 + d)).map (·, rest) := by
  have hnotAscii : ¬ UInt8.ofNat (n + 240) < 0x80 := by
    rw [byte_lt (by omega)]
    exact Nat.not_lt.mpr (show 0x80 ≤ _ by omega)
  have hnotTwo : ¬ (0xC2 ≤ UInt8.ofNat (n + 240) ∧ UInt8.ofNat (n + 240) ≤ 0xDF) := by
    rw [byte_le (by omega)]
    exact fun h => absurd h.2 (Nat.not_le.mpr (show 0xDF < _ by omega))
  have hnotThree : ¬ (0xE0 ≤ UInt8.ofNat (n + 240) ∧ UInt8.ofNat (n + 240) ≤ 0xEF) := by
    rw [byte_le (by omega)]
    exact fun h => absurd h.2 (Nat.not_le.mpr (show 0xEF < _ by omega))
  have hfour : 0xF0 ≤ UInt8.ofNat (n + 240) ∧ UInt8.ofNat (n + 240) ≤ 0xF4 :=
    ⟨(le_byte (by omega)).mpr (show 0xF0 ≤ _ by omega),
      (byte_le (by omega)).mpr (show _ ≤ 0xF4 by omega)⟩
  rw [headGlyph?, if_neg hnotAscii, if_neg hnotTwo, if_neg hnotThree, if_pos hfour,
    byte_toNat (by omega)]
  simp only [Nat.add_sub_cancel, Option.bind_eq_bind, Option.pure_def, Option.map_eq_bind]
  rfl

end Lead

/-- **The encoding of a character is read as the character**, whichever of the
four lengths it has. -/
theorem headGlyph?_encoded (c : Char) (rest : List UInt8) :
    headGlyph? (String.utf8EncodeChar c ++ rest) = some (c, rest) := by
  have hlimit := toNat_lt_limit c
  have hcode : c.val.toNat = c.toNat := rfl
  unfold String.utf8EncodeChar
  simp only [hcode]
  by_cases hone : c.toNat ≤ 127
  · rw [if_pos hone, List.singleton_append, headGlyph?_single (by omega), Char.ofNat_toNat]
  by_cases htwo : c.toNat ≤ 2047
  · have hvalue : c.toNat / 64 % 32 * 64 + c.toNat % 64 = c.toNat := by omega
    rw [if_neg hone, if_pos htwo, List.cons_append, List.singleton_append,
      headGlyph?_pair (by omega) (by omega), continuation?_byte (by omega), Option.bind_some,
      hvalue, scalar?_toNat (by omega), Option.map_some]
  by_cases hthree : c.toNat ≤ 65535
  · have hvalue : (c.toNat / 4096 % 16 * 64 + c.toNat / 64 % 64) * 64 + c.toNat % 64
        = c.toNat := by omega
    rw [if_neg hone, if_neg htwo, if_pos hthree, List.cons_append, List.cons_append,
      List.singleton_append, headGlyph?_triple (by omega), continuation?_byte (by omega),
      Option.bind_some, continuation?_byte (by omega), Option.bind_some, hvalue,
      scalar?_toNat (by omega), Option.map_some]
  · have hvalue : ((c.toNat / 262144 % 8 * 64 + c.toNat / 4096 % 64) * 64
        + c.toNat / 64 % 64) * 64 + c.toNat % 64 = c.toNat := by omega
    rw [if_neg hone, if_neg htwo, if_neg hthree, List.cons_append, List.cons_append,
      List.cons_append, List.singleton_append, headGlyph?_quadruple (by omega),
      continuation?_byte (by omega), Option.bind_some, continuation?_byte (by omega),
      Option.bind_some, continuation?_byte (by omega), Option.bind_some, hvalue,
      scalar?_toNat (by omega), Option.map_some]

/-- No character is encoded as nothing, so each that is read makes the rest
shorter. -/
theorem encoded_ne_nil (c : Char) : String.utf8EncodeChar c ≠ [] := by
  unfold String.utf8EncodeChar
  simp only
  split_ifs <;> exact List.cons_ne_nil _ _

/-! ## A whole text -/

/-- Enough fuel for every byte is enough to read all the characters; by
induction on them. -/
theorem glyphsWithin_encoded (cs : List Char) (fuel : Nat)
    (henough : (cs.flatMap String.utf8EncodeChar).length ≤ fuel) :
    glyphsWithin fuel (cs.flatMap String.utf8EncodeChar) = cs.map some := by
  induction cs generalizing fuel with
  | nil => cases fuel <;> rfl
  | cons c cs ih =>
      have hfirst := headGlyph?_encoded c (cs.flatMap String.utf8EncodeChar)
      obtain ⟨b, bs, hbytes⟩ := List.exists_cons_of_ne_nil (encoded_ne_nil c)
      rw [List.flatMap_cons, hbytes, List.cons_append] at henough ⊢
      rw [hbytes, List.cons_append] at hfirst
      cases fuel with
      | zero => simp at henough
      | succ fuel =>
          have hrest := ih fuel (by rw [List.length_cons, List.length_append] at henough; omega)
          rw [glyphsWithin, hfirst, List.map_cons]
          exact congrArg (some c :: ·) hrest

/-- **The encoding of a text is read as the text**, and no byte of it as a
stray. -/
theorem glyphs_encoded (s : String) : glyphs s.toUTF8.data.toList = glyphsOf s := by
  have hbytes : s.toUTF8.data.toList = s.toList.flatMap String.utf8EncodeChar := by
    have hencoded : s.toUTF8 = s.toList.utf8Encode := by
      rw [← String.toByteArray_ofList, String.ofList_toList]
      rfl
    rw [hencoded, List.utf8Encode]
    simp
  rw [hbytes, glyphs]
  exact glyphsWithin_encoded s.toList _ (Nat.le_refl _)

end OpcSession.Text
