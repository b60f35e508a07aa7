import OpcSession.Proofs.NodeId.Cuts

/-!
# What is a node id

The texts of node ids have a grammar: an index and a semicolon at most, a letter for the kind,
an equals sign, and the value of that kind.  Numbers are numerals that are not too large, names
are any text, and bytes are pairs of digits.  The reader takes one more kind of pair: a plus
sign and a digit, which count as a byte by themselves.  Everything else is refused, so the texts
that are read are those of the grammar and those with such pairs.

* `HexPair`, `Piece` — pairs of digits, and the pairs that are read;
* `Value`, `Spells` — the grammar, with one or the other kind of pairs;
* `piece?_eq_some`, `pieces_iff`, `readIdentifier_eq_ok` — the parts of a text;
* `parse_eq_ok_iff` — what is read of a whole text;
* `read_iff_spelled` — how that differs from the grammar;
* `sign_read_as_digit` — that it does differ.
-/

namespace OpcSession.NodeId

open Text (HexDigit Numeral)

/-! ## The grammar -/

/-- Two hexadecimal digits stand for a byte, the higher half first, in either
case. -/
inductive HexPair : Char → Char → UInt8 → Prop
  /-- The first digit counts sixteen times. -/
  | digits {a b : Char} {high low : Nat} (hfirst : HexDigit a high) (hsecond : HexDigit b low) :
      HexPair a b (UInt8.ofNat (16 * high + low))

/-- Two hexadecimal digits, or one behind a plus sign, are read as a byte. -/
inductive Piece : Char → Char → UInt8 → Prop
  /-- Two digits, as the grammar has them. -/
  | pair {a b : Char} {byte : UInt8} (hpair : HexPair a b byte) : Piece a b byte
  /-- A plus sign and a digit, which the library reads as the number of the
  digit. -/
  | signed {b : Char} {low : Nat} (hdigit : HexDigit b low) : Piece '+' b (UInt8.ofNat low)

section

variable (Pair : Char → Char → UInt8 → Prop)

/-- Text in pairs, and the bytes that they stand for, for one or the other
kind of pair. -/
inductive Pairs : List Char → List UInt8 → Prop
  /-- No pairs stand for no bytes. -/
  | nil : Pairs [] []
  /-- A pair stands for the byte in front of the rest. -/
  | cons {a b : Char} {byte : UInt8} {cs : List Char} {bs : List UInt8} (hfirst : Pair a b byte)
      (hrest : Pairs cs bs) : Pairs (a :: b :: cs) (byte :: bs)

/-- The letter for the kind of an identifier, and what may stand behind the
equals sign. -/
inductive Value : Char → List Char → Identifier → Prop
  /-- A number of 32 bits, which may have a plus sign. -/
  | numeric {cs : List Char} {n : Nat} (hnumber : Numeral cs n) (hsmall : n ≤ 0xFFFFFFFF) :
      Value 'i' cs (.numeric (UInt32.ofNat n))
  /-- A name, which may be any text. -/
  | string (cs : List Char) : Value 's' cs (.string (String.ofList cs))
  /-- The same for a globally unique name; its form is not looked at. -/
  | guid (cs : List Char) : Value 'g' cs (.guid (String.ofList cs))
  | bytes {cs : List Char} {bs : List UInt8} (hpairs : Pairs Pair cs bs) : Value 'b' cs (.bytes bs)

/-- A text has the form of a node id: an identifier, in namespace zero, or one
behind the index of its namespace. -/
inductive Spells : List Char → NodeId → Prop
  /-- Without an index the namespace is zero. -/
  | plain {kind : Char} {value : List Char} {i : Identifier} (hreads : Value Pair kind value i) :
      Spells (kind :: '=' :: value) ⟨0, i⟩
  /-- An index of 16 bits and a semicolon stand before the rest. -/
  | indexed {number : List Char} {n : Nat} {kind : Char} {value : List Char} {i : Identifier}
      (hindex : Numeral number n) (hsmall : n ≤ 0xFFFF) (hreads : Value Pair kind value i) :
      Spells ('n' :: 's' :: '=' :: (number ++ ';' :: kind :: '=' :: value)) ⟨UInt16.ofNat n, i⟩

end

variable {Pair Pair' : Char → Char → UInt8 → Prop} {s : String} {n : NodeId} {i : Identifier}
  {a b c : Char} {byte : UInt8} {cs kind value : List Char} {bs : List UInt8}

/-! ## Pairs -/

/-- What is read as a piece is a piece, and every piece is read. -/
theorem piece?_eq_some : piece? a b = some byte ↔ Piece a b byte := by
  unfold piece?
  constructor
  · intro hread
    cases hlow : Text.hexValue? b with
    | none =>
        rw [hlow] at hread
        cases hread
    | some d =>
        have hdigit := Text.hexValue?_eq_some.mp hlow
        rw [hlow] at hread
        dsimp only at hread
        by_cases hsign : a = '+'
        · rw [if_pos hsign] at hread
          cases hread
          exact hsign ▸ .signed hdigit
        · rw [if_neg hsign] at hread
          obtain ⟨d', hhigh, rfl⟩ := Option.map_eq_some_iff.mp hread
          exact .pair (.digits (Text.hexValue?_eq_some.mp hhigh) hdigit)
  · rintro (⟨hfirst, hsecond⟩ | hdigit)
    · rw [Text.hexValue?_eq_some.mpr hsecond]
      dsimp only
      rw [if_neg hfirst.plain.2, Text.hexValue?_eq_some.mpr hfirst, Option.map_some]
    · rw [Text.hexValue?_eq_some.mpr hdigit]
      rfl

/-- A piece consists of two characters of a byte each. -/
theorem Piece.single (h : Piece a b byte) : a.utf8Size = 1 ∧ b.utf8Size = 1 := by
  rcases h with ⟨hfirst, hsecond⟩ | hdigit
  · exact ⟨hfirst.plain.1, hsecond.plain.1⟩
  · exact ⟨rfl, hdigit.plain.1⟩

/-- What is read in pieces of two bytes is text in pairs that are read. -/
theorem pieces_iff : Pieces cs bs ↔ Pairs Piece cs bs := by
  constructor
  · intro hpieces
    induction hpieces with
    | nil => exact .nil
    | cons _ hpiece _ ih => exact .cons (piece?_eq_some.mp hpiece) ih
  · intro hpairs
    induction hpairs with
    | nil => exact .nil
    | cons hfirst _ ih => exact .cons hfirst.single (piece?_eq_some.mpr hfirst) ih

/-- What is in pairs of one kind is in pairs of another that allows more. -/
theorem Pairs.mono (h : Pairs Pair cs bs)
    (hmore : ∀ a b byte, a ∈ cs → Pair a b byte → Pair' a b byte) : Pairs Pair' cs bs := by
  induction h with
  | nil => exact .nil
  | cons hfirst _ ih =>
      refine .cons (hmore _ _ _ List.mem_cons_self hfirst) (ih fun a b byte hmem => ?_)
      exact hmore a b byte (List.mem_cons_of_mem _ (List.mem_cons_of_mem _ hmem))

/-- Pairs of digits hold no sign, which is how the two kinds can be told
apart. -/
theorem Pairs.unsigned (h : Pairs HexPair cs bs) : '+' ∉ cs := by
  induction h with
  | nil => exact List.not_mem_nil
  | cons hfirst _ ih =>
      obtain ⟨hfirst, hsecond⟩ := hfirst
      exact List.not_mem_cons_of_ne_of_not_mem hfirst.plain.2.symm
        (List.not_mem_cons_of_ne_of_not_mem hsecond.plain.2.symm ih)

/-- Where there is no sign the pairs that are read are pairs of digits. -/
theorem Pairs.of_unsigned (h : Pairs Piece cs bs) (hunsigned : '+' ∉ cs) : Pairs HexPair cs bs :=
  h.mono fun a b byte hmem hpiece => by
    cases hpiece with
    | pair hpair => exact hpair
    | signed => exact absurd hmem hunsigned

/-! ## The parts of a text -/

/-- What is read as an identifier is one letter and a value of that kind, and
every such value is read. -/
theorem readIdentifier_eq_ok :
    readIdentifier s kind value = .ok i ↔ ∃ c, kind = [c] ∧ Value Piece c value i := by
  unfold readIdentifier
  constructor
  · intro hread
    split at hread
    · split at hread
      · rename_i n hnumber
        cases hread
        obtain ⟨hnumber, hsmall⟩ := Text.bounded?_eq_some.mp hnumber
        exact ⟨'i', rfl, .numeric hnumber hsmall⟩
      · cases hread
    · cases hread
      exact ⟨'s', rfl, .string value⟩
    · cases hread
      exact ⟨'g', rfl, .guid value⟩
    · split at hread
      · cases hread
      · split at hread
        · rename_i bs hbytes
          cases hread
          exact ⟨'b', rfl, .bytes (pieces_iff.mp (hexText_eq_bytes.mp hbytes))⟩
        · cases hread
        · cases hread
    · cases hread
  · rintro ⟨_, rfl, hreads⟩
    cases hreads with
    | numeric hnumber hsmall => simp only [Text.bounded?_eq_some.mpr ⟨hnumber, hsmall⟩]
    | string => rfl
    | guid => rfl
    | bytes hpairs =>
        have hpieces := pieces_iff.mpr hpairs
        have heven : byteLength value % 2 = 0 := by rw [hpieces.byteLength]; omega
        simp only [heven, hexText_eq_bytes.mpr hpieces, ne_eq, not_true_eq_false, if_false]

/-- **A text that has the form of a node id is in parts**: an index, a letter
and a value. -/
theorem spells_iff : Spells Pair cs n ↔ ∃ rest kind value,
    splitSpace? cs = some (n.space, rest) ∧ splitAt? '=' rest = some ([kind], value) ∧
      Value Pair kind value n.identifier := by
  have hletter : ∀ {kind value i}, Value Pair kind value i →
      splitAt? '=' (kind :: '=' :: value) = some ([kind], value) := by
    intro kind value i hreads
    refine splitAt?_eq_some.mpr ⟨rfl, ?_⟩
    cases hreads <;> simp
  constructor
  · intro hspelled
    cases hspelled with
    | @plain kind value i hreads =>
        have hunmarked : ¬ Indexed (kind :: '=' :: value) := by
          rintro ⟨rest, hmarked⟩
          simp at hmarked
        exact ⟨_, kind, value, splitSpace?_eq_some.mpr (.inl ⟨hunmarked, rfl, rfl⟩), hletter hreads,
          hreads⟩
    | @indexed number k kind value i hindex hsmall hreads =>
        have hseparate : ';' ∉ number := hindex.not_mem (by decide) (by decide)
        have hread := Text.bounded?_eq_some.mpr ⟨hindex, hsmall⟩
        exact ⟨_, kind, value,
          splitSpace?_eq_some.mpr (.inr ⟨number, k, rfl, hseparate, hread, rfl⟩),
            hletter hreads, hreads⟩
  · obtain ⟨space, i⟩ := n
    rintro ⟨rest, kind, value, hindex, hparts, hreads⟩
    obtain ⟨rfl, -⟩ := splitAt?_eq_some.mp hparts
    rcases splitSpace?_eq_some.mp hindex with ⟨-, rfl, rfl⟩ | ⟨number, k, rfl, -, hread, rfl⟩
    · exact .plain hreads
    · obtain ⟨hnumber, hsmall⟩ := Text.bounded?_eq_some.mp hread
      exact .indexed hnumber hsmall hreads

/-- **What is read is what is spelled**, with the pairs that are read. -/
theorem parse_eq_ok_iff : parse s = .ok n ↔ Spells Piece s.toList n := by
  rw [spells_iff]
  constructor
  · intro hread
    by_cases hwhole : ∀ space rest, splitSpace? s.toList = some (space, rest) →
        splitAt? '=' rest = none
    · rw [parse_of_no_parts hwhole] at hread
      cases hread
    · simp only [not_forall] at hwhole
      obtain ⟨space, rest, hindex, hsplit⟩ := hwhole
      obtain ⟨⟨kind, value⟩, hparts⟩ := Option.ne_none_iff_exists'.mp hsplit
      rw [parse_of_parts hindex hparts] at hread
      cases hidentifier : readIdentifier s kind value with
      | error e =>
          rw [hidentifier] at hread
          cases hread
      | ok i =>
          rw [hidentifier] at hread
          cases hread
          obtain ⟨c, rfl, hreads⟩ := readIdentifier_eq_ok.mp hidentifier
          exact ⟨rest, c, value, hindex, hparts, hreads⟩
  · rintro ⟨rest, kind, value, hindex, hparts, hreads⟩
    rw [parse_of_parts hindex hparts, readIdentifier_eq_ok.mpr ⟨kind, rfl, hreads⟩]
    rfl

/-! ## What is read beside the grammar -/

/-- Other pairs make a difference to bytes only; numbers and names have no
pairs. -/
theorem Value.mono (h : Value Pair c value i)
    (hbytes : ∀ bs, c = 'b' → Pairs Pair value bs → Pairs Pair' value bs) :
    Value Pair' c value i := by
  cases h with
  | numeric hnumber hsmall => exact .numeric hnumber hsmall
  | string => exact .string value
  | guid => exact .guid value
  | bytes hpairs => exact .bytes (hbytes _ rfl hpairs)

/-- A text of the grammar is read, for pairs of digits are pieces. -/
theorem Spells.read (h : Spells HexPair cs n) : Spells Piece cs n := by
  obtain ⟨rest, kind, value, hindex, hparts, hreads⟩ := spells_iff.mp h
  refine spells_iff.mpr ⟨rest, kind, value, hindex, hparts, hreads.mono fun _ _ hpairs => ?_⟩
  exact hpairs.mono fun _ _ _ _ => .pair

/-- No sign stands among the digits of a text of the grammar. -/
theorem Spells.unsigned (h : Spells HexPair s.toList n) (hbytes : HexAt s value) :
    '+' ∉ value := by
  obtain ⟨rest, kind, value', hindex, hparts, hreads⟩ := spells_iff.mp h
  obtain ⟨space, rest', hindex', hparts'⟩ := hexAt_iff.mp hbytes
  cases hindex.symm.trans hindex'
  cases hparts.symm.trans hparts'
  generalize n.identifier = i at hreads
  cases hreads with
  | bytes hpairs => exact hpairs.unsigned

/-- What is read is of the grammar if no sign stands among the digits. -/
theorem Spells.of_unsigned (h : Spells Piece s.toList n)
    (hunsigned : ∀ value, HexAt s value → '+' ∉ value) : Spells HexPair s.toList n := by
  obtain ⟨rest, kind, value, hindex, hparts, hreads⟩ := spells_iff.mp h
  refine spells_iff.mpr ⟨rest, kind, value, hindex, hparts, hreads.mono ?_⟩
  rintro bs rfl hpairs
  exact hpairs.of_unsigned (hunsigned value (hexAt_iff.mpr ⟨_, rest, hindex, hparts⟩))

/-- **A node id is read from the texts of its grammar, and from texts of bytes
in which a sign stands for a digit.**  Whatever the text, it is read as a node
id exactly where it has the form of that, if a plus sign and a digit count as
a pair; and it has that form with pairs of digits alone exactly where it is
read and no sign is in its text of bytes. -/
theorem read_iff_spelled (s : String) (n : NodeId) :
    (parse s = .ok n ↔ Spells Piece s.toList n) ∧
      (Spells HexPair s.toList n ↔ parse s = .ok n ∧ ∀ value, HexAt s value → '+' ∉ value) :=
  ⟨parse_eq_ok_iff, fun hspelled => ⟨parse_eq_ok_iff.mpr hspelled.read, fun _ => hspelled.unsigned⟩,
    fun ⟨hread, hunsigned⟩ => (parse_eq_ok_iff.mp hread).of_unsigned hunsigned⟩

/-- **A sign is read as a digit.**  It is not so that of texts of ASCII
characters those of the grammar are read and no others: here a byte is written
as a sign and one digit. -/
theorem sign_read_as_digit :
    ¬ ∀ s : String, (∀ c ∈ s.toList, c.toNat < 128) →
      ∀ n, parse s = .ok n ↔ Spells HexPair s.toList n := by
  intro hclaim
  have hread : parse "b=+f" = .ok ⟨0, .bytes [15]⟩ := by decide +kernel
  have hspelled := (hclaim "b=+f" (by simp) _).mp hread
  have hbytes : HexAt "b=+f" ['+', 'f'] := .inl (by decide)
  exact hspelled.unsigned hbytes List.mem_cons_self

end OpcSession.NodeId
