import OpcSession.Json.Printer
import OpcSession.Proofs.Json.Numeral

/-!
# Written values are read back

The writers of messages make values whose numbers are numerals and whose
texts are texts.  The text of such a value is read back as the value: quoted
text by its pieces, lists and records by induction on the value, with the
length of the text as fuel.

* `quotedTail?_escapedText` — quoted text is read back;
* `Reads` and `Written.reads` — a value in front of what may follow it;
* `read?_render` — the text of a whole value is read back.
-/

namespace OpcSession.Json

open OpcSession.Text (Glyph IsDigit)

/-! ## Quoted text -/

/-- The piece that the escape of a character is.  Control characters without a
letter of their own are written as code units, all others stand for
themselves. -/
def pieceOf (c : Char) : Piece :=
  if c.toNat < 32 ∧ c.toNat ≠ 8 ∧ c.toNat ≠ 9 ∧ c.toNat ≠ 10 ∧ c.toNat ≠ 12 ∧ c.toNat ≠ 13 then
    .codeUnit c.toNat
  else .char c

/-- Putting the pieces together gives the character back, since no escape that
is written is half of a pair. -/
theorem assemble?_pieceOf (c : Char) (ps : List Piece) :
    assemble? (pieceOf c :: ps) = (assemble? ps).map (c :: ·) := by
  unfold pieceOf
  split
  · next hcontrol =>
      have hbelow : c.toNat < 0xD800 ∨ 0xDFFF < c.toNat := by omega
      rw [assemble?.eq_def]
      simp only [if_pos hbelow, Char.ofNat_toNat]
  · rw [assemble?]

/-- Characters with the same number are the same, which settles the escapes
that are found by their number. -/
theorem char_eq {c d : Char} (h : c.toNat = d.toNat) : c = d := by
  rw [← Char.ofNat_toNat c, h, Char.ofNat_toNat]

/-- A character that needs no escape is read as it is; only the quote, the
backslash and control characters need one. -/
theorem pieces?_plain {c : Char} (hquote : c ≠ '"') (hbackslash : c ≠ '\\')
    (hcontrol : ¬ c.toNat < 32) (fuel : Nat) (gs : List Glyph) :
    pieces? (fuel + 1) (some c :: gs) =
      (pieces? fuel gs).map fun (ps, rest) => (.char c :: ps, rest) := by
  rw [pieces?, if_neg hcontrol]
  · cases pieces? fuel gs <;> rfl
  · exact hquote
  · exact hbackslash

/-- The escape of a character is read as one piece, whichever of the three
ways of writing it was taken. -/
theorem pieces?_escaped (c : Char) (fuel : Nat) (gs : List Glyph) :
    pieces? (fuel + 1) ((escaped c).map some ++ gs) =
      (pieces? fuel gs).map fun (ps, rest) => (pieceOf c :: ps, rest) := by
  have hrun : ∀ d : Char, (pieces? fuel gs).map (fun (ps, rest) => (Piece.char d :: ps, rest)) =
      (do let (ps, rest) ← pieces? fuel gs
          return (.char d :: ps, rest)) := fun d => by
    cases pieces? fuel gs <;> rfl
  unfold escaped
  by_cases hquote : c = '"'
  · subst hquote
    exact (hrun _).symm
  by_cases hbackslash : c = '\\'
  · subst hbackslash
    exact (hrun _).symm
  rw [if_neg hquote, if_neg hbackslash]
  by_cases hbackspace : c.toNat = 8
  · obtain rfl := char_eq (d := '\x08') hbackspace
    exact (hrun _).symm
  by_cases hformFeed : c.toNat = 12
  · obtain rfl := char_eq (d := '\x0c') hformFeed
    exact (hrun _).symm
  by_cases hlineFeed : c.toNat = 10
  · obtain rfl := char_eq (d := '\n') hlineFeed
    exact (hrun _).symm
  by_cases hcarriage : c.toNat = 13
  · obtain rfl := char_eq (d := '\r') hcarriage
    exact (hrun _).symm
  by_cases htab : c.toNat = 9
  · obtain rfl := char_eq (d := '\t') htab
    exact (hrun _).symm
  rw [if_neg hbackspace, if_neg hformFeed, if_neg hlineFeed, if_neg hcarriage, if_neg htab]
  by_cases hcontrol : c.toNat < 32
  · have hhigh := Text.hexValue?_hexDigit (show c.toNat / 16 < 16 by omega)
    have hlow := Text.hexValue?_hexDigit (show c.toNat % 16 < 16 by omega)
    have hzero : Text.hexValue? '0' = some 0 := rfl
    have hvalue : ((0 * 16 + 0) * 16 + c.toNat / 16) * 16 + c.toNat % 16 = c.toNat := by omega
    have hpiece : pieceOf c = .codeUnit c.toNat :=
      if_pos ⟨hcontrol, hbackspace, htab, hlineFeed, hformFeed, hcarriage⟩
    rw [if_pos hcontrol, hpiece]
    simp only [List.map_cons, List.map_nil, List.cons_append, List.nil_append, pieces?, unit?,
      hzero, hhigh, hlow, Option.bind_eq_bind, Option.bind_some, Option.pure_def, hvalue]
    cases pieces? fuel gs <;> rfl
  · have hpiece : pieceOf c = .char c := if_neg fun h => hcontrol h.1
    have hplain := pieces?_plain hquote hbackslash hcontrol fuel gs
    rw [if_neg hcontrol, hpiece, List.map_singleton, List.singleton_append, hplain]

/-- An escape has a character at least, which is what the fuel of the reader
counts. -/
theorem escaped_length (c : Char) : 1 ≤ (escaped c).length := by
  unfold escaped
  split_ifs <;> exact Nat.le_add_left 1 _

/-- Escaped text is read piece by piece up to the quote that ends it, with its
length as fuel. -/
theorem pieces?_escapedText (cs : List Char) (fuel : Nat) (rest : List Glyph)
    (henough : (escapedText cs).length ≤ fuel) :
    ∃ ps, pieces? fuel ((escapedText cs).map some ++ rest) = some (ps, rest) ∧
      assemble? ps = some cs := by
  induction cs generalizing fuel with
  | nil =>
      obtain ⟨fuel, rfl⟩ : ∃ k, fuel = k + 1 := ⟨fuel - 1, by simp [escapedText] at henough; omega⟩
      exact ⟨[], rfl, rfl⟩
  | cons c cs ih =>
      have hone := escaped_length c
      rw [escapedText, List.length_append] at henough
      obtain ⟨fuel, rfl⟩ : ∃ k, fuel = k + 1 := ⟨fuel - 1, by omega⟩
      obtain ⟨ps, hread, htext⟩ := ih fuel (by omega)
      refine ⟨pieceOf c :: ps, ?_, ?_⟩
      · rw [escapedText, List.map_append, List.append_assoc, pieces?_escaped, hread]
        rfl
      · rw [assemble?_pieceOf, htext]
        rfl

/-- **Quoted text is read back.**  The reader stands behind the opening quote
and goes on behind the closing one. -/
theorem quotedTail?_escapedText (s : String) (rest : List Glyph) :
    quotedTail? ((escapedText s.toList).map some ++ rest) = some (some s, rest) := by
  obtain ⟨ps, hread, htext⟩ := pieces?_escapedText s.toList
    ((escapedText s.toList).map some ++ rest).length rest (by simp)
  rw [quotedTail?, hread, Option.map_some]
  simp only [htext, Option.map_some, String.ofList_toList]

/-! ## Values as they are written -/

/-- A value as it is written in messages, with at most `depth` brackets open:
numbers are numerals within the range of doubles, and every text is one. -/
inductive Written : (depth : Nat) → Json → Prop
  /-- The value for what is absent. -/
  | null {n : Nat} : Written n .null
  | bool {n : Nat} (b : Bool) : Written n (.bool b)
  /-- A number, written as a numeral that the reader finds in the range of
  doubles. -/
  | num {n : Nat} (m : Numeral) (hrange : (double? (String.ofList m.chars)).isSome) :
      Written n (.num (String.ofList m.chars))
  /-- A text without half pairs, as all texts of messages are. -/
  | text {n : Nat} (s : String) : Written n (.text s)
  /-- A list one bracket deeper than its items. -/
  | arr {n : Nat} {items : List Json} (hwritten : ∀ x ∈ items, Written n x) :
      Written (n + 1) (.arr items)
  /-- A record one bracket deeper than its members. -/
  | record {n : Nat} {members : List (String × Json)}
      (hwritten : ∀ m ∈ members, Written n m.2) : Written (n + 1) (.record members)

/-- What is written with few brackets is written with more. -/
theorem Written.mono {n m : Nat} {j : Json} (hwritten : Written n j) (hle : n ≤ m) :
    Written m j := by
  induction hwritten generalizing m with
  | null => exact .null
  | bool b => exact .bool b
  | num l hrange => exact .num l hrange
  | text s => exact .text s
  | arr _ ih =>
      obtain ⟨m, rfl⟩ : ∃ k, m = k + 1 := ⟨m - 1, by omega⟩
      exact .arr fun x hx => ih x hx (by omega)
  | record _ ih =>
      obtain ⟨m, rfl⟩ : ∃ k, m = k + 1 := ⟨m - 1, by omega⟩
      exact .record fun x hx => ih x hx (by omega)

/-- The items of a list that is written are sound and no deeper than the
bound. -/
theorem sound_items {n : Nat} {items : List Json}
    (hall : ∀ x ∈ items, x.sound = true ∧ x.height ≤ n) :
    soundItems items = true ∧ heightItems items ≤ n := by
  induction items with
  | nil => exact ⟨rfl, Nat.zero_le _⟩
  | cons x xs ih =>
      have hhead := hall x List.mem_cons_self
      have hrest := ih fun y hy => hall y (List.mem_cons_of_mem x hy)
      rw [soundItems, heightItems, hhead.1, hrest.1]
      exact ⟨rfl, Nat.max_le.mpr ⟨hhead.2, hrest.2⟩⟩

/-- The members of a record, with their names as the reader knows them: quoted
texts that could be read. -/
def named (members : List (String × Json)) : List (Quoted × Json) :=
  members.map fun (name, value) => (some name, value)

/-- The members of a record that is written are sound and no deeper than the
bound. -/
theorem sound_members {n : Nat} {members : List (String × Json)}
    (hall : ∀ m ∈ members, m.2.sound = true ∧ m.2.height ≤ n) :
    soundMembers (named members) = true ∧ heightMembers (named members) ≤ n := by
  induction members with
  | nil => exact ⟨rfl, Nat.zero_le _⟩
  | cons m ms ih =>
      have hhead := hall m List.mem_cons_self
      have hrest := ih fun y hy => hall y (List.mem_cons_of_mem m hy)
      rw [named, List.map_cons, soundMembers, heightMembers, ← named, hhead.1, hrest.1]
      exact ⟨rfl, Nat.max_le.mpr ⟨hhead.2, hrest.2⟩⟩

/-- **A written value can be held**: all its parts can be read, and it has no
more brackets than it says. -/
theorem Written.sound_height {n : Nat} {j : Json} (hwritten : Written n j) :
    j.sound = true ∧ j.height ≤ n := by
  induction hwritten with
  | null => exact ⟨rfl, Nat.zero_le _⟩
  | bool b => exact ⟨rfl, Nat.zero_le _⟩
  | num m hrange => exact ⟨hrange, Nat.zero_le _⟩
  | text s => exact ⟨rfl, Nat.zero_le _⟩
  | arr _ ih =>
      have hall := sound_items ih
      rw [sound, height]
      exact ⟨hall.1, Nat.succ_le_succ hall.2⟩
  | record _ ih =>
      have hall := sound_members ih
      rw [Json.record, sound, height, ← named]
      exact ⟨hall.1, Nat.succ_le_succ hall.2⟩

/-! ## The front of a value -/

/-- A character that begins a value: no white space and no closing bracket. -/
def Opening (c : Char) : Prop :=
  c ≠ ' ' ∧ c ≠ '\t' ∧ c ≠ '\n' ∧ c ≠ '\r' ∧ c ≠ ']' ∧ c ≠ '\x7d'

instance (c : Char) : Decidable (Opening c) := inferInstanceAs (Decidable (_ ∧ _))

/-- A number begins with an opening character, be it a sign or a digit. -/
theorem opening_of_digit {c : Char} (h : c = '-' ∨ IsDigit c) : Opening c := by
  rcases h with rfl | hdigit
  · decide
  · refine ⟨?_, ?_, ?_, ?_, ?_, ?_⟩
    all_goals
      rintro rfl
      exact absurd hdigit (by decide)

/-- White space is skipped up to an opening character, so there is none to
skip in front of a value. -/
theorem skipSpace_opening {c : Char} (hopening : Opening c) (gs : List Glyph) :
    skipSpace (some c :: gs) = some c :: gs := by
  have hvisible : ¬ (c = ' ' ∨ c = '\t' ∨ c = '\n' ∨ c = '\r') := by
    rintro (h | h | h | h)
    · exact hopening.1 h
    · exact hopening.2.1 h
    · exact hopening.2.2.1 h
    · exact hopening.2.2.2.1 h
  exact if_neg hvisible

/-- The text of a value begins with an opening character: no white space is
skipped in front of it, and no closing bracket is seen in its place. -/
theorem Written.chars_head {n : Nat} {j : Json} (hwritten : Written n j) :
    ∃ c cs, j.chars = c :: cs ∧ Opening c := by
  cases hwritten with
  | null => exact ⟨'n', _, rfl, by decide⟩
  | bool b => cases b <;> exact ⟨_, _, rfl, by decide⟩
  | num m hrange =>
      obtain ⟨c, cs, htext, hhead⟩ := m.chars_head
      refine ⟨c, cs, ?_, opening_of_digit hhead⟩
      rw [chars, String.toList_ofList, htext]
  | text s => exact ⟨'"', _, rfl, by decide⟩
  | @arr _ items _ =>
      cases items with
      | nil => exact ⟨'[', _, rfl, by decide⟩
      | cons x xs => exact ⟨'[', _, rfl, by decide⟩
  | @record _ members _ =>
      cases members with
      | nil => exact ⟨'\x7b', _, rfl, by decide⟩
      | cons m ms => exact ⟨'\x7b', _, rfl, by decide⟩

/-! ## Reading -/

/-- A value is read back from its text in front of what may follow it. -/
def Reads (j : Json) : Prop :=
  ∀ (fuel : Nat) (rest : List Glyph), j.chars.length ≤ fuel → Ahead Closing rest →
    value? fuel (j.chars.map some ++ rest) = some (j, rest)

/-- What follows an item of a list is a comma or a bracket. -/
theorem ahead_items (items : List Json) (rest : List Glyph) :
    Ahead Closing ((charsItems items).map some ++ rest) := by
  cases items with
  | nil => exact .inr (.inl rfl)
  | cons x xs => exact .inl rfl

/-- What follows a member of a record is a comma or a brace. -/
theorem ahead_members (members : List (String × Json)) (rest : List Glyph) :
    Ahead Closing ((charsMembers (named members)).map some ++ rest) := by
  cases members with
  | nil => exact .inr (.inr rfl)
  | cons x xs => exact .inl rfl

/-- Within brackets a value is read with or without white space in front. -/
theorem Reads.spaced {n : Nat} {j : Json} (hreads : Reads j) (hwritten : Written n j) {fuel : Nat}
    {rest : List Glyph} (henough : j.chars.length ≤ fuel) (hahead : Ahead Closing rest) :
    value? fuel (skipSpace (j.chars.map some ++ rest)) = some (j, rest) := by
  obtain ⟨c, cs, htext, hopening⟩ := hwritten.chars_head
  have hread := hreads fuel rest henough hahead
  rw [htext, List.map_cons, List.cons_append] at hread ⊢
  rw [skipSpace_opening hopening, hread]

/-- The items after the first are read back, with their bracket.  Each is
followed by a comma or the bracket, which ends whatever number it may be. -/
theorem items?_charsItems {n : Nat} {items : List Json}
    (hall : ∀ x ∈ items, Written n x ∧ Reads x) (fuel : Nat) (rest : List Glyph)
    (henough : (charsItems items).length ≤ fuel) :
    items? fuel ((charsItems items).map some ++ rest) = some (items, rest) := by
  induction items generalizing fuel with
  | nil =>
      obtain ⟨fuel, rfl⟩ : ∃ k, fuel = k + 1 := ⟨fuel - 1, by simp [charsItems] at henough; omega⟩
      rfl
  | cons x xs ih =>
      have hhead := hall x List.mem_cons_self
      simp only [charsItems, List.cons_append, List.length_cons, List.length_append] at henough
      obtain ⟨fuel, rfl⟩ : ∃ k, fuel = k + 1 := ⟨fuel - 1, by omega⟩
      have hfirst := hhead.2.spaced hhead.1 (show x.chars.length ≤ fuel by omega)
        (ahead_items xs rest)
      have htail := ih (fun y hy => hall y (List.mem_cons_of_mem x hy)) fuel (by omega)
      simp only [charsItems, List.cons_append, List.map_cons, List.map_append, List.append_assoc]
      rw [items?, skipSpace_opening (by decide)]
      simp only [hfirst, htail, Option.bind_eq_bind, Option.bind_some]
      rfl

/-- A member is read back: its name, the colon and its value, which the reader
asks for in this order. -/
theorem member?_chars {n : Nat} (name : String) {x : Json} (hwritten : Written n x)
    (hreads : Reads x) (fuel : Nat) (rest : List Glyph)
    (henough : (quoted (some name)).length + x.chars.length ≤ fuel)
    (hahead : Ahead Closing rest) :
    member? fuel ((quoted (some name)).map some ++ (some ':' :: (x.chars.map some ++ rest))) =
      some ((some name, x), rest) := by
  rw [quoted, List.length_cons] at henough
  obtain ⟨fuel, rfl⟩ : ∃ k, fuel = k + 1 := ⟨fuel - 1, by omega⟩
  have htext := quotedTail?_escapedText name (some ':' :: (x.chars.map some ++ rest))
  have hvalue := hreads.spaced hwritten (show x.chars.length ≤ fuel by omega) hahead
  rw [quoted, List.map_cons, List.cons_append, member?]
  simp only [Option.getD_some, htext, Option.bind_eq_bind, Option.bind_some,
    skipSpace_opening (show Opening ':' by decide), hvalue]
  rfl

/-- The members after the first are read back, with their brace.  As with
items, what follows a member is known to end it. -/
theorem members?_charsMembers {n : Nat} {members : List (String × Json)}
    (hall : ∀ m ∈ members, Written n m.2 ∧ Reads m.2) (fuel : Nat) (rest : List Glyph)
    (henough : (charsMembers (named members)).length ≤ fuel) :
    members? fuel ((charsMembers (named members)).map some ++ rest) =
      some (named members, rest) := by
  induction members generalizing fuel with
  | nil =>
      obtain ⟨fuel, rfl⟩ : ∃ k, fuel = k + 1 :=
        ⟨fuel - 1, by simp [named, charsMembers] at henough; omega⟩
      rfl
  | cons m ms ih =>
      obtain ⟨name, x⟩ := m
      have hhead : Written n x ∧ Reads x := hall (name, x) List.mem_cons_self
      have hcons : named ((name, x) :: ms) = (some name, x) :: named ms := rfl
      rw [hcons, charsMembers] at henough ⊢
      simp only [List.cons_append, List.length_cons, List.length_append] at henough
      obtain ⟨fuel, rfl⟩ : ∃ k, fuel = k + 1 := ⟨fuel - 1, by omega⟩
      have hfirst := member?_chars name hhead.1 hhead.2 fuel _ (by omega)
        (ahead_members ms rest)
      have htail := ih (fun y hy => hall y (List.mem_cons_of_mem _ hy)) fuel (by omega)
      let after := (quoted (some name)).map some ++
        (some ':' :: (x.chars.map some ++ ((charsMembers (named ms)).map some ++ rest)))
      have hopening : skipSpace after = after := skipSpace_opening (show Opening '"' by decide) _
      simp only [List.cons_append, List.map_cons, List.map_append, List.append_assoc]
      rw [members?, skipSpace_opening (by decide)]
      show (member? fuel (skipSpace after)).bind _ = _
      rw [hopening, hfirst, Option.bind_some]
      show (members? fuel _).bind _ = _
      rw [htail, Option.bind_some]
      rfl

/-! ### The cases of a value -/

/-- A value that begins with a sign or a digit is read as a literal. -/
theorem value?_numeral {c : Char} (hhead : c = '-' ∨ IsDigit c) (fuel : Nat) (gs : List Glyph) :
    value? (fuel + 1) (some c :: gs) =
      (literal? (some c :: gs)).map fun (cs, rest) => (.num (String.ofList cs), rest) := by
  have hother : ∀ d, ¬ (d = '-' ∨ IsDigit d) → c ≠ d := by
    rintro d hneither rfl
    exact hneither hhead
  rw [value?]
  all_goals
    intro rest h
    exact hother _ (by decide) (Option.some.inj (List.cons.inj h).1)

/-- A list that is not empty is read by its first item and the items after
it. -/
theorem value?_items {c : Char} (hopening : Opening c) (fuel : Nat) (gs : List Glyph) :
    value? (fuel + 1) (some '[' :: some c :: gs) =
      (value? fuel (some c :: gs)).bind fun (x, rest) =>
        (items? fuel rest).map fun (xs, rest) => (.arr (x :: xs), rest) := by
  rw [value?, skipSpace_opening hopening]
  split
  · next h => exact absurd (Option.some.inj (List.cons.inj h).1) hopening.2.2.2.2.1
  · cases value? fuel (some c :: gs) with
    | none => rfl
    | some read => cases h : items? fuel read.2 <;> simp [h]

/-- A record that is not empty is read by its first member and the members
after it. -/
theorem value?_members (fuel : Nat) (gs : List Glyph) :
    value? (fuel + 1) (some '\x7b' :: some '"' :: gs) =
      (member? fuel (some '"' :: gs)).bind fun (m, rest) =>
        (members? fuel rest).map fun (ms, rest) => (.obj (m :: ms), rest) := by
  have hother : ∀ rest, some '"' :: gs ≠ some '\x7d' :: rest := fun rest h =>
    absurd (List.cons.inj h).1 (by decide)
  rw [value?, skipSpace_opening (by decide)]
  split
  · next h => exact absurd h (hother _)
  · cases member? fuel (some '"' :: gs) with
    | none => rfl
    | some read => cases h : members? fuel read.2 <;> simp [h]

/-- **A written value is read back in front of what may follow it.** -/
theorem Written.reads {n : Nat} {j : Json} (hwritten : Written n j) : Reads j := by
  induction hwritten with
  | null =>
      intro fuel rest henough hahead
      obtain ⟨fuel, rfl⟩ : ∃ k, fuel = k + 1 := ⟨fuel - 1, by simp [chars] at henough; omega⟩
      rfl
  | bool b =>
      intro fuel rest henough hahead
      cases b
      all_goals
        obtain ⟨fuel, rfl⟩ : ∃ k, fuel = k + 1 := ⟨fuel - 1, by simp [chars] at henough; omega⟩
        rfl
  | num m hrange =>
      intro fuel rest henough hahead
      have hread := m.literal?_numeral hahead
      obtain ⟨c, cs, htext, hhead⟩ := m.chars_head
      rw [chars, String.toList_ofList] at henough ⊢
      rw [htext] at hread henough ⊢
      obtain ⟨fuel, rfl⟩ : ∃ k, fuel = k + 1 := ⟨fuel - 1, by simp at henough; omega⟩
      rw [List.map_cons, List.cons_append] at hread ⊢
      rw [value?_numeral hhead, hread]
      rfl
  | text s =>
      intro fuel rest henough hahead
      have hread := quotedTail?_escapedText s rest
      obtain ⟨fuel, rfl⟩ : ∃ k, fuel = k + 1 :=
        ⟨fuel - 1, by simp [Json.text, chars, quoted] at henough; omega⟩
      rw [Json.text, chars, quoted, List.map_cons, List.cons_append, value?]
      simp only [Option.getD_some, hread]
      rfl
  | @arr n items hwritten ih =>
      intro fuel rest henough hahead
      cases items with
      | nil =>
          obtain ⟨fuel, rfl⟩ : ∃ k, fuel = k + 1 := ⟨fuel - 1, by simp [chars] at henough; omega⟩
          rfl
      | cons x xs =>
          have hall : ∀ y ∈ x :: xs, Written n y ∧ Reads y := fun y hy => ⟨hwritten y hy, ih y hy⟩
          simp only [chars, List.cons_append, List.length_cons, List.length_append] at henough
          obtain ⟨fuel, rfl⟩ : ∃ k, fuel = k + 1 := ⟨fuel - 1, by omega⟩
          have hfirst := ih x List.mem_cons_self fuel _ (by omega) (ahead_items xs rest)
          have htail := items?_charsItems (fun y hy => hall y (List.mem_cons_of_mem x hy)) fuel rest
            (by omega)
          obtain ⟨c, cs, htext, hopening⟩ := (hwritten x List.mem_cons_self).chars_head
          simp only [chars, List.cons_append, List.map_cons, List.map_append, List.append_assoc]
          rw [htext, List.map_cons, List.cons_append] at hfirst ⊢
          rw [value?_items hopening, hfirst, Option.bind_some]
          simp only [htail, Option.map_some]
  | @record n members hwritten ih =>
      intro fuel rest henough hahead
      cases members with
      | nil =>
          obtain ⟨fuel, rfl⟩ : ∃ k, fuel = k + 1 :=
            ⟨fuel - 1, by simp [Json.record, chars] at henough; omega⟩
          rfl
      | cons m ms =>
          obtain ⟨name, x⟩ := m
          have hall : ∀ m ∈ (name, x) :: ms, Written n m.2 ∧ Reads m.2 :=
            fun m hm => ⟨hwritten m hm, ih m hm⟩
          have hhead : Written n x ∧ Reads x := hall (name, x) List.mem_cons_self
          have hcons : Json.record ((name, x) :: ms) = .obj ((some name, x) :: named ms) := rfl
          rw [hcons, chars] at henough ⊢
          simp only [List.cons_append, List.length_cons, List.length_append] at henough
          obtain ⟨fuel, rfl⟩ : ∃ k, fuel = k + 1 := ⟨fuel - 1, by omega⟩
          have hfirst := member?_chars name hhead.1 hhead.2 fuel _ (by omega)
            (ahead_members ms rest)
          have htail := members?_charsMembers (fun y hy => hall y (List.mem_cons_of_mem _ hy))
            fuel rest (by omega)
          simp only [quoted, List.cons_append, List.map_cons, List.map_append,
            List.append_assoc] at hfirst ⊢
          rw [value?_members, hfirst, Option.bind_some]
          simp only [htail, Option.map_some]

/-- **The text of a written value is read back as the value.**  Nothing may
stand behind the value but white space, and the printer writes none. -/
theorem read?_render {n : Nat} {j : Json} (hwritten : Written n j) :
    read? (Text.glyphsOf j.render) = some j := by
  have htext : Text.glyphsOf j.render = j.chars.map some ++ [] := by
    rw [Text.glyphsOf, render, String.toList_ofList, List.append_nil]
  have hread := hwritten.reads.spaced hwritten
    (show j.chars.length ≤ 2 * (j.chars.map some ++ ([] : List Glyph)).length + 2 by simp; omega)
    (show Ahead Closing [] from trivial)
  rw [read?, htext, hread]
  rfl

end OpcSession.Json
