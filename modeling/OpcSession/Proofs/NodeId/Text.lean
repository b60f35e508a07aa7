import OpcSession.NodeId.Text
import OpcSession.Proofs.Text.Digits

/-!
# Node ids read back from their text

The text of a node id can be read without any escapes.  What stands before the first
semicolon is an index, which is made of digits, and what stands before the first equals
sign is one letter; so the text of an identifier begins behind both, and may hold
semicolons and equals signs of its own.  A text begins with `ns=` only where an index
follows, for no identifier does.

* `splitAt?_eq_some` — a text is split where the separator occurs first;
* `splitSpace?_eq_some` — the index of a namespace, and the text without one;
* `splitSpace?_chars`, `splitAt?_identifierChars`, `hexText_hex` — the parts of a text
  that was written;
* `parse_of_parts` — what is read once the text is in parts;
* `text_read_back` — a node id is read back from its text.
-/

namespace OpcSession.NodeId

/-! ## The parts of a text -/

/-- A text is split where the separator occurs first, so what stands before it
holds none. -/
theorem splitAt?_eq_some {c : Char} {cs before behind : List Char} :
    splitAt? c cs = some (before, behind) ↔ cs = before ++ c :: behind ∧ c ∉ before := by
  induction cs generalizing before with
  | nil => simp [splitAt?]
  | cons d rest ih =>
      rw [splitAt?]
      by_cases hhere : d = c
      · rw [if_pos hhere]
        constructor
        · rintro ⟨⟩
          exact ⟨by rw [hhere, List.nil_append], List.not_mem_nil⟩
        · rintro ⟨hwhole, habsent⟩
          cases before with
          | nil =>
              obtain ⟨-, rfl⟩ := List.cons.inj hwhole
              rfl
          | cons b bs =>
              obtain ⟨rfl, -⟩ := List.cons.inj hwhole
              exact absurd (hhere ▸ List.mem_cons_self) habsent
      · rw [if_neg hhere, Option.map_eq_some_iff]
        constructor
        · rintro ⟨⟨bs, _⟩, hfound, ⟨⟩⟩
          obtain ⟨hwhole, habsent⟩ := ih.mp hfound
          exact ⟨by rw [hwhole, List.cons_append],
            List.not_mem_cons_of_ne_of_not_mem (Ne.symm hhere) habsent⟩
        · rintro ⟨hwhole, habsent⟩
          cases before with
          | nil => exact absurd (List.cons.inj hwhole).1 hhere
          | cons b bs =>
              obtain ⟨rfl, hrest⟩ := List.cons.inj hwhole
              exact ⟨(bs, behind),
                ih.mpr ⟨hrest, fun hmem => habsent (List.mem_cons_of_mem _ hmem)⟩,
                rfl⟩

/-- A text that begins with the mark of an index; only then a number is looked
for. -/
def Indexed (cs : List Char) : Prop := ∃ rest, cs = 'n' :: 's' :: '=' :: rest

/-- The index of a namespace stands between its mark and the first semicolon;
a text without the mark is in namespace zero. -/
theorem splitSpace?_eq_some {cs rest : List Char} {space : UInt16} :
    splitSpace? cs = some (space, rest) ↔
      (¬ Indexed cs ∧ space = 0 ∧ rest = cs) ∨
        ∃ number n, cs = 'n' :: 's' :: '=' :: (number ++ ';' :: rest) ∧ ';' ∉ number ∧
          Text.bounded? 0xFFFF number = some n ∧ space = UInt16.ofNat n := by
  fun_cases splitSpace? cs with
  | case1 marked =>
      have hindexed : Indexed ('n' :: 's' :: '=' :: marked) := ⟨marked, rfl⟩
      simp only [hindexed, not_true, false_and, false_or, Option.bind_eq_bind, Option.pure_def,
        Option.bind_eq_some_iff, Option.some.injEq, Prod.mk.injEq, Prod.exists, splitAt?_eq_some]
      constructor
      · rintro ⟨number, _, ⟨rfl, habsent⟩, n, hread, rfl, rfl⟩
        exact ⟨number, n, rfl, habsent, hread, rfl⟩
      · rintro ⟨number, n, hwhole, habsent, hread, rfl⟩
        exact ⟨number, rest, ⟨by simpa using hwhole, habsent⟩, n, hread, rfl, rfl⟩
  | case2 _ hunmarked =>
      have hplain : ¬ Indexed cs := fun ⟨rest, hwhole⟩ => hunmarked rest hwhole
      constructor
      · rintro ⟨⟩
        exact .inl ⟨hplain, rfl, rfl⟩
      · rintro (⟨-, rfl, rfl⟩ | ⟨number, n, hwhole, -⟩)
        · rfl
        · exact absurd ⟨_, hwhole⟩ hplain

/-! ## What was written -/

/-- No identifier begins like an index, for its second character is an equals
sign. -/
theorem not_indexed_identifierChars (i : Identifier) : ¬ Indexed (identifierChars i) := by
  rintro ⟨rest, hwhole⟩
  cases i <;> simp [identifierChars] at hwhole

/-- **The namespace of a node id is read back.**  Namespace zero is not
written, and read where there is no index. -/
theorem splitSpace?_chars (n : NodeId) :
    splitSpace? n.chars = some (n.space, identifierChars n.identifier) := by
  rw [splitSpace?_eq_some, chars]
  by_cases hzero : n.space = 0
  · rw [if_pos hzero]
    exact .inl ⟨not_indexed_identifierChars _, hzero, rfl⟩
  · have hdigits : ';' ∉ Text.decimal n.space.toNat :=
      Text.not_mem_decimal (by decide)
    rw [if_neg hzero]
    refine .inr ⟨_, n.space.toNat, rfl, hdigits, Text.bounded?_decimal ?_, ?_⟩
    · have := n.space.toNat_lt
      omega
    · exact UInt16.ofNat_toNat.symm

/-- The letter for the kind of an identifier, by which it is read again. -/
def letter : Identifier → Char
  | .numeric _ => 'i'
  | .string _ => 's'
  | .guid _ => 'g'
  | .bytes _ => 'b'

/-- What is written of an identifier behind its letter; for names it may be
any text. -/
def valueChars : Identifier → List Char
  | .numeric id => Text.decimal id.toNat
  | .string id | .guid id => id.toList
  | .bytes id => Text.hex id

/-- An identifier is written as its letter, an equals sign, and its value. -/
theorem identifierChars_eq (i : Identifier) :
    identifierChars i = letter i :: '=' :: valueChars i := by
  cases i <;> rfl

/-- The kind of an identifier is one letter, whatever else its value holds. -/
theorem splitAt?_identifierChars (i : Identifier) :
    splitAt? '=' (identifierChars i) = some ([letter i], valueChars i) := by
  rw [identifierChars_eq, splitAt?_eq_some]
  exact ⟨rfl, by cases i <;> simp [letter]⟩

/-- A hexadecimal digit takes one byte and is no plus sign, so what was
written can be cut, and is not read as signed. -/
theorem hexDigit_plain {d : Nat} (h : d < 16) :
    (Text.hexDigit d).utf8Size = 1 ∧ Text.hexDigit d ≠ '+' := by
  have hall : ∀ d : Fin 16, (Text.hexDigit d).utf8Size = 1 ∧ Text.hexDigit d ≠ '+' := by decide
  exact hall ⟨d, h⟩

/-- A byte is read back from its two digits, of which the first is never a
sign. -/
theorem piece?_hexByte (b : UInt8) :
    piece? (Text.hexDigit (b.toNat / 16)) (Text.hexDigit (b.toNat % 16)) = some b := by
  have hbyte : b.toNat < 256 := b.toNat_lt
  have hhigh : b.toNat / 16 < 16 := by omega
  have hlow : b.toNat % 16 < 16 := by omega
  have hvalue : 16 * (b.toNat / 16) + b.toNat % 16 = b.toNat := Nat.div_add_mod _ _
  rw [piece?, Text.hexValue?_hexDigit hlow]
  dsimp only
  rw [if_neg (hexDigit_plain hhigh).2, Text.hexValue?_hexDigit hhigh, Option.map_some, hvalue,
    UInt8.ofNat_toNat]

/-- **Bytes are read back from their digits**, two by two, by induction on the
bytes. -/
theorem hexText_hex (bs : List UInt8) : hexText (Text.hex bs) = .bytes bs := by
  induction bs with
  | nil => rfl
  | cons b bs ih =>
      have hbyte : b.toNat < 256 := b.toNat_lt
      have hhigh := (hexDigit_plain (show b.toNat / 16 < 16 by omega)).1
      have hlow := (hexDigit_plain (show b.toNat % 16 < 16 by omega)).1
      have hdigits : Text.hex (b :: bs) =
          Text.hexDigit (b.toNat / 16) :: Text.hexDigit (b.toNat % 16) :: Text.hex bs := rfl
      rw [hdigits, hexText, if_neg (by rw [hhigh]; decide), if_neg (by simp [hhigh, hlow]),
        piece?_hexByte]
      dsimp only
      rw [ih]

/-- Two digits for each byte are an even number of them, which is what reading
asks for first. -/
theorem byteLength_hex (bs : List UInt8) : byteLength (Text.hex bs) = 2 * bs.length := by
  induction bs with
  | nil => rfl
  | cons b bs ih =>
      have hbyte : b.toNat < 256 := b.toNat_lt
      have hhigh := (hexDigit_plain (show b.toNat / 16 < 16 by omega)).1
      have hlow := (hexDigit_plain (show b.toNat % 16 < 16 by omega)).1
      have hdigits : byteLength (Text.hex (b :: bs)) =
          (Text.hexDigit (b.toNat / 16)).utf8Size +
            ((Text.hexDigit (b.toNat % 16)).utf8Size + byteLength (Text.hex bs)) := rfl
      rw [hdigits, hhigh, hlow, ih, List.length_cons]
      omega

/-! ## Reading -/

/-- What is read of an identifier: its kind by the letter, and the value
behind it. -/
def readIdentifier (s : String) (kind : List Char) (value : List Char) :
    Except TextError Identifier :=
  match kind with
  | ['i'] => match Text.bounded? 0xFFFFFFFF value with
    | some n => .ok (.numeric (UInt32.ofNat n))
    | none => .error (.invalid s)
  | ['s'] => .ok (.string (String.ofList value))
  | ['g'] => .ok (.guid (String.ofList value))
  | ['b'] =>
    if byteLength value % 2 ≠ 0 then .error (.invalid s)
    else match hexText value with
      | .bytes bs => .ok (.bytes bs)
      | .invalid => .error (.invalid s)
      | .split => .error .splitCharacter
  | _ => .error (.invalid s)

/-- **Once the text is in parts**, its identifier is read by itself, under the
namespace that was found. -/
theorem parse_of_parts {s : String} {space : UInt16} {rest kind value : List Char}
    (hindex : splitSpace? s.toList = some (space, rest))
    (hparts : splitAt? '=' rest = some (kind, value)) :
    parse s = (readIdentifier s kind value).map (⟨space, ·⟩) := by
  unfold parse readIdentifier
  rw [hindex]
  dsimp only
  rw [hparts]
  split
  case h_1 hsame =>
    cases hsame
    cases Text.bounded? 0xFFFFFFFF value <;> rfl
  case h_2 hsame | h_3 hsame =>
    cases hsame
    rfl
  case h_4 hsame =>
    cases hsame
    by_cases heven : byteLength value % 2 = 0
    · rw [if_neg (not_not.mpr heven), if_neg (not_not.mpr heven)]
      cases hexText value <;> rfl
    · rw [if_pos heven, if_pos heven]
      rfl
  case h_5 hnotNumeric hnotString hnotGuid hnotBytes =>
    -- Where the kind is none of the four, both refuse the text.
    split
    · exact absurd rfl (hnotNumeric value)
    · exact absurd rfl (hnotString value)
    · exact absurd rfl (hnotGuid value)
    · exact absurd rfl (hnotBytes value)
    · rfl

/-- Without an index that can be read, or without an equals sign, there is
nothing to read. -/
theorem parse_of_no_parts {s : String}
    (hwhole : ∀ space rest, splitSpace? s.toList = some (space, rest) → splitAt? '=' rest = none) :
    parse s = .error (.invalid s) := by
  unfold parse
  cases hindex : splitSpace? s.toList with
  | none => rfl
  | some found =>
      obtain ⟨space, rest⟩ := found
      dsimp only
      rw [hwhole space rest hindex]

/-- The value of an identifier is read back under its letter, for each of the
four kinds. -/
theorem readIdentifier_written (s : String) (i : Identifier) :
    readIdentifier s [letter i] (valueChars i) = .ok i := by
  cases i with
  | numeric id =>
      have hsmall : id.toNat ≤ 0xFFFFFFFF := by
        have := id.toNat_lt
        omega
      simp only [readIdentifier, letter, valueChars, Text.bounded?_decimal hsmall,
        UInt32.ofNat_toNat]
  | string id | guid id => simp only [readIdentifier, letter, valueChars, String.ofList_toList]
  | bytes id =>
      have heven : byteLength (Text.hex id) % 2 = 0 := by
        rw [byteLength_hex]
        omega
      simp only [readIdentifier, letter, valueChars, hexText_hex, heven, ne_eq, not_true_eq_false,
        if_false]

/-- The text of a node id is read as the node id, and not refused. -/
theorem parse_text (n : NodeId) : parse n.text = .ok n := by
  have hindex : splitSpace? n.text.toList = some (n.space, identifierChars n.identifier) := by
    rw [text, String.toList_ofList, splitSpace?_chars]
  rw [parse_of_parts hindex (splitAt?_identifierChars _), readIdentifier_written]
  rfl

/-- **Node ids are read back from their text**, whatever they hold: no two
node ids share a text, and a text that can be read is as good as the one that
is written for what it says. -/
theorem text_read_back :
    (∀ n : NodeId, parse n.text = .ok n) ∧ (∀ n n' : NodeId, n.text = n'.text ↔ n = n') ∧
      ∀ s : String, (parse s).bind (fun n => parse n.text) = parse s := by
  refine ⟨parse_text, fun n n' => ⟨fun hsame => ?_, congrArg text⟩, fun s => ?_⟩
  · have hread : parse n.text = .ok n' := hsame ▸ parse_text n'
    rw [parse_text n] at hread
    exact Except.ok.inj hread
  · cases parse s with
    | error e => rfl
    | ok n => exact parse_text n

/-- Texts with separators of their own, and the empty text. -/
example : parse "ns=3;s=ns=1;i=2" = .ok ⟨3, .string "ns=1;i=2"⟩ ∧
    parse "g=" = .ok ⟨0, .guid ""⟩ := by
  decide +kernel

end OpcSession.NodeId
