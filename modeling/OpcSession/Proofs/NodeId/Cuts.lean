import OpcSession.Proofs.NodeId.Text

/-!
# Texts of bytes that are cut within a character

Hexadecimal text is cut after every second byte, from left to right, and reading ends at
the first piece that is no byte.  Nobody has made sure before that the cuts fall between
characters: only the number of bytes is known to be even.  So reading a node id has a
third end besides the node id and the error, and comes to it exactly where the next cut
falls within a character and all pieces before it could be read.  That takes a character
of more than one byte at such a place; a text of ASCII characters is always read or refused.

* `Pieces` — text that consists of pieces of two bytes, each of which stands for a byte;
* `Cuttable` — a number of bytes can be cut off a text;
* `hexText_eq_bytes`, `hexText_eq_split` — how reading hexadecimal text ends;
* `read_refused_or_split` — how reading a node id ends;
* `text_cut_within_character` — it need not end with a node id or an error.
-/

namespace OpcSession.NodeId

/-- Hexadecimal text in pieces of two bytes, and what they stand for.  Each
piece is of two characters, or it could not be read. -/
inductive Pieces : List Char → List UInt8 → Prop
  /-- No text stands for no bytes. -/
  | nil : Pieces [] []
  /-- Two characters of one byte each stand for the first byte. -/
  | cons {a b : Char} {byte : UInt8} {cs : List Char} {bs : List UInt8}
      (hsingle : a.utf8Size = 1 ∧ b.utf8Size = 1) (hpiece : piece? a b = some byte)
      (hrest : Pieces cs bs) : Pieces (a :: b :: cs) (byte :: bs)

/-- The first `k` bytes of a text end with a character, so a cut can be made
behind them. -/
def Cuttable (k : Nat) (cs : List Char) : Prop :=
  ∃ start behind, cs = start ++ behind ∧ byteLength start = k

/-- Reading comes to a cut that cannot be made, after pieces that could all be
read. -/
def Stuck (cs : List Char) : Prop :=
  ∃ read bs rest, cs = read ++ rest ∧ Pieces read bs ∧ rest ≠ [] ∧ ¬ Cuttable 2 rest

/-- A character adds its bytes to those of the text. -/
theorem byteLength_cons (c : Char) (cs : List Char) :
    byteLength (c :: cs) = c.utf8Size + byteLength cs := rfl

theorem byteLength_eq_zero {cs : List Char} (hzero : byteLength cs = 0) : cs = [] := by
  cases cs with
  | nil => rfl
  | cons c cs =>
      have := c.utf8Size_pos
      rw [byteLength_cons] at hzero
      omega

theorem byteLength_append (cs ds : List Char) :
    byteLength (cs ++ ds) = byteLength cs + byteLength ds := by
  induction cs with
  | nil => rw [List.nil_append]; exact (Nat.zero_add _).symm
  | cons c cs ih => rw [List.cons_append, byteLength_cons, byteLength_cons, ih, Nat.add_assoc]

/-- Two bytes are cut off as one character, or as two; a character of three or
four bytes is in the way. -/
theorem cuttable_two_cons {c : Char} {cs : List Char} :
    Cuttable 2 (c :: cs) ↔
      c.utf8Size = 2 ∨ ∃ d rest, cs = d :: rest ∧ c.utf8Size = 1 ∧ d.utf8Size = 1 := by
  constructor
  · rintro ⟨start, behind, hwhole, hlength⟩
    cases start with
    | nil => cases hlength
    | cons _ start =>
        obtain ⟨rfl, rfl⟩ := List.cons.inj hwhole
        rw [byteLength_cons] at hlength
        have hpositive := c.utf8Size_pos
        cases start with
        | nil => exact .inl hlength
        | cons d start =>
            have hpositive' := d.utf8Size_pos
            rw [byteLength_cons] at hlength
            exact .inr ⟨d, _, rfl, by omega, by omega⟩
  · rintro (htwo | ⟨d, rest, rfl, hone, hone'⟩)
    · exact ⟨[c], cs, rfl, htwo⟩
    · exact ⟨[c, d], rest, rfl, by rw [byteLength_cons, byteLength_cons, hone, hone']; rfl⟩

/-- Text of ASCII characters can be cut anywhere, as long as it lasts. -/
theorem cuttable_of_ascii {cs : List Char} (hascii : ∀ c ∈ cs, c.utf8Size = 1) {k : Nat}
    (hlong : k ≤ byteLength cs) : Cuttable k cs := by
  induction cs generalizing k with
  | nil => exact ⟨[], [], rfl, (Nat.le_zero.mp hlong).symm⟩
  | cons c cs ih =>
      have hone := hascii c List.mem_cons_self
      rw [byteLength_cons, hone] at hlong
      cases k with
      | zero => exact ⟨[], c :: cs, rfl, rfl⟩
      | succ k =>
          obtain ⟨start, behind, rfl, hlength⟩ :=
            ih (fun d hd => hascii d (List.mem_cons_of_mem _ hd)) (k := k) (by omega)
          exact ⟨c :: start, behind, rfl, by rw [byteLength_cons, hone, hlength, Nat.add_comm]⟩

/-- Pieces take two bytes for each that they stand for, so an odd number
cannot be all of pieces. -/
theorem Pieces.byteLength {cs : List Char} {bs : List UInt8} (h : Pieces cs bs) :
    byteLength cs = 2 * bs.length := by
  induction h with
  | nil => rfl
  | cons hsingle _ _ ih =>
      rw [byteLength_cons, byteLength_cons, hsingle.1, hsingle.2, ih, List.length_cons]
      omega

/-! ## How reading ends -/

/-- What has been read before comes first; a refusal or a bad cut takes all of
it away. -/
def HexText.prepend (bs : List UInt8) : HexText → HexText
  | .bytes cs => .bytes (bs ++ cs)
  | .invalid => .invalid
  | .split => .split

/-- **Pieces are read one after the other**, and then what is behind them. -/
theorem hexText_append {cs : List Char} {bs : List UInt8} (h : Pieces cs bs) (rest : List Char) :
    hexText (cs ++ rest) = (hexText rest).prepend bs := by
  induction h with
  | nil =>
      rw [List.nil_append]
      cases hexText rest <;> rfl
  | @cons a b byte cs bs hsingle hpiece _ ih =>
      rw [List.cons_append, List.cons_append, hexText, if_neg (by omega), if_neg (by omega), hpiece]
      dsimp only
      rw [ih]
      cases hexText rest <;> rfl

/-- What cannot be cut is not read, and reading ends there, with neither a
value nor an error. -/
theorem hexText_of_not_cuttable {cs : List Char} (hmore : cs ≠ []) (hwhole : ¬ Cuttable 2 cs) :
    hexText cs = .split := by
  cases cs with
  | nil => exact absurd rfl hmore
  | cons a cs =>
      rw [cuttable_two_cons, not_or] at hwhole
      cases cs with
      | nil => rw [hexText, if_neg hwhole.1]
      | cons b cs =>
          have hwide : a.utf8Size ≠ 1 ∨ b.utf8Size ≠ 1 := by
            by_contra hnarrow
            obtain ⟨hone, hone'⟩ := not_or.mp hnarrow
            exact hwhole.2 ⟨b, cs, rfl, not_not.mp hone, not_not.mp hone'⟩
          rw [hexText, if_neg hwhole.1, if_pos hwide]

/-- To read one more piece before a bad cut is to come to the cut all the
same. -/
theorem Stuck.cons {a b : Char} {byte : UInt8} {cs : List Char}
    (hsingle : a.utf8Size = 1 ∧ b.utf8Size = 1) (hpiece : piece? a b = some byte) (h : Stuck cs) :
    Stuck (a :: b :: cs) := by
  obtain ⟨read, bs, rest, rfl, hpieces, hmore, hwhole⟩ := h
  exact ⟨_, _, rest, rfl, .cons hsingle hpiece hpieces, hmore, hwhole⟩

/-- Where two characters are to make a piece and one is wider than a byte, the
cut falls within it. -/
theorem not_cuttable_of_wide {a b : Char} {cs : List Char} (hnotTwo : a.utf8Size ≠ 2)
    (hwide : a.utf8Size ≠ 1 ∨ b.utf8Size ≠ 1) : ¬ Cuttable 2 (a :: b :: cs) := by
  rw [cuttable_two_cons]
  rintro (htwo | ⟨_, _, ⟨⟩, hone, hone'⟩)
  · exact hnotTwo htwo
  · exact hwide.elim (· hone) (· hone')

/-- **Bytes are read where the whole text is in pieces that stand for
them.** -/
theorem hexText_eq_bytes {cs : List Char} {bs : List UInt8} :
    hexText cs = .bytes bs ↔ Pieces cs bs := by
  constructor
  · fun_induction hexText cs generalizing bs with
    | case1 =>
        rintro ⟨⟩
        exact .nil
    | case7 a b rest hnotTwo hnarrow byte hpiece bs' hread ih =>
        rintro ⟨⟩
        exact .cons (by omega) hpiece (ih hread)
    | case8 a b rest hnotTwo hnarrow byte hpiece hfailed =>
        exact fun hread => (hfailed _ hread).elim
    | _ => rintro ⟨⟩
  · intro hpieces
    have hread := hexText_append hpieces []
    rwa [List.append_nil, hexText, HexText.prepend, List.append_nil] at hread

/-- **Reading is stuck where a cut cannot be made** and it has come so far. -/
theorem hexText_eq_split {cs : List Char} : hexText cs = .split ↔ Stuck cs := by
  constructor
  · fun_induction hexText cs with
    | case3 a hnotTwo =>
        have hwhole : ¬ Cuttable 2 [a] := by simp [cuttable_two_cons, hnotTwo]
        exact fun _ => ⟨[], [], [a], rfl, .nil, by simp, hwhole⟩
    | case5 a b rest hnotTwo hwide =>
        exact fun _ => ⟨[], [], a :: b :: rest, rfl, .nil, by simp,
          not_cuttable_of_wide hnotTwo hwide⟩
    | case8 a b rest hnotTwo hnarrow byte hpiece _ ih =>
        exact fun hstuck => .cons (by omega) hpiece (ih hstuck)
    | _ => rintro ⟨⟩
  · rintro ⟨read, bs, rest, rfl, hpieces, hmore, hwhole⟩
    rw [hexText_append hpieces, hexText_of_not_cuttable hmore hwhole, HexText.prepend]

/-- Of ASCII characters an even number is read or refused; only other texts
can get stuck. -/
theorem not_stuck_of_ascii {cs : List Char} (hascii : ∀ c ∈ cs, c.utf8Size = 1)
    (heven : byteLength cs % 2 = 0) : ¬ Stuck cs := by
  rintro ⟨read, bs, rest, rfl, hpieces, hmore, hwhole⟩
  have hlength := hpieces.byteLength
  have htotal := byteLength_append read rest
  have hsome : byteLength rest ≠ 0 := fun hzero => hmore (byteLength_eq_zero hzero)
  refine hwhole (cuttable_of_ascii (fun c hc => hascii c (List.mem_append_right _ hc)) ?_)
  omega

/-! ## How reading a node id ends -/

/-- Where the hexadecimal text of a node id begins, behind its namespace if it
has one. -/
def HexAt (s : String) (value : List Char) : Prop :=
  s.toList = 'b' :: '=' :: value ∨
    ∃ number n, s.toList = 'n' :: 's' :: '=' :: (number ++ ';' :: 'b' :: '=' :: value) ∧
      ';' ∉ number ∧ Text.bounded? 0xFFFF number = some n

/-- A text that has the form of a node id of bytes, an even number of them
behind the equals sign, in which reading comes to a cut that cannot be
made. -/
def CutsCharacter (s : String) : Prop :=
  ∃ value, HexAt s value ∧ byteLength value % 2 = 0 ∧ Stuck value

/-- Hexadecimal text is behind a `b` once the text is in parts, however it was
taken apart. -/
theorem hexAt_iff {s : String} {value : List Char} : HexAt s value ↔
    ∃ space rest, splitSpace? s.toList = some (space, rest) ∧
      splitAt? '=' rest = some (['b'], value) := by
  have hletter : ∀ rest, splitAt? '=' rest = some (['b'], value) ↔ rest = 'b' :: '=' :: value := by
    intro rest
    rw [splitAt?_eq_some]
    simp
  simp only [hletter, splitSpace?_eq_some]
  constructor
  · rintro (hplain | ⟨number, n, hwhole, habsent, hread⟩)
    · have hunmarked : ¬ Indexed s.toList := by
        rintro ⟨rest, hmarked⟩
        simp [hplain] at hmarked
      exact ⟨0, _, .inl ⟨hunmarked, rfl, rfl⟩, hplain⟩
    · exact ⟨_, _, .inr ⟨number, n, hwhole, habsent, hread, rfl⟩, rfl⟩
  · rintro ⟨_, _, ⟨-, -, rfl⟩ | ⟨number, n, hwhole, habsent, hread, -⟩, hbehind⟩
    · exact .inl hbehind
    · exact .inr ⟨number, n, hbehind ▸ hwhole, habsent, hread⟩

/-- The characters of the hexadecimal text are in the text, so what is asked
of all characters is so of these. -/
theorem HexAt.mem {s : String} {value : List Char} (h : HexAt s value) {c : Char}
    (hc : c ∈ value) : c ∈ s.toList := by
  rcases h with hwhole | ⟨number, n, hwhole, -⟩ <;> simp [hwhole, hc]

/-- An identifier is read or refused, unless its hexadecimal text is cut
within a character. -/
theorem readIdentifier_cases (s : String) (kind value : List Char) :
    (kind = ['b'] ∧ byteLength value % 2 = 0 ∧ Stuck value ∧
        readIdentifier s kind value = .error .splitCharacter) ∨
      (∃ i, readIdentifier s kind value = .ok i) ∨
        readIdentifier s kind value = .error (.invalid s) := by
  unfold readIdentifier
  split
  · cases Text.bounded? 0xFFFFFFFF value with
    | none => exact .inr (.inr rfl)
    | some n => exact .inr (.inl ⟨_, rfl⟩)
  · exact .inr (.inl ⟨_, rfl⟩)
  · exact .inr (.inl ⟨_, rfl⟩)
  · by_cases heven : byteLength value % 2 = 0
    · rw [if_neg (not_not.mpr heven)]
      cases hread : hexText value with
      | bytes bs => exact .inr (.inl ⟨_, rfl⟩)
      | invalid => exact .inr (.inr rfl)
      | split => exact .inl ⟨rfl, heven, hexText_eq_split.mp hread, rfl⟩
    · rw [if_pos heven]
      exact .inr (.inr rfl)
  · exact .inr (.inr rfl)

/-- What cannot be cut is not read of an identifier either.  Its length is
even by then, which is all that is checked before. -/
theorem readIdentifier_of_stuck (s : String) {value : List Char} (heven : byteLength value % 2 = 0)
    (hstuck : Stuck value) : readIdentifier s ['b'] value = .error .splitCharacter := by
  simp only [readIdentifier, heven, hexText_eq_split.mpr hstuck, ne_eq, not_true_eq_false, if_false]

/-- **How reading a node id ends.**  The text is cut within a character, which
it is only where a character takes more than one byte; or else it is a node
id, or is refused by an error that tells the text. -/
theorem read_refused_or_split (s : String) :
    (CutsCharacter s ∧ (∃ c ∈ s.toList, 1 < c.utf8Size) ∧ parse s = .error .splitCharacter) ∨
      (¬ CutsCharacter s ∧ ((∃ n, parse s = .ok n) ∨ parse s = .error (.invalid s))) := by
  by_cases hcut : CutsCharacter s
  · left
    obtain ⟨value, hbehind, heven, hstuck⟩ := hcut
    obtain ⟨space, rest, hindex, hparts⟩ := hexAt_iff.mp hbehind
    refine ⟨⟨value, hbehind, heven, hstuck⟩, ?_, ?_⟩
    · by_contra hnarrow
      have hascii : ∀ c ∈ value, c.utf8Size = 1 := by
        intro c hc
        have hpositive := c.utf8Size_pos
        have hsmall : ¬ 1 < c.utf8Size := fun hwide => hnarrow ⟨c, hbehind.mem hc, hwide⟩
        omega
      exact not_stuck_of_ascii hascii heven hstuck
    · rw [parse_of_parts hindex hparts, readIdentifier_of_stuck s heven hstuck]
      rfl
  · refine .inr ⟨hcut, ?_⟩
    by_cases hwhole : ∀ space rest, splitSpace? s.toList = some (space, rest) →
        splitAt? '=' rest = none
    · exact .inr (parse_of_no_parts hwhole)
    · simp only [not_forall] at hwhole
      obtain ⟨space, rest, hindex, hsplit⟩ := hwhole
      obtain ⟨⟨kind, value⟩, hparts⟩ := Option.ne_none_iff_exists'.mp hsplit
      rw [parse_of_parts hindex hparts]
      rcases readIdentifier_cases s kind value with
        ⟨rfl, heven, hstuck, -⟩ | ⟨i, hread⟩ | hrefused
      · exact absurd ⟨value, hexAt_iff.mpr ⟨space, rest, hindex, hparts⟩, heven, hstuck⟩ hcut
      · exact .inl ⟨⟨space, i⟩, by rw [hread]; rfl⟩
      · exact .inr (by rw [hrefused]; rfl)

/-- **A text can be cut within a character**, and is neither a node id then
nor refused as none: here a character of two bytes follows a single digit. -/
theorem text_cut_within_character :
    ¬ ∀ s : String, (∃ n, parse s = .ok n) ∨ parse s = .error (.invalid s) := by
  intro hclaim
  have hcut : parse "b=aé1" = .error .splitCharacter := by decide +kernel
  rcases hclaim "b=aé1" with ⟨n, hread⟩ | hrefused
  · rw [hcut] at hread
    cases hread
  · rw [hcut] at hrefused
    cases hrefused

end OpcSession.NodeId
