import OpcSession.Proofs.Json.Reading
import OpcSession.Proofs.Lists

/-!
# Shapes are read back

For each shape in which values are written, the reader of the shape gives
the parts back; and what is written in a shape is a written value if its
parts are.

* `fields?_record` — the fields of a record;
* `adjacent?_tagged` and `inline?_record` — enumerations with a payload;
* `find?_table` — enumerations without one.
-/

namespace OpcSession.Json

attribute [simp] Written.null Written.bool Written.text

/-! ## Numbers -/

section Numbers

variable {k : Nat}

/-- A whole number of at most 64 bits is a written value. -/
theorem Written.int {i : Int} (hsmall : i.natAbs < 2 ^ 64) : Written k (.int i) := by
  have hrange := double?_toString hsmall
  rw [Json.int]
  rw [Numeral.toString_integer] at hrange ⊢
  exact .num _ hrange

theorem Written.nat {n : Nat} (hsmall : n < 2 ^ 64) : Written k (.nat n) :=
  Written.int (i := n) hsmall

@[simp]
theorem Written.uint16 (n : UInt16) : Written k (.nat n.toNat) :=
  .nat (Nat.lt_trans n.toNat_lt (by decide))

@[simp]
theorem Written.uint32 (n : UInt32) : Written k (.nat n.toNat) :=
  .nat (Nat.lt_trans n.toNat_lt (by decide))

@[simp]
theorem Written.uint64 (n : UInt64) : Written k (.nat n.toNat) := .nat n.toNat_lt

/-- A double is written as a numeral, or as nothing where it is no number. -/
@[simp]
theorem Written.double (x : Binary64) : Written k (.double x) := by
  rw [Json.double]
  split
  · next hfinite =>
      have hrange : (double? (String.ofList x.scientificText)).isSome := by
        rw [double?_scientificText hfinite]
        rfl
      have hnumeral : ∃ n : Numeral, x.scientificText = n.chars := by
        rcases Nat.eq_zero_or_pos x.magnitude with hzero | hpositive
        · obtain ⟨n, htext, -⟩ := Numeral.numeral_of_zero hzero
          exact ⟨n, htext⟩
        · obtain ⟨n, htext, -⟩ := Numeral.numeral_of_double hpositive
          exact ⟨n, htext⟩
      obtain ⟨n, htext⟩ := hnumeral
      rw [htext] at hrange ⊢
      exact .num n hrange
  · exact .null

theorem asNat?_nat {limit n : Nat} (hle : n ≤ limit) : asNat? limit (.nat n) = some n := by
  have hread : integer? (toString n) = some (.ofNat n) := integer?_toString (.ofNat n)
  rw [Json.nat, asNat?, hread]
  exact if_pos hle

theorem asInt?_int {low high i : Int} (hrange : low ≤ i ∧ i ≤ high) :
    asInt? low high (.int i) = some i := by
  rw [Json.int, asInt?, integer?_toString, Option.filter_some, if_pos (by simpa using hrange)]

@[simp]
theorem asUInt8?_nat (n : UInt8) : asUInt8? (.nat n.toNat) = some n := by
  rw [asUInt8?, asNat?_nat (Nat.le_of_lt_succ n.toNat_lt), Option.map_some, UInt8.ofNat_toNat]

@[simp]
theorem asUInt16?_nat (n : UInt16) : asUInt16? (.nat n.toNat) = some n := by
  rw [asUInt16?, asNat?_nat (Nat.le_of_lt_succ n.toNat_lt), Option.map_some, UInt16.ofNat_toNat]

@[simp]
theorem asUInt32?_nat (n : UInt32) : asUInt32? (.nat n.toNat) = some n := by
  rw [asUInt32?, asNat?_nat (Nat.le_of_lt_succ n.toNat_lt), Option.map_some, UInt32.ofNat_toNat]

@[simp]
theorem asUInt64?_nat (n : UInt64) : asUInt64? (.nat n.toNat) = some n := by
  rw [asUInt64?, asNat?_nat (Nat.le_of_lt_succ n.toNat_lt), Option.map_some, UInt64.ofNat_toNat]

/-- A finite double is read back, by what is nearest to its text. -/
theorem asDouble?_double {x : Binary64} (hfinite : x.isFinite = true) :
    asDouble? (.double x) = some x := by
  rw [Json.double, if_pos hfinite, asDouble?, double?_scientificText hfinite]

/-- A double that is no number is not read back: it is written as `null`,
which the reader of doubles refuses. -/
theorem asDouble?_lost {x : Binary64} (hlost : x.isFinite = false) :
    asDouble? (.double x) = none := by
  rw [Json.double, hlost]
  rfl

end Numbers

/-! ## Plain values -/

@[simp]
theorem asText?_text (s : String) : asText? (.text s) = some s := rfl

@[simp]
theorem asBool?_bool (b : Bool) : asBool? (.bool b) = some b := rfl

section Plain

variable {α : Type} {write : α → Json} {read : Json → Option α} {k : Nat}

theorem asList?_list {xs : List α} (hinverse : ∀ x ∈ xs, read (write x) = some x) :
    asList? read (.list write xs) = some xs := by
  rw [Json.list, asList?]
  induction xs with
  | nil => rfl
  | cons x xs ih =>
      have hrest := ih fun y hy => hinverse y (List.mem_cons_of_mem x hy)
      rw [List.map_cons, List.mapM_cons, hinverse x List.mem_cons_self, hrest]
      rfl

/-- A list is not read if one of its items is not: the reader gives no list
that lacks an item. -/
theorem asList?_lost {xs : List α} {x : α} (hmem : x ∈ xs) (hlost : read (write x) = none) :
    asList? read (.list write xs) = none := by
  rw [Json.list, asList?]
  induction xs with
  | nil => cases hmem
  | cons y xs ih =>
      rw [List.map_cons, List.mapM_cons]
      rcases List.mem_cons.mp hmem with rfl | hmem
      · rw [hlost]
        rfl
      · rw [ih hmem]
        cases read (write y) <;> rfl

/-- What may be absent is read back, absent or not, if the writer never writes
`null` for what is there. -/
theorem asOptional?_optional (hinverse : ∀ x, read (write x) = some x)
    (hvalue : ∀ x, write x ≠ .null) (o : Option α) :
    asOptional? read (.optional write o) = some o := by
  cases o with
  | none => rfl
  | some x =>
      rw [Json.optional, asOptional?, hinverse x]
      · rfl
      · exact hvalue x

/-- In a field that may be missing what may be absent is read back too; the
writer does not leave the field out. -/
theorem maybe_optional (hinverse : ∀ x, read (write x) = some x)
    (hvalue : ∀ x, write x ≠ .null) (o : Option α) :
    maybe read (some (.optional write o)) = some o := asOptional?_optional hinverse hvalue o

/-- Texts that may be absent are read back, absent or not. -/
@[simp]
theorem maybe_text (o : Option String) : maybe asText? (some (.optional .text o)) = some o :=
  maybe_optional asText?_text (fun _ => nofun) o

/-- Bytes are written as a list of numbers, and read back as such. -/
@[simp]
theorem asBytes?_bytes (bs : List UInt8) : asBytes? (.bytes bs) = some bs :=
  asList?_list fun b _ => asUInt8?_nat b

/-- A field that has to be there is read if it is. -/
@[simp]
theorem needed_some (j : Json) : needed read (some j) = read j := rfl

theorem Written.optional {o : Option α} (hvalue : ∀ x ∈ o, Written k (write x)) :
    Written k (.optional write o) := by
  cases o with
  | none => exact .null
  | some x => exact hvalue x rfl

@[simp]
theorem Written.optionalText (o : Option String) : Written k (.optional .text o) :=
  .optional fun s _ => .text s

theorem Written.list {xs : List α} (hle : 1 ≤ k) (hitems : ∀ x ∈ xs, Written (k - 1) (write x)) :
    Written k (.list write xs) := by
  obtain ⟨k, rfl⟩ : ∃ m, k = m + 1 := ⟨k - 1, by omega⟩
  refine .arr fun j hj => ?_
  obtain ⟨x, hx, rfl⟩ := List.mem_map.mp hj
  exact hitems x hx

/-- The bytes in a list are numbers, which have no brackets. -/
theorem Written.bytes (hle : 1 ≤ k) (bs : List UInt8) : Written k (.bytes bs) :=
  .list hle fun b _ => .nat (Nat.lt_trans b.toNat_lt (by decide))

end Plain

/-! ## Records -/

/-- A member is found by its name where the names are all different. -/
theorem find?_named {members : List (String × Json)} (hdistinct : (members.map (·.1)).Nodup)
    {m : String × Json} (hmem : m ∈ members) :
    (named members).find? (·.1 == some m.1) = some (some m.1, m.2) := by
  have hkeys : ((named members).map (·.1)).Nodup := by
    simpa [named, Function.comp_def] using hdistinct.map (Option.some_injective _)
  have hfound := (find?_key_eq_some_iff hkeys (some m.1) (some m.1, m.2)).mpr
    ⟨List.mem_map_of_mem hmem, rfl⟩
  simpa only [beq_eq_decide] using hfound

/-- How often a name occurs can be counted in the names alone. -/
theorem occurrences_named (members : List (String × Json)) (name : String) :
    occurrences name (named members) = (members.map (·.1)).count name := by
  induction members with
  | nil => rfl
  | cons x xs ih =>
      have hcons : named (x :: xs) = (some x.1, x.2) :: named xs := rfl
      rw [occurrences] at ih ⊢
      rw [hcons, List.countP_cons, List.map_cons, List.count_cons, ih]
      simp

/-- The fields that a record is asked for are its own, if it was written with
these names. -/
theorem pick?_named {members : List (String × Json)} {names : List String}
    (hsame : members.map (·.1) = names) (hdistinct : names.Nodup) :
    pick? names (named members) = some (members.map fun m => some m.2) := by
  subst hsame
  have htexts : (named members).all (·.1.isSome) = true := by
    simp [named]
  have honce : (members.map (·.1)).all (occurrences · (named members) ≤ 1) = true := by
    rw [List.all_eq_true]
    intro name _
    rw [occurrences_named, decide_eq_true_eq]
    exact List.nodup_iff_count_le_one.mp hdistinct name
  rw [pick?, htexts, honce, Bool.and_self, if_pos rfl, List.map_map]
  congr 1
  refine List.map_congr_left fun m hm => ?_
  rw [Function.comp_apply, find?_named hdistinct hm]
  rfl

/-- **The fields of a record are read back.**  The names are different and no
others occur, so none is found twice and none is unknown. -/
theorem fields?_record {members : List (String × Json)} {names : List String}
    (hsame : members.map (·.1) = names) (hdistinct : names.Nodup) :
    fields? names (.record members) = some (members.map fun m => some m.2) :=
  pick?_named hsame hdistinct

/-! ## Enumerations -/

theorem choice?_text {names : List String} {s : String} (hknown : s ∈ names) (p : Place) :
    choice? names p (.text s) = some s := by
  rw [Json.text, choice?, if_pos (List.contains_iff_mem.mpr hknown)]

/-- **A value out of a table is read back from its name.**  No two entries of
the table have the same name, so the name leads back to the value. -/
theorem find?_table {α : Type} [DecidableEq α] {table : List (α × String)}
    (hdistinct : (table.map (·.2)).Nodup) {a : α} (hlisted : a ∈ table.map (·.1)) (p : Place) :
    ((choice? (table.map (·.2)) p (.text (((table.find? (·.1 = a)).map (·.2)).getD ""))).bind
      fun s => (table.find? (·.2 = s)).map (·.1)) = some a := by
  obtain ⟨⟨a', s⟩, hmem, rfl⟩ := List.mem_map.mp hlisted
  obtain ⟨⟨b, t⟩, hfound⟩ : ∃ x, table.find? (·.1 = a') = some x := by
    rw [← Option.isSome_iff_exists, List.find?_isSome]
    exact ⟨(a', s), hmem, by simp⟩
  have hkey : b = a' := by simpa using List.find?_some hfound
  have hmemb : (b, t) ∈ table := List.mem_of_find?_eq_some hfound
  subst hkey
  rw [hfound, Option.map_some, Option.getD_some,
    choice?_text (List.mem_map_of_mem (f := (·.2)) hmemb), Option.bind_some]
  rw [(find?_key_eq_some_iff hdistinct t (b, t)).mpr ⟨hmemb, rfl⟩, Option.map_some]

/-- The adjacent shape with a content gives back the name and the content, one
bracket further in. -/
theorem adjacent?_tagged {tag content : String} (hdiffer : tag ≠ content) (p : Place)
    (name : String) (value : Json) :
    adjacent? tag content p (.tagged tag content name value) =
      some (.text name, some value, p.inner) := by
  have hfields : pick? [tag, content] (named [(tag, .text name), (content, value)]) =
      some [some (.text name), some value] :=
    pick?_named rfl (by simpa using hdiffer)
  simp only [named, List.map_cons, List.map_nil] at hfields
  simp [adjacent?, Json.tagged, record, hfields]

/-- The adjacent shape of a name without a content: the name is given back,
and that there is none. -/
theorem adjacent?_bare {tag content : String} (hdiffer : tag ≠ content) (p : Place)
    (name : String) :
    adjacent? tag content p (.record [(tag, .text name)]) =
      some (.text name, none, p.inner) := by
  have hfields : pick? [tag, content] (named [(tag, .text name)]) =
      some [some (.text name), none] := by
    simp [pick?, named, occurrences, hdiffer]
  simp only [named, List.map_cons, List.map_nil] at hfields
  simp [adjacent?, record, hfields]

/-- An adjacent shape is one bracket deeper than its content. -/
theorem Written.tagged {k : Nat} {tag content name : String} {value : Json}
    (hwritten : Written k value) : Written (k + 1) (.tagged tag content name value) := by
  refine .record fun m hm => ?_
  rcases List.mem_cons.mp hm with rfl | hm
  · exact .text name
  · rw [List.mem_singleton.mp hm]
    exact hwritten

/-- A written value can be kept aside where enough brackets are left, which
the inline shape needs: its tag may stand behind its fields. -/
theorem holdable_of_written {k : Nat} {p : Place} {j : Json} (hwritten : Written k j)
    (hroom : p.depth + k ≤ bracketLimit) : holdable p j = true := by
  obtain ⟨hsound, hheight⟩ := hwritten.sound_height
  have hfits : p.depth + j.height ≤ bracketLimit := by omega
  rw [holdable, hsound, decide_eq_true hfits]
  exact Bool.or_true _

/-- **The tag and the fields of an inline shape are read back.**  The tag is
no field of its own record, so what is left without it are the fields. -/
theorem inline?_record {tag name : String} {names : List String} {p : Place}
    {members : List (String × Json)} (hknown : name ∈ names) (hother : tag ∉ members.map (·.1))
    (hheld : holdable p (.record ((tag, .text name) :: members)) = true) :
    inline? tag names p (.record ((tag, .text name) :: members)) =
      some (name, .record members) := by
  have hcons : Json.record ((tag, .text name) :: members) =
    .obj ((some tag, .text name) :: named members) := rfl
  have honce : occurrences tag ((some tag, .text name) :: named members) = 1 := by
    have := occurrences_named ((tag, .text name) :: members) tag
    rw [List.map_cons, List.count_cons_self, List.count_eq_zero.mpr hother] at this
    exact this
  have hrest : ((some tag, Json.text name) :: named members).filter (·.1 != some tag) =
      named members := by
    rw [List.filter_cons_of_neg (by simp), List.filter_eq_self]
    intro m hm
    obtain ⟨x, hx, rfl⟩ := List.mem_map.mp hm
    have hdiffer : x.1 ≠ tag := fun hsame => hother (hsame ▸ List.mem_map_of_mem hx)
    simpa using hdiffer
  rw [hcons] at hheld ⊢
  rw [inline?, if_neg (by simpa using hheld)]
  simp only [honce, hrest]
  have hfound : tagName? names p (.text name) = some name := by
    rw [Json.text, tagName?, if_pos (List.contains_iff_mem.mpr hknown)]
  simp [hfound, Json.record, named]

end OpcSession.Json
