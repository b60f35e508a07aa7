import Mathlib.Data.List.Nodup

/-!
# Histories and tables

What happens is written down in order, so that what has happened before a point is all that
stands before it.

* `split_snoc`, `forall_split_snoc` — what every entry has to do with those before it;
* `same_or_before` — of two entries one comes first.

What has keys is kept as a list in which every key is had once.

* `find?_key_eq_some_iff` — what is found under a key;
* `find?_key_perm` — the order does not matter.
-/

namespace OpcSession

/-! ## Histories -/

/-- A history that has grown is split at what was added, or where it was split
before. -/
theorem split_snoc {α : Type} {l before after : List α} {x y : α}
    (hsplit : l ++ [x] = before ++ y :: after) :
    (l = before ∧ x = y ∧ after = []) ∨
      ∃ rest, l = before ++ y :: rest ∧ after = rest ++ [x] := by
  rcases List.eq_nil_or_concat after with rfl | ⟨rest, z, rfl⟩
  · obtain ⟨hearlier, hsame⟩ := List.append_inj' hsplit rfl
    exact .inl ⟨hearlier, List.singleton_inj.mp hsame, rfl⟩
  · rw [List.concat_eq_append, ← List.cons_append, ← List.append_assoc] at hsplit
    obtain ⟨hearlier, hsame⟩ := List.append_inj' hsplit rfl
    exact .inr ⟨rest, hearlier, by rw [hsame, List.concat_eq_append]⟩

/-- What every entry of a list has to do with those before it. -/
theorem forall_split_snoc {α : Type} {P : List α → α → Prop} {l : List α} {x : α}
    (h : ∀ before y after, l = before ++ y :: after → P before y) (hlast : P l x)
    {before after : List α} {y : α} (hsplit : l ++ [x] = before ++ y :: after) : P before y := by
  rcases split_snoc hsplit with ⟨rfl, rfl, -⟩ | ⟨rest, hearlier, -⟩
  · exact hlast
  · exact h before y rest hearlier

/-- Of two members of a list one comes first, unless they are the same. -/
theorem same_or_before {α : Type} {l : List α} {x y : α} (hx : x ∈ l) (hy : y ∈ l) :
    x = y ∨ (∃ before after, l = before ++ y :: after ∧ x ∈ before) ∨
      ∃ before after, l = before ++ x :: after ∧ y ∈ before := by
  obtain ⟨before, after, rfl⟩ := List.append_of_mem hx
  rcases List.mem_append.mp hy with hearlier | hown
  · exact .inr (.inr ⟨before, after, rfl, hearlier⟩)
  · rcases List.mem_cons.mp hown with rfl | hlater
    · exact .inl rfl
    · obtain ⟨middle, rest, rfl⟩ := List.append_of_mem hlater
      exact .inr (.inl ⟨before ++ x :: middle, rest, by simp, by simp⟩)

/-! ## Tables -/

section Tables

variable {α κ : Type} [DecidableEq κ] {key : α → κ} {xs ys : List α}

/-- Under a key that is had once there is the entry that has it. -/
theorem find?_key_eq_some_iff (hkeys : (xs.map key).Nodup) (k : κ) (x : α) :
    xs.find? (key · = k) = some x ↔ x ∈ xs ∧ key x = k := by
  constructor
  · intro hfound
    exact ⟨List.mem_of_find?_eq_some hfound, by simpa using List.find?_some hfound⟩
  · rintro ⟨hx, rfl⟩
    cases hfound : xs.find? (key · = key x) with
    | none => exact absurd (decide_eq_true rfl) (List.find?_eq_none.mp hfound x hx)
    | some y =>
        have hsame : key y = key x := by simpa using List.find?_some hfound
        have hmem : y ∈ xs := List.mem_of_find?_eq_some hfound
        exact congrArg some (List.inj_on_of_nodup_map hkeys hmem hx hsame)

/-- What is found under a key does not depend on the order of a list, as long
as no two entries have the same key. -/
theorem find?_key_perm (hperm : xs.Perm ys) (hkeys : (xs.map key).Nodup) (k : κ) :
    xs.find? (key · = k) = ys.find? (key · = k) := by
  have hkeys' : (ys.map key).Nodup := (hperm.map key).nodup_iff.mp hkeys
  apply Option.ext
  intro x
  rw [find?_key_eq_some_iff hkeys, find?_key_eq_some_iff hkeys', hperm.mem_iff]

end Tables

end OpcSession
