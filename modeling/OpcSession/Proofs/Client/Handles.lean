import Mathlib.Data.List.Nodup
import OpcSession.Proofs.Client.Traffic

/-!
# Handles around the circle

A channel draws its handles from a counter of 32 bits, which begins anew after the last, and
draws again where it drew zero.  So it never draws more than twice, and what it gives out goes
around a circle of all handles but zero: of handles that follow each other, as many as there are
in the circle are different.

* `Channel.Draws` — to draw until something else than zero comes; `draws_iff` — that is one
  allocation;
* `Channel.handle_eq` — what is allocated after so many others;
* `Channel.handles_recur` — when two allocations give the same.
-/

namespace OpcSession.Client.Channel

open Simulation (handleAt toNat_handleAt allocate_eq allocate_next)

variable {c c' : Channel} {n : Nat} {x : UInt32}

/-! ## One allocation -/

/-- The counter gives its value and goes on by one, from its last value to
zero. -/
def draw (c : Channel) : UInt32 × Channel :=
  (c.nextHandle, { c with nextHandle := c.nextHandle + 1 })

/-- To draw until something else than zero comes: how often that was, what
came, and what the channel is then. -/
inductive Draws : Channel → Nat → UInt32 → Channel → Prop
  /-- What was drawn is no zero, and is the handle. -/
  | done {c : Channel} (hnonzero : c.draw.1 ≠ 0) : Draws c 1 c.draw.1 c.draw.2
  /-- What was drawn is zero, and is thrown away. -/
  | again {c c' : Channel} {n : Nat} {x : UInt32} (hzero : c.draw.1 = 0)
      (hrest : Draws c.draw.2 n x c') : Draws c (n + 1) x c'

/-- There is one way to draw until something else than zero comes, so a loop
that does so is a function of the counter. -/
theorem Draws.unique {d : Channel} {m : Nat} {y : UInt32} (h : Draws c n x c')
    (h' : Draws c m y d) : m = n ∧ y = x ∧ d = c' := by
  induction h generalizing m with
  | done hnonzero =>
      cases h' with
      | done _ => exact ⟨rfl, rfl, rfl⟩
      | again hzero _ => exact absurd hzero hnonzero
  | again hzero _ ih =>
      cases h' with
      | done hnonzero => exact absurd hzero hnonzero
      | again _ hrest =>
          obtain ⟨rfl, hsame⟩ := ih hrest
          exact ⟨rfl, hsame⟩

/-- How often is drawn for one handle: once, and once more where the counter
stands at zero. -/
def draws (c : Channel) : Nat := if c.nextHandle = 0 then 2 else 1

/-- Nobody ever draws more than twice, for after zero comes one. -/
theorem draws_le (c : Channel) : c.draws ≤ 2 := by
  unfold draws
  split <;> decide

/-- An allocation draws until something else than zero comes, and leaves the
counter behind what it drew last. -/
theorem draws_allocate (c : Channel) : Draws c c.draws c.allocate.1 c.allocate.2 := by
  unfold draws allocate
  by_cases hzero : c.nextHandle = 0
  · have hsecond : Draws { c with nextHandle := 1 } 1 1 { c with nextHandle := 2 } :=
      .done (show (1 : UInt32) ≠ 0 by decide)
    have hcounter : c.draw.2 = { c with nextHandle := 1 } := by
      rw [draw, hzero]
      rfl
    rw [if_pos hzero, if_pos hzero]
    exact .again hzero (hcounter ▸ hsecond)
  · rw [if_neg hzero, if_neg hzero]
    exact .done hzero

/-- **To draw until something else than zero comes is one allocation**, which
settles at once what the loop would come to. -/
theorem draws_iff : Draws c n x c' ↔ n = c.draws ∧ x = c.allocate.1 ∧ c' = c.allocate.2 := by
  constructor
  · exact c.draws_allocate.unique
  · rintro ⟨rfl, rfl, rfl⟩
    exact c.draws_allocate

/-! ## One after the other -/

/-- The channel after so many allocations, with nothing else done to it in
between. -/
def allocated (c : Channel) : Nat → Channel
  | 0 => c
  | n + 1 => (c.allocated n).allocate.2

/-- The handle that is allocated after `n` others, wherever the counter
began. -/
def handle (c : Channel) (n : Nat) : UInt32 := (c.allocated n).allocate.1

/-- **The handles are those of the circle**, from the place of the counter
on. -/
theorem handle_eq (c : Channel) (n : Nat) :
    c.handle n = handleAt (c.nextHandle.toNat - 1 + n) := by
  induction n with
  | zero => exact allocate_eq c
  | succ n ih => exact allocate_next ih

/-- Zero is never given out; it stands for requests that have no handle. -/
theorem handle_ne_zero (c : Channel) (n : Nat) : c.handle n ≠ 0 := by
  intro hzero
  have hvalue := toNat_handleAt (c.nextHandle.toNat - 1 + n)
  rw [← handle_eq, hzero] at hvalue
  exact absurd hvalue (Nat.zero_ne_add_one _)

/-- Two allocations give the same where whole circles lie between them, and
only there. -/
theorem handle_eq_iff (c : Channel) (i j : Nat) :
    c.handle i = c.handle j ↔ i % (2 ^ 32 - 1) = j % (2 ^ 32 - 1) := by
  rw [handle_eq, handle_eq, ← UInt32.toNat_inj, toNat_handleAt, toNat_handleAt]
  omega

/-- **Handles recur after a whole circle, and not before.**  Wherever the
counter stands and however many handles are allocated: each allocation ends
after two draws at most and gives no zero; two of them give the same exactly
if their numbers are congruent modulo the `2 ^ 32 - 1` handles that there are;
and so as many as that, one after the other, are different. -/
theorem handles_recur (c : Channel) :
    (∀ i, (c.allocated i).draws ≤ 2 ∧ c.handle i ≠ 0 ∧
      ∀ n x c', Draws (c.allocated i) n x c' ↔
        n = (c.allocated i).draws ∧ x = c.handle i ∧ c' = c.allocated (i + 1)) ∧
    (∀ i j, c.handle i = c.handle j ↔ i % (2 ^ 32 - 1) = j % (2 ^ 32 - 1)) ∧
    ∀ i, ((List.range' i (2 ^ 32 - 1)).map c.handle).Nodup := by
  refine ⟨fun i => ⟨draws_le _, c.handle_ne_zero i, fun _ _ _ => draws_iff⟩, c.handle_eq_iff,
    fun i => ?_⟩
  refine List.Nodup.map_on (fun j hj k hk hsame => ?_) List.nodup_range'
  have hcongruent := (c.handle_eq_iff j k).mp hsame
  rw [List.mem_range'_1] at hj hk
  omega

end OpcSession.Client.Channel
