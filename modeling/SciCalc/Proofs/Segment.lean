import Mathlib.Data.List.Infix
import Mathlib.Data.List.TakeWhile

/-! Segments of lists that pass a test: what is appended to a list leaves the segment at its head
alone, if the segment cannot go on there, and a list is no longer than its segments allow.
-/

namespace SciCalc

variable {α : Type}

/-- Where a test fails at the head of what is appended, it holds as far as it did before.
Witness: induction on the list; only a segment that is the whole list meets what is appended.
-/
theorem segment_append {test : α → Bool} {first second : List α}
    (stops : ∀ a ∈ second.head?, test a = false)
    : (first ++ second).takeWhile test = first.takeWhile test
      ∧ (first ++ second).dropWhile test = first.dropWhile test ++ second := by
  induction first with
  | nil =>
      cases second with
      | nil => simp
      | cons a rest => simp [stops a rfl]
  | cons a rest ih => cases holds : test a <;> simp [holds, ih]

theorem segment_eq_nil {test : α → Bool} {list : List α}
    (stops : ∀ a ∈ list.head?, test a = false)
    : list.takeWhile test = [] ∧ list.dropWhile test = list := by
  simpa using @segment_append α test [] list stops

/-- A word does not begin in one list and end in another that starts with none of its members.
-/
theorem prefix_append_iff_of_head {word first second : List α}
    (unlike : ∀ a ∈ second.head?, a ∉ word)
    : word <+: first ++ second ↔ word <+: first := by
  constructor
  · intro found
    rcases List.prefix_or_prefix_of_prefix found (List.prefix_append first second)
      with short | ⟨more, rfl⟩
    · exact short
    · cases more with
      | nil => simp
      | cons a rest =>
          obtain ⟨behind, rfl⟩ := (List.prefix_append_right_inj first).mp found
          exact absurd (by simp) (unlike a rfl)
  · intro found
    exact found.trans (List.prefix_append first second)

/-- A list whose segments are bounded is bounded by the members in between.
Witness: the segment at its head, the member that ends it, and the rest.
-/
theorem length_le_of_segments {test : α → Bool} {bound : Nat} {list : List α}
    (bounded
      : ∀ segment, segment <:+: list → (∀ a ∈ segment, test a) → segment.length ≤ bound)
    : list.length
      ≤ bound * (list.countP (fun a => !test a) + 1) + list.countP (fun a => !test a) := by
  have first := bounded _ (List.takeWhile_prefix test).isInfix fun _ => List.mem_takeWhile_imp
  have inside : (list.takeWhile test).countP (fun a => !test a) = 0 := by
    apply List.countP_eq_zero.mpr
    intro a member
    simp [List.mem_takeWhile_imp member]
  have parts := List.takeWhile_append_dropWhile (p := test) (l := list)
  cases behind : list.dropWhile test with
  | nil =>
      rw [behind, List.append_nil] at parts
      rw [parts] at first inside
      rw [inside]
      omega
  | cons a rest =>
      have fails : test a = false := by
        have stops := List.head?_dropWhile_not test list
        rw [behind] at stops
        exact stops
      have later : rest <:+: list :=
        ((List.suffix_cons a rest).trans (behind ▸ List.dropWhile_suffix test)).isInfix
      have shorter : rest.length < list.length := by
        rw [← parts, behind, List.length_append, List.length_cons]
        omega
      have others := length_le_of_segments fun segment within =>
        bounded segment (within.trans later)
      rw [← parts, behind, List.countP_append, inside, List.countP_cons, List.length_append,
        List.length_cons]
      simp only [fails, Bool.not_false, if_true, Nat.mul_add, Nat.mul_one] at others ⊢
      omega
termination_by list.length

end SciCalc
