import SciCalc.Rpn.Text

/-! Balanced texts, and what the test for enclosing parentheses says of them.

The test counts depth from the first parenthesis on. A balanced text leaves the depth as it
found it and never touches its ground, so only the partner of the first parenthesis can.
-/

namespace SciCalc

/-- A text in which every parenthesis has its partner. -/
inductive Balanced : List Char → Prop
  | nil : Balanced []
  | plain {c rest} (notOpening : c ≠ '(') (notClosing : c ≠ ')') (balanced : Balanced rest)
    : Balanced (c :: rest)
  | group {inner rest} (enclosed : Balanced inner) (balanced : Balanced rest)
    : Balanced ('(' :: (inner ++ ')' :: rest))

/-- The count at a character that is not the last, by cases on what follows. -/
theorem closesEarly_cons {depth : Nat} {c : Char} {rest : List Char} (more : rest ≠ [])
    : closesEarly depth (c :: rest)
      = if c = '(' then closesEarly (depth + 1) rest
        else if c = ')' then depth = 1 || closesEarly (depth - 1) rest
        else closesEarly depth rest := by
  cases rest with
  | nil => exact absurd rfl more
  | cons next later => rfl

namespace Balanced

theorem of_forall {text : List Char} (plain : ∀ c ∈ text, c ≠ '(' ∧ c ≠ ')')
    : Balanced text := by
  induction text with
  | nil => exact .nil
  | cons c rest ih =>
      have here := plain c (by simp)
      exact .plain here.1 here.2 (ih fun d member => plain d (by simp [member]))

theorem append {first second : List Char} (before : Balanced first) (after : Balanced second)
    : Balanced (first ++ second) := by
  induction before with
  | nil => exact after
  | plain notOpening notClosing _ ih => exact .plain notOpening notClosing ih
  | group enclosed _ _ ih =>
      rw [List.cons_append, List.append_assoc, List.cons_append]
      exact .group enclosed ih

theorem enclose {inner : List Char} (balanced : Balanced inner)
    : Balanced ('(' :: (inner ++ [')'])) :=
  .group balanced .nil

/-- A balanced text closes nothing that is open before it.
Witness: induction on the text; a group is one deeper inside and as deep behind it.
-/
theorem closesEarly_append {inner : List Char} (balanced : Balanced inner) {depth : Nat}
    (opened : 0 < depth) {rest : List Char} (more : rest ≠ [])
    : closesEarly depth (inner ++ rest) = closesEarly depth rest := by
  induction balanced generalizing depth rest with
  | nil => rfl
  | plain notOpening notClosing _ ih =>
      rw [List.cons_append, closesEarly_cons (List.append_ne_nil_of_right_ne_nil _ more),
        if_neg notOpening, if_neg notClosing, ih opened more]
  | @group inside behind _ _ insideIH behindIH =>
      have follows : ')' :: (behind ++ rest) ≠ [] := List.cons_ne_nil _ _
      rw [List.cons_append, List.append_assoc, List.cons_append,
        closesEarly_cons (List.append_ne_nil_of_right_ne_nil _ follows), if_pos rfl,
        insideIH (by omega) follows,
        closesEarly_cons (List.append_ne_nil_of_right_ne_nil _ more), if_neg (by decide),
        if_pos rfl, Nat.add_sub_cancel, behindIH opened more]
      simp only [Bool.or_eq_right_iff_imp, decide_eq_true_eq]
      omega

end Balanced

/-- Parentheses around a balanced text are found to enclose it.
Witness: nothing inside reaches the ground, and the last character is not asked.
-/
theorem isWrapped_of_enclosed {text : String} {inner : List Char} (balanced : Balanced inner)
    (enclosed : text.toList = '(' :: (inner ++ [')']))
    : isWrapped text := by
  have deep := balanced.closesEarly_append Nat.zero_lt_one (List.cons_ne_nil ')' [])
  simp [isWrapped, enclosed, deep, closesEarly]

/-- A text that starts with any other character does not stand in parentheses. -/
theorem isWrapped_eq_false {text : String} (starts : text.toList.head? ≠ some '(')
    : isWrapped text = false := by
  unfold isWrapped
  split
  · next rest same =>
      rw [same] at starts
      exact absurd rfl starts
  · rfl

theorem Balanced.parenthesized {text : String} (balanced : Balanced text.toList)
    : Balanced (parenthesized text).toList := by
  rw [toList_parenthesized]
  exact balanced.enclose

/-- Behind the partner of the first parenthesis of a balanced text nothing more may stand, if the
text is found to stand in parentheses. Witness: the partner would close the depth too early.
-/
theorem Balanced.exists_of_isWrapped {text : String} (balanced : Balanced text.toList)
    (wrapped : isWrapped text)
    : ∃ inner : String, text = SciCalc.parenthesized inner ∧ Balanced inner.toList := by
  simp only [isWrapped] at wrapped
  generalize same : text.toList = characters at balanced wrapped
  cases balanced with
  | nil => cases wrapped
  | @plain c rest notOpening =>
      split at wrapped
      · next first => exact absurd (List.cons.inj first).1 notOpening
      · cases wrapped
  | @group inner rest enclosed _ =>
      cases rest with
      | nil =>
          refine ⟨String.ofList inner, String.ext ?_, by rwa [String.toList_ofList]⟩
          rw [toList_parenthesized, String.toList_ofList, same]
      | cons next later =>
          have partner := enclosed.closesEarly_append Nat.zero_lt_one
            (List.cons_ne_nil ')' (next :: later))
          rw [closesEarly_cons (List.cons_ne_nil next later)] at partner
          simp [partner] at wrapped

end SciCalc
