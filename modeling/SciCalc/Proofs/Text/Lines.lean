import SciCalc.Text.Input

/-! Lines and what ends them: how a text is made up of its lines, and that it is so in one way. -/

namespace SciCalc.Text

/-- A plain line holds nothing that ends a line. -/
def IsPlain (line : List Char) : Prop :=
  '\n' ∉ line ∧ '\r' ∉ line

/-- What ends a line in front of the rest of a text. A return and a feed behind it are one end. -/
inductive EndsLine : List Char → List Char → Prop
  | feed {rest} : EndsLine ['\n'] rest
  | return {rest} (alone : rest.head? ≠ some '\n') : EndsLine ['\r'] rest
  | returnFeed {rest} : EndsLine ['\r', '\n'] rest

/-- A text is split into its lines. A last line without an end is not empty. -/
inductive IsSplit : List Char → List (List Char) → Prop
  | nil : IsSplit [] []
  | unended {line} (nonempty : line ≠ []) (plain : IsPlain line) : IsSplit line [line]
  | ended {line ending rest more} (plain : IsPlain line) (ends : EndsLine ending rest)
    (split : IsSplit rest more)
    : IsSplit (line ++ ending ++ rest) (line :: more)

variable {c : Char} {line ending rest text : List Char} {found : List (List Char)}

theorem isPlain_cons : IsPlain (c :: line) ↔ (c ≠ '\n' ∧ c ≠ '\r') ∧ IsPlain line := by
  simp only [IsPlain, List.mem_cons, not_or, ne_comm (a := c)]
  exact and_and_and_comm

/-- A character that ends no line stands at the head of the first line, if there is one. -/
theorem lines_cons (plain : c ≠ '\n' ∧ c ≠ '\r')
    : lines (c :: rest)
      = match lines rest with
        | [] => [[c]]
        | line :: more => (c :: line) :: more :=
  lines.eq_5 c rest (fun _ same _ => plain.2 same) plain.2 plain.1

/-- A line and its end come off a text, by induction on the line. -/
theorem lines_append (plain : IsPlain line) (ends : EndsLine ending rest)
    : lines (line ++ ending ++ rest) = line :: lines rest := by
  induction line with
  | nil =>
      cases ends with
      | feed | returnFeed => rfl
      | «return» alone =>
          cases rest with
          | nil => rfl
          | cons c more =>
              have other : c ≠ '\n' := by simpa using alone
              simp [lines, other]
  | cons c more ih =>
      obtain ⟨head, tail⟩ := isPlain_cons.mp plain
      rw [List.append_assoc, List.cons_append, lines_cons head, ← List.append_assoc, ih tail]

theorem lines_of_isPlain (nonempty : line ≠ []) (plain : IsPlain line) : lines line = [line] := by
  induction line with
  | nil => exact absurd rfl nonempty
  | cons c more ih =>
      obtain ⟨head, tail⟩ := isPlain_cons.mp plain
      rw [lines_cons head]
      cases more with
      | nil => rfl
      | cons d others => rw [ih (List.cons_ne_nil _ _) tail]

/-- The first line grows by a character in front of it, by cases on how the text is split. -/
theorem IsSplit.cons (plain : c ≠ '\n' ∧ c ≠ '\r') (split : IsSplit text found)
    : IsSplit (c :: text)
        (match found with
        | [] => [[c]]
        | line :: more => (c :: line) :: more) := by
  cases split with
  | nil => exact .unended (List.cons_ne_nil _ _) (isPlain_cons.mpr ⟨plain, by simp [IsPlain]⟩)
  | unended nonempty rest => exact .unended (List.cons_ne_nil _ _) (isPlain_cons.mpr ⟨plain, rest⟩)
  | ended rest ends more => exact .ended (isPlain_cons.mpr ⟨plain, rest⟩) ends more

/-- A text is split into its lines and in no other way. Witness: every line comes off with its end,
and conversely each character is one end, a part of one, or the head of a line.
-/
theorem isSplit_iff : IsSplit text found ↔ found = lines text := by
  constructor
  · intro split
    induction split with
    | nil => rfl
    | unended nonempty plain => exact (lines_of_isPlain nonempty plain).symm
    | ended plain ends _ ih => rw [lines_append plain ends, ih]
  · rintro rfl
    have empty : IsPlain [] := by simp [IsPlain]
    fun_induction lines text with
    | case1 => exact .nil
    | case2 rest ih => exact .ended empty .returnFeed ih
    | case3 rest other ih =>
        refine .ended empty (.return fun same => ?_) ih
        obtain ⟨more, here⟩ := List.head?_eq_some_iff.mp same
        exact other more here
    | case4 rest ih => exact .ended empty .feed ih
    | case5 c rest _ notReturn notFeed none ih =>
        rw [none] at ih
        exact ih.cons ⟨notFeed, notReturn⟩
    | case6 c rest _ notReturn notFeed line more found ih =>
        rw [found] at ih
        exact ih.cons ⟨notFeed, notReturn⟩

/-- Every string is split into some lines. -/
theorem exists_isSplit (text : String)
    : ∃ strings : List String, IsSplit text.toList (strings.map String.toList) :=
  ⟨(lines text.toList).map String.ofList, isSplit_iff.mpr (by simp)⟩

theorem IsSplit.map_ofList {text : List Char} {strings : List String}
    (split : IsSplit text (strings.map String.toList))
    : (lines text).map String.ofList = strings := by
  simp [← isSplit_iff.mp split]

end SciCalc.Text
