import SciCalc.Proofs.Scan.Blanks
import SciCalc.Proofs.Scan.Recognition

/-! Blanked texts: a space stands for every character that is not recognized.

The spellings of a text are those of the blanked text too, since a space belongs to none of them
and lets none of them go on. So the strict scan of the blanked text is the lenient scan of the text,
only that there is nothing left to pass over.
-/

namespace SciCalc

instance (occurrence : Occurrence) (place : Nat) : Decidable (occurrence.Covers place) :=
  inferInstanceAs (Decidable (_ ∧ _))

/-- A text with a space for every character that is not blank and belongs to no spelling. -/
def blankOut (occurrences : List Occurrence) (text : List Char) : List Char :=
  text.mapIdx fun place c =>
    if Text.isBlank c ∨ ∃ occurrence ∈ occurrences, occurrence.Covers place then c else ' '

/-- A text is another one, from a position on, with a space for every character that is not
recognized.
-/
structure Blanked (text : List Char) (start : Nat) (occurrences : List Occurrence)
    (blanked : List Char) : Prop where
  replaced
    : ∀ c place, Unrecognized text start occurrences c place → blanked[place]? = some ' '
  kept
    : ∀ place,
        start ≤ place
        → (∀ c, ¬ Unrecognized text start occurrences c place)
        → blanked[place]? = text[place]?

variable {text blanked : List Char} {start position place : Nat} {c : Char}
variable {spelling : Spelling} {occurrences others : List Occurrence}

theorem blanked_blankOut (occurrences : List Occurrence) (text : List Char)
    : Blanked text 0 occurrences (blankOut occurrences text) := by
  constructor
  · rintro c place ⟨_, stands, visible, uncovered⟩
    have unknown : ¬ (Text.isBlank c ∨ ∃ occurrence ∈ occurrences, occurrence.Covers place) := by
      simpa [visible] using uncovered
    simp [blankOut, List.getElem?_mapIdx, stands, unknown]
  · intro place behind recognized
    cases stands : text[place]? with
    | none => simp [blankOut, List.getElem?_mapIdx, stands]
    | some c =>
        have known : Text.isBlank c ∨ ∃ occurrence ∈ occurrences, occurrence.Covers place := by
          by_contra unknown
          push Not at unknown
          exact recognized c ⟨behind, stands, by simpa using unknown.1, unknown.2⟩
        simp [blankOut, List.getElem?_mapIdx, stands, known]

-----------------------------------------------------------------------------------------
-- Spellings before a space
-----------------------------------------------------------------------------------------

/-- A text is another one, but that some of its characters are spaces now. -/
def Fades (text faded : List Char) : Prop :=
  ∀ place : Nat, faded[place]? = text[place]? ∨ faded[place]? = some ' '

/-- A literal that stops before a text stops before it as it fades: a space is no digit and no
point.
-/
theorem Literal.StopsBefore.fade {literal : Literal} {faded : List Char}
    (stops : literal.StopsBefore text) (fades : Fades text faded)
    : literal.StopsBefore faded := by
  constructor
  · intro c head
    rw [List.head?_eq_getElem?] at head
    rcases fades 0 with same | space
    · rw [same, ← List.head?_eq_getElem?] at head
      exact stops.digit c head
    · rw [space] at head
      cases head
      decide
  · rintro whole c after rfl
    rcases fades 1 with second | space
    · obtain ⟨_, _, rfl⟩ : ∃ d more, text = d :: c :: more := by
        match text, second with
        | first :: _ :: more, second => exact ⟨first, more, by simpa using second.symm⟩
      rcases fades 0 with first | space
      · cases first
        exact stops.point whole c _ rfl
      · cases space
    · cases space
      decide

theorem Spelling.StopsBefore.fade {faded : List Char} (stops : spelling.StopsBefore text)
    (fades : Fades text faded)
    : spelling.StopsBefore faded := by
  cases spelling with
  | literal number => exact Literal.StopsBefore.fade stops fades
  | _ => trivial

namespace Blanked

/-- Behind the start a blanked text is the text as it fades. -/
theorem fades_drop (blanks : Blanked text start occurrences blanked) (behind : start ≤ place)
    : Fades (text.drop place) (blanked.drop place) := by
  intro further
  rw [List.getElem?_drop, List.getElem?_drop]
  by_cases unrecognized : ∃ c, Unrecognized text start occurrences c (place + further)
  · obtain ⟨c, found⟩ := unrecognized
    exact .inr (blanks.replaced c _ found)
  · push Not at unrecognized
    exact .inl (blanks.kept _ (by omega) unrecognized)

/-- Behind a spelling at the start all is blanked as before. -/
theorem behind_spelling (blanks : Blanked text position (⟨spelling, position⟩ :: others) blanked)
    : Blanked text (position + spelling.text.length) others blanked where
  replaced c place found := blanks.replaced c place (unrecognized_cons_iff.mpr found)
  kept place behind recognized :=
    blanks.kept place (by omega) fun c found => recognized c (unrecognized_cons_iff.mp found)

/-- Behind a character at which nothing is found all is blanked as before. -/
theorem behind_gap (blanks : Blanked text position others blanked)
    : Blanked text (position + 1) others blanked where
  replaced c place found :=
    blanks.replaced c place
      ⟨Nat.le_of_succ_le found.behind, found.stands, found.visible, found.uncovered⟩
  kept place behind recognized :=
    blanks.kept place (by omega) fun c found =>
      recognized c ⟨behind, found.stands, found.visible, found.uncovered⟩

/-- A spelling that is found in a text is found in the blanked text.
Witness: its characters are kept, and what follows only fades.
-/
theorem ofHead?_drop (blanks : Blanked text position (⟨spelling, position⟩ :: others) blanked)
    (found : Spelling.ofHead? (text.drop position) = some spelling)
    : Spelling.ofHead? (blanked.drop position) = some spelling := by
  have stands : Occurrence.StandsIn ⟨spelling, position⟩ text := Occurrence.standsIn_iff.mpr found
  apply Occurrence.standsIn_iff.mp
    (⟨stands.wellFormed, ?_, ?_⟩ : Occurrence.StandsIn ⟨spelling, position⟩ blanked)
  · have written := List.prefix_iff_getElem?.mp stands.written
    refine List.prefix_iff_getElem?.mpr fun index inside => ?_
    rw [← written index inside, List.getElem?_drop, List.getElem?_drop]
    refine blanks.kept _ (Nat.le_add_right _ _) fun c unrecognized => ?_
    refine unrecognized.uncovered _ List.mem_cons_self ⟨Nat.le_add_right _ _, ?_⟩
    simpa [Occurrence.stop] using inside
  · exact stands.stops.fade (blanks.fades_drop (by simp [Occurrence.stop]))

/-- Where nothing is found in a text a blank stands in the blanked text. -/
theorem exists_blank (blanks : Blanked text position others blanked)
    (more : Cut text (position + 1) others) (stands : text[position]? = some c)
    : ∃ d, blanked[position]? = some d ∧ Text.isBlank d := by
  cases blank : Text.isBlank c with
  | false =>
      exact ⟨' ', blanks.replaced c position (more.firstUnrecognized stands blank).1, by decide⟩
  | true =>
      refine ⟨c, ?_, blank⟩
      rw [blanks.kept position (Nat.le_refl _) fun d found => ?_, stands]
      obtain rfl := Option.some.inj (stands.symm.trans found.stands)
      cases blank.symm.trans found.visible

end Blanked

-----------------------------------------------------------------------------------------
-- Scanning a blanked text
-----------------------------------------------------------------------------------------

/-- A stream without the characters that it passes over. -/
def TokenStream.silent : TokenStream → TokenStream
  | .done => .done
  | .fault failure => .fault failure
  | .skip _ _ rest => rest.silent
  | .deliver token rest => .deliver token rest.silent

@[simp] theorem TokenStream.tokens_silent (stream : TokenStream)
    : stream.silent.tokens = stream.tokens := by
  induction stream with
  | done | fault _ => rfl
  | skip _ _ rest ih => exact ih
  | deliver token rest ih => exact congrArg (token :: ·) ih

@[simp] theorem TokenStream.failure?_silent (stream : TokenStream)
    : stream.silent.failure? = stream.failure? := by
  induction stream with
  | done | fault _ => rfl
  | skip _ _ rest ih | deliver _ rest ih => exact ih

/-- A blanked text is cut as the text is, and its strict scan delivers what the lenient one does.
Witness: induction on the cut; where nothing is found there is a blank to pass over.
-/
theorem Cut.scan_blanked (cut : Cut text start occurrences)
    (blanks : Blanked text start occurrences blanked)
    : Cut blanked start occurrences
      ∧ scanFrom .strict start (blanked.drop start)
        = (scanFrom .lenient start (text.drop start)).silent := by
  induction cut with
  | @done position ends =>
      have beyond : text[position]? = none := List.getElem?_eq_none ends
      have nowEnds : blanked.length ≤ position := by
        apply List.getElem?_eq_none_iff.mp
        rw [blanks.kept position (Nat.le_refl _) fun c found => ?_, beyond]
        cases beyond.symm.trans found.stands
      refine ⟨.done nowEnds, ?_⟩
      rw [List.drop_eq_nil_of_le ends, List.drop_eq_nil_of_le nowEnds, scanFrom, scanFrom]
      rfl
  | @spelling position spelling others found more ih =>
      obtain ⟨cut, scanned⟩ := ih blanks.behind_spelling
      refine ⟨.spelling (blanks.ofHead?_drop found) cut, ?_⟩
      rw [scanFrom_drop_of_found found, scanFrom_drop_of_found (blanks.ofHead?_drop found), scanned]
      cases spelling.lexeme? <;> rfl
  | @gap position others inside nothing more ih =>
      obtain ⟨cut, scanned⟩ := ih blanks.behind_gap
      have stands := List.getElem?_eq_getElem inside
      obtain ⟨d, blankStands, blank⟩ := blanks.exists_blank more stands
      obtain ⟨nowInside, here⟩ := List.getElem?_eq_some_iff.mp blankStands
      have empty : Spelling.ofHead? (blanked.drop position) = none := by
        rw [List.drop_eq_getElem_cons nowInside, here]
        exact Spelling.ofHead?_eq_none_iff.mpr (startsNothing_of_isBlank blank)
      refine ⟨.gap nowInside empty cut, ?_⟩
      rw [scanFrom_drop_of_gap stands nothing, scanFrom_drop_of_gap blankStands empty, if_pos blank,
        scanned]
      split <;> rfl

-----------------------------------------------------------------------------------------
-- Expressions
-----------------------------------------------------------------------------------------

/-- To skip a character is to read a space. With a space for every character that is not
recognized an expression has the same segmentation, so nothing is joined or split, and its strict
scan has the tokens of the lenient scan of the expression, and its failure: a number out of range,
if anything.
-/
theorem tokenize_blankOut (expression : String)
    : ∃ occurrences,
        IsSegmentation expression.toList 0 occurrences
        ∧ (∀ other, IsSegmentation expression.toList 0 other → other = occurrences)
        ∧ let blanked := String.ofList (blankOut occurrences expression.toList)
          Blanked expression.toList 0 occurrences blanked.toList
          ∧ IsSegmentation blanked.toList 0 occurrences
          ∧ (scan .strict blanked).tokens = (scan .lenient expression).tokens
          ∧ (scan .strict blanked).failure? = (scan .lenient expression).failure?
          ∧ (∀ failure ∈ (scan .strict blanked).failure?,
              ∃ position, failure = .numberOutOfRange position)
          ∧ (tokenize .strict blanked).outcome = (tokenize .lenient expression).outcome := by
  obtain ⟨occurrences, cut⟩ := exists_cut expression.toList 0
  refine ⟨occurrences, cut.isSegmentation, fun other => cut.eq_of_isSegmentation, ?_⟩
  intro blanked
  have blanks : Blanked expression.toList 0 occurrences blanked.toList := by
    rw [String.toList_ofList]
    exact blanked_blankOut occurrences expression.toList
  obtain ⟨blankedCut, scanned⟩ := cut.scan_blanked blanks
  rw [scanFrom_drop_zero, scanFrom_drop_zero] at scanned
  have tokens : (scan .strict blanked).tokens = (scan .lenient expression).tokens := by
    rw [scanned, TokenStream.tokens_silent]
  have failure : (scan .strict blanked).failure? = (scan .lenient expression).failure? := by
    rw [scanned, TokenStream.failure?_silent]
  refine ⟨blanks, blankedCut.isSegmentation, tokens, failure, fun early fails => ?_, ?_⟩
  · obtain ⟨delivered, rest, _, _, blamed, _⟩ := cut.scan_lenient
    rw [scanFrom_drop_zero, ← failure, fails] at blamed
    obtain ⟨occurrence, _, rfl⟩ := Option.map_eq_some_iff.mp blamed.symm
    exact ⟨occurrence.position, rfl⟩
  · rw [outcome_tokenize, outcome_tokenize, tokens, failure]

/-- A character that is skipped separates two numbers, as a space in its place does. -/
example : (scan .lenient "2$3").tokens = [⟨.number 2.0, 0⟩, ⟨.number 3.0, 2⟩]
    ∧ (scan .strict "2 3").tokens = [⟨.number 2.0, 0⟩, ⟨.number 3.0, 2⟩] := by
  decide +kernel

end SciCalc
