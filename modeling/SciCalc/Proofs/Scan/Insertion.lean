import SciCalc.Proofs.Evaluation.Places
import SciCalc.Proofs.Scan.Blanks
import SciCalc.Proofs.Scan.Recognition

/-! Blanks put into a text: they move what stands behind them, and change nothing else.

Where no spelling stands across a place, a text is scanned as its two parts are, one after the
other. Blanks between the parts only let the second one start later.
-/

namespace SciCalc

variable {mode : Mode} {start position : Nat} {c : Char} {before after blanks rest : List Char}
variable {spelling : Spelling} {occurrences : List Occurrence} {move other : Int → Int}

-----------------------------------------------------------------------------------------
-- The places of a stream
-----------------------------------------------------------------------------------------

/-- All places that a stream tells of: those of its tokens, of what it passes over, and of its
failure.
-/
def TokenStream.AllPlaces (holds : Int → Prop) : TokenStream → Prop
  | .done => True
  | .fault failure => ∀ place ∈ failure.position?, holds place
  | .skip _ position rest => holds position ∧ rest.AllPlaces holds
  | .deliver token rest => holds token.position ∧ rest.AllPlaces holds

/-- How a failure is moved depends only on where its own place comes to, by cases. -/
theorem Failure.relocate_congr {failure : Failure}
    (same : ∀ place ∈ failure.position?, move place = other place)
    : failure.relocate move = failure.relocate other := by
  cases failure <;> simp_all [position?, relocate]

namespace TokenStream

theorem AllPlaces.imp {holds weaker : Int → Prop} {stream : TokenStream}
    (all : stream.AllPlaces holds) (weakened : ∀ place, holds place → weaker place)
    : stream.AllPlaces weaker := by
  induction stream with
  | done => trivial
  | fault failure => exact fun place member => weakened place (all place member)
  | skip _ position rest ih | deliver token rest ih => exact ⟨weakened _ all.1, ih all.2⟩

theorem AllPlaces.of_failure? {holds : Int → Prop} {stream : TokenStream}
    (all : stream.AllPlaces holds) {failure : Failure} (fails : stream.failure? = some failure)
    : ∀ place ∈ failure.position?, holds place := by
  induction stream with
  | done => cases fails
  | fault early =>
      cases fails
      exact all
  | skip _ _ rest ih | deliver _ rest ih => exact ih all.2 fails

theorem relocate_id (stream : TokenStream) : stream.relocate id = stream := by
  induction stream with
  | done => rfl
  | fault failure => cases failure <;> rfl
  | skip character position rest ih => exact congrArg (skip character position) ih
  | deliver token rest ih => exact congrArg (deliver token) ih

/-- How a stream is moved depends only on where its own places come to. -/
theorem relocate_congr {stream : TokenStream}
    (same : stream.AllPlaces fun place => move place = other place)
    : stream.relocate move = stream.relocate other := by
  induction stream with
  | done => rfl
  | fault failure => exact congrArg fault (Failure.relocate_congr same)
  | skip character position rest ih => simp only [relocate, same.1, ih same.2]
  | deliver token rest ih => simp only [relocate, Token.relocate, same.1, ih same.2]

theorem relocate_followedBy (stream next : TokenStream)
    : (stream.followedBy next).relocate move
      = (stream.relocate move).followedBy (next.relocate move) := by
  induction stream with
  | done | fault _ => rfl
  | skip character position rest ih => exact congrArg (skip _ _) ih
  | deliver token rest ih => exact congrArg (deliver _) ih

end TokenStream

/-- A scan tells of places in its text only, by induction on the scan. -/
theorem allPlaces_scanFrom (mode : Mode) (position : Nat) (text : List Char)
    : (scanFrom mode position text).AllPlaces fun place =>
        (position : Int) ≤ place ∧ place < (position + text.length : Nat) := by
  fun_induction scanFrom mode position text with
  | case1 => trivial
  | case2 position c later spelling found lexeme means ih =>
      have within := (Spelling.text_prefix_of_ofHead? found).length_le
      have some := Spelling.length_text_pos_of_ofHead? found
      rw [List.length_cons] at within ⊢
      refine ⟨⟨Int.le_refl _, by simp⟩, ih.imp fun place bounds => ?_⟩
      rw [List.length_drop] at bounds
      omega
  | case3 position c later spelling found fails =>
      simp [TokenStream.AllPlaces, Failure.position?]
  | case4 position c later found blank ih =>
      refine ih.imp fun place bounds => ?_
      rw [List.length_cons]
      omega
  | case5 position c later found blank strict =>
      simp [TokenStream.AllPlaces, Failure.position?]
  | case6 position c later found blank lenient ih =>
      subst lenient
      refine ⟨by simp, ih.imp fun place bounds => ?_⟩
      rw [List.length_cons]
      omega

-----------------------------------------------------------------------------------------
-- Parting a text where no spelling stands
-----------------------------------------------------------------------------------------

theorem Spelling.StopsBefore.of_append (stops : spelling.StopsBefore (rest ++ after))
    : spelling.StopsBefore rest := by
  cases spelling with
  | literal number =>
      refine ⟨fun c head => stops.digit c ?_, fun whole c later same => ?_⟩
      · rw [List.head?_append, head]
        rfl
      · exact stops.point whole c (later ++ after) (by rw [same]; rfl)
  | _ => trivial

theorem StartsNothing.of_append (nothing : StartsNothing c (rest ++ after))
    : StartsNothing c rest where
  digit := nothing.digit
  operator := nothing.operator
  parenthesis := nothing.parenthesis
  name f starts := nothing.name f (starts.trans (List.prefix_append (c :: rest) after))

/-- A spelling stands across a place: it starts before the place and goes on behind it. Only one
of several characters can.
-/
def Occurrence.Straddles (occurrence : Occurrence) (place : Nat) : Prop :=
  occurrence.position < place ∧ place < occurrence.stop

instance (occurrence : Occurrence) (place : Nat) : Decidable (occurrence.Straddles place) :=
  inferInstanceAs (Decidable (_ ∧ _))

/-- A scan gets as far as a place: it does not fail before. -/
def TokenStream.Reaches (stream : TokenStream) (place : Nat) : Prop :=
  ∀ failure ∈ stream.failure?, ∀ culprit ∈ failure.position?, (place : Int) ≤ culprit

theorem reaches_scanFrom (mode : Mode) (position : Nat) (text : List Char)
    : (scanFrom mode position text).Reaches position :=
  fun _ fails culprit blamed =>
    ((allPlaces_scanFrom mode position text).of_failure? fails culprit blamed).1

/-- A spelling that ends in the first part of a text is found in that part alone.
Witness: what follows it there goes on as in the whole text, or ends.
-/
theorem ofHead?_drop_of_stop_le
    (found : Spelling.ofHead? ((before ++ after).drop position) = some spelling)
    (within : position + spelling.text.length ≤ before.length)
    : Spelling.ofHead? (before.drop position) = some spelling := by
  have stands : Occurrence.StandsIn ⟨spelling, position⟩ (before ++ after) :=
    Occurrence.standsIn_iff.mpr found
  have written : spelling.text <+: (before ++ after).drop position := stands.written
  have stops : spelling.StopsBefore ((before ++ after).drop (position + spelling.text.length)) :=
    stands.stops
  rw [List.drop_append_of_le_length (by omega)] at written
  rw [List.drop_append_of_le_length within] at stops
  have part : spelling.text <+: before.drop position := by
    apply List.prefix_of_prefix_length_le written (List.prefix_append _ after)
    rw [List.length_drop]
    omega
  exact Occurrence.standsIn_iff.mp
    (⟨stands.wellFormed, part, stops.of_append⟩ : Occurrence.StandsIn ⟨spelling, position⟩ before)

/-- Where nothing is found in a text, nothing is found in its first part alone. -/
theorem ofHead?_drop_eq_none (inside : position < before.length)
    (nothing : Spelling.ofHead? ((before ++ after).drop position) = none)
    : Spelling.ofHead? (before.drop position) = none := by
  rw [List.drop_append_of_le_length (by omega), List.drop_eq_getElem_cons inside] at nothing
  rw [List.drop_eq_getElem_cons inside]
  exact Spelling.ofHead?_eq_none_iff.mpr (Spelling.ofHead?_eq_none_iff.mp nothing).of_append

/-- At the seam of two texts the first one is at its end. -/
theorem scanFrom_seam (mode : Mode) (before after : List Char)
    : scanFrom mode before.length ((before ++ after).drop before.length)
      = (scanFrom mode before.length (before.drop before.length)).followedBy
          (scanFrom mode before.length after) := by
  have ended : scanFrom mode before.length [] = .done := by rw [scanFrom]
  rw [List.drop_left, List.drop_length, ended, TokenStream.followedBy]

/-- Where no spelling stands across the seam of two texts, they are scanned one after the other.
Witness: induction on the cut up to the seam; what is found before the seam ends before it too.
-/
theorem Cut.scanFrom_parted (cut : Cut (before ++ after) start occurrences)
    (within : start ≤ before.length)
    (clear
      : ∀ occurrence ∈ occurrences,
          (scanFrom mode start ((before ++ after).drop start)).Reaches occurrence.position
          → ¬ occurrence.Straddles before.length)
    : scanFrom mode start ((before ++ after).drop start)
      = (scanFrom mode start (before.drop start)).followedBy
          (scanFrom mode before.length after) := by
  induction cut with
  | @done position ends =>
      rw [List.length_append] at ends
      obtain rfl : position = before.length := by omega
      exact scanFrom_seam mode before after
  | @spelling position spelling others found more ih =>
      rcases Nat.eq_or_lt_of_le within with rfl | inside
      · exact scanFrom_seam mode before after
      · obtain ⟨here, behind⟩ := List.forall_mem_cons.mp clear
        have ends : position + spelling.text.length ≤ before.length := by
          have whole := here (reaches_scanFrom mode position _)
          simp only [Occurrence.Straddles, Occurrence.stop] at whole
          omega
        rw [scanFrom_drop_of_found found] at behind ⊢
        rw [scanFrom_drop_of_found (ofHead?_drop_of_stop_le found ends)]
        cases means : spelling.lexeme? with
        | none => rfl
        | some lexeme =>
            rw [means] at behind
            exact congrArg _ (ih ends behind)
  | @gap position others _ nothing more ih =>
      rcases Nat.eq_or_lt_of_le within with rfl | inside
      · exact scanFrom_seam mode before after
      · have stands := List.getElem?_eq_getElem inside
        have standsToo : (before ++ after)[position]? = some before[position] := by
          rw [List.getElem?_append_left inside, stands]
        rw [scanFrom_drop_of_gap standsToo nothing] at clear ⊢
        rw [scanFrom_drop_of_gap stands (ofHead?_drop_eq_none inside nothing)]
        cases blank : Text.isBlank before[position] with
        | true =>
            simp only [blank, if_true] at clear ⊢
            exact ih inside clear
        | false =>
            simp only [blank, Bool.false_eq_true, if_false] at clear ⊢
            cases mode with
            | strict => rfl
            | lenient => exact congrArg _ (ih inside clear)

-----------------------------------------------------------------------------------------
-- Blanks in between
-----------------------------------------------------------------------------------------

/-- Where places come to if a gap of some width opens: those from the gap on move. -/
def movedBehind (gap width : Nat) (place : Int) : Int :=
  if place < gap then place else place + width

/-- Blanks between two texts let the second one be scanned later.
Witness: no lexeme of the first text goes on over a blank.
-/
theorem scanFrom_blanks_between (blank : ∀ c ∈ blanks, Text.isBlank c)
    (parted
      : scanFrom mode start (before ++ after)
        = (scanFrom mode start before).followedBy
            (scanFrom mode (start + before.length) after))
    : scanFrom mode start (before ++ (blanks ++ after))
      = (scanFrom mode start before).followedBy
          ((scanFrom mode (start + before.length) after).relocate (· + blanks.length)) := by
  rw [← scanFrom_add]
  cases blanks with
  | nil => exact parted
  | cons c more =>
      have apart : StartsApart (c :: more ++ after) :=
        startsApart_of_isBlank fun d head => by
          cases head
          exact blank c List.mem_cons_self
      rw [scanFrom_append apart, scanFrom_blanks_append blank]

/-- Blanks at a place where no spelling stands across open a gap: the scan is the same, with all
behind the gap moved by its width.
Witness: the first text is scanned before the gap, and the second one behind it.
-/
theorem Cut.scanFrom_insert_blanks (cut : Cut (before ++ after) 0 occurrences)
    (blank : ∀ c ∈ blanks, Text.isBlank c)
    (clear
      : ∀ occurrence ∈ occurrences,
          (scanFrom mode 0 (before ++ after)).Reaches occurrence.position
          → ¬ occurrence.Straddles before.length)
    : scanFrom mode 0 (before ++ (blanks ++ after))
      = (scanFrom mode 0 (before ++ after)).relocate
          (movedBehind before.length blanks.length) := by
  have parted : scanFrom mode 0 (before ++ after)
      = (scanFrom mode 0 before).followedBy (scanFrom mode (0 + before.length) after) := by
    have seam := cut.scanFrom_parted (Nat.zero_le _) clear
    rwa [List.drop_zero, List.drop_zero, ← Nat.zero_add before.length] at seam
  have stays : (scanFrom mode 0 before).relocate (movedBehind before.length blanks.length)
      = scanFrom mode 0 before := by
    refine .trans (TokenStream.relocate_congr ?_) (TokenStream.relocate_id _)
    refine (allPlaces_scanFrom mode 0 before).imp fun place bounds => if_pos ?_
    omega
  have moves : (scanFrom mode (0 + before.length) after).relocate
        (movedBehind before.length blanks.length)
      = (scanFrom mode (0 + before.length) after).relocate (· + blanks.length) := by
    apply TokenStream.relocate_congr
    refine (allPlaces_scanFrom mode _ after).imp fun place bounds => if_neg ?_
    omega
  rw [scanFrom_blanks_between blank parted, parted, TokenStream.relocate_followedBy, stays, moves]

-----------------------------------------------------------------------------------------
-- Expressions
-----------------------------------------------------------------------------------------

/-- A failure that is moved stands where its place comes to, by cases. -/
theorem Failure.position?_relocate_movedBehind (failure : Failure) (gap width : Nat)
    : (failure.relocate (movedBehind gap width)).position?
      = failure.position?.map (movedBehind gap width) := by
  have forward (position : Nat)
      : ((movedBehind gap width position).toNat : Int) = movedBehind gap width position := by
    simp only [movedBehind]
    split <;> omega
  cases failure <;> simp [relocate, position?, forward]

/-- The scan of an expression is moved as blanks open a gap in it.
Witness: there is one segmentation, and it is the cut that the scan follows.
-/
theorem scan_insert_blanks (mode : Mode) (before blanks after : String)
    (blank : ∀ c ∈ blanks.toList, Text.isBlank c)
    (segmentation : IsSegmentation (before ++ after).toList 0 occurrences)
    (clear
      : ∀ occurrence ∈ occurrences,
          (scan mode (before ++ after)).Reaches occurrence.position
          → ¬ occurrence.Straddles before.length)
    : scan mode (before ++ blanks ++ after)
      = (scan mode (before ++ after)).relocate (movedBehind before.length blanks.length) := by
  obtain ⟨others, cut⟩ := exists_cut (before ++ after).toList 0
  obtain rfl := cut.eq_of_isSegmentation segmentation
  simp only [scan, String.toList_append, ← String.length_toList] at cut clear
  have inserted := cut.scanFrom_insert_blanks blank clear
  rw [← List.append_assoc, ← String.toList_append, ← String.toList_append,
    ← String.toList_append, String.length_toList, String.length_toList] at inserted
  exact inserted

/-- Blanks may be put into an expression wherever no spelling stands across, or where the scan does
not get to: the tokens are the same, those from there on moved by as many characters as there are
blanks, and so is the failure of the scan, if it fails. The expression has the same value, or fails
for the same reason with its place moved alike.
-/
theorem evaluate_insert_blanks (mode : Mode) (before blanks after : String)
    (occurrences : List Occurrence) (blank : ∀ c ∈ blanks.toList, Text.isBlank c)
    (segmentation : IsSegmentation (before ++ after).toList 0 occurrences)
    (clear
      : ∀ occurrence ∈ occurrences,
          (scan mode (before ++ after)).Reaches occurrence.position
          → ¬ occurrence.Straddles before.length)
    : let move := movedBehind before.length blanks.length
      (scan mode (before ++ blanks ++ after)).tokens
          = (scan mode (before ++ after)).tokens.map (Token.relocate move)
        ∧ (scan mode (before ++ blanks ++ after)).failure?
          = (scan mode (before ++ after)).failure?.map (Failure.relocate move)
        ∧ (tokenize mode (before ++ blanks ++ after)).outcome
          = relocateOutcome move (List.map (Token.relocate move))
              (tokenize mode (before ++ after)).outcome
        ∧ (∀ value,
            (evaluate mode (before ++ after)).outcome = .ok value
            → (evaluate mode (before ++ blanks ++ after)).outcome = .ok value)
        ∧ ∀ failure,
            (evaluate mode (before ++ after)).outcome = .error failure
            → ∃ moved,
                (evaluate mode (before ++ blanks ++ after)).outcome = .error moved
                ∧ moved.kind = failure.kind
                ∧ moved.position? = failure.position?.map move := by
  intro move
  have moved := scan_insert_blanks mode before blanks after blank segmentation clear
  have evaluated := outcome_evaluate_relocate moved
  refine ⟨?_, ?_, outcome_tokenize_relocate moved, fun value succeeds => ?_,
    fun failure fails => ?_⟩
  · rw [moved, TokenStream.tokens_relocate]
  · rw [moved, TokenStream.failure?_relocate]
  · rw [evaluated, succeeds]
    rfl
  · rw [fails] at evaluated
    exact ⟨failure.relocate move, evaluated, failure.kind_relocate move,
      failure.position?_relocate_movedBehind _ _⟩

/-- In `2*.5` the point belongs to no number, so blanks may stand between it and the digit. -/
theorem evaluate_insert_blanks_behind_stray_point
    : let occurrences : List Occurrence :=
        [⟨.literal ⟨['2'], []⟩, 0⟩, ⟨.operator .multiply, 1⟩, ⟨.literal ⟨['5'], []⟩, 3⟩]
      let move := movedBehind "2*.".length " \t".length
      (∀ c ∈ " \t".toList, Text.isBlank c)
        ∧ IsSegmentation ("2*." ++ "5").toList 0 occurrences
        ∧ (∀ occurrence ∈ occurrences,
            (scan .lenient ("2*." ++ "5")).Reaches occurrence.position
            → ¬ occurrence.Straddles "2*.".length)
        ∧ (scan .lenient ("2*." ++ " \t" ++ "5")).tokens
          = (scan .lenient ("2*." ++ "5")).tokens.map (Token.relocate move)
        ∧ (scan .lenient ("2*." ++ " \t" ++ "5")).failure?
          = (scan .lenient ("2*." ++ "5")).failure?.map (Failure.relocate move)
        ∧ (tokenize .lenient ("2*." ++ " \t" ++ "5")).outcome
          = relocateOutcome move (List.map (Token.relocate move))
              (tokenize .lenient ("2*." ++ "5")).outcome
        ∧ (∀ value,
            (evaluate .lenient ("2*." ++ "5")).outcome = .ok value
            → (evaluate .lenient ("2*." ++ " \t" ++ "5")).outcome = .ok value)
        ∧ ∀ failure,
            (evaluate .lenient ("2*." ++ "5")).outcome = .error failure
            → ∃ moved,
                (evaluate .lenient ("2*." ++ " \t" ++ "5")).outcome = .error moved
                ∧ moved.kind = failure.kind
                ∧ moved.position? = failure.position?.map move := by
  intro occurrences move
  have blank : ∀ c ∈ " \t".toList, Text.isBlank c :=
    List.forall_mem_cons.mpr ⟨by decide, List.forall_mem_singleton.mpr (by decide)⟩
  have cut : Cut ("2*." ++ "5").toList 0 occurrences :=
    .spelling (by decide) (.spelling (by decide) (.gap (by decide) (by decide)
      (.spelling (by decide) (.done (by decide)))))
  have clear : ∀ occurrence ∈ occurrences, ¬ occurrence.Straddles "2*.".length := by decide
  exact ⟨blank, cut.isSegmentation, fun occurrence member _ => clear occurrence member,
    evaluate_insert_blanks .lenient "2*." " \t" "5" occurrences blank cut.isSegmentation
      fun occurrence member _ => clear occurrence member⟩

end SciCalc
