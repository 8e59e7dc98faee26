import SciCalc.Proofs.Scan.Longest

/-! Segmentations: which spellings stand where in a text.

The spellings of a segmentation follow each other without overlap, each of them goes as far as it
can, and nothing starts at the characters in between. Cutting a text from its start leads to such
a segmentation, and there is no other.
-/

namespace SciCalc

/-- A spelling at a position of a text. -/
structure Occurrence where
  spelling : Spelling
  position : Nat
  deriving DecidableEq, Repr

namespace Occurrence

/-- The position behind the last character. -/
def stop (occurrence : Occurrence) : Nat :=
  occurrence.position + occurrence.spelling.text.length

def Covers (occurrence : Occurrence) (place : Nat) : Prop :=
  occurrence.position ≤ place ∧ place < occurrence.stop

/-- The spelling is written in a text at its position, and goes no further there. -/
structure StandsIn (occurrence : Occurrence) (text : List Char) : Prop where
  wellFormed : occurrence.spelling.WellFormed
  written : occurrence.spelling.text <+: text.drop occurrence.position
  stops : occurrence.spelling.StopsBefore (text.drop occurrence.stop)

/-- A spelling stands in a text exactly where it is found. -/
theorem standsIn_iff {occurrence : Occurrence} {text : List Char}
    : occurrence.StandsIn text
      ↔ Spelling.ofHead? (text.drop occurrence.position) = some occurrence.spelling := by
  have behind : text.drop occurrence.stop
      = (text.drop occurrence.position).drop occurrence.spelling.text.length := by
    rw [List.drop_drop, stop]
  rw [Spelling.ofHead?_eq_some_iff]
  constructor
  · intro stands
    obtain ⟨rest, split⟩ := stands.written
    have stops := stands.stops
    rw [behind, ← split, List.drop_left] at stops
    exact ⟨stands.wellFormed, rest, split.symm, stops⟩
  · rintro ⟨wellFormed, rest, split, stops⟩
    refine ⟨wellFormed, ⟨rest, split.symm⟩, ?_⟩
    rwa [behind, split, List.drop_left]

theorem StandsIn.position_lt {occurrence : Occurrence} {text : List Char}
    (stands : occurrence.StandsIn text)
    : occurrence.position < occurrence.stop ∧ occurrence.stop ≤ text.length := by
  have some := List.length_pos_of_ne_nil (Spelling.text_ne_nil stands.wellFormed)
  have within := stands.written.length_le
  rw [List.length_drop] at within
  simp only [stop]
  omega

end Occurrence

/-- The spellings of a text from a position on: they do not overlap, each of them stands there as
far as it can go, and where none of them stands nothing starts.
-/
structure IsSegmentation (text : List Char) (start : Nat) (occurrences : List Occurrence)
    : Prop where
  ordered
    : occurrences.Pairwise fun first second =>
        first.position < second.position ∧ first.stop ≤ second.position
  behind : ∀ occurrence ∈ occurrences, start ≤ occurrence.position
  standing : ∀ occurrence ∈ occurrences, occurrence.StandsIn text
  gaps
    : ∀ place c rest,
        start ≤ place
        → text.drop place = c :: rest
        → (∀ occurrence ∈ occurrences, ¬ occurrence.Covers place)
        → StartsNothing c rest

/-- Where a spelling is found at the start, a segmentation begins with it.
Witness: something starts there, so some spelling covers the place, and none stands before it.
-/
theorem IsSegmentation.exists_of_found {text : List Char} {start : Nat} {spelling : Spelling}
    {occurrences : List Occurrence} (segmentation : IsSegmentation text start occurrences)
    (found : Spelling.ofHead? (text.drop start) = some spelling)
    : ∃ others,
        occurrences = ⟨spelling, start⟩ :: others
        ∧ IsSegmentation text (start + spelling.text.length) others := by
  have covered : ∃ occurrence ∈ occurrences, occurrence.Covers start := by
    by_contra uncovered
    push Not at uncovered
    cases here : text.drop start with
    | nil =>
        rw [here] at found
        cases found
    | cons c rest =>
        have nothing := segmentation.gaps start c rest (Nat.le_refl _) here uncovered
        rw [here, Spelling.ofHead?_eq_none_iff.mpr nothing] at found
        cases found
  obtain ⟨occurrence, member, covers, _⟩ := covered
  cases occurrences with
  | nil => cases member
  | cons first others =>
      have behind := segmentation.behind first List.mem_cons_self
      obtain ⟨before, ordered⟩ := List.pairwise_cons.mp segmentation.ordered
      have starts : first.position = start := by
        rcases List.mem_cons.mp member with rfl | later
        · omega
        · have order := (before occurrence later).1
          omega
      have stands := Occurrence.standsIn_iff.mp (segmentation.standing first List.mem_cons_self)
      rw [starts, found] at stands
      obtain ⟨_, _⟩ := first
      obtain rfl := starts
      obtain rfl := Option.some.inj stands
      refine ⟨others, rfl, ordered, fun second later => (before second later).2,
        fun second later => segmentation.standing second (List.mem_cons_of_mem _ later), ?_⟩
      intro place c rest later here uncovered
      refine segmentation.gaps place c rest (by omega) here ?_
      intro second included
      rcases List.mem_cons.mp included with rfl | behind
      · rintro ⟨_, within⟩
        exact absurd later (Nat.not_le_of_lt within)
      · exact uncovered second behind

-----------------------------------------------------------------------------------------
-- Cutting a text
-----------------------------------------------------------------------------------------

/-- A text is cut from a position on: the spelling that is found there is cut off, or the character
there is passed over.
-/
inductive Cut (text : List Char) : Nat → List Occurrence → Prop
  | done {position} (ends : text.length ≤ position) : Cut text position []
  | spelling {position spelling others}
    (found : Spelling.ofHead? (text.drop position) = some spelling)
    (more : Cut text (position + spelling.text.length) others)
    : Cut text position (⟨spelling, position⟩ :: others)
  | gap {position others} (inside : position < text.length)
    (nothing : Spelling.ofHead? (text.drop position) = none) (more : Cut text (position + 1) others)
    : Cut text position others

/-- Every text can be cut from every position on.
Witness: a spelling has at least one character, so what is left gets shorter.
-/
theorem exists_cut (text : List Char) (position : Nat)
    : ∃ occurrences, Cut text position occurrences := by
  by_cases inside : position < text.length
  · cases found : Spelling.ofHead? (text.drop position) with
    | none =>
        obtain ⟨others, more⟩ := exists_cut text (position + 1)
        exact ⟨others, .gap inside found more⟩
    | some spelling =>
        have some := Spelling.length_text_pos_of_ofHead? found
        obtain ⟨others, more⟩ := exists_cut text (position + spelling.text.length)
        exact ⟨_, .spelling found more⟩
  · exact ⟨[], .done (Nat.le_of_not_lt inside)⟩
termination_by text.length - position

namespace Cut

variable {text : List Char} {start : Nat} {occurrences other : List Occurrence}

/-- Cutting a text leads to a segmentation.
Witness: induction on the cut; what is cut off lies before all that is cut off later.
-/
theorem isSegmentation (cut : Cut text start occurrences)
    : IsSegmentation text start occurrences := by
  induction cut with
  | @done position ends =>
      refine ⟨.nil, by simp, by simp, fun place c rest later here _ => ?_⟩
      rw [List.drop_eq_nil_of_le (ends.trans later)] at here
      cases here
  | @spelling position spelling others found more ih =>
      have stands : Occurrence.StandsIn ⟨spelling, position⟩ text := Occurrence.standsIn_iff.mpr found
      have some := stands.position_lt.1
      constructor
      · refine List.pairwise_cons.mpr ⟨fun second member => ?_, ih.ordered⟩
        have behind := ih.behind second member
        simp only [Occurrence.stop] at some ⊢
        omega
      · intro occurrence member
        rcases List.mem_cons.mp member with rfl | later
        · exact Nat.le_refl _
        · have behind := ih.behind occurrence later
          omega
      · intro occurrence member
        rcases List.mem_cons.mp member with rfl | later
        · exact stands
        · exact ih.standing occurrence later
      · intro place c rest later here uncovered
        have free := uncovered _ List.mem_cons_self
        refine ih.gaps place c rest ?_ here fun occurrence member =>
          uncovered occurrence (List.mem_cons_of_mem _ member)
        simp only [Occurrence.Covers, Occurrence.stop] at free
        omega
  | @gap position others inside nothing more ih =>
      refine ⟨ih.ordered, fun occurrence member => ?_, ih.standing, ?_⟩
      · have behind := ih.behind occurrence member
        omega
      · intro place c rest later here uncovered
        rcases Nat.eq_or_lt_of_le later with rfl | beyond
        · rw [here] at nothing
          exact Spelling.ofHead?_eq_none_iff.mp nothing
        · exact ih.gaps place c rest beyond here uncovered

/-- A text has no segmentation but the one that cutting it leads to.
Witness: induction on the cut; where a spelling is found no other can stand and no gap can be, and
where none is found none can stand.
-/
theorem eq_of_isSegmentation (cut : Cut text start occurrences)
    (segmentation : IsSegmentation text start other)
    : other = occurrences := by
  induction cut generalizing other with
  | @done position ends =>
      apply List.eq_nil_iff_forall_not_mem.mpr
      intro occurrence member
      have behind := segmentation.behind occurrence member
      have bounds := (segmentation.standing occurrence member).position_lt
      omega
  | @spelling position spelling others found more ih =>
      obtain ⟨tail, rfl, shorter⟩ := segmentation.exists_of_found found
      rw [ih shorter]
  | @gap position others inside nothing more ih =>
      refine ih ⟨segmentation.ordered, fun occurrence member => ?_, segmentation.standing,
        fun place c rest later => segmentation.gaps place c rest (Nat.le_of_succ_le later)⟩
      refine Nat.lt_of_le_of_ne (segmentation.behind occurrence member) ?_
      rintro rfl
      rw [Occurrence.standsIn_iff.mp (segmentation.standing occurrence member)] at nothing
      cases nothing

end Cut

end SciCalc
