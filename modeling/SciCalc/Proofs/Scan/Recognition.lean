import SciCalc.Evaluation
import SciCalc.Proofs.Scan.Drawing
import SciCalc.Proofs.Scan.Segmentation

/-! Recognition: what a scan makes of the segmentation of a text.

A lenient scan delivers the meanings of the spellings, up to the first one that means nothing. A
strict scan does the same up to the first visible character that no spelling covers.
-/

namespace SciCalc

/-- The token that a spelling means at its position, if it means one. -/
def Occurrence.token? (occurrence : Occurrence) : Option Token :=
  occurrence.spelling.lexeme?.map fun lexeme => ⟨lexeme, occurrence.position⟩

theorem Occurrence.token?_eq_some_iff {occurrence : Occurrence} {token : Token}
    : occurrence.token? = some token
      ↔ occurrence.spelling.lexeme? = some token.lexeme
        ∧ token.position = occurrence.position := by
  obtain ⟨lexeme, position⟩ := token
  simp [token?, eq_comm]

/-- A character of a text, from a position on, that belongs to no spelling and is not blank. -/
structure Unrecognized (text : List Char) (start : Nat) (occurrences : List Occurrence)
    (c : Char) (place : Nat) : Prop where
  behind : start ≤ place
  stands : text[place]? = some c
  visible : Text.isBlank c = false
  uncovered : ∀ occurrence ∈ occurrences, ¬ occurrence.Covers place

/-- The leftmost of the characters that are not recognized. -/
def FirstUnrecognized (text : List Char) (start : Nat) (occurrences : List Occurrence)
    (c : Char) (place : Nat) : Prop :=
  Unrecognized text start occurrences c place
  ∧ ∀ d other, Unrecognized text start occurrences d other → place ≤ other

variable {mode : Mode} {text : List Char} {start position place : Nat} {c : Char}
variable {spelling : Spelling} {occurrences others : List Occurrence}

-----------------------------------------------------------------------------------------
-- Scanning from a place of a text
-----------------------------------------------------------------------------------------

/-- Where a spelling is found a scan delivers what it means, or fails. -/
theorem scanFrom_drop_of_found (found : Spelling.ofHead? (text.drop position) = some spelling)
    : scanFrom mode position (text.drop position)
      = match spelling.lexeme? with
        | some lexeme =>
            .deliver ⟨lexeme, position⟩
              (scanFrom mode (position + spelling.text.length)
                (text.drop (position + spelling.text.length)))
        | none => .fault (.numberOutOfRange position) := by
  have some := Spelling.length_text_pos_of_ofHead? found
  rw [← List.drop_drop]
  cases here : text.drop position with
  | nil =>
      rw [here] at found
      cases found
  | cons c rest =>
      rw [here] at found
      obtain ⟨more, length⟩ := Nat.exists_eq_add_of_lt some
      rw [scanFrom.eq_def]
      cases meaning : spelling.lexeme? <;>
        simp only [found, meaning, length, Nat.zero_add, List.drop_succ_cons, Nat.add_sub_cancel]

/-- Where nothing is found a scan passes over the character, unless it is strict and the character
is not blank.
-/
theorem scanFrom_drop_of_gap (stands : text[position]? = some c)
    (nothing : Spelling.ofHead? (text.drop position) = none)
    : scanFrom mode position (text.drop position)
      = if Text.isBlank c then scanFrom mode (position + 1) (text.drop (position + 1))
        else match mode with
          | .strict => .fault (.unrecognized c position)
          | .lenient =>
              .skip c position (scanFrom .lenient (position + 1) (text.drop (position + 1))) := by
  obtain ⟨inside, here⟩ := List.getElem?_eq_some_iff.mp stands
  rw [List.drop_eq_getElem_cons inside, here] at nothing ⊢
  rw [scanFrom.eq_def]
  simp only [nothing]
  cases mode <;> rfl

/-- Of a character that is passed over nothing is delivered. -/
theorem tokens_and_failure?_of_gap (inside : position < text.length)
    (nothing : Spelling.ofHead? (text.drop position) = none)
    : let here := scanFrom .lenient position (text.drop position)
      let behind := scanFrom .lenient (position + 1) (text.drop (position + 1))
      here.tokens = behind.tokens ∧ here.failure? = behind.failure? := by
  intro here behind
  have scanned : here = _ := scanFrom_drop_of_gap (List.getElem?_eq_getElem inside) nothing
  rw [scanned]
  split <;> exact ⟨rfl, rfl⟩

/-- A lenient scan delivers the meanings of the spellings, up to the first that means nothing and
makes it fail. Witness: induction on the cut.
-/
theorem Cut.scan_lenient (cut : Cut text start occurrences)
    : let stream := scanFrom .lenient start (text.drop start)
      ∃ delivered rest,
        occurrences = delivered ++ rest
        ∧ delivered.map Occurrence.token? = stream.tokens.map some
        ∧ stream.failure?
          = rest.head?.map (fun occurrence => .numberOutOfRange occurrence.position)
        ∧ ∀ occurrence ∈ rest.head?, occurrence.token? = none := by
  induction cut with
  | @done position ends =>
      rw [List.drop_eq_nil_of_le ends, scanFrom]
      exact ⟨[], [], rfl, rfl, rfl, by simp⟩
  | @spelling position spelling others found more ih =>
      rw [scanFrom_drop_of_found found]
      cases means : spelling.lexeme? with
      | none =>
          refine ⟨[], ⟨spelling, position⟩ :: others, rfl, rfl, rfl, ?_⟩
          simp [Occurrence.token?, means]
      | some lexeme =>
          obtain ⟨delivered, rest, rfl, meant, fails, unmeant⟩ := ih
          refine ⟨⟨spelling, position⟩ :: delivered, rest, rfl, ?_, fails, unmeant⟩
          simp [TokenStream.tokens, Occurrence.token?, means, meant]
  | @gap position others inside nothing more ih =>
      obtain ⟨tokens, failure⟩ := tokens_and_failure?_of_gap inside nothing
      simp only [tokens, failure]
      exact ih

/-- A token that a lenient scan delivers is what some spelling means where it stands. -/
theorem Cut.exists_of_mem_tokens (cut : Cut text start occurrences) {token : Token}
    (delivered : token ∈ (scanFrom .lenient start (text.drop start)).tokens)
    : ∃ occurrence ∈ occurrences, occurrence.token? = some token := by
  obtain ⟨meaning, rest, rfl, meant, _⟩ := cut.scan_lenient
  have member := List.mem_map_of_mem (f := some) delivered
  rw [← meant] at member
  obtain ⟨occurrence, included, means⟩ := List.mem_map.mp member
  exact ⟨occurrence, List.mem_append_left _ included, means⟩

theorem Cut.le_position_of_mem_tokens (cut : Cut text start occurrences) {token : Token}
    (delivered : token ∈ (scanFrom .lenient start (text.drop start)).tokens)
    : (start : Int) ≤ token.position := by
  obtain ⟨occurrence, member, means⟩ := cut.exists_of_mem_tokens delivered
  rw [(Occurrence.token?_eq_some_iff.mp means).2]
  exact Int.ofNat_le.mpr (cut.isSegmentation.behind occurrence member)

-----------------------------------------------------------------------------------------
-- Characters that are not recognized
-----------------------------------------------------------------------------------------

/-- A spelling at the start covers its characters, and all others lie behind it. -/
theorem unrecognized_cons_iff
    : Unrecognized text position (⟨spelling, position⟩ :: others) c place
      ↔ Unrecognized text (position + spelling.text.length) others c place := by
  constructor
  · rintro ⟨behind, stands, visible, uncovered⟩
    obtain ⟨free, uncovered⟩ := List.forall_mem_cons.mp uncovered
    refine ⟨?_, stands, visible, uncovered⟩
    simp only [Occurrence.Covers, Occurrence.stop] at free
    omega
  · rintro ⟨behind, stands, visible, uncovered⟩
    refine ⟨by omega, stands, visible, List.forall_mem_cons.mpr ⟨?_, uncovered⟩⟩
    simp only [Occurrence.Covers, Occurrence.stop]
    omega

/-- A blank character is no character that is not recognized. -/
theorem unrecognized_succ_iff {d : Char} (stands : text[position]? = some d)
    (blank : Text.isBlank d)
    : Unrecognized text position others c place
      ↔ Unrecognized text (position + 1) others c place := by
  constructor
  · rintro ⟨behind, here, visible, uncovered⟩
    refine ⟨Nat.lt_of_le_of_ne behind ?_, here, visible, uncovered⟩
    rintro rfl
    rw [stands] at here
    cases here
    rw [blank] at visible
    cases visible
  · rintro ⟨behind, here, visible, uncovered⟩
    exact ⟨Nat.le_of_succ_le behind, here, visible, uncovered⟩

/-- A visible character at which nothing is found is not recognized, and none stands before it. -/
theorem Cut.firstUnrecognized (more : Cut text (position + 1) others)
    (stands : text[position]? = some c) (visible : Text.isBlank c = false)
    : FirstUnrecognized text position others c position := by
  refine ⟨⟨Nat.le_refl _, stands, visible, fun occurrence member covers => ?_⟩,
    fun d other found => found.behind⟩
  have behind := more.isSegmentation.behind occurrence member
  have before := covers.1
  omega

/-- One stream is another one up to a place, where it fails at a character. -/
structure CutShort (whole stream : TokenStream) (c : Char) (place : Nat) : Prop where
  fails : stream.failure? = some (.unrecognized c place)
  earlier : stream.tokens = whole.tokens.takeWhile fun token => token.position < (place : Int)

theorem CutShort.deliver {whole stream : TokenStream} {token : Token}
    (short : CutShort whole stream c place) (before : token.position < place)
    : CutShort (.deliver token whole) (.deliver token stream) c place := by
  refine ⟨short.fails, ?_⟩
  simp only [TokenStream.tokens]
  rw [List.takeWhile_cons_of_pos (by simpa using before), short.earlier]

/-- A stream that goes on after a character is cut short there.
Witness: nothing is delivered before it.
-/
theorem CutShort.skip {rest : TokenStream}
    (later : ∀ token ∈ rest.tokens, ((place + 1 : Nat) : Int) ≤ token.position)
    : CutShort (.skip c place rest) (.fault (.unrecognized c place)) c place := by
  refine ⟨rfl, ?_⟩
  simp only [TokenStream.tokens]
  cases delivered : rest.tokens with
  | nil => rfl
  | cons first others =>
      rw [delivered] at later
      have behind := later first List.mem_cons_self
      rw [List.takeWhile_cons_of_neg]
      simp only [decide_eq_true_eq]
      omega

/-- A strict scan is the lenient one if that passes over nothing, and otherwise it is cut short at
the first character that is not recognized.
Witness: induction on the cut; the two scans part at a gap that is not blank.
-/
theorem Cut.scan_strict (cut : Cut text start occurrences)
    : let lenient := scanFrom .lenient start (text.drop start)
      let strict := scanFrom .strict start (text.drop start)
      (strict = lenient
        ∧ (lenient.failure? = none → ∀ c place, ¬ Unrecognized text start occurrences c place))
      ∨ ∃ c place,
          FirstUnrecognized text start occurrences c place ∧ CutShort lenient strict c place := by
  induction cut with
  | @done position ends =>
      refine .inl ⟨by rw [List.drop_eq_nil_of_le ends, scanFrom, scanFrom], ?_⟩
      intro _ c place found
      have here := found.stands
      rw [List.getElem?_eq_none (ends.trans found.behind)] at here
      cases here
  | @spelling position spelling others found more ih =>
      simp only [scanFrom_drop_of_found found, FirstUnrecognized, unrecognized_cons_iff]
      cases means : spelling.lexeme? with
      | none => exact .inl ⟨rfl, fun complete => by cases complete⟩
      | some lexeme =>
          rcases ih with ⟨same, all⟩ | ⟨c, place, first, short⟩
          · exact .inl ⟨congrArg _ same, all⟩
          · have some := Spelling.length_text_pos_of_ofHead? found
            have behind := first.1.behind
            refine .inr ⟨c, place, first, short.deliver ?_⟩
            simp only [Nat.cast_lt]
            omega
  | @gap position others inside nothing more ih =>
      have stands := List.getElem?_eq_getElem inside
      simp only [scanFrom_drop_of_gap stands nothing]
      cases blank : Text.isBlank text[position] with
      | true =>
          simp only [if_true, FirstUnrecognized, unrecognized_succ_iff stands blank]
          exact ih
      | false =>
          refine .inr ⟨_, position, more.firstUnrecognized stands blank, ?_⟩
          exact .skip fun token => more.le_position_of_mem_tokens

-----------------------------------------------------------------------------------------
-- Expressions
-----------------------------------------------------------------------------------------

theorem scanFrom_drop_zero (mode : Mode) (expression : String)
    : scanFrom mode 0 (expression.toList.drop 0) = scan mode expression :=
  rfl

/-- A token that an expression delivers, in either mode, is what some spelling means where it stands.
Witness: a strict scan delivers nothing that a lenient one does not.
-/
theorem Cut.exists_of_mem_scan {expression : String} (cut : Cut expression.toList 0 occurrences)
    {token : Token} (delivered : token ∈ (scan mode expression).tokens)
    : ∃ occurrence ∈ occurrences, occurrence.token? = some token := by
  have strict := cut.scan_strict
  simp only [scanFrom_drop_zero] at strict
  have lenient : token ∈ (scan .lenient expression).tokens := by
    cases mode with
    | lenient => exact delivered
    | strict =>
        rcases strict with ⟨same, _⟩ | ⟨_, _, _, short⟩
        · exact same ▸ delivered
        · exact (List.takeWhile_prefix _).subset (short.earlier ▸ delivered)
  exact cut.exists_of_mem_tokens lenient

/-- A scan fails at a spelling that means nothing, or at a character of the expression. -/
theorem Cut.failure?_scan {expression : String} (cut : Cut expression.toList 0 occurrences)
    {failure : Failure} (fails : (scan mode expression).failure? = some failure)
    : (∃ occurrence ∈ occurrences,
        occurrence.token? = none ∧ failure = .numberOutOfRange occurrence.position)
      ∨ ∃ c place, expression.toList[place]? = some c ∧ failure = .unrecognized c place := by
  have lenient (early : (scan .lenient expression).failure? = some failure)
      : ∃ occurrence ∈ occurrences,
          occurrence.token? = none ∧ failure = .numberOutOfRange occurrence.position := by
    obtain ⟨delivered, rest, rfl, _, blamed, unmeant⟩ := cut.scan_lenient
    rw [scanFrom_drop_zero, early] at blamed
    obtain ⟨occurrence, first, rfl⟩ := Option.map_eq_some_iff.mp blamed.symm
    exact ⟨occurrence, List.mem_append_right _ (List.mem_of_mem_head? first),
      unmeant occurrence first, rfl⟩
  have strict := cut.scan_strict
  simp only [scanFrom_drop_zero] at strict
  cases mode with
  | lenient => exact .inl (lenient fails)
  | strict =>
      rcases strict with ⟨same, _⟩ | ⟨c, place, first, short⟩
      · exact .inl (lenient (same ▸ fails))
      · cases short.fails.symm.trans fails
        exact .inr ⟨c, place, first.1.stands, rfl⟩

/-- Scanning is maximal munch. The lenient tokens of an expression are the meanings of its one
segmentation: spellings in order and without overlap, no number followed by more of it, and in
between only characters at which no name, number, operator or parenthesis starts. The strict
tokens are the same, up to a failure at the first of these characters that is not blank, if there
is one. Witness: cutting the expression leads to the segmentation, and both scans follow the cut.
-/
theorem tokenize_isSegmentation (expression : String) (tokens : List Token)
    (tokenized : (tokenize .lenient expression).outcome = .ok tokens)
    : ∃ occurrences,
        IsSegmentation expression.toList 0 occurrences
        ∧ (∀ other, IsSegmentation expression.toList 0 other → other = occurrences)
        ∧ occurrences.map Occurrence.token? = tokens.map some
        ∧ (∀ c place,
            FirstUnrecognized expression.toList 0 occurrences c place
            → (scan .strict expression).tokens
                = tokens.takeWhile (fun token => token.position < (place : Int))
              ∧ (scan .strict expression).failure? = some (.unrecognized c place))
        ∧ ((¬ ∃ c place, Unrecognized expression.toList 0 occurrences c place)
            → (scan .strict expression).tokens = tokens
              ∧ (scan .strict expression).failure? = none) := by
  obtain ⟨complete, rfl⟩ := outcome_tokenize_eq_ok_iff.mp tokenized
  obtain ⟨occurrences, cut⟩ := exists_cut expression.toList 0
  refine ⟨occurrences, cut.isSegmentation, fun other => cut.eq_of_isSegmentation, ?_⟩
  obtain ⟨delivered, rest, rfl, meant, fails, _⟩ := cut.scan_lenient
  have strict := cut.scan_strict
  simp only [scanFrom_drop_zero] at meant fails strict
  have whole : rest = [] := by simpa [complete] using fails.symm
  subst whole
  refine ⟨by rw [List.append_nil, meant], ?_⟩
  rcases strict with ⟨same, all⟩ | ⟨c, place, first, short⟩
  · refine ⟨fun c place first => absurd first.1 (all complete c place), fun _ => ?_⟩
    rw [same]
    exact ⟨rfl, complete⟩
  · refine ⟨fun d other firstToo => ?_, fun none => absurd ⟨c, place, first.1⟩ none⟩
    obtain rfl := Nat.le_antisymm (first.2 _ _ firstToo.1) (firstToo.2 _ _ first.1)
    obtain rfl := Option.some.inj (firstToo.1.stands.symm.trans first.1.stands)
    exact ⟨short.earlier, short.fails⟩

/-- In `cosin 1.2.3` the name `cos` leaves no `sin`, and the second point belongs to no number. -/
theorem tokenize_isSegmentation_of_overlap
    : let tokens : List Token :=
        [⟨.function "cos", 0⟩, ⟨.number 1.2, 6⟩, ⟨.number 3.0, 10⟩]
      (tokenize .lenient "cosin 1.2.3").outcome = .ok tokens
      ∧ ∃ occurrences,
          IsSegmentation "cosin 1.2.3".toList 0 occurrences
          ∧ (∀ other, IsSegmentation "cosin 1.2.3".toList 0 other → other = occurrences)
          ∧ occurrences.map Occurrence.token? = tokens.map some
          ∧ (∀ c place,
              FirstUnrecognized "cosin 1.2.3".toList 0 occurrences c place
              → (scan .strict "cosin 1.2.3").tokens
                  = tokens.takeWhile (fun token => token.position < (place : Int))
                ∧ (scan .strict "cosin 1.2.3").failure? = some (.unrecognized c place))
          ∧ ((¬ ∃ c place, Unrecognized "cosin 1.2.3".toList 0 occurrences c place)
              → (scan .strict "cosin 1.2.3").tokens = tokens
                ∧ (scan .strict "cosin 1.2.3").failure? = none) := by
  intro tokens
  have tokenized : (tokenize .lenient "cosin 1.2.3").outcome = .ok tokens := by
    decide +kernel
  exact ⟨tokenized, tokenize_isSegmentation _ _ tokenized⟩

end SciCalc
