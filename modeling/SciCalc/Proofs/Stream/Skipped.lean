import SciCalc.Proofs.Enumeration
import SciCalc.Proofs.Scan.Insertion
import SciCalc.Proofs.Stream.Course

/-! What is told of the characters that a scan passes over.

A scan is lazy: it gets as far as its consumer draws. So of the characters that are not recognized
those are told of that stand before the place at which the consumer stops.
-/

namespace SciCalc

variable {σ α : Type} {consumer : Consumer σ α} {state last : σ} {stream : TokenStream}
variable {before after : List Token} {token : Token} {failure : Failure} {ending : Int}
variable {text : List Char} {start : Nat} {occurrences : List Occurrence}

-----------------------------------------------------------------------------------------
-- Where a consumer stops
-----------------------------------------------------------------------------------------

/-- The place at which a consumer in some state stops to draw: that of the token at which it fails,
that of the stream's own failure, or the end.
-/
def Consumer.stopFrom (consumer : Consumer σ α) (ending : Int) (state : σ) : TokenStream → Int
  | .done => ending
  | .fault failure => failure.position?.getD ending
  | .skip _ _ rest => consumer.stopFrom ending state rest
  | .deliver token rest =>
      match (consumer.step state token).outcome with
      | .error _ => token.position
      | .ok next => consumer.stopFrom ending next rest

namespace Consumer

/-- A consumer stops at the token at which it fails, by induction on the stream. -/
theorem stopFrom_of_failsAt (fails : consumer.FailsAt state before token failure)
    (place : stream.tokens = before ++ token :: after)
    : consumer.stopFrom ending state stream = token.position := by
  induction stream generalizing state before with
  | done | fault _ => simp [TokenStream.tokens] at place
  | skip character position rest ih => exact ih fails place
  | deliver first rest ih =>
      cases before with
      | nil =>
          obtain ⟨rfl, _⟩ := List.cons.inj place
          simp [stopFrom, failsAt_nil_iff.mp fails]
      | cons other before =>
          obtain ⟨rfl, behind⟩ := List.cons.inj place
          obtain ⟨next, stepped, later⟩ := failsAt_cons_iff.mp fails
          simp only [stopFrom, stepped]
          exact ih later behind

/-- A consumer that takes all tokens stops where the stream does, by induction on the stream. -/
theorem stopFrom_of_foldlM (run : (stream.tokens.foldlM consumer.step state).outcome = .ok last)
    : consumer.stopFrom ending state stream
      = (stream.failure?.bind Failure.position?).getD ending := by
  induction stream generalizing state with
  | done | fault _ => rfl
  | skip character position rest ih => exact ih run
  | deliver token rest ih =>
      simp only [TokenStream.tokens, List.foldlM_cons, Traced.outcome_bind] at run
      obtain ⟨next, stepped, more⟩ := Failure.bind_eq_ok_iff.mp run
      simp only [stopFrom, stepped]
      exact ih more

/-- A consumer does not stop before all places of the stream. -/
theorem le_stopFrom {least : Int} (all : stream.AllPlaces (least ≤ ·)) (within : least ≤ ending)
    : least ≤ consumer.stopFrom ending state stream := by
  induction stream generalizing state with
  | done => exact within
  | fault failure =>
      rw [stopFrom]
      cases blamed : failure.position? with
      | none => exact within
      | some place => exact all place blamed
  | skip character position rest ih => exact ih all.2
  | deliver token rest ih =>
      rw [stopFrom]
      split
      · exact all.1
      · exact ih all.2

end Consumer

-----------------------------------------------------------------------------------------
-- What is told up to there
-----------------------------------------------------------------------------------------

/-- A visible character at which nothing is found is not recognized, and all others stand behind. -/
theorem Cut.unrecognized_iff_of_visible (more : Cut text (start + 1) occurrences) {c d : Char}
    {place : Nat} (stands : text[start]? = some c) (visible : Text.isBlank c = false)
    : Unrecognized text start occurrences d place
      ↔ (d = c ∧ place = start) ∨ Unrecognized text (start + 1) occurrences d place := by
  constructor
  · rintro ⟨behind, here, unlike, uncovered⟩
    rcases Nat.eq_or_lt_of_le behind with rfl | later
    · exact .inl ⟨Option.some.inj (here.symm.trans stands), rfl⟩
    · exact .inr ⟨later, here, unlike, uncovered⟩
  · rintro (⟨rfl, rfl⟩ | ⟨behind, here, unlike, uncovered⟩)
    · exact (more.firstUnrecognized stands visible).1
    · exact ⟨Nat.le_of_succ_le behind, here, unlike, uncovered⟩

/-- A consumer whose steps are silent tells of the characters that are not recognized, from left to
right, up to the place at which it stops.
Witness: induction on the cut; what is passed over stands before all that is still to come.
-/
theorem Cut.enumerates_skipped (cut : Cut text start occurrences) (consumer : Consumer σ α)
    (silent : ∀ state token, (consumer.step state token).events = []) (state : σ)
    : let stream := scanFrom .lenient start (text.drop start)
      ∃ skipped,
        (consumer.drawFrom state stream).result.events
          = skipped.map (fun (c, place) => .skipped c place)
        ∧ Enumerates skipped fun c place =>
            Unrecognized text start occurrences c place
            ∧ (place : Int) < consumer.stopFrom text.length state stream := by
  induction cut generalizing state with
  | @done position ends =>
      rw [List.drop_eq_nil_of_le ends, scanFrom]
      refine ⟨[], rfl, .nil fun c place told => ?_⟩
      have behind := told.1.behind
      have inside := told.2
      simp only [Consumer.stopFrom] at inside
      omega
  | @spelling position spelling others found more ih =>
      simp only [scanFrom_drop_of_found found, unrecognized_cons_iff]
      have some := Spelling.length_text_pos_of_ofHead? found
      -- Whatever stops the consumer here, what is not recognized stands behind this spelling.
      have nothing
          : Enumerates [] fun c place =>
              Unrecognized text (position + spelling.text.length) others c place
              ∧ (place : Int) < position :=
        .nil fun c place told => by
          have behind := told.1.behind
          have inside := told.2
          omega
      cases means : spelling.lexeme? with
      | none => exact ⟨[], rfl, nothing⟩
      | some lexeme =>
          simp only [Consumer.drawFrom, Consumer.stopFrom, silent]
          cases stepped : (consumer.step state ⟨lexeme, position⟩).outcome with
          | error failure => exact ⟨[], rfl, nothing⟩
          | ok next => exact ih next
  | @gap position others inside nothing more ih =>
      have stands := List.getElem?_eq_getElem inside
      simp only [scanFrom_drop_of_gap stands nothing]
      cases blank : Text.isBlank text[position] with
      | true =>
          simp only [if_true, unrecognized_succ_iff stands blank]
          exact ih state
      | false =>
          obtain ⟨skipped, told, enumerates⟩ := ih state
          refine ⟨(text[position], position) :: skipped, congrArg _ told, ?_⟩
          have behind := allPlaces_scanFrom .lenient (position + 1) (text.drop (position + 1))
          have stops : ((position + 1 : Nat) : Int) ≤ consumer.stopFrom text.length state _ :=
            Consumer.le_stopFrom (behind.imp fun _ bounds => bounds.1) (Int.ofNat_le.mpr inside)
          refine enumerates.cons (fun d other later => later.1.behind) fun d other => ?_
          rw [more.unrecognized_iff_of_visible stands blank, or_and_right]
          refine or_congr_left (and_iff_left_of_imp ?_)
          rintro ⟨-, rfl⟩
          exact stops

/-- A strict scan passes over nothing, so a consumer whose steps are silent tells of nothing. -/
theorem Consumer.events_drawFrom_strict
    (silent : ∀ state token, (consumer.step state token).events = []) (state : σ)
    (position : Nat) (text : List Char)
    : (consumer.drawFrom state (scanFrom .strict position text)).result.events = [] := by
  fun_induction scanFrom .strict position text generalizing state with
  | case1 | case3 | case5 => rfl
  | case2 position c rest spelling found lexeme means ih =>
      simp only [drawFrom, silent]
      split
      · rfl
      · exact ih _
  | case4 position c rest found blank ih => exact ih state
  | case6 position c rest found blank lenient => cases lenient

end SciCalc
