import SciCalc.Proofs.Infix.Grammar
import SciCalc.Proofs.Segment
import SciCalc.Rpn.Conversion

/-! Conversion follows the grammar: a phrase goes out as the listing of its tree.

Converting a phrase splits its listing in two. The first part has gone out, and the second is
still held above whatever waited before. What is held opens no group, so the end of a group or
of the input sends it out; behind a closed phrase it binds at least as tightly as the phrase, so
an operator of the phrase's level sends it out too.
-/

namespace SciCalc.Conversion

-----------------------------------------------------------------------------------------
-- What single steps do above a phrase
-----------------------------------------------------------------------------------------

/-- Tokens that pass a test are released down to one that does not.
Witness: the held tokens are taken and dropped as a whole.
-/
theorem releaseWhile_held {test : Token → Bool} {output held pending : List Token}
    (passes : ∀ token ∈ held, test token) (stops : ∀ top ∈ pending.head?, test top = false)
    : releaseWhile test ⟨output, held ++ pending⟩ = ⟨held.reverse ++ output, pending⟩ := by
  simp [releaseWhile, List.takeWhile_append_of_pos passes, List.dropWhile_append_of_pos passes,
    segment_eq_nil stops]

/-- A group that holds no other group open sends out what it holds.
Witness: the tokens are released down to the parenthesis.
-/
theorem closeGroup_held {output held pending : List Token} {first : Token} {position : Int}
    (closed : ∀ token ∈ held, token.lexeme.isOpening = false)
    (opens : first.lexeme.isOpening)
    : closeGroup position ⟨output, held ++ first :: pending⟩
      = .ok (releaseFunction ⟨held.reverse ++ output, pending⟩) := by
  have released
      : releaseWhile (fun token => !token.lexeme.isOpening) ⟨output, held ++ first :: pending⟩
        = ⟨held.reverse ++ output, first :: pending⟩ :=
    releaseWhile_held (by simpa using closed) (by simpa using opens)
  simp only [closeGroup, released]

theorem releaseFunction_function {name : String} {position : Int} {output pending : List Token}
    : releaseFunction ⟨output, ⟨.function name, position⟩ :: pending⟩
      = ⟨⟨.function name, position⟩ :: output, pending⟩ :=
  rfl

theorem releaseFunction_of_unowned {output pending : List Token}
    (unowned : ∀ top ∈ pending.head?, top.lexeme.isFunction = false)
    : releaseFunction ⟨output, pending⟩ = ⟨output, pending⟩ := by
  cases pending with
  | nil => rfl
  | cons top below => simp [releaseFunction, unowned top rfl]

theorem bindsAtLeast_of_le {loose tight : Nat} {token : Token} (le : loose ≤ tight)
    (binds : bindsAtLeast tight token)
    : bindsAtLeast loose token := by
  obtain ⟨lexeme, position⟩ := token
  cases lexeme with
  | operator text =>
      simp only [bindsAtLeast, Option.any_eq_true, decide_eq_true_eq] at binds ⊢
      obtain ⟨operator, found, tighter⟩ := binds
      exact ⟨operator, found, Nat.le_trans le tighter⟩
  | _ => cases binds

theorem bindsAtLeast_operator (precedence : Nat) (operator : Operator) (position : Int)
    : bindsAtLeast precedence ⟨.operator operator.text, position⟩
      = decide (precedence ≤ operator.precedence) := by
  simp [bindsAtLeast, Operator.ofText?_text]

/-- An operator waits above what it finds looser than itself.
Witness: the held operators of a closed phrase are sent out first.
-/
theorem step_operator {operator : Operator} {position : Int} {output held pending : List Token}
    (tight : ∀ token ∈ held, bindsAtLeast operator.precedence token)
    (loose : ∀ top ∈ pending.head?, bindsAtLeast operator.precedence top = false)
    : step ⟨output, held ++ pending⟩ ⟨.operator operator.text, position⟩
      = .ok ⟨held.reverse ++ output, ⟨.operator operator.text, position⟩ :: pending⟩ := by
  simp only [step, Operator.ofText?_text, releaseWhile_held tight loose]
  rfl

-----------------------------------------------------------------------------------------
-- A phrase above whatever waits
-----------------------------------------------------------------------------------------

/-- What waits leaves a phrase alone: it holds no operator that the phrase's operators would
send out, and no function that would take the phrase's first group for its own.
-/
structure ReadyFor (nonterminal : Nonterminal) (tokens pending : List Token) : Prop where
  loose : ∀ top ∈ pending.head?, bindsAtLeast nonterminal.precedence top = false
  unowned : ∀ top ∈ pending.head?, startsGroup tokens → top.lexeme.isFunction = false

/-- Nothing that waits above an opening parenthesis disturbs a phrase. -/
theorem ReadyFor.of_opening {first : Token} (opens : first.lexeme.isOpening)
    (nonterminal : Nonterminal) (tokens pending : List Token)
    : ReadyFor nonterminal tokens (first :: pending) := by
  obtain ⟨lexeme, position⟩ := first
  cases lexeme with
  | opening text =>
      exact ⟨by simp [bindsAtLeast], by simp [Lexeme.isFunction]⟩
  | _ => cases opens

/-- A bare function leaves its argument alone unless the argument starts with a group. -/
theorem ReadyFor.of_function {name : String} {position : Int} {tokens : List Token}
    (apart : startsGroup tokens = false) (nonterminal : Nonterminal) (pending : List Token)
    : ReadyFor nonterminal tokens (⟨.function name, position⟩ :: pending) :=
  ⟨by simp [bindsAtLeast], by simp [apart]⟩

/-- An operator leaves its right operand alone, since only tighter operators stand there. -/
theorem ReadyFor.of_operator (operator : Operator) (position : Int)
    (tokens pending : List Token)
    : ReadyFor operator.nonterminal.tighter tokens
        (⟨.operator operator.text, position⟩ :: pending) := by
  refine ⟨?_, by simp [Lexeme.isFunction]⟩
  simp [bindsAtLeast_operator, Operator.precedence_tighter]

theorem ReadyFor.tighter {nonterminal : Nonterminal} {tokens pending : List Token}
    (ready : ReadyFor nonterminal tokens pending)
    : ReadyFor nonterminal.tighter tokens pending := by
  refine ⟨?_, ready.unowned⟩
  intro top member
  apply Bool.eq_false_iff.mpr
  intro binds
  have looser := bindsAtLeast_of_le nonterminal.precedence_le_tighter binds
  simp [ready.loose top member] at looser

theorem ReadyFor.left {nonterminal : Nonterminal} {before later pending : List Token}
    (ready : ReadyFor nonterminal (before ++ later) pending)
    : ReadyFor nonterminal before pending := by
  refine ⟨ready.loose, fun top member starts => ready.unowned top member ?_⟩
  cases before with
  | nil => cases starts
  | cons _ _ => exact starts

theorem step_opening {token : Token} (opens : token.lexeme.isOpening) (state : Conversion)
    : step state token = .ok (state.hold token) := by
  obtain ⟨lexeme, position⟩ := token
  cases lexeme with
  | opening text => rfl
  | _ => cases opens

theorem step_closing {token : Token} (closes : token.lexeme.isClosing) (state : Conversion)
    : step state token = state.closeGroup token.position := by
  obtain ⟨lexeme, position⟩ := token
  cases lexeme with
  | closing text => rfl
  | _ => cases closes

/-- A group sends out all that stands in it, and then a function in front of it.
Witness: what is held above the opening parenthesis holds no other group open.
-/
theorem foldlM_group {tokens output pending released held : List Token} {first last : Token}
    (opens : first.lexeme.isOpening) (closes : last.lexeme.isClosing)
    (run : tokens.foldlM step ⟨output, first :: pending⟩
      = .ok ⟨released.reverse ++ output, held ++ first :: pending⟩)
    (closed : ∀ token ∈ held, token.lexeme.isOpening = false)
    : (first :: (tokens ++ [last])).foldlM step ⟨output, pending⟩
      = .ok (releaseFunction ⟨(released ++ held).reverse ++ output, pending⟩) := by
  rw [List.foldlM_cons, step_opening opens]
  change (tokens ++ [last]).foldlM step ⟨output, first :: pending⟩ = _
  rw [List.foldlM_append, run]
  change ([last].foldlM step ⟨released.reverse ++ output, held ++ first :: pending⟩) = _
  rw [List.foldlM_cons, step_closing closes, closeGroup_held closed opens, List.reverse_append,
    List.append_assoc]
  rfl

/-- A phrase goes out as a first part of its listing, and the rest is held above what waited.
Witness: induction on the phrase. The end of a group empties what the group held, and the
operator of a binary phrase empties what its left operand held.
-/
theorem exists_held_of_phrase {nonterminal ending tokens tree}
    (phrase : Phrase nonterminal ending tokens tree) (output pending : List Token)
    (ready : ReadyFor nonterminal tokens pending)
    : ∃ released held,
        tokens.foldlM step ⟨output, pending⟩
          = .ok ⟨released.reverse ++ output, held ++ pending⟩
        ∧ released ++ held = tree.postorder
        ∧ (∀ token ∈ held, token.lexeme.isOpening = false)
        ∧ (ending = .closed → ∀ token ∈ held, bindsAtLeast nonterminal.precedence token) := by
  induction phrase generalizing output pending with
  | @number value position =>
      exact ⟨[⟨.number value, position⟩], [], rfl, rfl, by simp, by simp⟩
  | group opens closes _ ih =>
      obtain ⟨released, held, run, split, closed, _⟩ :=
        ih output (_ :: pending) (.of_opening opens _ _ _)
      have unowned : ∀ top ∈ pending.head?, top.lexeme.isFunction = false :=
        fun top member => ready.unowned top member opens
      refine ⟨released ++ held, [], ?_, by simpa using split, by simp, by simp⟩
      rw [foldlM_group opens closes run closed, releaseFunction_of_unowned unowned]
      rfl
  | @call name position _ _ _ _ _ opens closes _ ih =>
      let function : Token := ⟨.function name, position⟩
      obtain ⟨released, held, run, split, closed, _⟩ :=
        ih output (_ :: function :: pending) (.of_opening opens _ _ _)
      refine ⟨released ++ held ++ [function], [], ?_, ?_, by simp, by simp⟩
      · rw [List.foldlM_cons]
        change List.foldlM step ⟨output, function :: pending⟩ _ = _
        rw [foldlM_group opens closes run closed, releaseFunction_function]
        simp [function]
      · simp [split, ParseTree.postorder, function]
  | @bareCall name position _ _ _ apart _ ih =>
      let function : Token := ⟨.function name, position⟩
      obtain ⟨released, held, run, split, closed, _⟩ :=
        ih output (function :: pending) (.of_function apart _ _)
      refine ⟨released, held ++ [function], ?_, ?_, ?_, by simp⟩
      · rw [List.foldlM_cons]
        change List.foldlM step ⟨output, function :: pending⟩ _ = _
        simpa using run
      · simp [← split, ParseTree.postorder, function]
      · intro token member
        rcases List.mem_append.mp member with inside | last
        · exact closed token inside
        · simp [List.mem_singleton.mp last, function, Lexeme.isOpening]
  | single _ ih =>
      obtain ⟨released, held, run, split, closed, tight⟩ := ih output pending ready.tighter
      refine ⟨released, held, run, split, closed, fun isClosed token member => ?_⟩
      exact bindsAtLeast_of_le (Nonterminal.precedence_le_tighter _) (tight isClosed token member)
  | @binary operator position ending before later left right _ _ leftIH rightIH =>
      let joint : Token := ⟨.operator operator.text, position⟩
      obtain ⟨leftReleased, leftHeld, leftRun, leftSplit, _, leftTight⟩ :=
        leftIH output pending ready.left
      obtain ⟨rightReleased, rightHeld, rightRun, rightSplit, rightClosed, rightTight⟩ :=
        rightIH ((leftReleased ++ leftHeld).reverse ++ output) (joint :: pending)
          (.of_operator operator position later pending)
      refine ⟨leftReleased ++ leftHeld ++ rightReleased, rightHeld ++ [joint], ?_, ?_, ?_, ?_⟩
      · have loose := ready.loose
        have tight := leftTight rfl
        rw [Operator.precedence_nonterminal] at loose tight
        rw [List.foldlM_append, leftRun]
        change List.foldlM step ⟨_, leftHeld ++ pending⟩ (joint :: later) = _
        rw [List.foldlM_cons, step_operator tight loose, ← List.append_assoc,
          ← List.reverse_append]
        change List.foldlM step ⟨_, joint :: pending⟩ later = _
        rw [rightRun]
        simp
      · simp [← leftSplit, ← rightSplit, ParseTree.postorder, joint]
      · intro token member
        rcases List.mem_append.mp member with inside | last
        · exact rightClosed token inside
        · simp [List.mem_singleton.mp last, joint, Lexeme.isOpening]
      · intro isClosed token member
        rcases List.mem_append.mp member with inside | last
        · refine bindsAtLeast_of_le ?_ (rightTight isClosed token inside)
          exact Nonterminal.precedence_le_tighter _
        · simp [List.mem_singleton.mp last, joint, bindsAtLeast_operator,
            Operator.precedence_nonterminal]

/-- A phrase converts to the listing of its tree.
Witness: at the end of the input all that is held goes out, and nothing else waits.
-/
theorem convert_of_phrase {nonterminal ending tokens tree}
    (phrase : Phrase nonterminal ending tokens tree)
    : convert tokens = .ok tree.postorder := by
  obtain ⟨released, held, run, split, closed, _⟩ :=
    exists_held_of_phrase phrase [] [] ⟨by simp, by simp⟩
  simp only [List.append_nil] at run
  have unopened : held.find? (·.lexeme.isOpening) = none := by
    simpa [List.find?_eq_none] using closed
  rw [convert, start, run, ← split]
  change finish ⟨released.reverse, held⟩ = _
  simp [finish, unopened]

end SciCalc.Conversion
