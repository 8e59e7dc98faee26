import SciCalc.Proofs.Evaluation.Places
import SciCalc.Proofs.Rpn.Lockstep
import SciCalc.Proofs.Scan.Blanks

/-! The text of a sequence, word by word, and what is read in it.

A space ends every word, so the scan finds in each the lexeme that it was written for. The text
has the tokens of the sequence, where their words stand, and places decide nothing about a value.
-/

namespace SciCalc

variable {mode : Mode} {position : Nat} {tokens : List Token}

-----------------------------------------------------------------------------------------
-- Words and their places
-----------------------------------------------------------------------------------------

/-- The words of tokens with a space behind each. -/
def spacedWords (tokens : List Token) : String :=
  String.join (tokens.map fun token => token.lexeme.text ++ " ")

/-- Tokens where their words stand in a text from a position on. -/
def atWords (position : Nat) : List Token → List Token
  | [] => []
  | token :: rest =>
      ⟨token.lexeme, position⟩ :: atWords (position + token.lexeme.text.length + 1) rest

@[simp] theorem map_lexeme_atWords (position : Nat) (tokens : List Token)
    : (atWords position tokens).map Token.lexeme = tokens.map Token.lexeme := by
  induction tokens generalizing position with
  | nil => rfl
  | cons token rest ih => simp [atWords, ih]

theorem spacedWords_cons (token : Token) (rest : List Token)
    : spacedWords (token :: rest) = token.lexeme.text ++ " " ++ spacedWords rest := by
  simp [spacedWords]

theorem rpnText_cons_cons (first second : Token) (rest : List Token)
    : rpnText (first :: second :: rest)
      = first.lexeme.text ++ " " ++ rpnText (second :: rest) := by
  simp [rpnText]

/-- A text is the words before a token, each with a space, and the text from the token on. -/
theorem rpnText_append_cons (before : List Token) (token : Token) (after : List Token)
    : rpnText (before ++ token :: after) = spacedWords before ++ rpnText (token :: after) := by
  induction before with
  | nil => simp [spacedWords]
  | cons first rest ih =>
      obtain ⟨next, later, split⟩ : ∃ next later, rest ++ token :: after = next :: later :=
        List.exists_cons_of_ne_nil (by simp)
      rw [List.cons_append, split, rpnText_cons_cons, ← split, ih, spacedWords_cons]
      simp only [String.append_assoc]

theorem getElem?_atWords (position : Nat) (before : List Token) (token : Token)
    (after : List Token)
    : (atWords position (before ++ token :: after))[before.length]?
      = some ⟨token.lexeme, (position + (spacedWords before).length : Nat)⟩ := by
  induction before generalizing position with
  | nil => simp [atWords, spacedWords]
  | cons first rest ih =>
      have width : position + first.lexeme.text.length + 1 + (spacedWords rest).length
          = position + (spacedWords (first :: rest)).length := by
        rw [spacedWords_cons, String.length_append, String.length_append]
        change _ = position + (first.lexeme.text.length + 1 + _)
        omega
      rw [List.cons_append, atWords, List.length_cons, List.getElem?_cons_succ, ih, width]

/-- The text of tokens that can be written is scanned as these tokens, where their words stand.
Witness: induction on the tokens; a word is followed by a space or by nothing.
-/
theorem scanFrom_rpnText (writable : ∀ token ∈ tokens, token.lexeme.IsWritable)
    : scanFrom mode position (rpnText tokens).toList = .ofList (atWords position tokens) := by
  induction tokens generalizing position with
  | nil => simp [rpnText, scanFrom, atWords, TokenStream.ofList]
  | cons token rest ih =>
      obtain ⟨first, others⟩ := List.forall_mem_cons.mp writable
      cases rest with
      | nil =>
          have alone := @scanFrom_text_append mode position _ [] first (by simp [PlainHead])
          rw [List.append_nil, scanFrom] at alone
          simpa [rpnText, atWords, TokenStream.ofList] using alone
      | cons next later =>
          have space : ∀ c ∈ [' '], Text.isBlank c := List.forall_mem_singleton.mpr (by decide)
          have apart : PlainHead (' ' :: (rpnText (next :: later)).toList) := by
            simp [PlainHead]
          have split : (rpnText (token :: next :: later)).toList
              = token.lexeme.text.toList ++ ' ' :: (rpnText (next :: later)).toList := by
            simp [rpnText_cons_cons]
          rw [split, scanFrom_text_append first fun _ => apart]
          have behind := @scanFrom_blanks_append mode (position + token.lexeme.text.length)
            (rpnText (next :: later)).toList [' '] space
          rw [List.singleton_append] at behind
          rw [behind, ih others]
          rfl

@[simp] theorem TokenStream.tokens_ofList (tokens : List Token)
    : (TokenStream.ofList tokens).tokens = tokens := by
  induction tokens with
  | nil => rfl
  | cons token rest ih => rw [ofList, TokenStream.tokens, ih]

/-- The text of tokens that can be written has these tokens, and nothing is passed over. -/
theorem scan_rpnText (writable : ∀ token ∈ tokens, token.lexeme.IsWritable)
    : scan mode (rpnText tokens) = .ofList (atWords 0 tokens) :=
  scanFrom_rpnText writable

-----------------------------------------------------------------------------------------
-- Values and failures wherever the tokens stand
-----------------------------------------------------------------------------------------

/-- A failure whose message says nothing about places. -/
def Failure.TellsNoPlace (failure : Failure) : Prop :=
  ∀ place, (failure.relocate place).message = failure.message

theorem Algebra.Refuses.tellsNoPlace {height : Nat} {failure : Failure}
    (refused : Refuses mode height token failure)
    : failure.TellsNoPlace := by
  cases refused <;> exact fun _ => rfl

/-- A sequence that has no value fails without a place in the message.
Witness: a token is refused or unknown, or there is not one value at the end.
-/
theorem tellsNoPlace_of_rpnValue {failure : Failure}
    (failed : (rpnValue mode tokens).outcome = .error failure)
    : failure.TellsNoPlace := by
  rcases Algebra.outcome_reduce_eq_error_iff.mp failed with
    ⟨_, _, _, _, stack, _, stepped⟩ | ⟨stack, _, finished⟩
  · rcases Algebra.outcome_step_eq_error_iff.mp stepped with refused | lacking
    · exact refused.tellsNoPlace
    · rw [(Algebra.not_isKnown_of_lacks lacking).1]
      exact fun _ => rfl
  · match stack with
    | [] | _ :: _ :: _ =>
        cases finished
        exact fun _ => rfl
    | [_] => cases finished

/-- Two outcomes with the same value, or with failures of one kind that are told in the same words.
-/
def SameVerdict : (first second : Except Failure Float) → Prop
  | .ok value, .ok other => value = other
  | .error failure, .error other => failure.kind = other.kind ∧ failure.message = other.message
  | _, _ => False

/-- Sequences of the same lexemes have the same value, or fail for the same reason.
Witness: with every token moved to one place they are the same sequence.
-/
theorem sameVerdict_rpnValue {others : List Token}
    (same : tokens.map Token.lexeme = others.map Token.lexeme)
    : SameVerdict (rpnValue mode tokens).outcome (rpnValue mode others).outcome := by
  have gathered (list : List Token)
      : list.map (Token.relocate fun _ => 0)
        = (list.map Token.lexeme).map fun lexeme => ⟨lexeme, 0⟩ := by
    rw [List.map_map]
    rfl
  have moved : relocateOutcome (fun _ => 0) id (rpnValue mode tokens).outcome
      = relocateOutcome (fun _ => 0) id (rpnValue mode others).outcome := by
    rw [← outcome_rpnValue_relocate, ← outcome_rpnValue_relocate, gathered, gathered, same]
  cases first : (rpnValue mode tokens).outcome with
  | ok value =>
      cases second : (rpnValue mode others).outcome with
      | ok other =>
          rw [first, second] at moved
          exact Except.ok.inj moved
      | error failure =>
          rw [first, second] at moved
          cases moved
  | error failure =>
      cases second : (rpnValue mode others).outcome with
      | ok other =>
          rw [first, second] at moved
          cases moved
      | error other =>
          rw [first, second] at moved
          have culprits := Except.error.inj moved
          constructor
          · rw [← Failure.kind_relocate fun _ => 0, culprits, Failure.kind_relocate]
          · rw [← tellsNoPlace_of_rpnValue first fun _ => 0, culprits,
              tellsNoPlace_of_rpnValue second]

-----------------------------------------------------------------------------------------
-- Reading the words
-----------------------------------------------------------------------------------------

theorem draw_collect_ofList (tokens : List Token)
    : (Consumer.collect.draw (.ofList tokens)).result = pure tokens := by
  rw [Consumer.draw, Consumer.drawFrom_ofList, Consumer.foldlM_collect, pure_bind]
  exact congrArg pure (by simp [Consumer.collect])

/-- A stream that delivers a list is worth what the list is. -/
theorem draw_value_ofList (tokens : List Token)
    : ((Algebra.value.consumer mode).draw (.ofList tokens)).result = rpnValue mode tokens := by
  rw [Consumer.draw, Consumer.drawFrom_ofList]
  rfl

/-- The text of a sequence is faithful. In either mode its tokens are those of the sequence, each
where its word stands: behind the words before it and a space after each of them. So no other
sequence has this text, places apart, and what is read in it has the value of the sequence, or
fails for the same reason.
-/
theorem tokenize_rpnText (rpn : List Token)
    (writable : ∀ token ∈ rpn, token.lexeme.IsWritable)
    : ∃ again : List Token,
        (∀ reading, tokenize reading (rpnText rpn) = pure again)
        ∧ again.map Token.lexeme = rpn.map Token.lexeme
        ∧ (∀ before token after,
            rpn = before ++ token :: after
            → rpnText rpn = spacedWords before ++ rpnText (token :: after)
              ∧ again[before.length]? = some ⟨token.lexeme, (spacedWords before).length⟩)
        ∧ (∀ other : List Token,
            (∀ token ∈ other, token.lexeme.IsWritable)
            → rpnText other = rpnText rpn
            → other.map Token.lexeme = rpn.map Token.lexeme)
        ∧ ∀ reading mode,
            SameVerdict
              ((Algebra.value.consumer mode).draw (scan reading (rpnText rpn))).result.outcome
              (rpnValue mode rpn).outcome := by
  refine ⟨atWords 0 rpn, fun reading => ?_, map_lexeme_atWords 0 rpn, ?_, ?_, ?_⟩
  · rw [tokenize, scan_rpnText writable, draw_collect_ofList]
  · rintro before token after rfl
    refine ⟨rpnText_append_cons before token after, ?_⟩
    simpa using getElem?_atWords 0 before token after
  · intro other otherWritable same
    have streams := @scan_rpnText .strict other otherWritable
    rw [same, scan_rpnText writable] at streams
    have delivered := congrArg TokenStream.tokens streams
    rw [TokenStream.tokens_ofList, TokenStream.tokens_ofList] at delivered
    rw [← map_lexeme_atWords 0 other, ← delivered, map_lexeme_atWords]
  · intro reading mode
    rw [scan_rpnText writable, draw_value_ofList]
    exact sameVerdict_rpnValue (map_lexeme_atWords 0 rpn)

/-- The least double is a word of more than three hundred characters, and the closing parenthesis
is one that no value comes of. Both are read back, whatever their places were.
-/
theorem tokenize_rpnText_of_closing
    : let rpn : List Token :=
        [⟨.number 5e-324, 7⟩, ⟨.function "log", 7⟩, ⟨.number 1e22, -1⟩, ⟨.closing ")", 0⟩,
          ⟨.operator "-", 7⟩]
      (∀ token ∈ rpn, token.lexeme.IsWritable)
      ∧ ∃ again : List Token,
          (∀ reading, tokenize reading (rpnText rpn) = pure again)
          ∧ again.map Token.lexeme = rpn.map Token.lexeme
          ∧ (∀ before token after,
              rpn = before ++ token :: after
              → rpnText rpn = spacedWords before ++ rpnText (token :: after)
                ∧ again[before.length]? = some ⟨token.lexeme, (spacedWords before).length⟩)
          ∧ (∀ other : List Token,
              (∀ token ∈ other, token.lexeme.IsWritable)
              → rpnText other = rpnText rpn
              → other.map Token.lexeme = rpn.map Token.lexeme)
          ∧ ∀ reading mode,
              SameVerdict
                ((Algebra.value.consumer mode).draw (scan reading (rpnText rpn))).result.outcome
                (rpnValue mode rpn).outcome := by
  intro rpn
  have writable : ∀ token ∈ rpn, token.lexeme.IsWritable := by
    have least : IsUnsigned 5e-324 := by decide +kernel
    have great : IsUnsigned 1e22 := by decide +kernel
    have known : (Lexeme.function "log").IsWritable := @Spelling.isWritable (.function .log) _ rfl
    have minus : (Lexeme.operator "-").IsWritable :=
      @Spelling.isWritable (.operator .subtract) _ rfl
    simp only [rpn, List.forall_mem_cons]
    exact ⟨least, known, great, rfl, minus, nofun⟩
  exact ⟨writable, tokenize_rpnText rpn writable⟩

end SciCalc
