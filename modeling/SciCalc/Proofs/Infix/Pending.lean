import Mathlib.Data.List.Infix
import SciCalc.Proofs.Infix.Outcome
import SciCalc.Proofs.Segment

/-! What waits in a conversion, after every token of every run.

Operators that wait one upon the other bind the more tightly the higher they stand, since an
operator sends out what binds at least as tightly before it waits itself. A group that ends or a
function that goes out only lays open what waited below.
-/

namespace SciCalc

-----------------------------------------------------------------------------------------
-- Parentheses that are not closed
-----------------------------------------------------------------------------------------

instance (tokens : List Token) : Decidable (NoStray tokens) :=
  decidable_of_iff (∀ first ∈ tokens.inits, closings first ≤ openings first) (by simp [NoStray])

/-- The opening parentheses of a list that are not closed in it, in the order of the list. -/
def unclosed : List Token → List Token
  | [] => []
  | token :: rest =>
      if token.lexeme.isOpening ∧ NoStray rest then token :: unclosed rest else unclosed rest

theorem exists_unclosedAt_of_mem {tokens : List Token} {culprit : Token}
    (member : culprit ∈ unclosed tokens)
    : ∃ before after, UnclosedAt tokens before culprit after := by
  induction tokens with
  | nil => cases member
  | cons token rest ih =>
      have later (found : culprit ∈ unclosed rest)
          : ∃ before after, UnclosedAt (token :: rest) before culprit after := by
        obtain ⟨before, after, rfl, opens, noStray⟩ := ih found
        exact ⟨token :: before, after, rfl, opens, noStray⟩
      simp only [unclosed] at member
      split at member
      · next here =>
          rcases List.mem_cons.mp member with rfl | found
          · exact ⟨[], rest, rfl, here.1, here.2⟩
          · exact later found
      · exact later member

theorem Paired.unclosed_eq_nil {tokens : List Token} (paired : Paired tokens)
    : unclosed tokens = [] := by
  apply List.eq_nil_iff_forall_not_mem.mpr
  intro culprit member
  obtain ⟨before, after, found⟩ := exists_unclosedAt_of_mem member
  exact paired.not_unclosedAt found

/-- One more opening parenthesis, with pairs behind it, makes nothing stray. -/
theorem NoStray.append_opening_iff {before inner : List Token} {first : Token}
    (opens : first.lexeme.isOpening) (paired : Paired inner)
    : NoStray (before ++ first :: inner) ↔ NoStray before := by
  refine ⟨NoStray.left, fun noStray => ?_⟩
  have level := noStray before (List.prefix_refl before)
  have opened : NoStray (before ++ [first]) := by
    refine NoStray.concat_iff.mpr ⟨noStray, ?_⟩
    simp only [closings_append, openings_append, closings_cons, openings_cons, opens,
      Lexeme.isClosing_of_isOpening opens, closings_nil, openings_nil, if_true, Bool.false_eq_true,
      if_false]
    omega
  simpa using opened.append_paired paired

theorem unclosed_append_opening {before inner : List Token} {first : Token}
    (opens : first.lexeme.isOpening) (paired : Paired inner)
    : unclosed (before ++ first :: inner) = unclosed before ++ [first] := by
  induction before with
  | nil => simp [unclosed, opens, paired.noStray, paired.unclosed_eq_nil]
  | cons token rest ih =>
      simp only [List.cons_append, unclosed, NoStray.append_opening_iff opens paired, ih]
      split <;> rfl

/-- The groups that are open are those of the parentheses that are not closed, the latest first. -/
theorem OpenGroups.unclosed_eq {tokens outer : List Token} (groups : OpenGroups tokens outer)
    : unclosed tokens = outer.reverse := by
  induction groups with
  | none paired => exact paired.unclosed_eq_nil
  | group around opens inner ih =>
      rw [unclosed_append_opening opens inner, ih, List.reverse_cons]

-----------------------------------------------------------------------------------------
-- Operators that wait
-----------------------------------------------------------------------------------------

/-- The precedence of an operator. -/
def Token.precedence? (token : Token) : Option Nat :=
  match token.lexeme with
  | .operator text => (Operator.ofText? text).map (·.precedence)
  | _ => none

theorem Token.mem_of_precedence? {token : Token} {precedence : Nat}
    (found : token.precedence? = some precedence)
    : precedence ∈ [1, 2, 3] := by
  obtain ⟨lexeme, position⟩ := token
  cases lexeme with
  | operator text =>
      obtain ⟨operator, _, rfl⟩ := Option.map_eq_some_iff.mp found
      cases operator <;> decide
  | _ => cases found

/-- One precedence is higher than another one, if both are there. -/
def Higher (above below : Option Nat) : Prop :=
  ∀ upper ∈ above, ∀ lower ∈ below, lower < upper

namespace Conversion

theorem bindsAtLeast_eq (precedence : Nat) (token : Token)
    : bindsAtLeast precedence token = token.precedence?.any (precedence ≤ ·) := by
  obtain ⟨lexeme, position⟩ := token
  cases lexeme with
  | operator text =>
      simp only [bindsAtLeast, Token.precedence?]
      cases Operator.ofText? text <;> rfl
  | _ => rfl

/-- What waits are known operators, functions and opening parentheses, the latest first, and of two
operators that wait one upon the other the upper one has the higher precedence.
-/
structure Stacked (pending : List Token) : Prop where
  waits
    : ∀ token ∈ pending,
        token.precedence?.isSome ∨ token.lexeme.isFunction ∨ token.lexeme.isOpening
  higher : pending.IsChain fun upper lower => Higher upper.precedence? lower.precedence?

namespace Stacked

variable {pending below block : List Token} {state next : Conversion} {token : Token}

theorem suffix (stacked : Stacked pending) (suffix : below <:+ pending) : Stacked below :=
  ⟨fun token member => stacked.waits token (suffix.subset member), stacked.higher.suffix suffix⟩

theorem hold_plain (stacked : Stacked pending)
    (plain : token.lexeme.isFunction ∨ token.lexeme.isOpening)
    : Stacked (token :: pending) := by
  have none : token.precedence? = none := by
    obtain ⟨lexeme, position⟩ := token
    cases lexeme with
    | operator text => rcases plain with named | opens <;> contradiction
    | _ => rfl
  refine ⟨List.forall_mem_cons.mpr ⟨.inr plain, stacked.waits⟩, ?_⟩
  refine List.isChain_cons.mpr ⟨fun top _ => ?_, stacked.higher⟩
  simp [Higher, none]

theorem hold_operator {operator : Operator} (stacked : Stacked pending)
    (named : token.precedence? = some operator.precedence)
    (loose : ∀ top ∈ pending.head?, bindsAtLeast operator.precedence top = false)
    : Stacked (token :: pending) := by
  refine ⟨List.forall_mem_cons.mpr ⟨.inl (by simp [named]), stacked.waits⟩, ?_⟩
  refine List.isChain_cons.mpr ⟨fun top first => ?_, stacked.higher⟩
  have looser := loose top first
  rw [bindsAtLeast_eq] at looser
  intro upper isUpper lower isLower
  rw [named] at isUpper
  cases isUpper
  simpa [Option.mem_def.mp isLower] using looser

theorem releaseFunction {output : List Token} (stacked : Stacked pending)
    : Stacked (Conversion.releaseFunction ⟨output, pending⟩).pending := by
  cases pending with
  | nil => exact stacked
  | cons top below =>
      simp only [Conversion.releaseFunction]
      split
      · exact stacked.suffix (List.suffix_cons top below)
      · exact stacked

/-- A step keeps the shape of what waits, by cases on what is taken. -/
theorem step (stacked : Stacked state.pending) (stepped : state.step token = .ok next)
    : Stacked next.pending := by
  have released (test : Token → Bool) : Stacked (state.releaseWhile test).pending :=
    stacked.suffix (List.dropWhile_suffix test)
  cases takes_of_step stepped with
  | number => exact stacked
  | function => exact stacked.hold_plain (.inl rfl)
  | opening => exact stacked.hold_plain (.inr rfl)
  | @operator text position operator known =>
      have named : Token.precedence? ⟨.operator text, position⟩ = some operator.precedence := by
        simp [Token.precedence?, known]
      refine (released _).hold_operator named fun top first => ?_
      have stops := List.head?_dropWhile_not (bindsAtLeast operator.precedence) state.pending
      change (state.pending.dropWhile (bindsAtLeast operator.precedence)).head? = some top at first
      rw [first] at stops
      exact stops
  | @closing _ _ first below waiting _ =>
      exact releaseFunction ((waiting ▸ released _).suffix (List.suffix_cons first below))

/-- Operators that wait next to each other have precedences, which rise to the top. -/
theorem exists_precedences (stacked : Stacked pending) (within : block <:+: pending)
    (operators : ∀ token ∈ block, token.isOperator)
    : ∃ precedences : List Nat,
        block.map Token.precedence? = precedences.map some
        ∧ precedences.Pairwise (· > ·) := by
  have known : ∀ found ∈ block.map Token.precedence?, found.isSome := by
    intro found member
    obtain ⟨token, inside, rfl⟩ := List.mem_map.mp member
    have operator := operators token inside
    obtain ⟨lexeme, position⟩ := token
    cases lexeme with
    | operator text =>
        rcases stacked.waits _ (within.subset inside) with known | named | opens
        · exact known
        · cases named
        · cases opens
    | _ => cases operator
  have same : block.map Token.precedence? = (block.filterMap Token.precedence?).map some := by
    rw [List.map_filterMap_some_eq_filter_map_isSome, List.filter_eq_self.mpr known]
  refine ⟨_, same, List.isChain_iff_pairwise.mp ?_⟩
  have inside := List.IsChain.infix stacked.higher within
  have chain := List.isChain_map_of_isChain (S := Higher) Token.precedence?
    (fun _ _ higher => higher) inside
  rw [same, List.isChain_map] at chain
  exact chain.imp fun _ _ higher => higher _ rfl _ rfl

/-- There are three precedences, so no more operators wait next to each other. -/
theorem length_le_three (stacked : Stacked pending) (within : block <:+: pending)
    (operators : ∀ token ∈ block, token.isOperator)
    : block.length ≤ 3 := by
  obtain ⟨precedences, same, falling⟩ := stacked.exists_precedences within operators
  have known : precedences ⊆ [1, 2, 3] := by
    intro precedence member
    have found := List.mem_map_of_mem (f := some) member
    rw [← same] at found
    obtain ⟨token, _, named⟩ := List.mem_map.mp found
    exact Token.mem_of_precedence? named
  have distinct : precedences.Nodup := falling.imp fun above => Nat.ne_of_gt above
  have length := congrArg List.length same
  rw [List.length_map, List.length_map] at length
  rw [length]
  exact distinct.length_le_of_subset known

end Stacked

/-- What waits and is no operator opens a group or is a function, by induction on the list. -/
theorem countP_not_isOperator {stack : List Token}
    (waits : ∀ token ∈ stack, token.isOperator ∨ token.lexeme.isFunction ∨ token.lexeme.isOpening)
    : stack.countP (fun token => !token.isOperator)
      = stack.countP (·.lexeme.isOpening) + stack.countP (·.lexeme.isFunction) := by
  induction stack with
  | nil => rfl
  | cons token rest ih =>
      obtain ⟨here, others⟩ := List.forall_mem_cons.mp waits
      obtain ⟨lexeme, position⟩ := token
      simp only [List.countP_cons, ih others]
      cases lexeme with
      | operator _ | function _ =>
          simp [Token.isOperator, Lexeme.isOperator, Lexeme.isOpening, Lexeme.isFunction,
            Nat.add_assoc]
      | opening _ =>
          simp [Token.isOperator, Lexeme.isOperator, Lexeme.isOpening, Lexeme.isFunction,
            Nat.add_right_comm]
      | number _ | closing _ => rcases here with operator | named | opens <;> contradiction

/-- After every token of every run the stack of what waits has the same shape, from the bottom to
the top. It holds operators, functions and opening parentheses only, and of these parentheses
exactly those that are not closed yet, in their order. Operators next to each other rise in
precedence, so there are three of them at most, and the functions and parentheses in between bound
the stack.
-/
theorem pending_of_run (read : List Token) (state : Conversion)
    (run : read.foldlM step .start = .ok state)
    : let stack := state.pending.reverse
      let groups := (unclosed read).length
      let functions := stack.countP (·.lexeme.isFunction)
      (∀ token ∈ stack, token.isOperator ∨ token.lexeme.isFunction ∨ token.lexeme.isOpening)
      ∧ stack.filter (·.lexeme.isOpening) = unclosed read
      ∧ (∀ block,
          block <:+: stack
          → (∀ token ∈ block, token.isOperator)
          → block.length ≤ 3
            ∧ ∃ precedences : List Nat,
                block.map Token.precedence? = precedences.map some
                ∧ precedences.Pairwise (· < ·))
      ∧ stack.length ≤ 3 * (groups + functions + 1) + groups + functions := by
  intro stack groups functions
  have stacked : Stacked state.pending :=
    holds_of_run (motive := fun _ state => Stacked state.pending) ⟨by simp [start], .nil⟩
      (fun _ => Stacked.step) run
  have groupsOf : stack.filter (·.lexeme.isOpening) = unclosed read := by
    rw [(openGroups_of_run run).unclosed_eq, opened, ← List.filter_reverse]
  have waits : ∀ token ∈ stack,
      token.isOperator ∨ token.lexeme.isFunction ∨ token.lexeme.isOpening := by
    intro token member
    refine (stacked.waits token (List.mem_reverse.mp member)).imp_left fun known => ?_
    obtain ⟨lexeme, position⟩ := token
    cases lexeme with
    | operator text => rfl
    | _ => cases known
  have below {block : List Token} (within : block <:+: stack) : block.reverse <:+: state.pending :=
    List.reverse_infix.mp (by simpa using within)
  have bounded (block : List Token) (within : block <:+: stack)
      (operators : ∀ token ∈ block, token.isOperator)
      : block.length ≤ 3 := by
    rw [← List.length_reverse]
    exact stacked.length_le_three (below within) (by simpa using operators)
  refine ⟨waits, groupsOf, fun block within operators => ⟨bounded block within operators, ?_⟩, ?_⟩
  · obtain ⟨precedences, same, falling⟩ :=
      stacked.exists_precedences (below within) (by simpa using operators)
    refine ⟨precedences.reverse, ?_, List.pairwise_reverse.mpr falling⟩
    rw [List.map_reverse, ← same, List.map_reverse, List.reverse_reverse]
  · have length := length_le_of_segments bounded
    rw [countP_not_isOperator waits, List.countP_eq_length_filter, groupsOf] at length
    change stack.length ≤ 3 * (groups + functions + 1) + (groups + functions) at length
    omega

/-- In front of the `4` of `sin 1+2*3^cos(4)` six tokens wait, three of them operators in a row. -/
theorem pending_of_run_in_group
    : let read : List Token :=
        [⟨.function "sin", 0⟩, ⟨.number 1.0, 4⟩, ⟨.operator "+", 5⟩, ⟨.number 2.0, 6⟩,
          ⟨.operator "*", 7⟩, ⟨.number 3.0, 8⟩, ⟨.operator "^", 9⟩, ⟨.function "cos", 10⟩,
          ⟨.opening "(", 13⟩]
      let state : Conversion :=
        ⟨[⟨.number 3.0, 8⟩, ⟨.number 2.0, 6⟩, ⟨.number 1.0, 4⟩],
          [⟨.opening "(", 13⟩, ⟨.function "cos", 10⟩, ⟨.operator "^", 9⟩, ⟨.operator "*", 7⟩,
            ⟨.operator "+", 5⟩, ⟨.function "sin", 0⟩]⟩
      read.foldlM step .start = .ok state
      ∧ let stack := state.pending.reverse
        let groups := (unclosed read).length
        let functions := stack.countP (·.lexeme.isFunction)
        (∀ token ∈ stack, token.isOperator ∨ token.lexeme.isFunction ∨ token.lexeme.isOpening)
        ∧ stack.filter (·.lexeme.isOpening) = unclosed read
        ∧ (∀ block,
            block <:+: stack
            → (∀ token ∈ block, token.isOperator)
            → block.length ≤ 3
              ∧ ∃ precedences : List Nat,
                  block.map Token.precedence? = precedences.map some
                  ∧ precedences.Pairwise (· < ·))
        ∧ stack.length ≤ 3 * (groups + functions + 1) + groups + functions := by
  intro read state
  have run : read.foldlM step .start = .ok state := rfl
  exact ⟨run, pending_of_run _ _ run⟩

end Conversion

end SciCalc
