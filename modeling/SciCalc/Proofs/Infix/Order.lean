import Mathlib.Data.List.Infix
import SciCalc.Proofs.Infix.Preservation
import SciCalc.Proofs.Rpn.Runs
import SciCalc.Proofs.Token.Places

/-! The order in which a conversion lets tokens go out.

A number goes out as soon as it is read, so only tokens that were read earlier go out before it.
Places decide nothing, so equal tokens can be told apart by their index in the infix order.
-/

namespace SciCalc

theorem Token.isParenthesis_of_isNumber {token : Token} (isNumber : token.isNumber)
    : token.isParenthesis = false := by
  obtain ⟨lexeme, position⟩ := token
  cases lexeme with
  | number value => rfl
  | _ => cases isNumber

-----------------------------------------------------------------------------------------
-- Tokens at ascending positions
-----------------------------------------------------------------------------------------

/-- Each token of a list stands behind all tokens before it. -/
def Ascending (tokens : List Token) : Prop :=
  tokens.Pairwise fun earlier later => earlier.position < later.position

/-- A number goes out behind tokens only that stand before it. -/
def NumbersInPlace (tokens : List Token) : Prop :=
  tokens.Pairwise fun earlier later => later.isNumber → earlier.position < later.position

namespace Conversion

variable {state next final : Conversion} {token : Token} {tokens released rest : List Token}

/-- What has gone out has its numbers in place, and no number waits. -/
structure Orderly (state : Conversion) : Prop where
  inPlace : NumbersInPlace state.output.reverse
  unnumbered : ∀ token ∈ state.pending, token.isNumber = false

namespace Orderly

/-- What waits may go out at any time, since nothing of it is a number. -/
theorem release (orderly : state.Orderly) (parts : state.pending = released ++ rest)
    : Orderly ⟨released.reverse ++ state.output, rest⟩ := by
  obtain ⟨inPlace, unnumbered⟩ := orderly
  rw [parts] at unnumbered
  obtain ⟨before, behind⟩ := List.forall_mem_append.mp unnumbered
  refine ⟨?_, behind⟩
  have vacuous (earlier later : Token) (waited : later ∈ released)
      : later.isNumber → earlier.position < later.position := by
    simp [before later waited]
  rw [NumbersInPlace, List.reverse_append, List.reverse_reverse]
  refine List.pairwise_append.mpr ⟨inPlace, ?_, fun earlier _ later => vacuous earlier later⟩
  exact List.pairwise_of_forall_mem_list fun earlier _ later => vacuous earlier later

theorem releaseWhile (orderly : state.Orderly) (test : Token → Bool)
    : (state.releaseWhile test).Orderly :=
  orderly.release (List.takeWhile_append_dropWhile).symm

theorem releaseFunction (orderly : state.Orderly)
    : state.releaseFunction.Orderly := by
  obtain ⟨output, pending⟩ := state
  cases pending with
  | nil => exact orderly
  | cons top below =>
      simp only [Conversion.releaseFunction]
      split
      · exact orderly.release (List.singleton_append).symm
      · exact orderly

theorem hold (orderly : state.Orderly) (other : token.isNumber = false)
    : (state.hold token).Orderly :=
  ⟨orderly.inPlace, List.forall_mem_cons.mpr ⟨other, orderly.unnumbered⟩⟩

/-- A step on a token behind all that was read keeps the order, by cases on the token. -/
theorem step (orderly : state.Orderly)
    (behind : ∀ earlier ∈ state.kept, earlier.position < token.position)
    (stepped : state.step token = .ok next)
    : next.Orderly := by
  cases takes_of_step stepped with
  | number =>
      refine ⟨?_, orderly.unnumbered⟩
      rw [NumbersInPlace, emit, List.reverse_cons, List.pairwise_append]
      refine ⟨orderly.inPlace, List.pairwise_singleton _ _, ?_⟩
      simp only [List.mem_reverse, List.mem_singleton, forall_eq]
      exact fun earlier gone _ => behind earlier (List.mem_append_left _ gone)
  | function | opening => exact orderly.hold rfl
  | operator known => exact (orderly.releaseWhile _).hold rfl
  | closing waiting opens =>
      have released := orderly.releaseWhile fun token => !token.lexeme.isOpening
      have unnumbered := released.unnumbered
      rw [waiting] at unnumbered
      exact releaseFunction ⟨released.inPlace, (List.forall_mem_cons.mp unnumbered).2⟩

end Orderly

/-- A run over tokens at ascending positions keeps the order.
Witness: all that is kept was read, so the next token stands behind it.
-/
theorem orderly_of_run (ascending : Ascending tokens)
    (run : tokens.foldlM Conversion.step .start = .ok final)
    : final.Orderly := by
  refine holds_of_run (motive := fun read state => Ascending read → state.Orderly) ?_ ?_ run
    ascending
  · exact fun _ => ⟨.nil, by simp [start]⟩
  · intro read state token next reached orderly stepped ascending
    obtain ⟨before, _, between⟩ := List.pairwise_append.mp ascending
    refine (orderly before).step (fun earlier kept => ?_) stepped
    have wasRead := List.mem_of_mem_filter ((kept_perm_of_run reached).mem_iff.mp kept)
    exact between earlier wasRead token List.mem_cons_self

end Conversion

/-- Tokens at ascending positions go out with their numbers in place.
Witness: at the end of the run no number waits.
-/
theorem numbersInPlace_of_convert {tokens rpn : List Token} (ascending : Ascending tokens)
    (converts : convert tokens = .ok rpn)
    : NumbersInPlace rpn := by
  obtain ⟨state, run, finished⟩ := Failure.bind_eq_ok_iff.mp converts
  have ended := Conversion.orderly_of_run ascending run
  obtain ⟨_, rfl⟩ := Conversion.closed_of_finish_eq_ok finished
  simpa using (ended.release (List.append_nil _).symm).inPlace

-----------------------------------------------------------------------------------------
-- Tokens told apart by their index
-----------------------------------------------------------------------------------------

/-- The same lexemes, each at the position that is its index. -/
def numbered (tokens : List Token) : List Token :=
  tokens.mapIdx fun index token => ⟨token.lexeme, index⟩

/-- Where the token at an index stands in a list. -/
def placeIn (tokens : List Token) (index : Int) : Int :=
  (tokens[index.toNat]?.map (·.position)).getD 0

theorem getElem?_numbered (tokens : List Token) (index : Nat)
    : (numbered tokens)[index]? = tokens[index]?.map fun token => ⟨token.lexeme, index⟩ :=
  List.getElem?_mapIdx

theorem ascending_numbered (tokens : List Token) : Ascending (numbered tokens) := by
  rw [Ascending, List.pairwise_iff_getElem]
  intro i j _ _ before
  simpa [numbered] using before

theorem map_relocate_numbered (tokens : List Token)
    : (numbered tokens).map (Token.relocate (placeIn tokens)) = tokens := by
  apply List.ext_getElem?
  intro index
  rw [List.getElem?_map, getElem?_numbered]
  cases here : tokens[index]? with
  | none => rfl
  | some token => simp [Token.relocate, placeIn, here]

theorem mem_numbered_iff {tokens : List Token} {other : Token}
    : other ∈ numbered tokens
      ↔ ∃ index token, tokens[index]? = some token ∧ other = ⟨token.lexeme, (index : Nat)⟩ := by
  rw [List.mem_iff_getElem?]
  simp only [getElem?_numbered, Option.map_eq_some_iff, @eq_comm _ other]

theorem map_position_numbered (tokens : List Token)
    : (numbered tokens).map (fun token => token.position.toNat) = List.range tokens.length := by
  apply List.ext_getElem
  · simp [numbered]
  · intro index _ _
    simp [numbered]

/-- A list is converted as the numbered list is, and then its tokens are put back in their places.
-/
theorem exists_convert_numbered {tokens rpn : List Token} (converts : convert tokens = .ok rpn)
    : ∃ traced,
        convert (numbered tokens) = .ok traced
        ∧ traced.map (Token.relocate (placeIn tokens)) = rpn := by
  have moved := @convert_relocate (placeIn tokens) (numbered tokens)
  rw [map_relocate_numbered, converts] at moved
  cases traced : convert (numbered tokens) with
  | error failure =>
      rw [traced] at moved
      cases moved
  | ok output =>
      rw [traced] at moved
      exact ⟨output, rfl, (Except.ok.inj moved).symm⟩

-----------------------------------------------------------------------------------------
-- The order of the output
-----------------------------------------------------------------------------------------

/-- An output lists the tokens of an input, the parentheses apart, each of them once and in a
certain order of their indices. A number goes out before all that stands behind it.
-/
structure IsOrderOf (tokens rpn : List Token) (order : List Nat) : Prop where
  nodup : order.Nodup
  mem_iff
    : ∀ index,
        index ∈ order ↔ ∃ token, tokens[index]? = some token ∧ token.isParenthesis = false
  lists : order.map (fun index => tokens[index]?) = rpn.map some
  numberFirst
    : ∀ i j number token,
        i < j
        → tokens[i]? = some number
        → number.isNumber
        → tokens[j]? = some token
        → token.isParenthesis = false
        → [i, j].Sublist order

/-- Of two members of a list one stands before the other if the reverse order is ruled out. -/
theorem pair_sublist_of_pairwise {order : List Nat} {i j : Nat} {relation : Nat → Nat → Prop}
    (pairwise : order.Pairwise relation) (apart : i ≠ j) (forbidden : ¬ relation j i)
    (first : i ∈ order) (second : j ∈ order)
    : [i, j].Sublist order := by
  obtain ⟨before, after, rfl⟩ := List.append_of_mem first
  rcases List.mem_append.mp second with earlier | later
  · have related := (List.pairwise_append.mp pairwise).2.2 j earlier i List.mem_cons_self
    exact absurd related forbidden
  · rcases List.mem_cons.mp later with rfl | behind
    · exact absurd rfl apart
    · exact ((List.singleton_sublist.mpr behind).cons_cons i).trans (List.sublist_append_right _ _)

section Traced

variable {tokens traced : List Token} {other : Token}

theorem mem_traced_iff (converts : convert (numbered tokens) = .ok traced)
    : other ∈ traced
      ↔ ∃ index token,
          tokens[index]? = some token
          ∧ token.isParenthesis = false
          ∧ other = ⟨token.lexeme, (index : Nat)⟩ := by
  rw [(convert_perm converts).mem_iff, List.mem_filter, mem_numbered_iff]
  constructor
  · rintro ⟨⟨index, token, stands, rfl⟩, plain⟩
    exact ⟨index, token, stands, by simpa [Token.isParenthesis] using plain, rfl⟩
  · rintro ⟨index, token, stands, plain, rfl⟩
    exact ⟨⟨index, token, stands, rfl⟩, by simpa [Token.isParenthesis] using plain⟩

/-- A number goes out behind tokens of lower index only. -/
theorem pairwise_traced (converts : convert (numbered tokens) = .ok traced)
    : (traced.map fun token => token.position.toNat).Pairwise fun first second =>
        (∃ number, tokens[second]? = some number ∧ number.isNumber) → first < second := by
  rw [List.pairwise_map]
  refine (numbersInPlace_of_convert (ascending_numbered tokens) converts).imp_of_mem ?_
  rintro first second gone later inPlace ⟨number, stands, isNumber⟩
  obtain ⟨_, _, _, _, rfl⟩ := (mem_traced_iff converts).mp gone
  obtain ⟨_, token, here, _, rfl⟩ := (mem_traced_iff converts).mp later
  obtain rfl : token = number := by simpa [here] using stands
  simpa using inPlace isNumber

/-- The indices of the numbered tokens, in the order in which they go out, order the output.
Witness: an index tells its token, and what goes out is a permutation.
-/
theorem isOrderOf_traced (converts : convert (numbered tokens) = .ok traced)
    : IsOrderOf tokens (traced.map (Token.relocate (placeIn tokens)))
        (traced.map fun token => token.position.toNat) := by
  have mem_order (index : Nat)
      : index ∈ traced.map (fun token => token.position.toNat)
        ↔ ∃ token, tokens[index]? = some token ∧ token.isParenthesis = false := by
    simp only [List.mem_map, mem_traced_iff converts]
    constructor
    · rintro ⟨_, ⟨_, token, stands, plain, rfl⟩, rfl⟩
      exact ⟨token, stands, plain⟩
    · rintro ⟨token, stands, plain⟩
      exact ⟨_, ⟨index, token, stands, plain, rfl⟩, rfl⟩
  refine ⟨?_, mem_order, ?_, ?_⟩
  · have distinct : ((numbered tokens).map fun token => token.position.toNat).Nodup :=
      map_position_numbered tokens ▸ List.nodup_range
    have part := (@List.filter_sublist _ (fun token => !token.isParenthesis) (numbered tokens)).map
      fun token => token.position.toNat
    exact ((convert_perm converts).map _).nodup_iff.mpr (part.nodup distinct)
  · rw [List.map_map, List.map_map]
    apply List.map_congr_left
    intro other gone
    obtain ⟨index, token, stands, _, rfl⟩ := (mem_traced_iff converts).mp gone
    simp [Token.relocate, placeIn, stands]
  · intro i j number token before stands isNumber behind plain
    have numeral := Token.isParenthesis_of_isNumber isNumber
    refine pair_sublist_of_pairwise (pairwise_traced converts) (Nat.ne_of_lt before) ?_
      ((mem_order i).mpr ⟨number, stands, numeral⟩) ((mem_order j).mpr ⟨token, behind, plain⟩)
    intro related
    exact Nat.lt_asymm before (related ⟨number, stands, isNumber⟩)

/-- Numbers go out in the order in which they stand.
Witness: both lists hold the same numbers at ascending positions.
-/
theorem filter_isNumber_traced (converts : convert (numbered tokens) = .ok traced)
    : traced.filter Token.isNumber = (numbered tokens).filter Token.isNumber := by
  have numbers (token : Token)
      : (token.isNumber && !token.isParenthesis) = token.isNumber := by
    cases isNumber : token.isNumber with
    | false => rfl
    | true => simp [Token.isParenthesis_of_isNumber isNumber]
  have same := (convert_perm converts).filter Token.isNumber
  simp only [List.filter_filter, numbers] at same
  have inPlace := numbersInPlace_of_convert (ascending_numbered tokens) converts
  have ascending := (ascending_numbered tokens).sublist (List.filter_sublist (p := Token.isNumber))
  refine same.eq_of_pairwise (fun a b _ _ before behind => ?_) ?_ ascending
  · exact absurd (Int.lt_trans before behind) (Int.lt_irrefl _)
  · refine (inPlace.filter _).imp_of_mem fun _ member related => ?_
    exact related (List.mem_filter.mp member).2

end Traced

/-- A conversion loses no token, invents none and changes none: what goes out is a permutation of
the tokens without the parentheses. Numbers keep their order, and an operator or function goes out
behind every number that stands before it, wherever the tokens say that they stand.
-/
theorem convert_keeps_tokens (tokens rpn : List Token) (converts : convert tokens = .ok rpn)
    : rpn.Perm (tokens.filter fun token => !token.isParenthesis)
      ∧ rpn.filter Token.isNumber = tokens.filter Token.isNumber
      ∧ ∃ order, IsOrderOf tokens rpn order := by
  obtain ⟨traced, numberedConverts, rfl⟩ := exists_convert_numbered converts
  refine ⟨convert_perm converts, ?_, _, isOrderOf_traced numberedConverts⟩
  have numbers := congrArg (List.map (Token.relocate (placeIn tokens)))
    (filter_isNumber_traced numberedConverts)
  have blind (list : List Token)
      : (list.map (Token.relocate (placeIn tokens))).filter Token.isNumber
        = (list.filter Token.isNumber).map (Token.relocate (placeIn tokens)) :=
    List.filter_map
  rw [← blind, ← blind, map_relocate_numbered] at numbers
  exact numbers

/-- In `2-sin(3)-2` without positions the two signs are the same token, and so are two of the
numbers. Each sign still goes out behind the numbers before it.
-/
theorem convert_keeps_tokens_of_equal_signs
    : let sign : Token := ⟨.operator "-", 0⟩
      let tokens : List Token :=
        [⟨.number 2.0, 0⟩, sign, ⟨.function "sin", 0⟩, ⟨.opening "(", 0⟩, ⟨.number 3.0, 0⟩,
          ⟨.closing ")", 0⟩, sign, ⟨.number 2.0, 0⟩]
      let rpn : List Token :=
        [⟨.number 2.0, 0⟩, ⟨.number 3.0, 0⟩, ⟨.function "sin", 0⟩, sign, ⟨.number 2.0, 0⟩, sign]
      convert tokens = .ok rpn
      ∧ rpn.Perm (tokens.filter fun token => !token.isParenthesis)
      ∧ rpn.filter Token.isNumber = tokens.filter Token.isNumber
      ∧ ∃ order, IsOrderOf tokens rpn order := by
  intro sign tokens rpn
  have converts : convert tokens = .ok rpn := rfl
  exact ⟨converts, convert_keeps_tokens _ _ converts⟩

end SciCalc
