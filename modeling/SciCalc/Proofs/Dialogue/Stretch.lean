import SciCalc.Proofs.Dialogue.Answer

/-! Whole dialogues, line by line.

A dialogue answers its lines up to the first request to quit, or up to the end of its input. After
every line the session remembers the expressions with a value that were read since it was last made
to forget, and nothing else. So what each line is answered with is told by the lines up to it.
-/

namespace SciCalc.Dialogue

/-- A line is answered behind a prompt. -/
def prompted (style : Style) (session : Session) (line : String) : Turn :=
  (answer style session line).after [.prompt] []

/-- Lines are answered one after another, whether or not one of them ends the dialogue. -/
def stretch (style : Style) (session : Session) : List String → Turn
  | [] => { replies := [], records := [], session }
  | line :: rest =>
      let turn := prompted style session line
      turn.followedBy (stretch style turn.session rest)

/-- A turn that bids farewell, for some reason to end a dialogue. -/
def farewell (session : Session) (reason : Reply) : Turn :=
  { replies := [.prompt, reason], records := [], session, ended := true }

/-- The lines that a dialogue answers: those in front of the first request to quit. -/
def linesRead (lines : List String) : List String :=
  lines.takeWhile fun line => !asksToQuit line

/-- The entries that a new session remembers behind some lines. -/
def remembered (mode : Mode) (lines : List String) : List Entry :=
  entriesSince asksToClear (remembered? mode) lines

/-- Lines, each with what it is answered with behind the lines in front of it. -/
def answered (mode : Mode) (lines : List String) : List (String × String) :=
  lines.mapIdx fun place line =>
    (line, answerText mode (remembered mode (lines.take place)) line)

/-- What is printed for lines: each one's answer behind a prompt, and behind its form if forms are
shown.
-/
def printed (showRpn : Bool) (mode : Mode) (lines : List String) : String :=
  String.join ((answered mode lines).map fun (line, answer) =>
    "calc> " ++ (if showRpn then formText mode line else "") ++ answer)

/-- All that a dialogue on lines prints. The farewell stands on a line of its own at the end of the
input.
-/
def screen (showRpn : Bool) (mode : Mode) (lines : List String) : String :=
  Reply.welcome.text ++ printed showRpn mode (linesRead lines) ++ "calc> "
    ++ if lines.any asksToQuit then "Goodbye!\n" else "\nGoodbye!\n"

variable {style : Style} {session : Session} {mode : Mode} {line : String}
variable {before lines : List String}

-----------------------------------------------------------------------------------------
-- Lines that are read
-----------------------------------------------------------------------------------------

theorem linesRead_cons_of_asksToQuit (quits : asksToQuit line) (rest : List String)
    : linesRead (line :: rest) = [] := by
  simp [linesRead, quits]

theorem linesRead_cons (stays : asksToQuit line = false) (rest : List String)
    : linesRead (line :: rest) = line :: linesRead rest := by
  simp [linesRead, stays]

theorem asksToQuit_of_mem_linesRead (member : line ∈ linesRead lines)
    : asksToQuit line = false := by
  simpa using List.mem_takeWhile_imp member

/-- The first of the lines that are read are all read. -/
theorem linesRead_of_prefix (first : before <+: linesRead lines) : linesRead before = before :=
  List.takeWhile_eq_self_iff.mpr fun _ member => by
    simp [asksToQuit_of_mem_linesRead (first.subset member)]

-----------------------------------------------------------------------------------------
-- Stretches
-----------------------------------------------------------------------------------------

theorem Turn.followedBy_assoc (first second third : Turn)
    : (first.followedBy second).followedBy third
      = first.followedBy (second.followedBy third) := by
  simp [Turn.followedBy]

/-- Lines are answered one after another, by induction on the first of them. -/
theorem stretch_append (style : Style) (session : Session) (before more : List String)
    : stretch style session (before ++ more)
      = (stretch style session before).followedBy
          (stretch style (stretch style session before).session more) := by
  induction before generalizing session with
  | nil => rfl
  | cons line rest ih =>
      simp only [List.cons_append, stretch, ih, Turn.followedBy_assoc]
      rfl

/-- The session after lines remembers what they left since it was last made to forget.
Witness: what one line does to the session, by induction from the end.
-/
theorem session_stretch (style : Style) (mode : Mode) (lines : List String)
    : (stretch style { mode } lines).session = { mode, history := remembered mode lines } := by
  induction lines using List.reverseRecOn with
  | nil => rfl
  | append_singleton rest last ih =>
      rw [stretch_append, remembered, entriesSince_concat]
      change (answer style (stretch style { mode } rest).session last).session = _
      rw [session_answer, ih]
      rfl

theorem remembered_concat (mode : Mode) (lines : List String) (last : String)
    : remembered mode (lines ++ [last])
      = if asksToClear last then []
        else remembered mode lines ++ (remembered? mode last).toList :=
  entriesSince_concat lines last

/-- One more line is answered behind the lines in front of it, whose answers stay. -/
theorem answered_concat (mode : Mode) (lines : List String) (last : String)
    : answered mode (lines ++ [last])
      = answered mode lines ++ [(last, answerText mode (remembered mode lines) last)] := by
  rw [answered, List.mapIdx_concat, List.take_left]
  refine congrArg (· ++ _) (List.mapIdx_eq_mapIdx_iff.mpr fun place inside => ?_)
  rw [List.take_append_of_le_length (Nat.le_of_lt inside)]

theorem printed_concat (showRpn : Bool) (mode : Mode) (lines : List String) (last : String)
    : printed showRpn mode (lines ++ [last])
      = printed showRpn mode lines
        ++ ("calc> " ++ (if showRpn then formText mode last else "")
          ++ answerText mode (remembered mode lines) last) := by
  simp [printed, answered_concat]

/-- Lines none of which asks to quit have their answers printed, by induction from the end. -/
theorem transcript_stretch (style : Style) (mode : Mode)
    (stays : ∀ line ∈ lines, asksToQuit line = false)
    : transcript (stretch style { mode } lines).replies = printed style.showRpn mode lines := by
  induction lines using List.reverseRecOn with
  | nil => rfl
  | append_singleton rest last ih =>
      obtain ⟨earlier, here⟩ := List.forall_mem_append.mp stays
      have answers := transcript_answer style { mode, history := remembered mode rest }
        (here last (List.mem_singleton_self last))
      rw [stretch_append, printed_concat, session_stretch, ← ih earlier, String.append_assoc,
        ← answers]
      simp [stretch, Turn.followedBy, prompted, Turn.after]

-----------------------------------------------------------------------------------------
-- Whole dialogues
-----------------------------------------------------------------------------------------

/-- A dialogue answers the lines in front of the first request to quit, and says farewell. No line
behind that request has an effect.
Witness: induction on the lines, by cases on whether the first one ends the dialogue.
-/
theorem answerAll_eq_farewell (style : Style) (session : Session) (lines : List String)
    : answerAll style session lines
      = (stretch style session (linesRead lines)).followedBy
          (farewell (stretch style session (linesRead lines)).session
            (if lines.any asksToQuit then .goodbye else .endOfInput)) := by
  induction lines generalizing session with
  | nil => rfl
  | cons line rest ih =>
      have ended : ((answer style session line).after [.prompt] []).ended = asksToQuit line :=
        ended_answer style session line
      rw [answerAll, ended, List.any_cons]
      cases quits : asksToQuit line with
      | true =>
          rw [linesRead_cons_of_asksToQuit quits, answer_of_asksToQuit _ _ quits]
          rfl
      | false =>
          simp only [Bool.false_eq_true, if_false, Bool.false_or, linesRead_cons quits, stretch,
            ih, Turn.followedBy_assoc]
          rfl

theorem session_answerAll (style : Style) (mode : Mode) (lines : List String)
    : (answerAll style { mode } lines).session
      = { mode, history := remembered mode (linesRead lines) } := by
  rw [answerAll_eq_farewell]
  exact session_stretch style mode (linesRead lines)

/-- Nothing that lines bring about is unexpected, by induction on the first of them. -/
theorem quiet_answerAll (style : Style) (session : Session) (lines : List String)
    : (answerAll style session lines).Quiet := by
  induction lines generalizing session with
  | nil => exact .of_nil rfl
  | cons line rest ih =>
      have first := (quiet_answer style session line).after [.prompt] []
      rw [answerAll]
      split
      · exact first
      · exact first.followedBy (ih _)

/-- A dialogue prints what its lines tell, behind the welcome. -/
theorem transcript_answerAll (style : Style) (mode : Mode) (lines : List String)
    : Reply.welcome.text ++ transcript (answerAll style { mode } lines).replies
      = screen style.showRpn mode lines := by
  have stays : ∀ line ∈ linesRead lines, asksToQuit line = false :=
    fun _ => asksToQuit_of_mem_linesRead
  rw [answerAll_eq_farewell, Turn.followedBy, transcript_append,
    transcript_stretch style mode stays, screen]
  cases lines.any asksToQuit <;> simp [farewell, String.append_assoc]

end SciCalc.Dialogue
