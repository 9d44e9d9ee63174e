import FormulaCalculator.CommandLine.Calls
import FormulaCalculator.Proofs.CommandLine.Effects

set_option autoImplicit false

namespace FormulaCalculator.CommandLine

def Call.flags : Call → List Flag
  | nothing | evaluate _ => []
  | run _ args _ => acting args

theorem lastChoice_undebugged {choice? : Flag → Option Bool} (neutral : choice? .debug = none)
    (flags : List Flag) : lastChoice choice? (flags.filter (· ≠ .debug)) = lastChoice choice? flags := by
  rw [lastChoice, List.filterMap_filter, lastChoice]
  congr 2
  funext flag
  by_cases same : flag = .debug <;> simp [same, neutral]

theorem overwritten_undebugged (settings : Settings) (flags : List Flag) :
    overwritten settings (flags.filter (· ≠ .debug)) = overwritten settings flags := by
  unfold overwritten
  rw [lastChoice_undebugged rfl, lastChoice_undebugged rfl]

section

variable [Stack] (evaluator : Evaluator) (settings : Settings)

theorem status_eq_two_iff {args : List String} (debugVariable : Option String) (input : Input) :
    (runBy evaluator settings debugVariable args input).finished.status = .ok 2 ↔ IsFaulty args := by
  rw [← readOptions_eq_error_iff]
  cases read : readOptions args with
  | error fault => simp [runBy_faulty evaluator settings debugVariable input read]
  | ok found =>
    obtain ⟨flags, texts⟩ := found
    cases asked : flags.findSome? Flag.text? with
    | some text => simp [runBy_text evaluator settings debugVariable input read asked]
    | none =>
      rw [runBy_work evaluator settings debugVariable input read asked, finish]
      cases (processAll evaluator (overwritten settings flags) _ (input.unless texts)).good with
      | error fault => simp [Functor.map, Except.map]
      | ok good => cases good <;> simp [Functor.map, Except.map]

theorem Call.replyBy_settings (call : Call) :
    (call.replyBy evaluator settings).2 = overwritten settings call.flags := by
  cases call with
  | nothing | evaluate => rfl
  | run debugVariable args input => exact runBy_settings evaluator settings debugVariable input args

def session (calls : List Call) : List (Reply × Settings) :=
  repliesBy evaluator settings (calls.map fun call => (⟨none, none, none⟩, call))

theorem session_cons (call : Call) (calls : List Call) :
    session evaluator settings (call :: calls) =
      call.replyBy evaluator settings ::
        session evaluator (overwritten settings call.flags) calls := by
  rw [← call.replyBy_settings evaluator]
  rfl

def settled (calls : List Call) : Settings :=
  calls.foldl (fun before call => overwritten before call.flags) settings

theorem session_append (calls later : List Call) :
    session evaluator settings (calls ++ later) =
      session evaluator settings calls ++ session evaluator (settled settings calls) later := by
  induction calls generalizing settings with
  | nil => rfl
  | cons call calls ih =>
    rw [List.cons_append, session_cons, session_cons, ih, List.cons_append]
    rfl

theorem length_session (calls : List Call) : (session evaluator settings calls).length = calls.length := by
  induction calls generalizing settings with
  | nil => rfl
  | cons call calls ih => rw [session_cons, List.length_cons, List.length_cons, ih]

theorem settings_session (calls : List Call) :
    (session evaluator settings calls).map Prod.snd =
      (calls.scanl (fun before call => overwritten before call.flags) settings).tail := by
  induction calls generalizing settings with
  | nil => rfl
  | cons call calls ih =>
    rw [session_cons, List.map_cons, call.replyBy_settings, ih, List.scanl_cons, List.tail_cons]
    cases calls <;> simp

theorem places_session {calls : List Call} {step : Reply × Settings}
    (inside : step ∈ session evaluator settings calls) : step.2.places = settings.places := by
  induction calls generalizing settings with
  | nil => cases inside
  | cons call calls ih =>
    rw [session_cons] at inside
    rcases List.mem_cons.1 inside with rfl | later
    · rw [call.replyBy_settings]
      rfl
    · exact ih (overwritten settings call.flags) later

theorem session_undebugged {call other : Call}
    (same : call.flags.filter (· ≠ .debug) = other.flags.filter (· ≠ .debug)) (calls later : List Call) :
    (session evaluator settings (calls ++ call :: later)).drop (calls.length + 1) =
      (session evaluator settings (calls ++ other :: later)).drop (calls.length + 1) := by
  have left (call : Call) : (session evaluator settings (calls ++ call :: later)).drop (calls.length + 1) =
      session evaluator (overwritten (settled settings calls) (call.flags.filter (· ≠ .debug))) later := by
    rw [session_append, ← length_session evaluator settings calls, List.drop_length_add_append,
      session_cons, List.drop_one, List.tail_cons, overwritten_undebugged]
  rw [left, left, same]

theorem settings_by_options (calls : List Call) :
    (session evaluator settings calls).map Prod.snd =
        (calls.scanl (fun before call => overwritten before call.flags) settings).tail ∧
      (∀ options flags args texts debugVariable input, Options options flags → Leaves args texts →
        (Call.run debugVariable (options ++ args) input).flags = inEffect flags) ∧
      (∀ args debugVariable input,
        let run := runBy evaluator settings debugVariable args input
        (IsFaulty args ↔ run.finished.status = .ok 2) ∧
          (IsFaulty args → run.finished.out = "" ∧ run.settings = settings)) ∧
      (∀ step ∈ session evaluator settings calls, step.2.places = settings.places) ∧
      ∀ call other later, call.flags.filter (· ≠ .debug) = other.flags.filter (· ≠ .debug) →
        (session evaluator settings (calls ++ call :: later)).drop (calls.length + 1) =
          (session evaluator settings (calls ++ other :: later)).drop (calls.length + 1) := by
  refine ⟨settings_session evaluator settings calls, ?_, ?_, ?_, ?_⟩
  next =>
    intro options flags args texts debugVariable input given leaves
    exact acting_of_ok (given.readOptions_eq leaves)
  next =>
    intro args debugVariable input run
    refine ⟨(status_eq_two_iff evaluator settings debugVariable input).symm, ?_⟩
    intro faulty
    obtain ⟨fault, failed⟩ := readOptions_eq_error_iff.2 faulty
    have isRun : run = _ := runBy_faulty evaluator settings debugVariable input failed
    rw [isRun]
    exact ⟨rfl, rfl⟩
  next =>
    intro step inside
    exact places_session evaluator settings inside
  next =>
    intro call other later same
    exact session_undebugged evaluator settings same calls later

end

theorem help_and_fault_in_session :
    let help := Call.run none ["-f", "--nodisp", "-h", "--nofraction"] ⟨"", false⟩
    let args := ["-c", "--nofrac", "--display=1"]
    let faulty := runBy typesetValue {} (some "1") args ⟨"", false⟩
    let calls := [help, .evaluate "1+", .run (some "1") args ⟨"", false⟩]
    let fourth := fun option => Call.run none [option, "x"] ⟨"", false⟩
    let run := fun option => session typesetValue {}
      (calls ++ fourth option :: [.run none ["--displ", "--", "-f"] ⟨"x", true⟩])
    (session typesetValue {} calls).map Prod.snd = [⟨true, false, 6⟩, ⟨true, false, 6⟩, ⟨true, false, 6⟩] ∧
      (Options ["-dc"] [.debug, .calc] ∧ Leaves ["x"] ["x"]) ∧ (fourth "-dc").flags = [.debug, .calc] ∧
      IsFaulty args ∧ faulty.finished.status = .ok 2 ∧ faulty.finished.out = "" ∧
      faulty.settings = {} ∧ (run "-dc").drop 4 = (run "-c").drop 4 := by
  intro help args faulty calls fourth run
  obtain ⟨settings, acts, rejects, -, forgotten⟩ := settings_by_options typesetValue {} calls
  have given : Options ["-dc"] [.debug, .calc] := by decide
  have leaves : Leaves ["x"] ["x"] := .plain (.inl (by decide)) []
  have isFaulty : IsFaulty args := readOptions_eq_error_iff.1 ⟨.takesNoValue "displaystyle", by decide⟩
  obtain ⟨status, kept⟩ := rejects args (some "1") ⟨"", false⟩
  obtain ⟨out, unchanged⟩ := kept isFaulty
  have same : (fourth "-dc").flags.filter (· ≠ .debug) = (fourth "-c").flags.filter (· ≠ .debug) := by
    decide
  exact ⟨settings.trans rfl, ⟨given, leaves⟩, acts _ _ _ _ none ⟨"", false⟩ given leaves, isFaulty,
    status.1 isFaulty, out, unchanged, forgotten (fourth "-dc") (fourth "-c") _ same⟩

end FormulaCalculator.CommandLine
