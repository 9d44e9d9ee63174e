import FormulaCalculator.Proofs.CommandLine.Answered
import FormulaCalculator.Proofs.CommandLine.Effects

set_option autoImplicit false

namespace FormulaCalculator.CommandLine

/-- The first prints what the second does, but for less on the error stream. -/
structure Printed.Quieter (first second : Printed) : Prop where
  out : first.out = second.out
  good : first.good = second.good
  err : first.err.toList.Sublist second.err.toList

namespace Printed.Quieter

theorem refl (printed : Printed) : Quieter printed printed := ⟨rfl, rfl, List.Sublist.refl _⟩

theorem append {first second third fourth : Printed} (before : Quieter first second)
    (after : Quieter third fourth) : Quieter (first.append third) (second.append fourth) := by
  obtain ⟨out, good, err⟩ := before
  cases went : second.good with
  | error fault =>
    rw [append_of_error went, append_of_error (good.trans went)]
    exact ⟨out, good, err⟩
  | ok value =>
    rw [append_of_ok went, append_of_ok (good.trans went)]
    refine ⟨by simp only [out, after.out], by simp only [after.good], ?_⟩
    simpa only [String.toList_append] using err.append after.err

end Printed.Quieter

theorem printResponse_quieter (response : Response) :
    (printResponse false response).Quieter (printResponse true response) := by
  cases response with
  | rejected | refused => exact .refl _
  | result result => exact ⟨rfl, rfl, List.nil_sublist _⟩

section

variable (evaluator : Evaluator) (settings : Settings)

theorem answer_quieter [Stack] (calcOnly : Bool) (text : String) :
    (answer evaluator settings ⟨calcOnly, false⟩ text).Quieter
      (answer evaluator settings ⟨calcOnly, true⟩ text) := by
  cases calcOnly with
  | true =>
    rw [answer_flat, answer_flat]
    exact .refl _
  | false =>
    rw [answer_result, answer_result]
    unfold printResult
    cases evaluateBy evaluator settings text with
    | error fault => exact .refl _
    | ok response => exact printResponse_quieter response

theorem process_quieter [Stack] (calcOnly : Bool) (text : String) :
    (process evaluator settings ⟨calcOnly, false⟩ text).Quieter
      (process evaluator settings ⟨calcOnly, true⟩ text) := by
  have plain : process evaluator settings ⟨calcOnly, false⟩ text =
      Printed.nothing.append (answer evaluator settings ⟨calcOnly, false⟩ text) := rfl
  have traced : process evaluator settings ⟨calcOnly, true⟩ text =
      (dump text).append (answer evaluator settings ⟨calcOnly, true⟩ text) := rfl
  rw [plain, traced]
  cases large : overflows text with
  | true =>
    have broke : (dump text).good = .error .tooTall := by simp [dump_good, large]
    rw [Printed.append_of_error broke, answer_overflow evaluator settings _ large]
    exact ⟨(dump_out text).symm, broke.symm, List.nil_sublist _⟩
  | false =>
    have went : (dump text).good = .ok true := by simp [dump_good, large]
    have stages : Printed.nothing.Quieter (dump text) :=
      ⟨(dump_out text).symm, went.symm, List.nil_sublist _⟩
    exact stages.append (answer_quieter evaluator settings calcOnly text)

theorem processAll_quieter [Stack] (mode : Mode) (texts : List String) :
    (processAll evaluator settings mode texts).Quieter
      (processAll evaluator settings { mode with debug := true } texts) := by
  obtain ⟨calcOnly, debug⟩ := mode
  cases debug with
  | true =>
    dsimp only
    exact .refl _
  | false =>
    dsimp only
    induction texts with
    | nil => exact .refl _
    | cons text texts ih => exact (process_quieter evaluator settings calcOnly text).append ih

theorem readOptions_debug (args : List String) :
    readOptions ("-d" :: args) = withFlags [.debug] <$> readOptions args := by
  have spelled : Spells "-d".toList [.debug] :=
    .cluster (List.cons_ne_nil 'd' []) (.cons (by decide) .nil)
  exact readOptions_spelled spelled args

theorem debugs_of_filled {value : String} (filled : value ≠ "") : debugs (some value) = true := by
  simpa [debugs] using filled

theorem runBy_debug_cons [Stack] (debugVariable : Option String) {value : String} (filled : value ≠ "")
    (args : List String) (input : Input) :
    runBy evaluator settings debugVariable ("-d" :: args) input =
      runBy evaluator settings (some value) args input := by
  have after := readOptions_debug args
  cases read : readOptions args with
  | error fault =>
    rw [read] at after
    rw [runBy_faulty evaluator settings debugVariable input after,
      runBy_faulty evaluator settings (some value) input read]
  | ok found =>
    obtain ⟨flags, texts⟩ := found
    rw [read] at after
    have same : overwritten settings (.debug :: flags) = overwritten settings flags :=
      overwritten_cons settings .debug flags
    cases asked : flags.findSome? Flag.text? with
    | some text =>
      rw [runBy_text evaluator settings debugVariable input after asked,
        runBy_text evaluator settings (some value) input read asked]
      rfl
    | none =>
      rw [runBy_work evaluator settings debugVariable input after asked,
        runBy_work evaluator settings (some value) input read asked, debugs_of_filled filled]
      simp [Mode.along, same]

structure Run.Quieter (first second : Run) : Prop where
  settings : first.settings = second.settings
  status : first.finished.status = second.finished.status
  out : first.finished.out = second.finished.out
  err : first.finished.err.toList.Sublist second.finished.err.toList

theorem Run.Quieter.refl (run : Run) : run.Quieter run := ⟨rfl, rfl, rfl, List.Sublist.refl _⟩

theorem runBy_quieter [Stack] (debugVariable : Option String) {value : String} (filled : value ≠ "")
    (args : List String) (input : Input) :
    (runBy evaluator settings debugVariable args input).Quieter
      (runBy evaluator settings (some value) args input) := by
  cases read : readOptions args with
  | error fault =>
    rw [runBy_faulty evaluator settings debugVariable input read,
      runBy_faulty evaluator settings (some value) input read]
    exact .refl _
  | ok found =>
    obtain ⟨flags, texts⟩ := found
    cases asked : flags.findSome? Flag.text? with
    | some text =>
      rw [runBy_text evaluator settings debugVariable input read asked,
        runBy_text evaluator settings (some value) input read asked]
      exact .refl _
    | none =>
      have loud : Mode.along ⟨false, debugs (some value)⟩ flags =
          { Mode.along ⟨false, debugs debugVariable⟩ flags with debug := true } := by
        simp [Mode.along, debugs_of_filled filled]
      have printed := processAll_quieter evaluator (overwritten settings flags)
        (Mode.along ⟨false, debugs debugVariable⟩ flags) (input.unless texts)
      rw [runBy_work evaluator settings debugVariable input read asked,
        runBy_work evaluator settings (some value) input read asked, loud]
      exact ⟨rfl, by simp only [finish, printed.good], printed.out, printed.err⟩

theorem debugging_unseen [Stack] (debugVariable : Option String) {value : String} (filled : value ≠ "")
    (args : List String) (input : Input) :
    let plain := runBy evaluator settings debugVariable args input
    let traced := runBy evaluator settings (some value) args input
    runBy evaluator settings debugVariable ("-d" :: args) input = traced ∧
      traced.finished.status = plain.finished.status ∧
      traced.finished.out = plain.finished.out ∧
      traced.settings = plain.settings ∧
      plain.finished.err.toList.Sublist traced.finished.err.toList := by
  intro plain traced
  have quieter : plain.Quieter traced := runBy_quieter evaluator settings debugVariable filled args input
  have same := runBy_debug_cons evaluator settings debugVariable filled args input
  exact ⟨same, quieter.status.symm, quieter.out.symm, quieter.settings.symm, quieter.err⟩

end

theorem unfinished_sum_traced :
    let plain := runBy typesetValue {} none ["-fc", "--", "1+", "2x"] ⟨"", false⟩
    let traced := runBy typesetValue {} (some "0") ["-fc", "--", "1+", "2x"] ⟨"", false⟩
    "0" ≠ "" ∧ runBy typesetValue {} none ["-d", "-fc", "--", "1+", "2x"] ⟨"", false⟩ = traced ∧
      traced.finished.status = .ok 1 ∧
      traced.finished.out =
        "error: syntax error\n  unexpected end of input, expected expression\n2*x\n" ∧
      traced.settings = ⟨true, true, 6⟩ ∧
      plain.finished.err.toList.Sublist traced.finished.err.toList := by
  intro plain traced
  have filled : "0" ≠ "" := by decide
  obtain ⟨same, status, out, settings, err⟩ :=
    debugging_unseen typesetValue {} none filled ["-fc", "--", "1+", "2x"] ⟨"", false⟩
  have finished : plain.finished =
      ⟨.ok 1, "error: syntax error\n  unexpected end of input, expected expression\n2*x\n", ""⟩ := rfl
  exact ⟨filled, same, status.trans (congrArg Finished.status finished),
    out.trans (congrArg Finished.out finished), settings.trans rfl, err⟩

end FormulaCalculator.CommandLine
