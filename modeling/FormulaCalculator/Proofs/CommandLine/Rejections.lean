import FormulaCalculator.Proofs.CommandLine.Sequence
import FormulaCalculator.Proofs.Grammar.Messages

set_option autoImplicit false

namespace FormulaCalculator

open Text

theorem Text.lines_join {texts : List String} (each : ∀ text ∈ texts, IsLine text) :
    lines (String.join (texts.map CommandLine.line)).toList = texts.map String.toList := by
  induction texts with
  | nil => rfl
  | cons text texts ih =>
    obtain ⟨here, others⟩ := List.forall_mem_cons.1 each
    have apart : (String.join ((text :: texts).map CommandLine.line)).toList =
        text.toList ++ (['\n'] ++ (String.join (texts.map CommandLine.line)).toList) := by
      simp [CommandLine.line]
    have lined := Lined.cons here.inner (.feed _) (lined_lines (String.join (texts.map CommandLine.line)).toList)
    rw [apart, lined.lines_eq, ih others, List.map_cons]

theorem Formula.ofText_rejected_iff [Stack] {text : String} {diagnostics : List Diagnostic} :
    ofText text = .error (.rejected diagnostics) ↔ Grammar.parseText (normalize text) = .error diagnostics := by
  unfold ofText
  cases Grammar.parseText (normalize text) with
  | error noted => simp
  | ok expr => cases flat : expr.flat <;> simp [flat]

theorem evaluateBy_rejected_iff [Stack] (evaluator : Evaluator) (settings : Settings) {text : String}
    {diagnostics : List Diagnostic} : evaluateBy evaluator settings text = .ok (.rejected diagnostics) ↔
      Grammar.parseText (normalize text) = .error diagnostics := by
  rw [← Formula.ofText_rejected_iff]
  unfold evaluateBy
  rcases Formula.ofText text with ⟨noted | fault⟩ | formula
  next => simp
  next => simp
  next =>
    -- An evaluator can refuse a formula, but never rejects it.
    unfold Formula.evaluateBy
    cases answer : evaluator settings formula <;> simp [answer]

namespace CommandLine

def rejectionLines (diagnostics : List Diagnostic) : List String :=
  "error: syntax error" :: diagnostics.map fun diagnostic => "  " ++ diagnostic.message

theorem isLine_rejectionLines [Stack] {text : String} {diagnostics : List Diagnostic}
    (rejected : Grammar.parseText text = .error diagnostics) :
    ∀ printed ∈ rejectionLines diagnostics, IsLine printed := by
  have header : IsLine "error: syntax error" := by decide
  intro printed among
  rcases List.mem_cons.1 among with rfl | listed
  · exact header
  · obtain ⟨diagnostic, told, rfl⟩ := List.mem_map.1 listed
    exact IsLine.append (by decide) (Grammar.isLine_of_parseText rejected diagnostic told)

theorem intercalate_details (first : String) (details : List String) :
    line ("\n  ".intercalate (first :: details)) =
      String.join ((first :: details.map ("  " ++ ·)).map line) := by
  induction details generalizing first with
  | nil => simp
  | cons detail details ih =>
    have next := ih detail
    have apart (rest : String) : "\n  " ++ rest = "\n" ++ ("  " ++ rest) := by
      rw [← String.append_assoc]
      rfl
    rw [String.intercalate_cons_cons]
    simp only [line, String.append_assoc, List.map_cons, String.join_cons] at next ⊢
    rw [apart, next]

theorem rejected_out (diagnostics : List Diagnostic) :
    (rejected diagnostics).out = String.join ((rejectionLines diagnostics).map line) := by
  unfold rejected failed rejectionLines
  rw [intercalate_details, List.map_map]
  rfl

theorem Printed.append_nothing (printed : Printed) : printed.append .nothing = printed := by
  obtain ⟨out, err, good⟩ := printed
  cases good <;> simp [append, nothing, Functor.map, Except.map]

theorem finish_failed_iff (printed : Printed) : (finish printed).status = .ok 1 ↔ printed.good = .ok false := by
  unfold finish
  rcases printed.good with fault | good
  · simp [Functor.map, Except.map]
  · cases good <;> simp [Functor.map, Except.map]

section

variable [Stack] (evaluator : Evaluator) (settings : Settings)

theorem answer_rejected (mode : Mode) {text : String} {diagnostics : List Diagnostic}
    (noTree : Grammar.parseText (normalize text) = .error diagnostics) :
    answer evaluator settings mode text = rejected diagnostics := by
  unfold answer
  split
  next =>
    unfold printFlat
    rw [Formula.ofText_rejected_iff.2 noTree]
  next =>
    unfold printResult
    rw [(evaluateBy_rejected_iff evaluator settings).2 noTree]
    rfl

theorem process_rejected (mode : Mode) {text : String} {diagnostics : List Diagnostic}
    (noTree : Grammar.parseText (normalize text) = .error diagnostics) :
    (process evaluator settings mode text).out = String.join ((rejectionLines diagnostics).map line) ∧
      (process evaluator settings mode text).good = .ok false := by
  obtain ⟨out, good⟩ := process_eq evaluator settings mode text
  rw [answer_rejected evaluator settings mode noTree] at out good
  exact ⟨out.trans (rejected_out diagnostics), good⟩

theorem process_flat_failed_iff (debug : Bool) (text : String) :
    (process evaluator settings ⟨true, debug⟩ text).good = .ok false ↔
      ∃ diagnostics, Grammar.parseText (normalize text) = .error diagnostics := by
  constructor
  next =>
    intro failed
    have same := (process_eq evaluator settings ⟨true, debug⟩ text).2
    rw [failed, answer_flat] at same
    unfold printFlat at same
    rcases found : Formula.ofText text with ⟨diagnostics | fault⟩ | formula
    next => exact ⟨diagnostics, Formula.ofText_rejected_iff.1 found⟩
    next =>
      rw [found] at same
      cases same
    next =>
      rw [found] at same
      cases same
  next =>
    rintro ⟨diagnostics, noTree⟩
    exact (process_rejected evaluator settings ⟨true, debug⟩ noTree).2

theorem finishAll_single (mode : Mode) (text : String) :
    finishAll evaluator settings mode [text] = finish (process evaluator settings mode text) := by
  unfold finishAll processAll processAll
  rw [Printed.append_nothing]

theorem rejection_lines (debugVariable : Option String) (input : Input) {options : List String}
    {flags : List Flag} (given : Options options flags) (noHelp : .help ∉ flags)
    (noVersion : .version ∉ flags) (text : String) :
    let finished := (runBy evaluator settings debugVariable (options ++ ["--", text]) input).finished
    (∀ source diagnostics, Grammar.parseText source = .error diagnostics →
      (∀ diagnostic ∈ diagnostics, '\n' ∉ diagnostic.message.toList) ∧
        (Grammar.summary diagnostics).toList.splitOn '\n' = diagnostics.map (·.message.toList)) ∧
    (∀ diagnostics, evaluateBy evaluator settings text = .ok (.rejected diagnostics) ↔
      Grammar.parseText (normalize text) = .error diagnostics) ∧
    (.calc ∈ flags → (finished.status = .ok 1 ↔
      ∃ diagnostics, Grammar.parseText (normalize text) = .error diagnostics)) ∧
    ∀ diagnostics, Grammar.parseText (normalize text) = .error diagnostics →
      finished.status = .ok 1 ∧
        finished.out = String.join ((rejectionLines diagnostics).map line) ∧
        Text.lines finished.out.toList = (rejectionLines diagnostics).map String.toList := by
  intro finished
  have whole : finished = finish (process evaluator (overwritten settings flags)
      (Mode.along ⟨false, debugs debugVariable⟩ flags) text) := by
    have run := runBy_finishAll evaluator settings debugVariable input given
      (noText_iff.2 ⟨noHelp, noVersion⟩) (List.cons_ne_nil text [])
    rw [finishAll_single] at run
    exact congrArg Run.finished run
  rw [whole, finish_failed_iff]
  refine ⟨?messages, ?response, ?flat, ?printed⟩
  case messages =>
    intro source diagnostics noTree
    refine ⟨?_, Grammar.splitOn_summary noTree⟩
    intro diagnostic told
    exact (Grammar.isLine_of_parseText noTree diagnostic told).noFeed
  case response =>
    intro diagnostics
    exact evaluateBy_rejected_iff evaluator settings
  case flat =>
    intro onlyFlat
    have flatOnly : Mode.along ⟨false, debugs debugVariable⟩ flags =
        ⟨true, debugs debugVariable || flags.contains .debug⟩ := by
      simp [Mode.along, onlyFlat]
    rw [flatOnly]
    exact process_flat_failed_iff evaluator _ _ text
  case printed =>
    intro diagnostics noTree
    obtain ⟨out, good⟩ := process_rejected evaluator (overwritten settings flags)
      (Mode.along ⟨false, debugs debugVariable⟩ flags) noTree
    refine ⟨good, out, ?_⟩
    change Text.lines (process _ _ _ text).out.toList = _
    rw [out, Text.lines_join (isLine_rejectionLines noTree)]

end

theorem broken_off_rejected :
    let finished := (runBy typesetValue {} none (["-c"] ++ ["--", "(1 +\n"]) ⟨"", false⟩).finished
    Options ["-c"] [.calc] ∧ finished.status = .ok 1 ∧
      Text.lines finished.out.toList = ["error: syntax error",
        "  unexpected end of input, expected expression",
        "  unexpected end of input, expected RParen"].map String.toList := by
  have given : Options ["-c"] [.calc] := by decide
  let diagnostics : List Diagnostic := [⟨.ended .expression, none⟩, ⟨.ended (.token .rightParen), none⟩]
  have noted : (Grammar.readAll Stack.nesting (Token.scan (normalize "(1 +\n"))).2.noted = diagnostics := by
    decide +kernel
  have noTree : Grammar.parseText (normalize "(1 +\n") = .error diagnostics := by
    simp [Grammar.parseText, Grammar.parse, Grammar.parseWithin, Grammar.verdict, noted, diagnostics]
  obtain ⟨-, -, -, printed⟩ := rejection_lines typesetValue {} none ⟨"", false⟩ given (by decide) (by decide)
    "(1 +\n"
  obtain ⟨status, -, lines⟩ := printed diagnostics noTree
  exact ⟨given, status, lines⟩

end CommandLine

end FormulaCalculator
