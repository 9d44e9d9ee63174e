import FormulaCalculator.CommandLine.Run
import FormulaCalculator.Proofs.Grammar.Image
import FormulaCalculator.Proofs.Grammar.LongSum

set_option autoImplicit false

namespace FormulaCalculator

def Response.isResult : Response → Bool
  | .result _ => true
  | _ => false

namespace CommandLine

def shown (response : Response) : String := (printResponse false response).out

theorem printResponse_out (debug : Bool) (response : Response) :
    (printResponse debug response).out = shown response := by
  cases response <;> rfl

theorem printResponse_good (debug : Bool) (response : Response) :
    (printResponse debug response).good = .ok response.isResult := by
  cases response <;> rfl

namespace Printed

variable {first second : Printed}

theorem append_of_ok {good : Bool} (went : first.good = .ok good) :
    first.append second =
      ⟨first.out ++ second.out, first.err ++ second.err, (good && ·) <$> second.good⟩ := by
  unfold append
  rw [went]

theorem append_of_error {fault : FlatFault} (broke : first.good = .error fault) :
    first.append second = first := by
  unfold append
  rw [broke]

theorem append_quiet (went : first.good = .ok true) (quiet : first.out = "") :
    (first.append second).out = second.out ∧ (first.append second).good = second.good := by
  rw [append_of_ok went, quiet]
  constructor
  · simp
  · cases second.good <;> rfl

end Printed

end CommandLine

section

variable [Stack]

/-- The text is read as a tree that is too tall to be walked. -/
def overflows (text : String) : Bool :=
  (Grammar.parseText (normalize text)).toOption.any Expr.isTall

theorem overflows_of_ok {text : String} {expr : Expr}
    (parsed : Grammar.parseText (normalize text) = .ok expr) : overflows text = expr.isTall := by
  rw [overflows, parsed]
  rfl

theorem overflows_of_error {text : String} {noted : List Diagnostic}
    (parsed : Grammar.parseText (normalize text) = .error noted) : overflows text = false := by
  rw [overflows, parsed]
  rfl

theorem onesText_overflows {count : Nat} (long : Stack.room ≤ count) :
    overflows (onesText count) = true := by
  have parsed : Grammar.parseText (normalize (onesText count)) = .ok (ones count) := by
    rw [normalize_onesText, Grammar.parseText_onesText]
  rw [overflows_of_ok parsed, ones_isTall long]

theorem Formula.ofText_overflow {text : String} (large : overflows text = true) :
    Formula.ofText text = .error (.unwritten .tooTall) := by
  unfold Formula.ofText
  cases parsed : Grammar.parseText (normalize text) with
  | ok expr =>
    rw [overflows_of_ok parsed] at large
    simp [Expr.flat, large]
  | error noted =>
    rw [overflows_of_error parsed] at large
    cases large

theorem Formula.ofText_ok_or_rejected {text : String} (held : overflows text = false) :
    (∃ formula, Formula.ofText text = .ok formula) ∨
      ∃ noted, Formula.ofText text = .error (.rejected noted) := by
  unfold Formula.ofText
  cases parsed : Grammar.parseText (normalize text) with
  | ok expr =>
    have regular := (Grammar.wellFormed_of_parseText parsed).regular
    rw [overflows_of_ok parsed] at held
    simp [regular.flat_ok held]
  | error noted => simp

variable (evaluator : Evaluator) (settings : Settings)

theorem evaluateBy_overflow {text : String} (large : overflows text = true) :
    evaluateBy evaluator settings text = .error .tooTall := by
  unfold evaluateBy
  rw [Formula.ofText_overflow large]

theorem evaluateBy_ok {text : String} (held : overflows text = false) :
    ∃ response, evaluateBy evaluator settings text = .ok response := by
  unfold evaluateBy
  rcases Formula.ofText_ok_or_rejected held with ⟨formula, found⟩ | ⟨noted, found⟩
  · exact ⟨_, by rw [found]⟩
  · exact ⟨_, by rw [found]⟩

namespace CommandLine

theorem dump_out (text : String) : (dump text).out = "" := by
  unfold dump
  rfl

theorem dump_good (text : String) :
    (dump text).good = if overflows text then .error .tooTall else .ok true := by
  cases parsed : Grammar.parseText (normalize text) with
  | ok expr =>
    have regular := (Grammar.wellFormed_of_parseText parsed).regular
    rw [overflows_of_ok parsed]
    have parsed : Grammar.parse (Token.scan (normalize text)) = .ok expr := parsed
    cases tall : expr.isTall with
    | true => simp [dump, parsed, dumpTree, Expr.flat, tall, Printed.broken]
    | false => simp [dump, parsed, dumpTree, regular.flat_ok tall, noted]
  | error diagnostics =>
    rw [overflows_of_error parsed]
    have parsed : Grammar.parse (Token.scan (normalize text)) = .error diagnostics := parsed
    simp [dump, parsed, noted]

theorem printFlat_overflow {text : String} (large : overflows text = true) :
    printFlat text = .broken "" .tooTall := by
  unfold printFlat
  rw [Formula.ofText_overflow large]

theorem printResult_overflow (debug : Bool) {text : String} (large : overflows text = true) :
    printResult evaluator settings debug text = .broken "" .tooTall := by
  unfold printResult
  rw [evaluateBy_overflow evaluator settings large]

def answer (mode : Mode) (text : String) : Printed :=
  if mode.calcOnly then printFlat text else printResult evaluator settings mode.debug text

theorem answer_flat (debug : Bool) (text : String) :
    answer evaluator settings ⟨true, debug⟩ text = printFlat text := by
  simp [answer]

theorem answer_result (debug : Bool) (text : String) :
    answer evaluator settings ⟨false, debug⟩ text = printResult evaluator settings debug text := by
  simp [answer]

theorem answer_overflow (mode : Mode) {text : String} (large : overflows text = true) :
    answer evaluator settings mode text = .broken "" .tooTall := by
  rw [answer, printFlat_overflow large, printResult_overflow evaluator settings mode.debug large, ite_self]

theorem answer_ok (mode : Mode) {text : String} (held : overflows text = false) :
    ∃ good, (answer evaluator settings mode text).good = .ok good := by
  unfold answer
  split
  next =>
    unfold printFlat
    rcases Formula.ofText_ok_or_rejected held with ⟨formula, found⟩ | ⟨noted, found⟩
    · exact ⟨true, by rw [found]⟩
    · exact ⟨false, by rw [found]; rfl⟩
  next =>
    unfold printResult
    obtain ⟨response, found⟩ := evaluateBy_ok evaluator settings held
    rw [found]
    exact ⟨_, printResponse_good mode.debug response⟩

theorem process_eq (mode : Mode) (text : String) :
    (process evaluator settings mode text).out = (answer evaluator settings mode text).out ∧
      (process evaluator settings mode text).good = (answer evaluator settings mode text).good := by
  have unfolded : process evaluator settings mode text =
      (if mode.debug then dump text else .nothing).append (answer evaluator settings mode text) := rfl
  rw [unfolded]
  cases mode.debug with
  | false =>
    simp only [Bool.false_eq_true, if_false]
    exact Printed.append_quiet rfl rfl
  | true =>
    simp only [if_true]
    cases large : overflows text with
    | true =>
      -- The stages break off on the tree already, as the answer would.
      have broke : (dump text).good = .error .tooTall := by simp [dump_good, large]
      rw [Printed.append_of_error broke, answer_overflow evaluator settings mode large]
      exact ⟨dump_out text, broke⟩
    | false =>
      have went : (dump text).good = .ok true := by simp [dump_good, large]
      exact Printed.append_quiet went (dump_out text)

theorem processAll_answers (debug : Bool) (texts : List String) :
    ∃ responses : List Response,
      (texts.takeWhile (!overflows ·)).map (evaluateBy evaluator settings) = responses.map .ok ∧
      (processAll evaluator settings ⟨false, debug⟩ texts).out = String.join (responses.map shown) ∧
      (processAll evaluator settings ⟨false, debug⟩ texts).good =
        if texts.any overflows then .error .tooTall else .ok (responses.all Response.isResult) := by
  induction texts with
  | nil => exact ⟨[], rfl, rfl, rfl⟩
  | cons text texts ih =>
    obtain ⟨sameOut, sameGood⟩ := process_eq evaluator settings ⟨false, debug⟩ text
    rw [answer_result] at sameOut sameGood
    unfold printResult at sameOut sameGood
    unfold processAll
    cases large : overflows text with
    | true =>
      -- The run ends here, and the texts that are left are not looked at.
      rw [evaluateBy_overflow evaluator settings large] at sameOut sameGood
      refine ⟨[], by simp [large], ?_, ?_⟩
      · rw [Printed.append_of_error sameGood]
        exact sameOut
      · rw [Printed.append_of_error sameGood]
        simpa [large, Printed.broken] using sameGood
    | false =>
      obtain ⟨response, found⟩ := evaluateBy_ok evaluator settings large
      obtain ⟨responses, same, out, good⟩ := ih
      rw [found] at sameOut sameGood
      simp only [printResponse_out, printResponse_good] at sameOut sameGood
      refine ⟨response :: responses, by simp [large, found, same], ?_, ?_⟩
      · rw [Printed.append_of_ok sameGood]
        simp [sameOut, out]
      · rw [Printed.append_of_ok sameGood]
        simp only [good]
        cases also : texts.any overflows with
        | true => simp [large, also, Functor.map, Except.map]
        | false => simp [large, also, Functor.map, Except.map]

end CommandLine

end

namespace CommandLine

end CommandLine

end FormulaCalculator
