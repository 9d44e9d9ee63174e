import FormulaCalculator.Proofs.CommandLine.Answered
import FormulaCalculator.Proofs.CommandLine.Effects

set_option autoImplicit false

namespace FormulaCalculator.CommandLine

namespace Printed

theorem nothing_append (printed : Printed) : nothing.append printed = printed := by
  rw [append_of_ok rfl]
  cases printed with
  | mk out err good => cases good <;> simp [nothing, Functor.map, Except.map]

theorem append_assoc (first second third : Printed) :
    (first.append second).append third = first.append (second.append third) := by
  obtain ⟨firstOut, firstErr, firstGood⟩ := first
  obtain ⟨secondOut, secondErr, secondGood⟩ := second
  cases firstGood with
  | error fault => rfl
  | ok good =>
    cases secondGood with
    | error fault => rfl
    | ok also =>
      cases thirdGood : third.good <;>
        simp [append, thirdGood, String.append_assoc, Functor.map, Except.map, Bool.and_assoc]

end Printed

section

variable [Stack] (evaluator : Evaluator) (settings : Settings)

theorem process_ok (mode : Mode) {text : String} (held : overflows text = false) :
    ∃ good, (process evaluator settings mode text).good = .ok good := by
  rw [(process_eq evaluator settings mode text).2]
  exact answer_ok evaluator settings mode held

theorem processAll_append (mode : Mode) (texts more : List String) :
    processAll evaluator settings mode (texts ++ more) =
      (processAll evaluator settings mode texts).append (processAll evaluator settings mode more) := by
  induction texts with
  | nil => exact (Printed.nothing_append _).symm
  | cons text texts ih =>
    rw [List.cons_append, processAll, processAll, ih, Printed.append_assoc]

theorem processAll_ok (mode : Mode) {texts : List String} (held : ∀ text ∈ texts, overflows text = false) :
    ∃ good, (processAll evaluator settings mode texts).good = .ok good := by
  induction texts with
  | nil => exact ⟨true, rfl⟩
  | cons text texts ih =>
    obtain ⟨here, others⟩ := List.forall_mem_cons.1 held
    obtain ⟨good, went⟩ := process_ok evaluator settings mode here
    obtain ⟨also, wentOn⟩ := ih others
    rw [processAll, Printed.append_of_ok went, wentOn]
    exact ⟨good && also, rfl⟩

def finishAll (mode : Mode) (texts : List String) : Finished :=
  finish (processAll evaluator settings mode texts)

theorem finishAll_append (mode : Mode) {texts more : List String}
    (textsHeld : ∀ text ∈ texts, overflows text = false) (moreHeld : ∀ text ∈ more, overflows text = false) :
    let both := finishAll evaluator settings mode (texts ++ more)
    let first := finishAll evaluator settings mode texts
    let second := finishAll evaluator settings mode more
    both.out = first.out ++ second.out ∧ both.err = first.err ++ second.err ∧
      ∃ i j, first.status = .ok i ∧ second.status = .ok j ∧ i ≤ 1 ∧ j ≤ 1 ∧
        both.status = .ok (if i = 1 ∨ j = 1 then 1 else 0) := by
  obtain ⟨good, went⟩ := processAll_ok evaluator settings mode textsHeld
  obtain ⟨also, wentOn⟩ := processAll_ok evaluator settings mode moreHeld
  unfold finishAll
  rw [processAll_append, Printed.append_of_ok went]
  simp only [finish, went, wentOn, true_and]
  refine ⟨_, _, rfl, rfl, ?_⟩
  cases good <;> cases also <;> simp [Functor.map, Except.map]

theorem finishAll_alone (mode : Mode) {texts : List String} (held : ∀ text ∈ texts, overflows text = false) :
    let all := finishAll evaluator settings mode texts
    let alone := fun text => finishAll evaluator settings mode [text]
    all.out = String.join (texts.map fun text => (alone text).out) ∧
      all.err = String.join (texts.map fun text => (alone text).err) ∧
      (all.status = .ok 1 ↔ ∃ text ∈ texts, (alone text).status = .ok 1) := by
  intro all alone
  induction texts with
  | nil => simp [all, finishAll, processAll, Printed.nothing, finish, Functor.map, Except.map]
  | cons text texts ih =>
    obtain ⟨here, others⟩ := List.forall_mem_cons.1 held
    obtain ⟨outs, errs, failed⟩ := ih others
    obtain ⟨out, err, i, j, isFirst, isSecond, -, -, status⟩ :=
      finishAll_append evaluator settings mode (List.forall_mem_singleton.2 here) others
    have isAll : all = finishAll evaluator settings mode ([text] ++ texts) := rfl
    have isAlone : (alone text).status = .ok i := isFirst
    have isLast : (finishAll evaluator settings mode texts).status = .ok 1 ↔ j = 1 := by simp [isSecond]
    rw [List.exists_mem_cons_iff, ← failed, isLast, isAlone]
    simp only [isAll, out, err, status, outs, errs, List.map_cons, String.join_cons]
    refine ⟨rfl, rfl, ?_⟩
    by_cases one : i = 1 ∨ j = 1 <;> simp [one]

theorem runBy_finishAll (debugVariable : Option String) (input : Input) {options : List String}
    {flags : List Flag} (given : Options options flags) (noText : flags.findSome? Flag.text? = none)
    {texts : List String} (filled : texts ≠ []) :
    runBy evaluator settings debugVariable (options ++ "--" :: texts) input =
      ⟨overwritten settings flags, finishAll evaluator (overwritten settings flags)
        (Mode.along ⟨false, debugs debugVariable⟩ flags) texts⟩ := by
  have taken : input.unless texts = texts := by simp [Input.unless, filled]
  rw [runBy_work evaluator settings debugVariable input (given.readOptions_eq (.mark texts)) noText, taken,
    finishAll]

theorem expressions_independent (debugVariable : Option String) (input : Input) {options : List String}
    {flags : List Flag} (given : Options options flags) (noHelp : .help ∉ flags)
    (noVersion : .version ∉ flags) {texts more : List String} (filled : texts ≠ []) (moreFilled : more ≠ [])
    (held : ∀ text ∈ texts ++ more, overflows text = false) :
    let both := runBy evaluator settings debugVariable (options ++ "--" :: (texts ++ more)) input
    let first := runBy evaluator settings debugVariable (options ++ "--" :: texts) input
    let second := runBy evaluator first.settings debugVariable (options ++ "--" :: more) input
    let alone := fun text =>
      (runBy evaluator settings debugVariable (options ++ ["--", text]) input).finished
    both.finished.out = first.finished.out ++ second.finished.out ∧
      both.finished.err = first.finished.err ++ second.finished.err ∧
      both.settings = second.settings ∧
      (∃ i j, first.finished.status = .ok i ∧ second.finished.status = .ok j ∧ i ≤ 1 ∧ j ≤ 1 ∧
        both.finished.status = .ok (if i = 1 ∨ j = 1 then 1 else 0)) ∧
      both.finished.out = String.join ((texts ++ more).map fun text => (alone text).out) ∧
      both.finished.err = String.join ((texts ++ more).map fun text => (alone text).err) ∧
      (both.finished.status = .ok 1 ↔ ∃ text ∈ texts ++ more, (alone text).status = .ok 1) := by
  intro both first second alone
  have noText := noText_iff.2 ⟨noHelp, noVersion⟩
  obtain ⟨textsHeld, moreHeld⟩ := List.forall_mem_append.1 held
  have isBoth : both = _ :=
    runBy_finishAll evaluator settings debugVariable input given noText (by simp [filled])
  have isFirst : first = _ := runBy_finishAll evaluator settings debugVariable input given noText filled
  have isSecond : second = _ :=
    runBy_finishAll evaluator first.settings debugVariable input given noText moreFilled
  have isAlone (text : String) : alone text = _ :=
    congrArg Run.finished
      (runBy_finishAll evaluator settings debugVariable input given noText (List.cons_ne_nil text []))
  have settled : overwritten first.settings flags = overwritten settings flags := by
    rw [isFirst, overwritten_overwritten]
  rw [settled] at isSecond
  simp only [isBoth, isFirst, isSecond, isAlone, true_and]
  obtain ⟨out, err, status⟩ := finishAll_append evaluator (overwritten settings flags)
    (Mode.along ⟨false, debugs debugVariable⟩ flags) textsHeld moreHeld
  exact ⟨out, err, status, finishAll_alone evaluator (overwritten settings flags)
    (Mode.along ⟨false, debugs debugVariable⟩ flags) held⟩

end

theorem rejected_beside_others :
    let run := fun settings texts =>
      runBy typesetValue settings none (["-c", "--nofrac"] ++ "--" :: texts) ⟨"", false⟩
    let first := run ⟨true, true, 6⟩ ["1+", "2x"]
    let second := run first.settings ["-h"]
    let both := run ⟨true, true, 6⟩ ["1+", "2x", "-h"]
    Options ["-c", "--nofrac"] [.calc, .noFraction] ∧
      (∀ text ∈ ["1+", "2x", "-h"], overflows text = false) ∧
      both.finished.out = first.finished.out ++ second.finished.out ∧
      second.finished.out = "-h\n" ∧ second.finished.status = .ok 0 ∧ both.finished.status = .ok 1 ∧
      both.settings = ⟨false, true, 6⟩ := by
  have given : Options ["-c", "--nofrac"] [.calc, .noFraction] := by decide
  have held : ∀ text ∈ ["1+", "2x", "-h"], overflows text = false := by decide +kernel
  intro run first second both
  obtain ⟨out, -, settings, ⟨i, j, isFirst, -, -, -, status⟩, -⟩ :=
    expressions_independent typesetValue ⟨true, true, 6⟩ none ⟨"", false⟩ given (by decide) (by decide)
      (List.cons_ne_nil "1+" ["2x"]) (List.cons_ne_nil "-h" []) held
  have firstFailed : first.finished.status = .ok 1 := rfl
  have secondDone : second.finished = ⟨.ok 0, "-h\n", ""⟩ := rfl
  have isOne : i = 1 := Except.ok.inj (isFirst.symm.trans firstFailed)
  rw [if_pos (.inl isOne)] at status
  exact ⟨given, held, out, congrArg Finished.out secondDone, congrArg Finished.status secondDone, status,
    settings.trans rfl⟩

end FormulaCalculator.CommandLine
