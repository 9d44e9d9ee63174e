import FormulaCalculator.CommandLine.Run
import FormulaCalculator.Proofs.CommandLine.OptionForms

set_option autoImplicit false

namespace FormulaCalculator.CommandLine

namespace Flag

def text? : Flag → Option String
  | help => some CommandLine.help
  | version => some CommandLine.version
  | _ => none

def fraction? : Flag → Option Bool
  | fraction => some true
  | noFraction => some false
  | _ => none

def displayStyle? : Flag → Option Bool
  | displayStyle => some true
  | noDisplayStyle => some false
  | _ => none

end Flag

/-- The flags before the first that asks for a text. -/
def inEffect (flags : List Flag) : List Flag := flags.takeWhile (·.text?.isNone)

def lastChoice (choice? : Flag → Option Bool) (flags : List Flag) : Option Bool :=
  (flags.filterMap choice?).getLast?

/-- The last choice of each kind takes the place of what was chosen before. -/
def overwritten (settings : Settings) (flags : List Flag) : Settings :=
  { settings with
    fraction := (lastChoice Flag.fraction? flags).getD settings.fraction
    displayStyle := (lastChoice Flag.displayStyle? flags).getD settings.displayStyle }

def Mode.along (mode : Mode) (flags : List Flag) : Mode :=
  ⟨mode.calcOnly || flags.contains .calc, mode.debug || flags.contains .debug⟩

def debugs (debugVariable : Option String) : Bool := debugVariable.any fun text => !text.isEmpty

theorem noText_iff {flags : List Flag} :
    flags.findSome? Flag.text? = none ↔ .help ∉ flags ∧ .version ∉ flags := by
  rw [List.findSome?_eq_none_iff]
  constructor
  next =>
    intro noText
    constructor
    · intro inside
      cases noText _ inside
    · intro inside
      cases noText _ inside
  next =>
    rintro ⟨noHelp, noVersion⟩ flag inside
    cases flag with
    | help => exact absurd inside noHelp
    | version => exact absurd inside noVersion
    | _ => rfl

theorem inEffect_eq_self {flags : List Flag} (noText : flags.findSome? Flag.text? = none) :
    inEffect flags = flags := by
  rw [inEffect, List.takeWhile_eq_self_iff]
  intro flag inside
  simp [List.findSome?_eq_none_iff.1 noText flag inside]

theorem lastChoice_append (choice? : Flag → Option Bool) (flags more : List Flag) :
    lastChoice choice? (flags ++ more) = (lastChoice choice? more).or (lastChoice choice? flags) := by
  rw [lastChoice, List.filterMap_append, List.getLast?_append]
  rfl

theorem overwritten_append (settings : Settings) (flags more : List Flag) :
    overwritten settings (flags ++ more) = overwritten (overwritten settings flags) more := by
  simp [overwritten, lastChoice_append, Option.getD_or]

theorem overwritten_overwritten (settings : Settings) (flags : List Flag) :
    overwritten (overwritten settings flags) flags = overwritten settings flags := by
  rw [← overwritten_append]
  simp [overwritten, lastChoice_append]

theorem overwritten_nil (settings : Settings) : overwritten settings [] = settings := rfl

theorem overwritten_cons (settings : Settings) (flag : Flag) (flags : List Flag) :
    overwritten settings (flag :: flags) = overwritten (overwritten settings [flag]) flags :=
  overwritten_append settings [flag] flags

theorem Mode.along_cons (mode : Mode) (flag : Flag) (flags : List Flag) :
    mode.along (flag :: flags) = (mode.along [flag]).along flags := by
  cases flag <;> simp [along]

theorem act_cons {flag : Flag} (noText : flag.text? = none) (settings : Settings) (mode : Mode)
    (flags : List Flag) :
    act settings mode (flag :: flags) = act (overwritten settings [flag]) (mode.along [flag]) flags := by
  cases flag with
  | help | version => cases noText
  | _ => simp [act, overwritten, lastChoice, Flag.fraction?, Flag.displayStyle?, Mode.along]

theorem act_eq (settings : Settings) (mode : Mode) (flags : List Flag) :
    act settings mode flags = (overwritten settings (inEffect flags),
      match flags.findSome? Flag.text? with
      | some text => .show text
      | none => .work (mode.along flags)) := by
  induction flags generalizing settings mode with
  | nil => simp [act, inEffect, Mode.along, overwritten_nil]
  | cons flag flags ih =>
    cases noText : flag.text? with
    | none =>
      have acting : inEffect (flag :: flags) = flag :: inEffect flags := by simp [inEffect, noText]
      rw [act_cons noText, ih, acting, ← overwritten_cons, ← Mode.along_cons, List.findSome?_cons, noText]
    | some text =>
      cases flag with
      | help | version => rfl
      | _ => cases noText

section

variable (evaluator : Evaluator) (settings : Settings) (debugVariable : Option String)
  {args : List String} (input : Input)

theorem runBy_faulty [Stack] {fault : OptionFault} (failed : readOptions args = .error fault) :
    runBy evaluator settings debugVariable args input =
      ⟨settings, .ok 2, "", line ("error: " ++ fault.message ++ "\n\n" ++ help)⟩ := by
  unfold runBy
  rw [failed]

theorem runBy_text [Stack] {flags : List Flag} {texts : List String} {text : String}
    (read : readOptions args = .ok (flags, texts)) (isText : flags.findSome? Flag.text? = some text) :
    runBy evaluator settings debugVariable args input =
      ⟨overwritten settings (inEffect flags), .ok 0, line text, ""⟩ := by
  unfold runBy
  rw [read]
  simp only [act_eq, isText]

theorem runBy_work [Stack] {flags : List Flag} {texts : List String}
    (read : readOptions args = .ok (flags, texts)) (noText : flags.findSome? Flag.text? = none) :
    runBy evaluator settings debugVariable args input =
      ⟨overwritten settings flags, finish (processAll evaluator (overwritten settings flags)
        (Mode.along ⟨false, debugs debugVariable⟩ flags) (input.unless texts))⟩ := by
  unfold runBy
  rw [read]
  simp only [act_eq, noText, inEffect_eq_self noText]
  rfl

-- Where an option is faulty no flag comes to act.
def acting (args : List String) : List Flag :=
  match readOptions args with
  | .error _ => []
  | .ok (flags, _) => inEffect flags

theorem acting_of_ok {flags : List Flag} {texts : List String}
    (read : readOptions args = .ok (flags, texts)) : acting args = inEffect flags := by
  rw [acting, read]

theorem runBy_settings [Stack] (args : List String) :
    (runBy evaluator settings debugVariable args input).settings = overwritten settings (acting args) := by
  cases read : readOptions args with
  | error fault =>
    rw [runBy_faulty evaluator settings debugVariable input read, acting, read]
    rfl
  | ok found =>
    obtain ⟨flags, texts⟩ := found
    rw [acting_of_ok read]
    cases asked : flags.findSome? Flag.text? with
    | some text => rw [runBy_text evaluator settings debugVariable input read asked]
    | none => rw [runBy_work evaluator settings debugVariable input read asked, inEffect_eq_self asked]

end

end FormulaCalculator.CommandLine
