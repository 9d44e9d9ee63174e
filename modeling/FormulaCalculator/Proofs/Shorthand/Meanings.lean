import FormulaCalculator.Proofs.Token.Parts
import FormulaCalculator.Shorthand

set_option autoImplicit false

namespace FormulaCalculator

theorem Lexeme.Form.notBackslash {kind : Kind} {text : List Char} (form : Form kind text)
    (notCommand : kind ≠ .command) : ∀ c ∈ text, c ≠ '\\' := by
  have digits {more : List Char} (all : ∀ d ∈ more, d.isDigit = true) : ∀ d ∈ more, d ≠ '\\' := by
    rintro d inside rfl
    cases all _ inside
  have point : '.' ≠ '\\' := by decide
  cases form with
  | whole _ all => exact digits all
  | decimal _ all allPlaces =>
    exact List.forall_mem_append.2 ⟨digits all, List.forall_mem_cons.2 ⟨point, digits allPlaces⟩⟩
  | places _ all => exact List.forall_mem_cons.2 ⟨point, digits all⟩
  | name starts all =>
    refine List.forall_mem_cons.2 ⟨?_, ?_⟩
    · rintro rfl
      cases starts
    · rintro d inside rfl
      cases all _ inside
  | command => exact absurd rfl notCommand
  | mark fixed => cases kind <;> cases fixed <;> simp
  | strange strange => simpa using strange.notBackslash

theorem Lexeme.Form.eq_backslash {c : Char} {own : List Char} (form : Form .command (c :: own)) :
    c = '\\' := by
  generalize same : c :: own = text at form
  cases form with
  | command => exact (List.cons.inj same).1
  | mark fixed => cases fixed

theorem Part.lexemes_cut_text_iff {parts : List Part} (proper : ∀ part ∈ parts, part.Proper) :
    lexemes (cut (text parts)) = lexemes parts ↔ parts.IsChain Apart := by
  rw [← cut_text_iff proper]
  constructor
  case mp => exact eq_of_lexemes (proper_cut _) proper (text_cut _)
  case mpr => exact congrArg lexemes

namespace Shorthand

def partMeaning? (part : Part) : Option (List Char) :=
  match part with
  | .lexeme .command text => meaning? text.tail
  | _ => none

def replaced (part : Part) : List Part :=
  match partMeaning? part with
  | some long => Part.cut long
  | none => [part]

theorem partMeaning?_eq_some {kind : Kind} {text long : List Char} :
    partMeaning? (.lexeme kind text) = some long ↔ kind = .command ∧ meaning? text.tail = some long := by
  cases kind <;> simp [partMeaning?]

theorem partMeaning?_of_ne {kind : Kind} (other : kind ≠ .command) (text : List Char) :
    partMeaning? (.lexeme kind text) = none := by
  cases kind <;> first | rfl | exact absurd rfl other

@[simp] theorem replaced_blank (c : Char) : replaced (.blank c) = [.blank c] := rfl

def meant (lexeme : Kind × String) : List (Kind × String) :=
  match lexeme.1 with
  | .command =>
    match meaning? lexeme.2.toList.tail with
    | some long => (Token.scan (String.ofList long)).map Token.lexeme
    | none => [lexeme]
  | _ => [lexeme]

theorem expandFrom_taken (taken : Nat) (text : List Char) :
    expandFrom taken text = expand (text.drop taken) := by
  induction text generalizing taken with
  | nil => cases taken <;> simp [expandFrom, expand]
  | cons c rest ih =>
    cases taken with
    | zero => rfl
    | succ taken => simpa [expandFrom] using ih taken

theorem expand_plain {text : List Char} (plain : ∀ c ∈ text, c ≠ '\\') (more : List Char) :
    expand (text ++ more) = text ++ expand more := by
  induction text with
  | nil => rfl
  | cons c text ih =>
    obtain ⟨here, later⟩ := List.forall_mem_cons.1 plain
    rw [List.cons_append, expand, expandFrom, if_neg here, ← expand, ih later, List.cons_append]

theorem expand_eq_self {text : List Char} (plain : ∀ c ∈ text, c ≠ '\\') : expand text = text := by
  simpa [expand, expandFrom] using expand_plain plain []

theorem expand_command {name more : List Char}
    (whole : (name ++ more).takeWhile Char.isAlpha = name) :
    expand ('\\' :: (name ++ more)) =
      match meaning? name with
      | some long => long ++ expand more
      | none => '\\' :: (name ++ expand more) := by
  have letters : ∀ d ∈ name, d ≠ '\\' := by
    rw [← whole]
    rintro d inside rfl
    cases List.all_eq_true.1 List.all_takeWhile _ inside
  rw [expand, expandFrom, if_pos rfl, whole]
  cases meaning : meaning? name <;> simp [meaning, expandFrom_taken, expand_plain letters]

theorem expand_eq_text (given : List Char) :
    expand given = Part.text ((Part.cut given).flatMap replaced) := by
  induction given using Token.partInduction with
  | nil => rfl
  | blank c rest isBlank ih =>
    have plain : ∀ d ∈ [c], d ≠ '\\' := by
      rintro d inside rfl
      cases List.mem_singleton.1 inside
      cases isBlank
    simpa [Part.cut_blank isBlank, Part.chars, ih] using expand_plain plain rest
  | lexeme c tail more kind notBlank whole ih =>
    have form := Lexeme.form_of_tail notBlank whole
    rw [Part.cut_lexeme notBlank whole, List.flatMap_cons, Part.text_append, ← ih]
    by_cases isCommand : kind = .command
    next =>
      subst isCommand
      obtain rfl := form.eq_backslash
      rw [expand_command (Prod.mk.inj whole).2]
      cases meaning : meaning? tail <;> simp [replaced, partMeaning?, meaning, Part.chars]
    next =>
      have none := partMeaning?_of_ne isCommand (c :: tail)
      rw [← List.cons_append, expand_plain (form.notBackslash isCommand)]
      simp [replaced, none, Part.chars]

theorem expand_blank {c : Char} {rest : List Char} (isBlank : Text.isBlank c = true) :
    expand (c :: rest) = c :: expand rest := by
  rw [expand_eq_text, Part.cut_blank isBlank, expand_eq_text]
  rfl

theorem expand_lexeme {c : Char} {own more : List Char} {kind : Kind} (notBlank : Text.isBlank c = false)
    (whole : Lexeme.tail c (own ++ more) = (kind, own)) :
    expand (c :: (own ++ more)) = Part.text (replaced (.lexeme kind (c :: own))) ++ expand more := by
  rw [expand_eq_text, Part.cut_lexeme notBlank whole, expand_eq_text, List.flatMap_cons, Part.text_append]

theorem proper_replaced {part : Part} (proper : part.Proper) : ∀ other ∈ replaced part, other.Proper := by
  cases meaning : partMeaning? part with
  | some long => simpa only [replaced, meaning] using Part.proper_cut long
  | none => simpa [replaced, meaning] using proper

theorem proper_replacedAll {parts : List Part} (proper : ∀ part ∈ parts, part.Proper) :
    ∀ part ∈ parts.flatMap replaced, part.Proper := by
  intro part inside
  obtain ⟨origin, isPart, made⟩ := List.mem_flatMap.1 inside
  exact proper_replaced (proper origin isPart) part made

theorem lexemes_replaced (parts : List Part) :
    Part.lexemes (parts.flatMap replaced) = (Part.lexemes parts).flatMap meant := by
  induction parts with
  | nil => rfl
  | cons part parts ih =>
    rw [List.flatMap_cons, Part.lexemes_append, ih]
    cases part with
    | blank c => rfl
    | lexeme kind text =>
      rw [Part.lexemes_lexeme, List.flatMap_cons]
      congr 1
      cases kind with
      | command =>
        simp only [replaced, partMeaning?, meant, String.toList_ofList]
        cases meaning? text.tail with
        | none => rfl
        | some long => simp [Part.lexemes_cut long 0, Token.scan]
      | _ => rfl

def opens (c : Char) : Bool := ['*', '/', '<', '>', '!', '('].contains c

def closes (part : Part) : Bool :=
  match part with
  | .lexeme kind _ =>
    [.multiply, .divide, .lessEqual, .greaterEqual, .notEqual, .rightParen].contains kind
  | .blank _ => false

theorem fuses_opens {c : Char} (isOpen : opens c = true) (part : Part) : part.fuses c = false := by
  have pairs (d : Char) : Lexeme.pairKind? d c = none := by
    unfold Lexeme.pairKind?
    split
    next isEquals =>
      subst isEquals
      cases isOpen
    next => rfl
  have outside : c.isAlpha = false ∧ c.isDigit = false ∧ Lexeme.isWordChar c = false ∧ c ≠ '.' := by
    simp only [opens, List.contains_iff_mem, List.mem_cons, List.not_mem_nil, or_false] at isOpen
    rcases isOpen with rfl | rfl | rfl | rfl | rfl | rfl <;> decide
  obtain ⟨notAlpha, notDigit, notWord, notPoint⟩ := outside
  cases part with
  | blank => rfl
  | lexeme kind text =>
    unfold Part.fuses Lexeme.fuses
    cases kind <;> simp [notAlpha, notDigit, notWord, notPoint] <;>
      (split <;> simp [pairs])

theorem fuses_closes {part : Part} (proper : part.Proper) (isClose : closes part = true) (c : Char) :
    part.fuses c = false := by
  cases part with
  | blank => rfl
  | lexeme kind text =>
    have form : Lexeme.Form kind text := proper
    simp only [closes, List.contains_iff_mem, List.mem_cons, List.not_mem_nil, or_false] at isClose
    rcases isClose with rfl | rfl | rfl | rfl | rfl | rfl <;>
      (cases form with | mark fixed => cases fixed; simp [Part.fuses, Lexeme.fuses, Lexeme.pairKind?])

theorem meaning_apart {name long : List Char} (meaning : meaning? name = some long) :
    long = [] ∨ long = ['π'] ∨
      (∀ c ∈ long.head?, opens c = true) ∧ (Part.cut long).getLast?.any closes = true := by
  obtain ⟨⟨short, word⟩, inside, found⟩ := List.exists_of_findSome?_eq_some meaning
  obtain ⟨-, rfl⟩ : short.toList = name ∧ word.toList = long := by simpa using found
  simp only [List.mem_cons, Prod.mk.injEq, List.not_mem_nil, or_false] at inside
  rcases inside with ⟨-, rfl⟩ | ⟨-, rfl⟩ | ⟨-, rfl⟩ | ⟨-, rfl⟩ | ⟨-, rfl⟩ | ⟨-, rfl⟩ | ⟨-, rfl⟩ |
    ⟨-, rfl⟩ | ⟨-, rfl⟩ | ⟨-, rfl⟩ | ⟨-, rfl⟩ | ⟨-, rfl⟩ | ⟨-, rfl⟩ | ⟨-, rfl⟩ <;>
    first
      | exact .inl rfl
      | exact .inr (.inl rfl)
      | exact .inr (.inr ⟨by simp [opens], by decide⟩)

def Bounded (part : Part) : Prop := ∀ long ∈ partMeaning? part, long ≠ [] ∧ long ≠ ['π']

theorem bounded_apart {part : Part} {long : List Char} (bounded : Bounded part)
    (meaning : partMeaning? part = some long) :
    long ≠ [] ∧ (∀ c ∈ long.head?, opens c = true) ∧ (Part.cut long).getLast?.any closes = true := by
  obtain ⟨filled, other⟩ := bounded long meaning
  unfold partMeaning? at meaning
  split at meaning
  next => exact ⟨filled, ((meaning_apart meaning).resolve_left filled).resolve_left other⟩
  next => cases meaning

theorem apart_in_front {part next : Part} (apart : Part.Apart part next) (bounded : Bounded next) :
    ∀ d ∈ (Part.text (replaced next)).head?, part.fuses d = false := by
  cases meaning : partMeaning? next with
  | none => simpa [replaced, meaning, Part.Apart] using apart
  | some long =>
    obtain ⟨-, starts, -⟩ := bounded_apart bounded meaning
    simp only [replaced, meaning, Part.text_cut]
    exact fun d isFirst => fuses_opens (starts d isFirst) part

theorem apart_behind {part last : Part} (bounded : Bounded part)
    (isLast : last ∈ (replaced part).getLast?) : last = part ∨ ∀ d, last.fuses d = false := by
  cases meaning : partMeaning? part with
  | none =>
    simp only [replaced, meaning, List.getLast?_singleton, Option.mem_some_iff] at isLast
    exact .inl isLast.symm
  | some long =>
    obtain ⟨-, -, ends⟩ := bounded_apart bounded meaning
    simp only [replaced, meaning] at isLast
    rw [isLast] at ends
    have own := Part.proper_cut long last (List.mem_of_getLast? isLast)
    exact .inr (fuses_closes own (by simpa using ends))

theorem isChain_replaced {parts : List Part} (proper : ∀ part ∈ parts, part.Proper)
    (apart : parts.IsChain Part.Apart) (bounded : ∀ part ∈ parts, Bounded part) :
    (parts.flatMap replaced).IsChain Part.Apart := by
  induction parts with
  | nil => exact .nil
  | cons part parts ih =>
    obtain ⟨-, others⟩ := List.forall_mem_cons.1 proper
    obtain ⟨near, later⟩ := List.isChain_cons.1 apart
    obtain ⟨bounds, more⟩ := List.forall_mem_cons.1 bounded
    have own : (replaced part).IsChain Part.Apart := by
      cases meaning : partMeaning? part with
      | none => simp [replaced, meaning]
      | some long => simpa only [replaced, meaning] using Part.isChain_cut long
    rw [List.flatMap_cons, List.isChain_append]
    refine ⟨own, ih others later more, fun last isLast => (Part.apart_iff (proper_replacedAll others)).2 ?_⟩
    rcases apart_behind bounds isLast with rfl | ends
    next =>
      cases parts with
      | nil => simp
      | cons next parts =>
        have filled : Part.text (replaced next) ≠ [] := by
          cases meaning : partMeaning? next with
          | none => simpa [replaced, meaning] using (others next (by simp)).ne_nil
          | some long => simpa [replaced, meaning] using (bounded_apart (more next (by simp)) meaning).1
        rw [List.flatMap_cons, Part.text_append, List.head?_append_of_ne_nil _ filled]
        exact apart_in_front (near next rfl) (more next (by simp))
    next => exact fun d _ => ends d

end Shorthand

end FormulaCalculator
