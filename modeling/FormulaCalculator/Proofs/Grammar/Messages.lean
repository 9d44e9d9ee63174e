import FormulaCalculator.Proofs.Grammar.Concerns
import FormulaCalculator.Proofs.Token.Forms
import FormulaCalculator.Proofs.Text.Lines

set_option autoImplicit false

namespace FormulaCalculator

-- The only blanks are spaces, so there is no line feed either.
def Text.IsLine (text : String) : Prop := ∀ c ∈ text.toList, Text.isBlank c = true → c = ' '

namespace Text.IsLine

instance (text : String) : Decidable (IsLine text) :=
  decidable_of_iff (text.toList.all fun c => !isBlank c || c == ' ') <| by
    unfold IsLine
    simp [Decidable.imp_iff_not_or]

theorem of_notBlank {text : String} (notBlank : ∀ c ∈ text.toList, Text.isBlank c = false) : IsLine text := by
  intro c inside blank
  rw [notBlank c inside] at blank
  cases blank

theorem append {first second : String} (left : IsLine first) (right : IsLine second) :
    IsLine (first ++ second) := by
  unfold IsLine
  rw [String.toList_append]
  exact List.forall_mem_append.2 ⟨left, right⟩

theorem spaced {texts : List String} (each : ∀ text ∈ texts, IsLine text) :
    IsLine (" ".intercalate texts) := by
  have space : IsLine " " := by decide
  induction texts with
  | nil => decide
  | cons text texts ih =>
    obtain ⟨here, others⟩ := List.forall_mem_cons.1 each
    cases texts with
    | nil => simpa using here
    | cons next texts =>
      rw [String.intercalate_cons_cons]
      exact (here.append space).append (ih others)

theorem noFeed {text : String} (line : IsLine text) : '\n' ∉ text.toList := by
  intro inside
  cases line '\n' inside (by decide)

theorem inner {text : String} (line : IsLine text) : ∀ c ∈ text.toList, IsInner c := by
  intro c inside
  constructor
  · rintro rfl
    exact line.noFeed inside
  · rintro rfl
    cases line '\r' inside (by decide)

end Text.IsLine

namespace Text.Quoted

theorem notBlank_hexDigit : ∀ n < 16, isBlank (hexDigit n) = false := by decide

theorem notBlank_hex (width n : Nat) : ∀ c ∈ hex width n, isBlank c = false := by
  induction width generalizing n with
  | zero => simp [hex]
  | succ width ih =>
    have digit := notBlank_hexDigit (n % 16) (Nat.mod_lt n (by decide))
    exact List.forall_mem_append.2 ⟨ih (n / 16), List.forall_mem_singleton.2 digit⟩

theorem notBlank_of_all {text : List Char} (all : text.all (!isBlank ·) = true) :
    ∀ c ∈ text, isBlank c = false := by
  simpa using all

theorem notBlank_escape {quote c : Char} (notBlank : isBlank c = false) :
    ∀ d ∈ escape quote c, isBlank d = false := by
  have backslash : isBlank '\\' = false := by decide
  have numbered (letter : Char) (isLetter : isBlank letter = false) (width : Nat) :
      ∀ d ∈ '\\' :: letter :: hex width c.toNat, isBlank d = false :=
    List.forall_mem_cons.2 ⟨backslash, List.forall_mem_cons.2 ⟨isLetter, notBlank_hex width c.toNat⟩⟩
  unfold escape
  split_ifs
  · simp [backslash, notBlank]
  · exact notBlank_of_all (by decide)
  · exact notBlank_of_all (by decide)
  · exact notBlank_of_all (by decide)
  · simp [notBlank]
  · exact numbered 'x' (by decide) 2
  · exact numbered 'u' (by decide) 4
  · exact numbered 'U' (by decide) 8

theorem notBlank_quoted {text : String} (notBlank : ∀ c ∈ text.toList, isBlank c = false) :
    ∀ c ∈ (quoted text).toList, isBlank c = false := by
  have mark : isBlank (enclosing text.toList) = false := by
    unfold enclosing
    split <;> decide
  have inside : ∀ d ∈ text.toList.flatMap (escape (enclosing text.toList)), isBlank d = false := by
    intro d within
    obtain ⟨c, isChar, stands⟩ := List.mem_flatMap.1 within
    exact notBlank_escape (notBlank c isChar) d stands
  rw [quoted, String.toList_ofList, encode, List.cons_append]
  exact List.forall_mem_cons.2
    ⟨mark, List.forall_mem_append.2 ⟨inside, List.forall_mem_singleton.2 mark⟩⟩

end Text.Quoted

open Text

theorem notBlank_nat (n : Nat) : ∀ c ∈ (n.repr).toList, isBlank c = false := by
  intro c inside
  rw [Nat.toList_repr] at inside
  exact Lexeme.notBlank_of_isDigit (Nat.isDigit_of_mem_toDigits (by decide) (by decide) inside)

theorem Token.isLine_posText (token : Token) : IsLine token.posText := by
  unfold posText
  cases token.pos with
  | none => decide
  | some pos =>
    have minus : IsLine "-" := by decide
    change IsLine pos.repr
    rw [Int.repr_eq_if]
    split
    · exact .of_notBlank (notBlank_nat _)
    · exact minus.append (.of_notBlank (notBlank_nat _))

structure Token.Solid (token : Token) : Prop where
  text : ∀ c ∈ token.text.toList, isBlank c = false
  kind : token.kind ∈ Kind.named

theorem Lexeme.Form.named {kind : Kind} {text : List Char} (form : Form kind text) : kind ∈ Kind.named := by
  cases form with
  | mark fixed => cases kind <;> first | cases fixed; done | decide
  | _ => decide

theorem Token.solid_of_mem_scan {token : Token} {text : String} (inside : token ∈ scan text) :
    token.Solid := by
  have form := Lexeme.spells_iff_form.1 (spells_of_mem_scan inside)
  exact ⟨form.notBlank, form.named⟩

theorem Kind.isLine_name {kind : Kind} (named : kind ∈ Kind.named) : IsLine kind.name := by
  have all : ∀ kind ∈ Kind.named, IsLine kind.name := by decide
  exact all kind named

variable {known : Token → Prop} (solid : ∀ token, known token → token.Solid)

include solid

theorem Problem.isLine_text {problem : Problem} (concerns : problem.Concerns known) :
    IsLine problem.text := by
  have found {kind : Kind} (among : ∃ token, known token ∧ token.kind = kind) : IsLine kind.name := by
    obtain ⟨token, isKnown, rfl⟩ := among
    exact Kind.isLine_name (solid token isKnown).kind
  have unexpected {kind : Kind} (among : ∃ token, known token ∧ token.kind = kind) :
      IsLine ("unexpected token " ++ kind.name) :=
    IsLine.append (by decide) (found among)
  cases problem with
  | ended wanted =>
    have asked : IsLine wanted.text := by
      cases wanted with
      | token kind =>
        rw [Wanted.text]
        split
        next => decide
        next => exact Kind.isLine_name concerns
      | _ => decide
    exact IsLine.append (by decide) asked
  | mismatch wanted other =>
    have asked : IsLine ("expected " ++ wanted.name) := IsLine.append (by decide) (Kind.isLine_name concerns.1)
    exact (asked.append (by decide)).append (found concerns.2)
  | unexpected other => exact unexpected concerns
  | strayInMatrix other => exact (unexpected concerns).append (by decide)
  | leftOver texts =>
    apply IsLine.append (by decide)
    apply IsLine.spaced
    intro text listed
    obtain ⟨token, isKnown, rfl⟩ := concerns text listed
    exact .of_notBlank (solid token isKnown).text
  | remark text => cases concerns
  | noNumerator | noDenominator | tooDeep => decide

theorem Diagnostic.isLine_message {diagnostic : Diagnostic} (concerns : diagnostic.Concerns known) :
    IsLine diagnostic.message := by
  have told := Problem.isLine_text solid concerns.problem
  unfold message
  cases pointed : diagnostic.token with
  | none => exact told
  | some token =>
    have solid := solid token (concerns.token token pointed)
    have quoted : IsLine (quoted token.text) := .of_notBlank (Quoted.notBlank_quoted solid.text)
    have place : IsLine (diagnostic.problem.text ++ " at " ++ token.posText) :=
      (told.append (by decide)).append token.isLine_posText
    have piece : IsLine (diagnostic.problem.text ++ " at " ++ token.posText ++ ": " ++ Text.quoted token.text) :=
      (place.append (by decide)).append quoted
    exact ((piece.append (by decide)).append (Kind.isLine_name solid.kind)).append (by decide)

omit solid

namespace Grammar

theorem isLine_of_parseText [Stack] {text : String} {diagnostics : List Diagnostic}
    (rejected : parseText text = .error diagnostics) : ∀ diagnostic ∈ diagnostics, IsLine diagnostic.message := by
  intro diagnostic told
  have solid : ∀ token, token ∈ Token.scan text → token.Solid := fun _ => Token.solid_of_mem_scan
  exact Diagnostic.isLine_message solid (concerns_of_parse rejected diagnostic told)

theorem splitOn_summary [Stack] {text : String} {diagnostics : List Diagnostic}
    (rejected : parseText text = .error diagnostics) :
    (summary diagnostics).toList.splitOn '\n' = diagnostics.map (·.message.toList) := by
  have present : diagnostics ≠ [] := (noted_of_error rejected).1
  have joined : (summary diagnostics).toList = ['\n'].intercalate (diagnostics.map (·.message.toList)) := by
    rw [summary, String.toList_intercalate, List.map_map]
    rfl
  rw [joined]
  apply List.splitOn_intercalate
  · intro line isMessage
    obtain ⟨diagnostic, told, rfl⟩ := List.mem_map.1 isMessage
    exact (isLine_of_parseText rejected diagnostic told).noFeed
  · simpa using present

end Grammar

end FormulaCalculator
