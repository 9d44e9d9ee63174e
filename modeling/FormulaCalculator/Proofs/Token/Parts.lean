import FormulaCalculator.Proofs.Token.Forms
import Mathlib.Data.List.Chain

set_option autoImplicit false

namespace FormulaCalculator

namespace Token

@[elab_as_elim]
theorem partInduction {motive : List Char → Prop} (nil : motive [])
    (blank : ∀ c rest, Text.isBlank c = true → motive rest → motive (c :: rest))
    (lexeme : ∀ c tail more kind, Text.isBlank c = false →
      Lexeme.tail c (tail ++ more) = (kind, tail) → motive more → motive (c :: (tail ++ more))) :
    ∀ text, motive text
  | [] => nil
  | c :: rest => by
    cases isBlank : Text.isBlank c with
    | true => exact blank c rest isBlank (partInduction nil blank lexeme rest)
    | false =>
      obtain ⟨more, same⟩ := Lexeme.tail_begins c rest
      have whole : Lexeme.tail c ((Lexeme.tail c rest).2 ++ more) =
          ((Lexeme.tail c rest).1, (Lexeme.tail c rest).2) := by rw [same]
      have shorter : more.length < rest.length + 1 := by
        have added := congrArg List.length same
        rw [List.length_append] at added
        omega
      rw [← same]
      exact lexeme c _ more _ isBlank whole (partInduction nil blank lexeme more)
termination_by text => text.length

def lexeme (token : Token) : Kind × String := (token.kind, token.text)

end Token

inductive Part where
  | blank (c : Char)
  | lexeme (kind : Kind) (text : List Char)
deriving DecidableEq, Repr

namespace Part

def chars : Part → List Char
  | blank c => [c]
  | lexeme _ text => text

def Proper : Part → Prop
  | blank c => Text.isBlank c = true
  | lexeme kind text => Lexeme.Form kind text

-- The part becomes longer if the character comes after it.
def fuses : Part → Char → Bool
  | blank _, _ => false
  | lexeme kind text, d => Lexeme.fuses kind text d

def Apart (part next : Part) : Prop := ∀ d ∈ next.chars.head?, part.fuses d = false

instance (part next : Part) : Decidable (Apart part next) :=
  inferInstanceAs (Decidable (∀ d ∈ next.chars.head?, part.fuses d = false))

def text (parts : List Part) : List Char := parts.flatMap chars

@[simp] theorem text_nil : text [] = [] := rfl

@[simp] theorem text_cons (part : Part) (parts : List Part) :
    text (part :: parts) = part.chars ++ text parts := by
  simp [text]

@[simp] theorem text_append (first second : List Part) :
    text (first ++ second) = text first ++ text second := by
  simp [text]

def lexemes : List Part → List (Kind × String)
  | [] => []
  | blank _ :: parts => lexemes parts
  | lexeme kind text :: parts => (kind, String.ofList text) :: lexemes parts

@[simp] theorem lexemes_nil : lexemes [] = [] := rfl

@[simp] theorem lexemes_blank (c : Char) (parts : List Part) :
    lexemes (blank c :: parts) = lexemes parts := rfl

@[simp] theorem lexemes_lexeme (kind : Kind) (text : List Char) (parts : List Part) :
    lexemes (lexeme kind text :: parts) = (kind, String.ofList text) :: lexemes parts := rfl

@[simp] theorem lexemes_append (first second : List Part) :
    lexemes (first ++ second) = lexemes first ++ lexemes second := by
  induction first with
  | nil => rfl
  | cons part first ih => cases part <;> simp [ih]

-- The first `taken` characters belong to a part already found.
def cutFrom : Nat → List Char → List Part
  | _, [] => []
  | taken + 1, _ :: rest => cutFrom taken rest
  | 0, c :: rest =>
    if Text.isBlank c then blank c :: cutFrom 0 rest
    else
      let (kind, tail) := Lexeme.tail c rest
      lexeme kind (c :: tail) :: cutFrom tail.length rest

def cut (text : List Char) : List Part := cutFrom 0 text

theorem cutFrom_taken (taken : Nat) (text : List Char) :
    cutFrom taken text = cut (text.drop taken) := by
  induction text generalizing taken with
  | nil => cases taken <;> simp [cutFrom, cut]
  | cons c rest ih =>
    cases taken with
    | zero => rfl
    | succ taken => simpa [cutFrom] using ih taken

@[simp] theorem cut_nil : cut [] = [] := rfl

theorem cut_blank {c : Char} (isBlank : Text.isBlank c = true) (rest : List Char) :
    cut (c :: rest) = blank c :: cut rest := by
  simp [cut, cutFrom, isBlank]

theorem cut_lexeme {c : Char} {tail more : List Char} {kind : Kind}
    (notBlank : Text.isBlank c = false) (whole : Lexeme.tail c (tail ++ more) = (kind, tail)) :
    cut (c :: (tail ++ more)) = lexeme kind (c :: tail) :: cut more := by
  rw [cut, cutFrom]
  simp [notBlank, whole, cutFrom_taken]

@[simp] theorem text_cut (given : List Char) : text (cut given) = given := by
  induction given using Token.partInduction with
  | nil => rfl
  | blank c rest isBlank ih => simp [cut_blank isBlank, chars, ih]
  | lexeme c tail more kind notBlank whole ih => simp [cut_lexeme notBlank whole, chars, ih]

theorem proper_cut (given : List Char) : ∀ part ∈ cut given, part.Proper := by
  induction given using Token.partInduction with
  | nil => simp
  | blank c rest isBlank ih =>
    rw [cut_blank isBlank]
    exact List.forall_mem_cons.2 ⟨isBlank, ih⟩
  | lexeme c tail more kind notBlank whole ih =>
    rw [cut_lexeme notBlank whole]
    exact List.forall_mem_cons.2 ⟨Lexeme.form_of_tail notBlank whole, ih⟩

theorem lexemes_cut (given : List Char) (pos : Nat) :
    lexemes (cut given) = (Token.scanFrom pos 0 given).map Token.lexeme := by
  induction given using Token.partInduction generalizing pos with
  | nil => rfl
  | blank c rest isBlank ih => rw [cut_blank isBlank, Token.scanFrom_blank isBlank, lexemes_blank, ih]
  | lexeme c tail more kind notBlank whole ih =>
    rw [cut_lexeme notBlank whole, Token.scanFrom_lexeme notBlank whole, lexemes_lexeme, ih, List.map_cons]
    rfl

theorem Proper.ne_nil {part : Part} (proper : part.Proper) : part.chars ≠ [] := by
  cases part with
  | blank c => simp [chars]
  | lexeme kind text =>
    obtain ⟨c, rest, rfl, -⟩ := proper.scanned
    simp [chars]

theorem head?_text {parts : List Part} (proper : ∀ part ∈ parts, part.Proper) :
    (text parts).head? = parts.head?.bind fun part => part.chars.head? := by
  cases parts with
  | nil => rfl
  | cons part parts =>
    obtain ⟨c, rest, same⟩ := List.exists_cons_of_ne_nil (proper part (by simp)).ne_nil
    simp [same]

theorem apart_iff {part : Part} {parts : List Part} (proper : ∀ part ∈ parts, part.Proper) :
    (∀ next ∈ parts.head?, Apart part next) ↔ ∀ d ∈ (text parts).head?, part.fuses d = false := by
  rw [head?_text proper]
  cases parts <;> simp [Apart]

theorem isChain_cut (given : List Char) : (cut given).IsChain Apart := by
  induction given using Token.partInduction with
  | nil => exact .nil
  | blank c rest isBlank ih =>
    rw [cut_blank isBlank, List.isChain_cons]
    exact ⟨fun next _ d _ => rfl, ih⟩
  | lexeme c tail more kind notBlank whole ih =>
    rw [cut_lexeme notBlank whole, List.isChain_cons, apart_iff (proper_cut more), text_cut]
    exact ⟨(Lexeme.tail_append_iff whole more).1 whole, ih⟩

theorem cut_text {parts : List Part} (proper : ∀ part ∈ parts, part.Proper)
    (apart : parts.IsChain Apart) : cut (text parts) = parts := by
  induction parts with
  | nil => rfl
  | cons part parts ih =>
    obtain ⟨first, others⟩ := List.forall_mem_cons.1 proper
    obtain ⟨next, more⟩ := List.isChain_cons.1 apart
    cases part with
    | blank c => rw [text_cons, chars, List.singleton_append, cut_blank first, ih others more]
    | lexeme kind own =>
      obtain ⟨c, tail, rfl, notBlank, isLexeme⟩ := first.scanned
      have alone : Lexeme.tail c (tail ++ []) = (kind, tail) := by rw [List.append_nil, isLexeme]
      have stays := (Lexeme.tail_append_iff alone (text parts)).2 ((apart_iff others).1 next)
      rw [text_cons, chars, List.cons_append, cut_lexeme notBlank stays, ih others more]

theorem cut_text_iff {parts : List Part} (proper : ∀ part ∈ parts, part.Proper) :
    cut (text parts) = parts ↔ parts.IsChain Apart := by
  constructor
  case mp =>
    intro same
    rw [← same]
    exact isChain_cut _
  case mpr => exact cut_text proper

theorem eq_of_lexemes {parts others : List Part} (proper : ∀ part ∈ parts, part.Proper)
    (also : ∀ part ∈ others, part.Proper) (sameText : text parts = text others)
    (sameLexemes : lexemes parts = lexemes others) : parts = others := by
  induction parts generalizing others with
  | nil =>
    cases others with
    | nil => rfl
    | cons other others => simp_all [(also other (by simp)).ne_nil]
  | cons part parts ih =>
    cases others with
    | nil => simp_all [(proper part (by simp)).ne_nil]
    | cons other others =>
      obtain ⟨first, later⟩ := List.forall_mem_cons.1 proper
      obtain ⟨second, after⟩ := List.forall_mem_cons.1 also
      simp only [text_cons] at sameText
      -- A text that starts with a blank starts with no lexeme, and the other way round.
      cases part with
      | blank c =>
        cases other with
        | blank d =>
          obtain ⟨rfl, sameRest⟩ : c = d ∧ text parts = text others := by simpa [chars] using sameText
          rw [ih later after sameRest sameLexemes]
        | lexeme kind own =>
          obtain ⟨d, rest, rfl, notBlank, -⟩ := second.scanned
          obtain rfl : c = d := by simpa [chars] using congrArg List.head? sameText
          exact absurd first (by simp [Proper, notBlank])
      | lexeme kind own =>
        cases other with
        | blank d =>
          obtain ⟨c, rest, rfl, notBlank, -⟩ := first.scanned
          obtain rfl : c = d := by simpa [chars] using congrArg List.head? sameText
          exact absurd second (by simp [Proper, notBlank])
        | lexeme otherKind other =>
          simp only [lexemes_lexeme, List.cons.injEq, Prod.mk.injEq, String.ofList_inj] at sameLexemes
          obtain ⟨⟨rfl, rfl⟩, sameLexemes⟩ := sameLexemes
          rw [ih later after (List.append_cancel_left sameText) sameLexemes]

end Part

end FormulaCalculator
