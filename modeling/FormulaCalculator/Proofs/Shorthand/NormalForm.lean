import FormulaCalculator.Proofs.Shorthand.Products

set_option autoImplicit false

namespace FormulaCalculator.Shorthand

def Resolved (text : List Char) : Prop :=
  ∀ rest, '\\' :: rest <:+ text → meaning? (rest.takeWhile Char.isAlpha) = none

namespace Resolved

variable {more : List Char}

theorem plain {first : List Char} (plain : ∀ c ∈ first, c ≠ '\\') (resolved : Resolved more) :
    Resolved (first ++ more) := by
  induction first with
  | nil => exact resolved
  | cons c first ih =>
    obtain ⟨here, later⟩ := List.forall_mem_cons.1 plain
    intro rest isSuffix
    rcases List.suffix_cons_iff.1 isSuffix with same | inside
    next => exact absurd (List.cons.inj same).1.symm here
    next => exact ih later rest inside

theorem command {name : List Char} (whole : (name ++ more).takeWhile Char.isAlpha = name)
    (unknown : meaning? name = none) (resolved : Resolved more) : Resolved ('\\' :: (name ++ more)) := by
  intro rest isSuffix
  rcases List.suffix_cons_iff.1 isSuffix with same | inside
  next =>
    obtain rfl := (List.cons.inj same).2
    rwa [whole]
  next =>
    have letters : ∀ c ∈ name, c ≠ '\\' := by
      rw [← whole]
      rintro c isLetter rfl
      cases List.all_eq_true.1 List.all_takeWhile _ isLetter
    exact resolved.plain letters rest inside

theorem meaning {name long : List Char} (meaning : meaning? name = some long) (resolved : Resolved more) :
    Resolved (long ++ more) := by
  obtain ⟨⟨short, word⟩, inside, found⟩ := List.exists_of_findSome?_eq_some meaning
  obtain ⟨-, rfl⟩ : short.toList = name ∧ word.toList = long := by simpa using found
  simp only [List.mem_cons, Prod.mk.injEq, List.not_mem_nil, or_false] at inside
  -- One meaning has a command in it, and none of those that have a meaning of their own.
  by_cases isRoot : word = "((1+\\sqrt\x7b5\x7d)/2)"
  next =>
    subst isRoot
    have tail : Resolved ("\x7b5\x7d)/2)".toList ++ more) := resolved.plain (by simp)
    have root := @command _ "sqrt".toList (by simp) (by decide) tail
    exact @plain _ "((1+".toList (by simp) root
  next =>
    apply resolved.plain
    rcases inside with ⟨-, rfl⟩ | ⟨-, rfl⟩ | ⟨-, rfl⟩ | ⟨-, rfl⟩ | ⟨-, rfl⟩ | ⟨-, rfl⟩ | ⟨-, rfl⟩ |
      ⟨-, rfl⟩ | ⟨-, rfl⟩ | ⟨-, rfl⟩ | ⟨-, rfl⟩ | ⟨-, rfl⟩ | ⟨-, rfl⟩ | ⟨-, rfl⟩ <;>
      first
        | exact absurd rfl isRoot
        | simp

end Resolved

theorem not_isAlpha_of_opens {c : Char} (opening : opens c = true) : c.isAlpha = false := by
  simp only [opens, List.contains_iff_mem, List.mem_cons, List.not_mem_nil, or_false] at opening
  rcases opening with rfl | rfl | rfl | rfl | rfl | rfl <;> decide

theorem head_expand {given : List Char} (apart : ∀ d ∈ given.head?, d.isAlpha = false) :
    ∀ d ∈ (expand given).head?, d.isAlpha = false := by
  induction given using Token.partInduction with
  | nil => exact apart
  | blank c rest isBlank _ =>
    rw [expand_blank isBlank]
    exact apart
  | lexeme c own more kind notBlank whole ih =>
    rw [expand_lexeme notBlank whole]
    cases meaning : partMeaning? (.lexeme kind (c :: own)) with
    | none =>
      simp only [replaced, meaning]
      exact apart
    | some long =>
      simp only [replaced, meaning, Part.text_cut]
      obtain ⟨rfl, known⟩ := partMeaning?_eq_some.1 meaning
      rcases meaning_apart known with rfl | rfl | ⟨opening, closing⟩
      next => exact ih ((Lexeme.tail_append_iff whole more).1 whole)
      next =>
        intro d isFirst
        cases isFirst
        decide
      next =>
        cases long with
        | nil => cases closing
        | cons d long =>
          intro e isFirst
          cases isFirst
          exact not_isAlpha_of_opens (opening d rfl)

theorem resolved_expand (given : List Char) : Resolved (expand given) := by
  induction given using Token.partInduction with
  | nil => exact fun rest isSuffix => absurd (List.suffix_nil.1 isSuffix) (by simp)
  | blank c rest isBlank ih =>
    have notBackslash : c ≠ '\\' := by
      rintro rfl
      cases isBlank
    rw [expand_blank isBlank]
    exact ih.plain (List.forall_mem_singleton.2 notBackslash)
  | lexeme c own more kind notBlank whole ih =>
    have form := Lexeme.form_of_tail notBlank whole
    rw [expand_lexeme notBlank whole]
    cases meaning : partMeaning? (.lexeme kind (c :: own)) with
    | some long =>
      simp only [replaced, meaning, Part.text_cut]
      exact ih.meaning (partMeaning?_eq_some.1 meaning).2
    | none =>
      simp only [replaced, meaning, Part.text_cons, Part.text_nil, List.append_nil, Part.chars]
      by_cases isCommand : kind = .command
      next =>
        subst isCommand
        obtain rfl := form.eq_backslash
        -- The letters of a command that stays end where they did, whatever has come behind it.
        have name : (own ++ more).takeWhile Char.isAlpha = own := (Prod.mk.inj whole).2
        have apart := head_expand ((Lexeme.takeWhile_append_iff name more).1 name)
        exact ih.command ((Lexeme.takeWhile_append_iff name (expand more)).2 apart) meaning
      next => exact ih.plain (form.notBackslash isCommand)

theorem Resolved.parts {given : List Char} (resolved : Resolved given) :
    ∀ part ∈ Part.cut given, partMeaning? part = none := by
  induction given using Token.partInduction with
  | nil => exact nofun
  | blank c rest isBlank ih =>
    rw [Part.cut_blank isBlank]
    have later : Resolved rest := fun other isSuffix => resolved other (isSuffix.trans (List.suffix_cons c rest))
    exact List.forall_mem_cons.2 ⟨rfl, ih later⟩
  | lexeme c own more kind notBlank whole ih =>
    have form := Lexeme.form_of_tail notBlank whole
    rw [Part.cut_lexeme notBlank whole]
    have later : Resolved more := fun other isSuffix =>
      resolved other (isSuffix.trans (List.suffix_append (c :: own) more))
    refine List.forall_mem_cons.2 ⟨?_, ih later⟩
    by_cases isCommand : kind = .command
    next =>
      subst isCommand
      obtain rfl := form.eq_backslash
      have unknown := resolved (own ++ more) (List.suffix_refl _)
      have name : (own ++ more).takeWhile Char.isAlpha = own := (Prod.mk.inj whole).2
      rwa [name] at unknown
    next => exact partMeaning?_of_ne isCommand _

theorem expand_of_parts {given : List Char} (unknown : ∀ part ∈ Part.cut given, partMeaning? part = none) :
    expand given = given := by
  have each : ∀ part ∈ Part.cut given, replaced part = [part] := by
    intro part inside
    simp only [replaced, unknown part inside]
  rw [expand_eq_text, List.flatMap_congr each, List.flatMap_singleton', Part.text_cut]

theorem mem_signed {previous : Option Char} {parts : List Part} {part : Part}
    (inside : part ∈ signed previous parts) : part = sign ∨ part ∈ parts := by
  induction parts generalizing previous with
  | nil => exact .inr inside
  | cons first parts ih =>
    rw [signed] at inside
    split at inside
    all_goals
      simp only [List.mem_cons] at inside ⊢
      have later := @ih first.chars.getLast?
      grind

theorem signed_congr {parts : List Part}
    (noNumber : ∀ part ∈ parts.head?, ∀ text, part ≠ .lexeme .number text) (previous other : Option Char) :
    signed previous parts = signed other parts := by
  cases parts with
  | nil => rfl
  | cons part parts =>
    have unsigned (before : Option Char) : takesSign before part (Part.text parts).head? = false := by
      unfold takesSign
      split
      next text => exact absurd rfl (noNumber _ rfl text)
      next => rfl
    rw [signed, signed, unsigned, unsigned]

theorem noNumber_of_takesSign {previous : Option Char} {part : Part} {parts : List Part}
    (proper : ∀ part ∈ parts, part.Proper) (takes : takesSign previous part (Part.text parts).head? = true) :
    ∀ next ∈ parts.head?, ∀ text, next ≠ .lexeme .number text := by
  rintro _ isFirst text rfl
  have form : Lexeme.Form .number text := proper _ (List.mem_of_mem_head? isFirst)
  have noFactor := startsFactor_form form rfl
  have isNext : (Part.text parts).head? = text.head? := by
    rw [Part.head?_text proper, isFirst, Option.bind_some, Part.chars]
  rw [isNext] at takes
  unfold takesSign at takes
  split at takes
  next =>
    obtain ⟨d, isHead, starts⟩ := (Option.any_eq_true _ _).1 (Bool.and_eq_true_iff.1 takes).2
    rw [noFactor d isHead] at starts
    cases starts
  next => cases takes

theorem head?_text_signed {parts : List Part} (proper : ∀ part ∈ parts, part.Proper) (previous : Option Char) :
    (Part.text (signed previous parts)).head? = (Part.text parts).head? := by
  rw [Part.head?_text (proper_signed proper previous), head?_signed, Part.head?_text proper]

theorem takesSign_sign (previous next : Option Char) : takesSign previous sign next = false := rfl

theorem takesSign_before_sign (previous : Option Char) (part : Part) (parts : List Part) :
    takesSign previous part (Part.text (sign :: parts)).head? = false := by
  unfold takesSign
  split
  next =>
    have noFactor : startsFactor '*' = false := by decide
    simp [sign, Part.chars, noFactor]
  next => rfl

theorem signed_signed {parts : List Part} (proper : ∀ part ∈ parts, part.Proper) (previous : Option Char) :
    signed previous (signed previous parts) = signed previous parts := by
  induction parts generalizing previous with
  | nil => rfl
  | cons part parts ih =>
    obtain ⟨-, others⟩ := List.forall_mem_cons.1 proper
    rw [signed]
    split
    next takes =>
      -- A factor comes next, which is no number, so it does not matter that a sign stands before it now.
      have later := ih others (some '*')
      rw [signed_congr (noNumber_of_takesSign others takes) (some '*') part.chars.getLast?] at later
      have isSign : sign.chars.getLast? = some '*' := rfl
      rw [signed, takesSign_before_sign, signed, takesSign_sign, isSign, later]
      rfl
    next stays =>
      rw [signed, head?_text_signed others, if_neg stays, ih others]

theorem expand_multiply_expand (given : List Char) :
    expand (multiply (expand given)) = multiply (expand given) := by
  apply expand_of_parts
  intro part inside
  rw [cut_multiply] at inside
  rcases mem_signed inside with rfl | before
  next => rfl
  next => exact (resolved_expand given).parts part before

theorem multiply_multiply (given : List Char) : multiply (multiply given) = multiply given := by
  rw [multiply, multiplyFrom_eq_text, cut_multiply, signed_signed (Part.proper_cut given), multiply,
    multiplyFrom_eq_text]

theorem normalize_normalize (text : String) : normalize (normalize text) = normalize text := by
  simp only [normalize, String.toList_ofList, expand_multiply_expand, multiply_multiply]

end FormulaCalculator.Shorthand
