import FormulaCalculator.Proofs.Token.Spelling
import Mathlib.Data.List.TakeWhile

set_option autoImplicit false

namespace FormulaCalculator.Lexeme

structure Strange (c : Char) : Prop where
  notBlank : Text.isBlank c = false
  notDigit : c.isDigit = false
  notStart : isWordStart c = false
  notBackslash : c ≠ '\\'
  noMark : ∀ kind : Kind, kind.spelling? ≠ some (String.singleton c)

inductive Form : Kind → List Char → Prop where
  | whole {digits : List Char} (filled : digits ≠ []) (all : ∀ d ∈ digits, d.isDigit = true) :
      Form .number digits
  | decimal {digits places : List Char} (filled : digits ≠ []) (all : ∀ d ∈ digits, d.isDigit = true)
      (allPlaces : ∀ d ∈ places, d.isDigit = true) : Form .number (digits ++ '.' :: places)
  | places {places : List Char} (filled : places ≠ []) (all : ∀ d ∈ places, d.isDigit = true) :
      Form .number ('.' :: places)
  | name {c : Char} {more : List Char} (starts : isWordStart c = true)
      (all : ∀ d ∈ more, isWordChar d = true) : Form .identifier (c :: more)
  | command {letters : List Char} (all : ∀ d ∈ letters, d.isAlpha = true) :
      Form .command ('\\' :: letters)
  | mark {kind : Kind} {mark : String} (fixed : kind.spelling? = some mark) : Form kind mark.toList
  | strange {c : Char} (strange : Strange c) : Form .unknown [c]

theorem notDigit_of_isWordStart {c : Char} (starts : isWordStart c = true) : c.isDigit = false := by
  simp only [isWordStart, Bool.or_eq_true, beq_iff_eq] at starts
  rcases starts with (isAlpha | rfl) | rfl
  · exact notDigit_of_isAlpha isAlpha
  · decide
  · decide

theorem numberTail_digits {digits : List Char} (all : ∀ d ∈ digits, d.isDigit = true) :
    numberTail digits = digits := by
  induction digits with
  | nil => rfl
  | cons d digits ih => simp_all [numberTail]

theorem numberTail_decimal {digits places : List Char} (all : ∀ d ∈ digits, d.isDigit = true)
    (allPlaces : ∀ d ∈ places, d.isDigit = true) :
    numberTail (digits ++ '.' :: places) = digits ++ '.' :: places := by
  induction digits with
  | nil => simp [numberTail, List.takeWhile_eq_self_iff.2 allPlaces]
  | cons d digits ih => simp_all [numberTail]

theorem tail_number {c : Char} {rest : List Char} (isDigit : c.isDigit = true)
    (whole : numberTail rest = rest) : Text.isBlank c = false ∧ tail c rest = (.number, rest) := by
  rw [tail_digit isDigit, whole]
  exact ⟨notBlank_of_isDigit isDigit, rfl⟩

theorem spelling_markKind (c : Char) :
    markKind c = .unknown ∨ (markKind c).spelling? = some (String.singleton c) := by
  unfold markKind
  split <;> first | exact .inl rfl | exact .inr rfl

theorem Strange.tail_alone {c : Char} (strange : Strange c) : tail c [] = (.unknown, []) := by
  have notPoint : c ≠ '.' := by
    rintro rfl
    exact strange.noMark .dot rfl
  have alone : markKind c = .unknown := (spelling_markKind c).resolve_right (strange.noMark _)
  simp [tail, number?, strange.notDigit, strange.notStart, strange.notBackslash, notPoint, mark, alone]

theorem Form.scanned {kind : Kind} {text : List Char} (form : Form kind text) :
    ∃ c rest, text = c :: rest ∧ Text.isBlank c = false ∧ tail c rest = (kind, rest) := by
  cases form with
  | whole filled all =>
    obtain ⟨c, digits, rfl⟩ := List.exists_cons_of_ne_nil filled
    obtain ⟨first, others⟩ := List.forall_mem_cons.1 all
    exact ⟨c, digits, rfl, tail_number first (numberTail_digits others)⟩
  | @decimal digits places filled all allPlaces =>
    obtain ⟨c, digits, rfl⟩ := List.exists_cons_of_ne_nil filled
    obtain ⟨first, others⟩ := List.forall_mem_cons.1 all
    exact ⟨c, digits ++ '.' :: places, rfl, tail_number first (numberTail_decimal others allPlaces)⟩
  | @places places filled all =>
    refine ⟨'.', places, rfl, by decide, ?_⟩
    simp [tail_point, List.takeWhile_eq_self_iff.2 all, filled]
  | @name c more starts all =>
    refine ⟨c, more, rfl, notBlank_of_isWordChar (isWordChar_of_isWordStart starts), ?_⟩
    rw [tail_word (notDigit_of_isWordStart starts) starts, List.takeWhile_eq_self_iff.2 all]
  | @command letters all =>
    refine ⟨'\\', letters, rfl, by decide, ?_⟩
    rw [tail_command, List.takeWhile_eq_self_iff.2 all]
  | @mark _ mark fixed => exact Kind.spells_iff.1 ((Kind.spells_iff_of_spelling fixed mark).2 rfl)
  | @strange c strange => exact ⟨c, [], rfl, strange.notBlank, strange.tail_alone⟩

theorem Form.notBlank {kind : Kind} {text : List Char} (form : Form kind text) :
    ∀ c ∈ text, Text.isBlank c = false := by
  have digits {more : List Char} (all : ∀ d ∈ more, d.isDigit = true) :
      ∀ d ∈ more, Text.isBlank d = false := fun d inside => notBlank_of_isDigit (all d inside)
  have point : Text.isBlank '.' = false := by decide
  cases form with
  | whole _ all => exact digits all
  | decimal _ all allPlaces =>
    exact List.forall_mem_append.2 ⟨digits all, List.forall_mem_cons.2 ⟨point, digits allPlaces⟩⟩
  | places _ all => exact List.forall_mem_cons.2 ⟨point, digits all⟩
  | name starts all =>
    have first := notBlank_of_isWordChar (isWordChar_of_isWordStart starts)
    exact List.forall_mem_cons.2 ⟨first, fun d inside => notBlank_of_isWordChar (all d inside)⟩
  | command all =>
    exact List.forall_mem_cons.2 ⟨by decide, fun d inside => notBlank_of_isAlpha (all d inside)⟩
  | mark fixed => cases kind <;> cases fixed <;> simp [Text.isBlank]
  | strange strange => simpa using strange.notBlank

def isSolid (kind : Kind) : Bool := kind == .number || kind == .identifier || kind == .dot

theorem Form.solid {kind : Kind} {text : List Char} (form : Form kind text)
    (isSolid : isSolid kind = true) : ∀ c ∈ text, isWordChar c = true ∨ c = '.' := by
  have digits {more : List Char} (all : ∀ d ∈ more, d.isDigit = true) :
      ∀ d ∈ more, isWordChar d = true ∨ d = '.' := fun d inside =>
    .inl (isWordChar_of_isDigit (all d inside))
  cases form with
  | whole _ all => exact digits all
  | decimal _ all allPlaces =>
    exact List.forall_mem_append.2 ⟨digits all, List.forall_mem_cons.2 ⟨.inr rfl, digits allPlaces⟩⟩
  | places _ all => exact List.forall_mem_cons.2 ⟨.inr rfl, digits all⟩
  | name starts all =>
    have first := isWordChar_of_isWordStart starts
    exact List.forall_mem_cons.2 ⟨.inl first, fun d inside => .inl (all d inside)⟩
  | command | strange => cases isSolid
  | mark fixed => cases kind <;> cases fixed <;> first | cases isSolid; done | simp

theorem form_numberTail (rest : List Char) : ∃ digits places, (∀ d ∈ digits, d.isDigit = true) ∧
    (∀ d ∈ places, d.isDigit = true) ∧
    (numberTail rest = digits ∨ numberTail rest = digits ++ '.' :: places) := by
  induction rest with
  | nil => exact ⟨[], [], by simp [numberTail]⟩
  | cons c rest ih =>
    by_cases isDigit : c.isDigit = true
    next =>
      obtain ⟨digits, places, all, allPlaces, same⟩ := ih
      refine ⟨c :: digits, places, List.forall_mem_cons.2 ⟨isDigit, all⟩, allPlaces, ?_⟩
      simpa [numberTail, isDigit] using same
    next =>
      refine ⟨[], rest.takeWhile Char.isDigit, by simp, List.all_eq_true.1 List.all_takeWhile, ?_⟩
      by_cases isPoint : c = '.' <;> simp [numberTail, isDigit, isPoint]

theorem markKind_of_spelling {c : Char} (outside : isWordChar c = false) (notPoint : c ≠ '.')
    (notBackslash : c ≠ '\\') {kind : Kind} (fixed : kind.spelling? = some (String.singleton c)) :
    markKind c = kind := by
  obtain ⟨d, rest, chars, -, whole⟩ :=
    Kind.spells_iff.1 ((Kind.spells_iff_of_spelling fixed (String.singleton c)).2 rfl)
  obtain ⟨rfl, rfl⟩ : c = d ∧ [] = rest := by simpa using chars
  rw [tail_mark outside notPoint notBackslash] at whole
  exact (Prod.mk.inj whole).1

theorem form_markKind {c : Char} (notBlank : Text.isBlank c = false) (outside : isWordChar c = false)
    (notPoint : c ≠ '.') (notBackslash : c ≠ '\\') : Form (markKind c) [c] := by
  rcases spelling_markKind c with isUnknown | fixed
  next =>
    rw [isUnknown]
    refine .strange ⟨notBlank, not_isDigit outside, ?_, notBackslash, ?_⟩
    case refine_1 =>
      rw [Bool.eq_false_iff]
      intro starts
      simp [isWordChar_of_isWordStart starts] at outside
    case refine_2 =>
      intro kind fixed
      rw [← markKind_of_spelling outside notPoint notBackslash fixed, isUnknown] at fixed
      cases fixed
  next => simpa using Form.mark fixed

theorem form_mark {c : Char} {rest : List Char} (notBlank : Text.isBlank c = false)
    (outside : isWordChar c = false) (notPoint : c ≠ '.') (notBackslash : c ≠ '\\') :
    Form (mark c rest).1 (c :: (mark c rest).2) := by
  cases rest with
  | nil => exact form_markKind notBlank outside notPoint notBackslash
  | cons d rest =>
    cases pair : pairKind? c d with
    | none => simpa [mark, pair] using form_markKind notBlank outside notPoint notBackslash
    | some kind =>
      have fixed : kind.spelling? = some (String.ofList [c, d]) := by
        unfold pairKind? at pair
        split at pair <;> try cases pair
        next isEquals =>
          subst isEquals
          split at pair <;> cases pair <;> rfl
      simpa [mark, pair] using Form.mark fixed

theorem form_tail {c : Char} (notBlank : Text.isBlank c = false) (rest : List Char) :
    Form (tail c rest).1 (c :: (tail c rest).2) := by
  cases lead c with
  | digit isDigit =>
    obtain ⟨digits, places, all, allPlaces, same⟩ := form_numberTail rest
    have filled : ∀ d ∈ c :: digits, d.isDigit = true := List.forall_mem_cons.2 ⟨isDigit, all⟩
    rw [tail_digit isDigit]
    rcases same with same | same
    next => simpa [same] using Form.whole (List.cons_ne_nil c digits) filled
    next => simpa [same] using Form.decimal (List.cons_ne_nil c digits) filled allPlaces
  | word notDigit starts =>
    rw [tail_word notDigit starts]
    exact .name starts (List.all_eq_true.1 List.all_takeWhile)
  | point isPoint =>
    subst isPoint
    rw [tail_point]
    by_cases none : rest.takeWhile Char.isDigit = []
    next => simpa [none] using @Form.mark .dot "." rfl
    next => simpa [none] using Form.places none (List.all_eq_true.1 List.all_takeWhile)
  | command isBackslash =>
    subst isBackslash
    exact .command (List.all_eq_true.1 List.all_takeWhile)
  | mark outside notPoint notBackslash =>
    rw [tail_mark outside notPoint notBackslash]
    exact form_mark notBlank outside notPoint notBackslash

theorem form_of_tail {c : Char} {rest own : List Char} {kind : Kind} (notBlank : Text.isBlank c = false)
    (whole : tail c rest = (kind, own)) : Form kind (c :: own) := by
  have form := form_tail notBlank rest
  rwa [whole] at form

theorem spells_iff_form {kind : Kind} {text : String} : kind.Spells text ↔ Form kind text.toList := by
  constructor
  case mp =>
    intro spells
    obtain ⟨c, rest, chars, notBlank, whole⟩ := Kind.spells_iff.1 spells
    rw [chars]
    exact form_of_tail notBlank whole
  case mpr => exact fun form => Kind.spells_iff.2 form.scanned

theorem takeWhile_grows {p : Char → Bool} {text : List Char} (whole : text.takeWhile p = text)
    (more : List Char) : text <+: (text ++ more).takeWhile p := by
  rw [List.takeWhile_append_of_pos (List.takeWhile_eq_self_iff.1 whole)]
  exact List.prefix_append _ _

theorem numberTail_grows {text : List Char} (whole : numberTail text = text) (more : List Char) :
    text <+: numberTail (text ++ more) := by
  induction text with
  | nil => exact List.nil_prefix
  | cons c text ih =>
    rw [List.cons_append, numberTail]
    rw [numberTail] at whole
    by_cases isDigit : c.isDigit = true
    next =>
      rw [if_pos isDigit] at whole ⊢
      exact (List.prefix_cons_inj c).2 (ih (List.cons.inj whole).2)
    next =>
      rw [if_neg isDigit] at whole ⊢
      by_cases isPoint : c = '.'
      next =>
        rw [if_pos isPoint] at whole ⊢
        exact (List.prefix_cons_inj c).2 (takeWhile_grows (List.cons.inj whole).2 more)
      next => simp [isPoint] at whole

theorem mark_grows {c : Char} {text : List Char} (whole : (mark c text).2 = text) (more : List Char) :
    text <+: (mark c (text ++ more)).2 := by
  cases text with
  | nil => exact List.nil_prefix
  | cons d text =>
    cases pair : pairKind? c d <;> simp_all [mark]

theorem tail_grows {c : Char} {text : List Char} (whole : (tail c text).2 = text) (more : List Char) :
    text <+: (tail c (text ++ more)).2 := by
  cases lead c with
  | digit isDigit =>
    rw [tail_digit isDigit] at whole ⊢
    exact numberTail_grows whole more
  | word notDigit starts =>
    rw [tail_word notDigit starts] at whole ⊢
    exact takeWhile_grows whole more
  | point isPoint =>
    subst isPoint
    rw [tail_point] at whole ⊢
    exact takeWhile_grows whole more
  | command isBackslash =>
    subst isBackslash
    exact takeWhile_grows whole more
  | mark outside notPoint notBackslash =>
    rw [tail_mark outside notPoint notBackslash] at whole ⊢
    exact mark_grows whole more

theorem Form.length_le {kind : Kind} {text rest : List Char} {c : Char} (form : Form kind text)
    (starts : text <+: c :: rest) : text.length ≤ (c :: (tail c rest).2).length := by
  obtain ⟨d, own, rfl, -, whole⟩ := form.scanned
  obtain ⟨more, same⟩ := starts
  rw [List.cons_append] at same
  obtain ⟨rfl, rfl⟩ := List.cons.inj same
  have longer := (tail_grows (by rw [whole]) more).length_le
  simpa using longer

end FormulaCalculator.Lexeme
