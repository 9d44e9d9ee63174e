import FormulaCalculator.Proofs.Token.Parts

set_option autoImplicit false

namespace FormulaCalculator.Token

/-- No longer lexeme starts at the place of the token. -/
structure Longest (token : Token) (text : List Char) (start : Nat) : Prop where
  form : Lexeme.Form token.kind token.text.toList
  stands : token.text.toList <+: text.drop start
  longest : ∀ kind lexeme, Lexeme.Form kind lexeme → lexeme <+: text.drop start →
    lexeme.length ≤ token.text.length

def Covers (token : Token) (index : Nat) : Prop :=
  ∃ start : Nat, token.pos = some (start : Int) ∧ start ≤ index ∧ index < start + token.text.length

def Precedes (earlier later : Token) : Prop :=
  ∀ start next : Nat, earlier.pos = some (start : Int) → later.pos = some (next : Int) →
    start + earlier.text.length ≤ next

theorem longest_lexeme {c : Char} {tail more : List Char} {kind : Kind}
    (notBlank : Text.isBlank c = false) (whole : Lexeme.tail c (tail ++ more) = (kind, tail))
    (pos : Option Int) :
    Longest ⟨kind, String.ofList (c :: tail), pos⟩ (c :: (tail ++ more)) 0 := by
  constructor
  case form => simpa using Lexeme.form_of_tail notBlank whole
  case stands => simp
  case longest =>
    intro other lexeme also starts
    have bound := also.length_le (by simpa using starts)
    simpa [whole, Nat.add_comm] using bound

theorem longest_of_mem_scanFrom {token : Token} {text : List Char} {pos : Nat}
    (inside : token ∈ scanFrom pos 0 text) :
    ∃ offset : Nat, token.pos = some ((pos + offset : Nat) : Int) ∧ token.Longest text offset := by
  induction text using partInduction generalizing pos with
  | nil => simp [scanFrom] at inside
  | blank c rest isBlank ih =>
    rw [scanFrom_blank isBlank] at inside
    obtain ⟨offset, place, longest⟩ := ih inside
    refine ⟨offset + 1, by rw [place]; congr 2; omega, ?_⟩
    exact ⟨longest.form, by simpa using longest.stands, by simpa using longest.longest⟩
  | lexeme c tail more kind notBlank whole ih =>
    rw [scanFrom_lexeme notBlank whole] at inside
    rcases List.mem_cons.1 inside with rfl | inside
    next => exact ⟨0, rfl, longest_lexeme notBlank whole _⟩
    next =>
      obtain ⟨offset, place, longest⟩ := ih inside
      have after : (c :: (tail ++ more)).drop (tail.length + 1 + offset) = more.drop offset := by
        simp [List.drop_append, Nat.add_right_comm]
      refine ⟨tail.length + 1 + offset, by rw [place]; congr 2; omega, ?_⟩
      exact ⟨longest.form, by rw [after]; exact longest.stands, by rw [after]; exact longest.longest⟩

theorem precedes_scanFrom (text : List Char) (pos : Nat) : (scanFrom pos 0 text).Pairwise Precedes := by
  induction text using partInduction generalizing pos with
  | nil => simp [scanFrom]
  | blank c rest isBlank ih =>
    rw [scanFrom_blank isBlank]
    exact ih _
  | lexeme c tail more kind notBlank whole ih =>
    rw [scanFrom_lexeme notBlank whole]
    refine List.pairwise_cons.2 ⟨?_, ih _⟩
    intro later inside start next isStart isNext
    obtain ⟨place, isPlace, after⟩ := pos_of_mem_scanFrom inside
    simp_all
    omega

theorem le_of_covers {token : Token} {text : List Char} {pos index : Nat}
    (inside : token ∈ scanFrom pos 0 text) (covers : token.Covers index) : pos ≤ index := by
  obtain ⟨place, isPlace, after⟩ := pos_of_mem_scanFrom inside
  obtain ⟨start, isStart, below, -⟩ := covers
  simp_all
  omega

theorem covers_lexeme {kind : Kind} {text : List Char} {pos index : Nat} :
    Covers ⟨kind, String.ofList text, some (pos : Int)⟩ index ↔ pos ≤ index ∧ index < pos + text.length := by
  constructor
  case mp =>
    rintro ⟨start, isStart, below, above⟩
    rw [String.length_ofList] at above
    have same : pos = start := Int.ofNat.inj (Option.some.inj isStart)
    omega
  case mpr =>
    rintro ⟨below, above⟩
    exact ⟨pos, rfl, below, by rwa [String.length_ofList]⟩

theorem covered_iff {text : List Char} {index : Nat} {d : Char} (isAt : text[index]? = some d)
    (pos : Nat) :
    Text.isBlank d = false ↔ ∃ token ∈ scanFrom pos 0 text, token.Covers (pos + index) := by
  induction text using partInduction generalizing index pos with
  | nil => simp at isAt
  | blank c rest isBlank ih =>
    rw [scanFrom_blank isBlank]
    cases index with
    | zero =>
      obtain rfl : c = d := by simpa using isAt
      have uncovered : ¬ ∃ token ∈ scanFrom (pos + 1) 0 rest, token.Covers (pos + 0) := by
        rintro ⟨token, isToken, covers⟩
        have after := le_of_covers isToken covers
        omega
      simp only [isBlank, uncovered, Bool.true_eq_false]
    | succ index =>
      have shifted : pos + (index + 1) = pos + 1 + index := by omega
      rw [shifted]
      exact ih (by simpa using isAt) (pos + 1)
  | lexeme c tail more kind notBlank whole ih =>
    rw [scanFrom_lexeme notBlank whole]
    rw [← List.cons_append] at isAt
    by_cases within : index < (c :: tail).length
    next =>
      -- The first token takes the character, and there is no blank in a lexeme.
      have form := Lexeme.form_of_tail notBlank whole
      rw [List.getElem?_append_left within] at isAt
      simp only [form.notBlank d (List.mem_of_getElem? isAt), true_iff]
      exact ⟨_, List.mem_cons_self, covers_lexeme.2 ⟨by omega, by omega⟩⟩
    next =>
      have beyond : (c :: tail).length ≤ index := by omega
      have place : pos + (tail.length + 1) + (index - (c :: tail).length) = pos + index := by
        simp only [List.length_cons] at beyond ⊢
        omega
      rw [List.getElem?_append_right beyond] at isAt
      rw [ih isAt (pos + (tail.length + 1)), place]
      have uncovered : ¬ (pos ≤ pos + index ∧ pos + index < pos + (c :: tail).length) := by omega
      simp only [List.mem_cons, exists_eq_or_imp, covers_lexeme, uncovered, false_or]

theorem scan_covers_text (text : String) :
    (∀ token ∈ scan text, ∃ start : Nat, token.pos = some (start : Int) ∧ token.text ≠ "" ∧
      (text.toList.drop start).take token.text.length = token.text.toList ∧
      token.Longest text.toList start) ∧
    (scan text).Pairwise Precedes ∧
    (∀ index d, text.toList[index]? = some d →
      (Text.isBlank d = false ↔ ∃ token ∈ scan text, token.Covers index)) ∧
    ∀ kind other lexeme, Lexeme.Form kind lexeme → Lexeme.Form other lexeme → kind = other := by
  refine ⟨?slices, precedes_scanFrom _ 0, ?covered, ?determined⟩
  case slices =>
    intro token inside
    obtain ⟨start, place, longest⟩ := longest_of_mem_scanFrom inside
    have slice := List.prefix_iff_eq_take.1 longest.stands
    rw [String.length_toList] at slice
    exact ⟨start, by simpa using place, (spells_of_mem_scan inside).ne_empty, slice.symm, longest⟩
  case covered =>
    intro index d isAt
    have covered := covered_iff isAt 0
    rwa [Nat.zero_add] at covered
  case determined =>
    intro kind other lexeme form also
    have first : kind.Spells (String.ofList lexeme) := Lexeme.spells_iff_form.2 (by simpa using form)
    exact first.unique (Lexeme.spells_iff_form.2 (by simpa using also))

end FormulaCalculator.Token
