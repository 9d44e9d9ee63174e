import FormulaCalculator.Proofs.Expr.FlatTokens
import FormulaCalculator.Proofs.Grammar.Completeness
import FormulaCalculator.Proofs.Shorthand.Meanings

set_option autoImplicit false

namespace FormulaCalculator

def onesPieces : Nat → List String
  | 0 => ["1"]
  | count + 1 => "1" :: "+" :: onesPieces count

theorem onesPieces_eq (count : Nat) : onesPieces count = "1" :: (onesPieces count).tail := by
  cases count <;> rfl

def onesText (count : Nat) : String := String.join (onesPieces count)

def Expr.plusOnes (expr : Expr) : Nat → Expr
  | 0 => expr
  | count + 1 => plusOnes (.arith "+" expr (.number "1")) count

def ones (count : Nat) : Expr := Expr.plusOnes (.number "1") count

theorem Expr.frames_plusOnes [Stack] (expr : Expr) (count : Nat) :
    expr.frames + count ≤ (expr.plusOnes count).frames := by
  induction count generalizing expr with
  | zero => exact Nat.le_refl _
  | succ count ih =>
    have rest := ih (.arith "+" expr (.number "1"))
    have first := Stack.lt_frames .arith (max expr.frames (number "1").frames)
    simp only [frames] at rest first
    rw [plusOnes]
    omega

theorem Expr.isEquation_plusOnes {expr : Expr} (other : expr.isEquation = false) (count : Nat) :
    (expr.plusOnes count).isEquation = false := by
  induction count generalizing expr with
  | zero => exact other
  | succ count ih => exact ih rfl

theorem ones_isTall [Stack] {count : Nat} (long : Stack.room ≤ count) : (ones count).isTall = true := by
  have first : 0 < (Expr.number "1").frames := Stack.lt_frames .number 0
  have whole := Expr.frames_plusOnes (.number "1") count
  exact decide_eq_true (by unfold ones; omega)

-- At four frames for each sum, two hundred and fifty of them are too many.
example : (ones 249).isTall = false ∧ (ones 250).isTall = true := by decide +kernel

namespace Shorthand

theorem multiply_ones (count : Nat) {previous : Option Char} (apart : isApart previous = true) :
    multiplyFrom previous 0 (Token.chars (onesPieces count)) = Token.chars (onesPieces count) := by
  induction count generalizing previous with
  | zero => simp [onesPieces, multiplyFrom, apart, Lexeme.number?, Lexeme.numberTail, withSign]
  | succ count ih =>
    -- A sign comes after the one, and not a factor.
    have more := @ih (some '+') (by decide)
    have isSign : startsFactor '+' = false := by decide
    simp [onesPieces, multiplyFrom, apart, Lexeme.number?, Lexeme.numberTail, withSign, isSign, more]

end Shorthand

theorem mem_chars_ones {count : Nat} {c : Char} (inside : c ∈ Token.chars (onesPieces count)) :
    c = '1' ∨ c = '+' := by
  induction count with
  | zero => exact .inl (by simpa [onesPieces] using inside)
  | succ count ih =>
    have cases : c = '1' ∨ c = '+' ∨ c ∈ Token.chars (onesPieces count) := by
      simpa [onesPieces] using inside
    rcases cases with isOne | isPlus | more
    · exact .inl isOne
    · exact .inr isPlus
    · exact ih more

theorem normalize_onesText (count : Nat) : normalize (onesText count) = onesText count := by
  have plain : ∀ c ∈ Token.chars (onesPieces count), c ≠ '\\' := by
    rintro c inside rfl
    have either := mem_chars_ones inside
    simp at either
  unfold normalize onesText
  rw [String.toList_join, ← Token.chars, Shorthand.expand_eq_self plain, Shorthand.multiply,
    Shorthand.multiply_ones count rfl, Token.chars, ← String.toList_join, String.ofList_toList]

theorem one_spells : Kind.number.Spells "1" := by decide

theorem plus_spells : Kind.plus.Spells "+" := by decide

theorem carries_onesText (count : Nat) :
    Token.Carries (Token.scan (onesText count)) (onesPieces count) := by
  refine Token.Cuts.scan ?_
  induction count with
  | zero => exact (Token.Cuts.nil []).cons one_spells (by simp)
  | succ count ih =>
    have starts : (Token.chars (onesPieces count) ++ []).head? = some '1' := by
      cases count <;> simp [onesPieces]
    refine (ih.cons plus_spells ?_).cons one_spells ?_
    · intro c isFirst d isNext
      rw [starts] at isNext
      cases isFirst
      cases isNext
      decide
    · intro c isFirst d isNext
      cases isFirst
      cases isNext
      decide

namespace Grammar

variable {inner : Layer} {tokens : List Token}

theorem ones_term {token : Token} (isNumber : token.kind = .number)
    (apart : ∀ next ∈ tokens.head?, next.kind = .plus) :
    Meets False inner.term (token :: tokens) (.number token.text) tokens := by
  have single : Meets False (inner.operand .product) (token :: tokens) (.number token.text) tokens := by
    refine .base (.number isNumber tokens) ?_
    intro next isNext
    simp [apart next isNext]
  have chained : Meets False (inner.chained .product) (token :: tokens) (.number token.text) tokens := by
    refine .chained single (.unlinked ?_ _)
    intro next isNext
    simp [apart next isNext, Level.operators, Kind.isFactor]
  exact chained

theorem plus_next {count : Nat} (carries : Token.Carries tokens (onesPieces count).tail) :
    ∀ next ∈ tokens.head?, next.kind = .plus := by
  intro next isNext
  cases count with
  | zero =>
    obtain rfl : tokens = [] := Token.carries_nil.1 carries
    cases isNext
  | succ count =>
    obtain ⟨plus, rest, rfl, isPlus, -, -⟩ := (Token.carries_cons plus_spells).1 carries
    cases isNext
    exact isPlus

theorem ones_links {count bound : Nat} (expr : Expr)
    (carries : Token.Carries tokens (onesPieces count).tail) (room : tokens.length ≤ bound) :
    Meets False (chain Level.sum.operators Level.sum.join inner.term bound expr) tokens
      (expr.plusOnes count) [] := by
  induction count generalizing tokens bound expr with
  | zero =>
    obtain rfl : tokens = [] := Token.carries_nil.1 carries
    exact .unlinked (by simp) bound
  | succ count ih =>
    obtain ⟨plus, rest, rfl, isPlus, spelled, more⟩ := (Token.carries_cons plus_spells).1 carries
    rw [onesPieces_eq] at more
    obtain ⟨one, rest, rfl, isNumber, written, more⟩ := (Token.carries_cons one_spells).1 more
    -- One turn of the loop takes the sign and the one.
    simp only [List.length_cons] at room
    obtain ⟨bound, rfl⟩ : ∃ less, bound = less + 1 := ⟨bound - 1, by omega⟩
    have term : Meets False inner.term (one :: rest) (.number "1") rest := by
      rw [← written]
      exact ones_term isNumber (plus_next more)
    refine .link (by simp [isPlus, Level.operators, Kind.isSign]) term ?_
    rw [spelled]
    exact ih _ more (by omega)

theorem ones_expression {count : Nat} (carries : Token.Carries tokens (onesPieces count)) :
    Meets False inner.expressionFrom tokens (ones count) [] := by
  rw [onesPieces_eq] at carries
  obtain ⟨one, rest, rfl, isNumber, written, more⟩ := (Token.carries_cons one_spells).1 carries
  have sum : Meets False (inner.chained .sum) (one :: rest) (ones count) [] := by
    have first : Meets False (inner.operand .sum) (one :: rest) (.number "1") rest := by
      rw [← written]
      exact ones_term isNumber (plus_next more)
    exact .chained first (ones_links _ more (Nat.le_refl _))
  have relation : Meets False (inner.chained .relation) (one :: rest) (ones count) [] :=
    .chained sum (.unlinked (by simp) _)
  have kept : (ones count).isEquation = false := Expr.isEquation_plusOnes rfl count
  have meets := relation.map Grammar.assignment
  rwa [assignment_eq kept] at meets

theorem parseText_onesText [Stack] (count : Nat) : parseText (onesText count) = .ok (ones count) := by
  have meets :
      Meets False (layer Stack.nesting).expression (Token.scan (onesText count)) (ones count) [] := by
    obtain ⟨below, same⟩ := Nat.exists_eq_add_of_lt Stack.nesting_pos
    rw [same]
    exact ones_expression (carries_onesText count)
  have run := (meets []).resolve_right fun excused => excused.1
  simp [parseText, parse, parseWithin, readAll, run, verdict]

end Grammar

end FormulaCalculator
