import FormulaCalculator.Proofs.Token.Spelling

set_option autoImplicit false

namespace FormulaCalculator.Token

-- An empty piece leaves no token, and any other is one of its own.
inductive Carries : List Token → List String → Prop where
  | nil : Carries [] []
  | blank {tokens : List Token} {pieces : List String} (more : Carries tokens pieces) :
      Carries tokens ("" :: pieces)
  | piece {token : Token} {tokens : List Token} {pieces : List String}
      (spells : token.kind.Spells token.text) (more : Carries tokens pieces) :
      Carries (token :: tokens) (token.text :: pieces)

theorem carries_nil {tokens : List Token} : Carries tokens [] ↔ tokens = [] := by
  constructor
  case mp => exact fun carries => by cases carries; rfl
  case mpr => exact fun isNil => isNil ▸ .nil

theorem carries_blank {tokens : List Token} {pieces : List String} :
    Carries tokens ("" :: pieces) ↔ Carries tokens pieces := by
  constructor
  case mp =>
    intro carries
    generalize same : "" :: pieces = written at carries
    cases carries with
    | nil => cases same
    | blank more =>
      cases same
      exact more
    | piece spells => exact absurd (List.cons.inj same).1.symm spells.ne_empty
  case mpr => exact .blank

theorem carries_cons {kind : Kind} {piece : String} (spells : kind.Spells piece)
    {tokens : List Token} {pieces : List String} : Carries tokens (piece :: pieces) ↔
      ∃ token more, tokens = token :: more ∧ token.kind = kind ∧ token.text = piece ∧
        Carries more pieces := by
  constructor
  case mp =>
    intro carries
    cases carries with
    | blank more => exact absurd rfl spells.ne_empty
    | piece also more => exact ⟨_, _, rfl, also.unique spells, rfl, more⟩
  case mpr =>
    rintro ⟨token, more, rfl, isKind, rfl, carries⟩
    exact .piece (isKind ▸ spells) carries

theorem carries_append {first second : List String} {tokens : List Token} :
    Carries tokens (first ++ second) ↔
      ∃ left right, tokens = left ++ right ∧ Carries left first ∧ Carries right second := by
  constructor
  case mp =>
    intro carries
    induction first generalizing tokens with
    | nil => exact ⟨[], tokens, rfl, .nil, carries⟩
    | cons piece first ih =>
      rw [List.cons_append] at carries
      generalize same : piece :: (first ++ second) = pieces at carries
      cases carries with
      | nil => cases same
      | blank more =>
        cases same
        obtain ⟨left, right, rfl, carriesLeft, carriesRight⟩ := ih more
        exact ⟨left, right, rfl, .blank carriesLeft, carriesRight⟩
      | @piece token tokens pieces spells more =>
        cases same
        obtain ⟨left, right, rfl, carriesLeft, carriesRight⟩ := ih more
        exact ⟨token :: left, right, rfl, .piece spells carriesLeft, carriesRight⟩
  case mpr =>
    rintro ⟨left, right, rfl, carriesLeft, carriesRight⟩
    induction carriesLeft with
    | nil => exact carriesRight
    | blank _ ih => exact .blank ih
    | piece spells _ ih => exact .piece spells ih

theorem Carries.texts {tokens : List Token} {pieces : List String} (carries : Carries tokens pieces)
    (filled : "" ∉ pieces) : tokens.map Token.text = pieces := by
  induction carries with
  | nil => rfl
  | blank => exact absurd List.mem_cons_self filled
  | piece _ _ ih =>
    obtain ⟨-, others⟩ := not_or.1 (mt List.mem_cons.2 filled)
    rw [List.map_cons, ih others]

def chars (pieces : List String) : List Char := pieces.flatMap String.toList

@[simp] theorem chars_nil : chars [] = [] := rfl

@[simp] theorem chars_cons (piece : String) (pieces : List String) :
    chars (piece :: pieces) = piece.toList ++ chars pieces := by
  simp [chars]

@[simp] theorem chars_append (first second : List String) :
    chars (first ++ second) = chars first ++ chars second := by
  simp [chars]

def Cuts (pieces : List String) (next : List Char) : Prop :=
  ∀ pos : Nat, ∃ tokens place, Carries tokens pieces ∧
    scanFrom pos 0 (chars pieces ++ next) = tokens ++ scanFrom place 0 next

namespace Cuts

theorem scan {pieces : List String} (cuts : Cuts pieces []) :
    Carries (Token.scan (String.join pieces)) pieces := by
  obtain ⟨tokens, place, carries, scanned⟩ := cuts 0
  rw [List.append_nil, scanFrom, List.append_nil] at scanned
  rwa [Token.scan, String.toList_join, ← chars, scanned]

theorem nil (next : List Char) : Cuts [] next := fun pos => ⟨[], pos, .nil, rfl⟩

theorem append {first second : List String} {next : List Char}
    (cutsFirst : Cuts first (chars second ++ next)) (cutsSecond : Cuts second next) :
    Cuts (first ++ second) next := by
  intro pos
  obtain ⟨left, mid, carriesLeft, scanned⟩ := cutsFirst pos
  obtain ⟨right, place, carriesRight, also⟩ := cutsSecond mid
  refine ⟨left ++ right, place, carries_append.2 ⟨left, right, rfl, carriesLeft, carriesRight⟩, ?_⟩
  rw [chars_append, List.append_assoc, scanned, also, List.append_assoc]

theorem blank {pieces : List String} {next : List Char} (cuts : Cuts pieces next) :
    Cuts ("" :: pieces) next := by
  intro pos
  obtain ⟨tokens, place, carries, scanned⟩ := cuts pos
  exact ⟨tokens, place, .blank carries, scanned⟩

theorem cons {kind : Kind} {piece : String} {pieces : List String} {next : List Char}
    (cuts : Cuts pieces next) (spells : kind.Spells piece)
    (stops : ∀ c ∈ piece.toList.head?, ∀ d ∈ (chars pieces ++ next).head?, Lexeme.goesOn c d = false) :
    Cuts (piece :: pieces) next := by
  intro pos
  obtain ⟨tokens, place, carries, scanned⟩ := cuts (pos + piece.toList.length)
  refine ⟨⟨kind, piece, some pos⟩ :: tokens, place, .piece spells carries, ?_⟩
  rw [chars_cons, List.append_assoc, scanFrom_append spells stops, scanned, List.cons_append]

end Cuts

theorem carries_scanFrom_spaced {pieces : List String}
    (lexemes : ∀ piece ∈ pieces, ∃ kind : Kind, kind.Spells piece) (pos : Nat) :
    Carries (scanFrom pos 0 (" ".intercalate pieces).toList) pieces := by
  induction pieces generalizing pos with
  | nil => exact .nil
  | cons piece pieces ih =>
    obtain ⟨kind, spells⟩ := lexemes piece (by simp)
    cases pieces with
    | nil =>
      have alone := @scanFrom_append kind piece [] spells (by simp) pos
      rw [List.append_nil] at alone
      rw [String.intercalate_singleton, alone]
      exact .piece spells .nil
    | cons other pieces =>
      have more := ih (fun piece inside => lexemes piece (List.mem_cons_of_mem _ inside))
      have apart (c : Char) (_ : c ∈ piece.toList.head?) (d : Char)
          (isFirst : d ∈ (' ' :: (" ".intercalate (other :: pieces)).toList).head?) :
          Lexeme.goesOn c d = false := by
        cases isFirst
        exact Lexeme.goesOn_blank (by decide)
      have spaced : (" ".intercalate (piece :: other :: pieces)).toList =
          piece.toList ++ ' ' :: (" ".intercalate (other :: pieces)).toList := by
        simp [String.intercalate_cons_cons]
      rw [spaced, scanFrom_append spells apart pos, scanFrom_blank (by decide)]
      exact .piece spells (more _)

theorem carries_scan_spaced {pieces : List String}
    (lexemes : ∀ piece ∈ pieces, ∃ kind : Kind, kind.Spells piece) :
    Carries (scan (" ".intercalate pieces)) pieces :=
  carries_scanFrom_spaced lexemes 0

end FormulaCalculator.Token
