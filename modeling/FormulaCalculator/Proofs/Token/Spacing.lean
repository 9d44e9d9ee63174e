import FormulaCalculator.Proofs.Token.Parts
import FormulaCalculator.Proofs.Token.Pieces

set_option autoImplicit false

namespace FormulaCalculator

namespace Token

def moved (count : Nat) (token : Token) : Token :=
  { token with pos := token.pos.map (· + (count : Int)) }

theorem scanFrom_moved (text : List Char) (count pos taken : Nat) :
    scanFrom (pos + count) taken text = (scanFrom pos taken text).map (moved count) := by
  induction text generalizing pos taken with
  | nil => cases taken <;> rfl
  | cons c rest ih =>
    have place : pos + count + 1 = pos + 1 + count := by omega
    cases taken with
    | succ taken => rw [scanFrom, scanFrom, place, ih]
    | zero =>
      cases isBlank : Text.isBlank c with
      | true => rw [scanFrom_blank isBlank, scanFrom_blank isBlank, place, ih]
      | false =>
        rw [scanFrom_cons isBlank, scanFrom_cons isBlank, place, ih, List.map_cons]
        simp [moved]

theorem scanFrom_before_blank {c : Char} (isBlank : Text.isBlank c = true) (first next : List Char)
    (pos : Nat) : scanFrom pos 0 (first ++ c :: next) =
      scanFrom pos 0 first ++ scanFrom (pos + (first.length + 1)) 0 next := by
  induction first using partInduction generalizing pos with
  | nil => rw [List.nil_append, scanFrom_blank isBlank]; rfl
  | blank d rest alsoBlank ih =>
    have place : pos + 1 + (rest.length + 1) = pos + ((d :: rest).length + 1) := by
      simp only [List.length_cons]
      omega
    rw [List.cons_append, scanFrom_blank alsoBlank, scanFrom_blank alsoBlank, ih, place]
  | lexeme d tail more kind notBlank whole ih =>
    have stays : Lexeme.tail d (tail ++ (more ++ c :: next)) = (kind, tail) := by
      apply (Lexeme.tail_append_iff whole _).2
      intro e isFirst
      cases more with
      | nil =>
        cases isFirst
        exact Lexeme.fuses_eq_false whole (Lexeme.goesOn_blank isBlank)
      | cons f more => exact (Lexeme.tail_append_iff whole _).1 whole e isFirst
    have place : pos + (tail.length + 1) + (more.length + 1) =
        pos + ((d :: (tail ++ more)).length + 1) := by
      simp only [List.length_cons, List.length_append]
      omega
    rw [List.cons_append, List.append_assoc, scanFrom_lexeme notBlank stays,
      scanFrom_lexeme notBlank whole, ih, place, List.cons_append]

theorem scanFrom_blanks {blanks : List Char} (allBlank : ∀ c ∈ blanks, Text.isBlank c = true)
    (next : List Char) (pos : Nat) :
    scanFrom pos 0 (blanks ++ next) = scanFrom (pos + blanks.length) 0 next := by
  induction blanks generalizing pos with
  | nil => rfl
  | cons c blanks ih =>
    obtain ⟨isBlank, others⟩ := List.forall_mem_cons.1 allBlank
    have place : pos + 1 + blanks.length = pos + (c :: blanks).length := by
      simp only [List.length_cons]
      omega
    rw [List.cons_append, scanFrom_blank isBlank, ih others, place]

theorem scan_between_blanks (first second blanks : String) (filled : blanks ≠ "")
    (allBlank : ∀ c ∈ blanks.toList, Text.isBlank c = true) :
    scan (first ++ blanks ++ second) =
      scan first ++ (scan second).map (moved (first.length + blanks.length)) := by
  have someBlank : blanks.toList ≠ [] := by simpa using filled
  obtain ⟨c, others, isBlanks⟩ := List.exists_cons_of_ne_nil someBlank
  rw [isBlanks] at allBlank
  obtain ⟨isBlank, othersBlank⟩ := List.forall_mem_cons.1 allBlank
  have place : 0 + (first.toList.length + 1) + others.length = 0 + (first.length + blanks.length) := by
    rw [← String.length_toList (s := blanks), isBlanks, List.length_cons, String.length_toList]
    omega
  rw [scan, scan, scan, String.toList_append, String.toList_append, isBlanks, List.append_assoc,
    List.cons_append, scanFrom_before_blank isBlank, scanFrom_blanks othersBlank, place, scanFrom_moved]

theorem scan_point_between_blanks :
    scan "2.\t\u20035x" = [⟨.number, "2.", some 0⟩, ⟨.number, "5", some 4⟩, ⟨.identifier, "x", some 5⟩] := by
  have allBlank : "\t\u2003".toList.all Text.isBlank = true := by decide
  exact scan_between_blanks "2." "5x" "\t\u2003" (by decide) (List.all_eq_true.1 allBlank)

theorem Carries.lexemes_unique {tokens others : List Token} {pieces : List String}
    (carries : Carries tokens pieces) (also : Carries others pieces) :
    tokens.map lexeme = others.map lexeme := by
  induction carries generalizing others with
  | nil => rw [carries_nil.1 also]
  | blank _ ih => exact ih (carries_blank.1 also)
  | piece spells _ ih =>
    obtain ⟨token, more, rfl, isKind, isText, alsoMore⟩ := (carries_cons spells).1 also
    rw [List.map_cons, List.map_cons, ih alsoMore]
    simp [lexeme, isKind, isText]

theorem carries_texts {tokens : List Token} (spelled : ∀ token ∈ tokens, token.kind.Spells token.text) :
    Carries tokens (tokens.map Token.text) := by
  induction tokens with
  | nil => exact .nil
  | cons token tokens ih =>
    obtain ⟨first, others⟩ := List.forall_mem_cons.1 spelled
    exact .piece first (ih others)

theorem lexemes_scan_spaced (text : String) :
    (scan (" ".intercalate ((scan text).map Token.text))).map lexeme = (scan text).map lexeme := by
  have spelled : ∀ token ∈ scan text, token.kind.Spells token.text := fun _ => spells_of_mem_scan
  have pieces : ∀ piece ∈ (scan text).map Token.text, ∃ kind : Kind, kind.Spells piece :=
    List.forall_mem_map.2 fun token inside => ⟨token.kind, spelled token inside⟩
  exact (carries_scan_spaced pieces).lexemes_unique (carries_texts spelled)

end Token

end FormulaCalculator
