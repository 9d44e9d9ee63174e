import FormulaCalculator.Text.Blank
import Mathlib.Data.List.TakeWhile
import Mathlib.Data.List.Forall2

set_option autoImplicit false

namespace FormulaCalculator.Text

def IsInner (c : Char) : Prop := c ≠ '\n' ∧ c ≠ '\r'

-- A line feed belongs to the carriage return before it.
inductive LineEnd : List Char → List Char → Prop
  | feed (rest : List Char) : LineEnd ['\n'] rest
  | both (rest : List Char) : LineEnd ['\r', '\n'] rest
  | single {rest : List Char} (noFeed : rest.head? ≠ some '\n') : LineEnd ['\r'] rest

inductive Lined : List Char → List (List Char) → Prop
  | nil : Lined [] []
  | last {line : List Char} (filled : line ≠ []) (inner : ∀ c ∈ line, IsInner c) : Lined line [line]
  | cons {line ending rest : List Char} {more : List (List Char)} (inner : ∀ c ∈ line, IsInner c)
      (ends : LineEnd ending rest) (lined : Lined rest more) :
      Lined (line ++ (ending ++ rest)) (line :: more)

def Trimmed (line core : List Char) : Prop :=
  ∃ before after, line = before ++ (core ++ after) ∧
    (∀ c ∈ before, isBlank c = true) ∧ (∀ c ∈ after, isBlank c = true) ∧
    (∀ c ∈ core.head?, isBlank c = false) ∧ ∀ c ∈ core.getLast?, isBlank c = false

theorem lines_inner {c : Char} (inner : IsInner c) (rest : List Char) :
    lines (c :: rest) = match lines rest with
      | [] => [[c]]
      | line :: more => (c :: line) :: more := by
  obtain ⟨noFeed, noReturn⟩ := inner
  cases found : lines rest <;> simp [lines, found, noReturn]

theorem lines_ending {ending rest : List Char} (ends : LineEnd ending rest) :
    lines (ending ++ rest) = [] :: lines rest := by
  cases ends with
  | feed => rfl
  | both => rfl
  | single noFeed =>
    cases rest with
    | nil => rfl
    | cons c rest =>
      rw [List.singleton_append, lines]
      rintro more same
      cases same
      exact noFeed rfl

theorem Lined.lines_eq {text : List Char} {each : List (List Char)} (lined : Lined text each) :
    lines text = each := by
  induction lined with
  | nil => rfl
  | @last line filled inner =>
    induction line with
    | nil => exact absurd rfl filled
    | cons c line ih =>
      obtain ⟨here, others⟩ := List.forall_mem_cons.1 inner
      rw [lines_inner here]
      cases line with
      | nil => rfl
      | cons d line => rw [ih (List.cons_ne_nil d line) others]
  | @cons line ending rest more inner ends _ ih =>
    induction line with
    | nil => rw [List.nil_append, lines_ending ends, ih]
    | cons c line ihLine =>
      obtain ⟨here, others⟩ := List.forall_mem_cons.1 inner
      rw [List.cons_append, lines_inner here, ihLine others]

theorem Lined.eq_nil {text : List Char} (lined : Lined text []) : text = [] := by
  cases lined
  rfl

theorem LineEnd.lined {ending rest : List Char} {more : List (List Char)} (ends : LineEnd ending rest)
    (lined : Lined rest more) : Lined (ending ++ rest) ([] :: more) :=
  .cons (fun _ inside => absurd inside List.not_mem_nil) ends lined

theorem Lined.cons_inner {c : Char} (inner : IsInner c) {text line : List Char} {more : List (List Char)}
    (lined : Lined text (line :: more)) : Lined (c :: text) ((c :: line) :: more) := by
  cases lined with
  | last _ others => exact .last (List.cons_ne_nil c _) (List.forall_mem_cons.2 ⟨inner, others⟩)
  | cons others ends lined => exact .cons (List.forall_mem_cons.2 ⟨inner, others⟩) ends lined

theorem lined_lines (text : List Char) : Lined text (lines text) := by
  fun_induction lines text with
  | case1 => exact .nil
  | case2 rest ih => exact (LineEnd.both rest).lined ih
  | case3 rest noFeed ih =>
    have noFeed : rest.head? ≠ some '\n' := by
      cases rest with
      | nil => nofun
      | cons c rest => simpa using fun same : c = '\n' => noFeed rest (by rw [same])
    exact (LineEnd.single noFeed).lined ih
  | case4 rest ih => exact (LineEnd.feed rest).lined ih
  | case5 c rest _ noReturn noFeed none ih =>
    rw [none] at ih
    rw [ih.eq_nil]
    exact .last (by simp) (by simpa [IsInner] using ⟨noFeed, noReturn⟩)
  | case6 c rest _ noReturn noFeed line more found ih =>
    rw [found] at ih
    exact ih.cons_inner ⟨noFeed, noReturn⟩

theorem dropWhile_of_head {p : Char → Bool} {text : List Char} (stops : ∀ c ∈ text.head?, p c = false) :
    text.dropWhile p = text := by
  cases text with
  | nil => rfl
  | cons c rest => simp [stops c rfl]

theorem head_dropWhile {p : Char → Bool} {text : List Char} : ∀ c ∈ (text.dropWhile p).head?, p c = false := by
  intro c first
  have stops := List.head?_dropWhile_not p text
  rw [Option.mem_def.1 first] at stops
  simpa using stops

theorem Trimmed.strip_eq {line core : List Char} (trimmed : Trimmed line core) : strip line = core := by
  obtain ⟨before, after, rfl, allBefore, allAfter, start, stop⟩ := trimmed
  rw [strip, List.dropWhile_append_of_pos allBefore]
  cases core with
  | nil =>
    rw [List.nil_append, List.dropWhile_eq_nil_iff.2 allAfter]
    rfl
  | cons c core =>
    have kept : ((c :: core) ++ after).dropWhile isBlank = (c :: core) ++ after :=
      dropWhile_of_head fun d first => start d (by simpa using first)
    have others : ∀ d ∈ after.reverse, isBlank d = true := by simpa using allAfter
    have ended : ∀ d ∈ (c :: core).reverse.head?, isBlank d = false := by
      rw [List.head?_reverse]
      exact stop
    rw [kept, List.reverse_append, List.dropWhile_append_of_pos others, dropWhile_of_head ended,
      List.reverse_reverse]

theorem trimmed_strip (line : List Char) : Trimmed line (strip line) := by
  let after := ((line.dropWhile isBlank).reverse.takeWhile isBlank).reverse
  have rest : line.dropWhile isBlank = strip line ++ after := by
    rw [strip, ← List.reverse_append, List.takeWhile_append_dropWhile, List.reverse_reverse]
  refine ⟨line.takeWhile isBlank, after, ?_, fun c inside => List.mem_takeWhile_imp inside, ?_, ?_, ?_⟩
  · rw [← rest, List.takeWhile_append_dropWhile]
  · intro c inside
    exact List.mem_takeWhile_imp (List.mem_reverse.1 inside)
  · intro c first
    apply head_dropWhile c
    rw [rest, List.head?_append, Option.mem_def.1 first]
    rfl
  · intro c last
    rw [strip, List.getLast?_reverse] at last
    exact head_dropWhile c last

theorem map_strip_of_trimmed {each cores : List (List Char)} (trimmed : List.Forall₂ Trimmed each cores) :
    each.map strip = cores := by
  induction trimmed with
  | nil => rfl
  | cons first _ ih => rw [List.map_cons, first.strip_eq, ih]

theorem Trimmed.mem_core {line core : List Char} (trimmed : Trimmed line core) {c : Char}
    (inside : c ∈ line) (visible : isBlank c = false) : c ∈ core := by
  obtain ⟨before, after, rfl, allBefore, allAfter, -, -⟩ := trimmed
  have notBefore : c ∉ before := fun within => by simp [allBefore c within] at visible
  have notAfter : c ∉ after := fun within => by simp [allAfter c within] at visible
  simpa [notBefore, notAfter] using inside

-- No line end is in it but a carriage return that may still get a line feed.
inductive Unended : List Char → Prop
  | line {rest : List Char} (inner : ∀ c ∈ rest, IsInner c) : Unended rest
  | held {rest : List Char} (inner : ∀ c ∈ rest, IsInner c) : Unended (rest ++ ['\r'])

/-- Whole lines, and what is cut off behind them. -/
def Settled (text told : List Char) : Prop :=
  ∃ rest, text = told ++ rest ∧ Unended rest ∧ ∀ c ∈ told.getLast?, c = '\n' ∨ c = '\r' ∧ rest ≠ []

theorem endsLine_eq_false {c : Char} : endsLine c = false ↔ IsInner c := by
  simp [endsLine, IsInner]

theorem upToEnd_append {told line : List Char} (inner : ∀ c ∈ line, IsInner c)
    (ended : ∀ c ∈ told.getLast?, endsLine c = true) : upToEnd (told ++ line) = told := by
  unfold upToEnd
  rw [List.reverse_append, List.dropWhile_append_of_pos, dropWhile_of_head, List.reverse_reverse]
  · intro c first
    rw [List.head?_reverse] at first
    simp [ended c first]
  · intro c inside
    simp [endsLine_eq_false.2 (inner c (List.mem_reverse.1 inside))]

theorem exists_after_end (text : List Char) : ∃ line, text = upToEnd text ++ line ∧
    (∀ c ∈ line, IsInner c) ∧ ∀ c ∈ (upToEnd text).getLast?, c = '\n' ∨ c = '\r' := by
  refine ⟨(text.reverse.takeWhile (!endsLine ·)).reverse, ?_, ?_, ?_⟩
  · rw [upToEnd, ← List.reverse_append, List.takeWhile_append_dropWhile, List.reverse_reverse]
  · intro c inside
    have stays := List.mem_takeWhile_imp (List.mem_reverse.1 inside)
    exact endsLine_eq_false.1 (by simpa using stays)
  · intro c last
    rw [upToEnd, List.getLast?_reverse] at last
    have stops := head_dropWhile c last
    rw [or_iff_not_imp_left]
    simpa [endsLine] using stops

theorem Settled.settled_eq {text told : List Char} (cut : Settled text told) : settled text = told := by
  obtain ⟨rest, rfl, unended, last⟩ := cut
  have ended : ∀ c ∈ told.getLast?, endsLine c = true := by
    intro c isLast
    rcases last c isLast with rfl | ⟨rfl, -⟩ <;> decide
  cases unended with
  | @held line inner =>
    rw [settled, if_pos (by simp), ← List.append_assoc, List.dropLast_concat, upToEnd_append inner ended]
  | line inner =>
    have noReturn : (told ++ rest).getLast? ≠ some '\r' := by
      intro isReturn
      rcases List.eq_nil_or_concat rest with rfl | ⟨line, c, rfl⟩
      · simpa using last '\r' (by simpa using isReturn)
      · have same : c = '\r' := by simpa [← List.append_assoc] using isReturn
        exact (inner c (by simp)).2 same
    rw [settled, if_neg noReturn, upToEnd_append inner ended]

theorem settled_settled (text : List Char) : Settled text (settled text) := by
  by_cases isReturn : text.getLast? = some '\r'
  case pos =>
    obtain ⟨before, rfl⟩ := List.getLast?_eq_some_iff.1 isReturn
    obtain ⟨line, same, inner, ended⟩ := exists_after_end before
    rw [settled, if_pos isReturn, List.dropLast_concat]
    refine ⟨line ++ ['\r'], ?_, .held inner, fun c last => (ended c last).imp_right fun isEnd => ⟨isEnd, ?_⟩⟩
    · rw [← List.append_assoc, ← same]
    · simp
  case neg =>
    obtain ⟨line, same, inner, ended⟩ := exists_after_end text
    rw [settled, if_neg isReturn]
    refine ⟨line, same, .line inner, fun c last => (ended c last).imp_right fun isEnd => ⟨isEnd, ?_⟩⟩
    -- If nothing was cut off, the carriage return would be the last character of all.
    rintro rfl
    rw [same, List.append_nil] at isReturn
    exact isReturn (isEnd ▸ last)

theorem settled_iff {text told : List Char} : Settled text told ↔ told = settled text := by
  constructor
  · exact fun cut => cut.settled_eq.symm
  · rintro rfl
    exact settled_settled text

/-- The lines that are not blank, each without the blanks at its ends. -/
def Entered (text : List Char) (entered : List (List Char)) : Prop :=
  ∃ each cores, Lined text each ∧ List.Forall₂ Trimmed each cores ∧ entered = cores.filter (· ≠ [])

theorem entered_iff {text : List Char} {entered : List (List Char)} :
    Entered text entered ↔ entered = ((lines text).map strip).filter (· ≠ []) := by
  constructor
  next =>
    rintro ⟨each, cores, lined, trimmed, rfl⟩
    rw [lined.lines_eq, map_strip_of_trimmed trimmed]
  next =>
    rintro rfl
    refine ⟨lines text, (lines text).map strip, lined_lines text, ?_, rfl⟩
    rw [List.forall₂_map_right_iff]
    exact List.forall₂_same.2 fun line _ => trimmed_strip line

theorem LineEnd.blank {ending rest : List Char} (ends : LineEnd ending rest) :
    ∀ c ∈ ending, isBlank c = true := by
  cases ends <;> exact List.all_eq_true.1 (by decide)

theorem Lined.mem_line {text : List Char} {each : List (List Char)} (lined : Lined text each) {c : Char}
    (inside : c ∈ text) (visible : isBlank c = false) : ∃ line ∈ each, c ∈ line := by
  induction lined with
  | nil => cases inside
  | last => exact ⟨_, List.mem_singleton_self _, inside⟩
  | @cons line ending rest more _ ends _ ih =>
    have noEnd : c ∉ ending := fun within => by simp [ends.blank c within] at visible
    simp only [List.mem_append, noEnd, false_or] at inside
    rcases inside with here | later
    · exact ⟨line, List.mem_cons_self, here⟩
    · obtain ⟨other, isLine, within⟩ := ih later
      exact ⟨other, List.mem_cons_of_mem line isLine, within⟩

theorem Entered.ne_nil {text : List Char} {entered : List (List Char)} (typed : Entered text entered)
    {c : Char} (inside : c ∈ text) (visible : isBlank c = false) : entered ≠ [] := by
  rw [entered_iff.1 typed]
  obtain ⟨line, isLine, within⟩ := (lined_lines text).mem_line inside visible
  have kept : strip line ∈ ((lines text).map strip).filter (· ≠ []) := by
    have filled := List.ne_nil_of_mem ((trimmed_strip line).mem_core within visible)
    exact List.mem_filter.2 ⟨List.mem_map_of_mem isLine, by simpa using filled⟩
  exact List.ne_nil_of_mem kept

end FormulaCalculator.Text
