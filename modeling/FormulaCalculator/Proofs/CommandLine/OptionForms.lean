import FormulaCalculator.CommandLine.Options
import Mathlib.Data.List.Forall2
import Mathlib.Data.List.TakeWhile

set_option autoImplicit false

namespace FormulaCalculator.CommandLine

/-- A name is typed in full, or cut short so that it begins no other. -/
def Abbreviates (typed : List Char) (full : String) : Prop :=
  typed = full.toList ∨
    typed <+: full.toList ∧ ∀ other ∈ names.map Prod.fst, typed <+: other.toList → other = full

/-- Letters behind one dash, or a name behind two. -/
inductive Spells : List Char → List Flag → Prop
  | cluster {typed : List Char} {flags : List Flag} (filled : typed ≠ [])
      (each : List.Forall₂ (fun letter flag => (letter, flag) ∈ letters) typed flags) :
      Spells ('-' :: typed) flags
  | long {typed : List Char} {full : String} {flag : Flag} (named : (full, flag) ∈ names)
      (short : Abbreviates typed full) : Spells ('-' :: '-' :: typed) [flag]

inductive Options : List String → List Flag → Prop
  | nil : Options [] []
  | cons {arg : String} {args : List String} {flags more : List Flag}
      (spelled : Spells arg.toList flags) (rest : Options args more) :
      Options (arg :: args) (flags ++ more)

/-- An argument that ends the options: it has no dash in front, or is nothing but a dash. -/
def IsPlain (arg : String) : Prop := arg.toList.head? ≠ some '-' ∨ arg = "-"

def IsStrange (arg : String) : Prop :=
  ∃ c more, arg.toList = '-' :: c :: more ∧ arg ≠ "--" ∧ ∀ flags, ¬ Spells arg.toList flags

section

variable {α β : Type} [BEq α] [LawfulBEq α]

theorem lookup_eq_some_iff_mem {table : List (α × β)} (distinct : (table.map Prod.fst).Nodup) {key : α}
    {value : β} : table.lookup key = some value ↔ (key, value) ∈ table := by
  induction table with
  | nil => simp
  | cons entry table ih =>
    obtain ⟨known, found⟩ := entry
    obtain ⟨fresh, others⟩ := List.nodup_cons.1 distinct
    by_cases same : key = known
    next =>
      subst same
      have absent : (key, value) ∉ table := fun inside => fresh (List.mem_map.2 ⟨_, inside, rfl⟩)
      simp [absent, eq_comm]
    next => simp [List.lookup_cons, beq_false_of_ne same, same, ih others]

end

theorem letters_distinct : (letters.map Prod.fst).Nodup := by decide

theorem names_distinct : (names.map Prod.fst).Nodup := by decide

theorem dash_notMem_letters (flag : Flag) : ('-', flag) ∉ letters := by
  simp [letters]

theorem equals_notMem_name {full : String} {flag : Flag} (named : (full, flag) ∈ names) :
    '=' ∉ full.toList := by
  have each : ∀ entry ∈ names, '=' ∉ entry.1.toList := by decide
  exact each _ named

theorem ofLetters_eq_ok_iff {typed : List Char} {flags : List Flag} :
    ofLetters typed = .ok flags ↔
      List.Forall₂ (fun letter flag => (letter, flag) ∈ letters) typed flags := by
  induction typed generalizing flags with
  | nil => simp [ofLetters, eq_comm]
  | cons letter rest ih =>
    rw [ofLetters, List.forall₂_cons_left_iff]
    cases known : letters.lookup letter with
    | none =>
      have absent : ∀ flag, (letter, flag) ∉ letters := by
        intro flag inside
        rw [(lookup_eq_some_iff_mem letters_distinct).2 inside] at known
        cases known
      simp [absent]
    | some flag =>
      have inside := (lookup_eq_some_iff_mem letters_distinct).1 known
      constructor
      next =>
        intro read
        cases others : ofLetters rest with
        | error fault => rw [others] at read; cases read
        | ok more =>
          rw [others] at read
          cases read
          exact ⟨flag, more, inside, ih.1 others, rfl⟩
      next =>
        rintro ⟨found, more, also, each, rfl⟩
        have same : flag = found :=
          Option.some.inj (known.symm.trans ((lookup_eq_some_iff_mem letters_distinct).2 also))
        rw [ih.2 each, same]
        rfl

theorem ofName_eq_ok_iff {name full : String} {flag : Flag} :
    ofName name = .ok (full, flag) ↔ (full, flag) ∈ names ∧ Abbreviates name.toList full := by
  unfold ofName
  cases known : names.lookup name with
  | some found =>
    have inside := (lookup_eq_some_iff_mem names_distinct).1 known
    constructor
    next => rintro ⟨⟩; exact ⟨inside, .inl rfl⟩
    next =>
      rintro ⟨named, short⟩
      have whole : name = full := by
        rcases short with same | ⟨-, only⟩
        · exact String.toList_injective same
        · exact only name (List.mem_map_of_mem inside) (List.prefix_refl _)
      subst whole
      have same := known.symm.trans ((lookup_eq_some_iff_mem names_distinct).2 named)
      rw [Option.some.inj same]
  | none =>
    -- No name is typed in full, so that the names which go on from what is typed decide.
    have cut (short : Abbreviates name.toList full) (named : (full, flag) ∈ names) :
        name.toList <+: full.toList ∧
          ∀ other ∈ names.map Prod.fst, name.toList <+: other.toList → other = full := by
      apply short.resolve_left
      intro whole
      rw [String.toList_injective whole, (lookup_eq_some_iff_mem names_distinct).2 named] at known
      cases known
    generalize isFound : List.filter _ names = found
    have begun (entry : String × Flag) :
        entry ∈ found ↔ entry ∈ names ∧ name.toList <+: entry.1.toList := by simp [← isFound]
    have others : (found.map Prod.fst).Nodup := by
      rw [← isFound]
      exact names_distinct.sublist (List.filter_sublist.map Prod.fst)
    rcases found with _ | ⟨first, _ | ⟨second, more⟩⟩
    next =>
      have absent : ¬ ((full, flag) ∈ names ∧ Abbreviates name.toList full) := by
        rintro ⟨named, short⟩
        exact List.not_mem_nil ((begun (full, flag)).2 ⟨named, (cut short named).1⟩)
      simp [absent]
    next =>
      have inside := (begun first).1 List.mem_cons_self
      constructor
      next =>
        rintro ⟨⟩
        refine ⟨inside.1, .inr ⟨inside.2, ?_⟩⟩
        rintro other isName begins
        obtain ⟨also, isEntry, rfl⟩ := List.mem_map.1 isName
        rw [List.mem_singleton.1 ((begun also).2 ⟨isEntry, begins⟩)]
      next =>
        rintro ⟨named, short⟩
        rw [← List.mem_singleton.1 ((begun (full, flag)).2 ⟨named, (cut short named).1⟩)]
    next =>
      have absent : ¬ ((full, flag) ∈ names ∧ Abbreviates name.toList full) := by
        rintro ⟨named, short⟩
        have only (entry : String × Flag) (inside : entry ∈ first :: second :: more) :
            entry.1 = full := by
          obtain ⟨isEntry, begins⟩ := (begun entry).1 inside
          exact (cut short named).2 entry.1 (List.mem_map_of_mem isEntry) begins
        have same : first.1 = second.1 := by rw [only first (by simp), only second (by simp)]
        simp [same] at others
      simp [absent]

theorem ofLong_eq_ok_iff {typed : List Char} {flag : Flag} :
    ofLong typed = .ok flag ↔ ∃ full, (full, flag) ∈ names ∧ Abbreviates typed full := by
  unfold ofLong
  by_cases valued : '=' ∈ typed
  next =>
    have absent : ¬ ∃ full, (full, flag) ∈ names ∧ Abbreviates typed full := by
      rintro ⟨full, named, same | ⟨begins, -⟩⟩
      · exact equals_notMem_name named (same ▸ valued)
      · exact equals_notMem_name named (begins.subset valued)
    cases named : ofName (String.ofList (typed.takeWhile (· != '='))) <;>
      simp [absent, valued, bind, Except.bind, throw, throwThe, MonadExceptOf.throw]
  next =>
    have whole : typed.takeWhile (· != '=') = typed := by
      rw [List.takeWhile_eq_self_iff]
      intro c inside
      simpa using fun same : c = '=' => valued (same ▸ inside)
    rw [whole]
    constructor
    next =>
      intro read
      cases named : ofName (String.ofList typed) with
      | error fault => simp [named, bind, Except.bind] at read
      | ok entry =>
        obtain ⟨full, found⟩ := entry
        have same : found = flag := by
          simpa [named, valued, bind, Except.bind, pure, Except.pure] using read
        obtain ⟨isName, short⟩ := ofName_eq_ok_iff.1 named
        rw [String.toList_ofList] at short
        exact ⟨full, same ▸ isName, short⟩
    next =>
      rintro ⟨full, named, short⟩
      have read : ofName (String.ofList typed) = .ok (full, flag) := by
        rw [ofName_eq_ok_iff, String.toList_ofList]
        exact ⟨named, short⟩
      simp [read, valued, bind, Except.bind, pure, Except.pure]

theorem readOptions_mark (texts : List String) : readOptions ("--" :: texts) = .ok ([], texts) := rfl

theorem readOptions_plain {arg : String} (plain : IsPlain arg) (texts : List String) :
    readOptions (arg :: texts) = .ok ([], arg :: texts) := by
  rcases plain with bare | rfl
  next =>
    unfold readOptions
    split <;> simp_all
  next => rfl

def withFlags (flags : List Flag) (read : List Flag × List String) : List Flag × List String :=
  (flags ++ read.1, read.2)

theorem readOptions_long {arg : String} {typed : List Char} (isArg : arg.toList = '-' :: '-' :: typed)
    (filled : typed ≠ []) (texts : List String) :
    readOptions (arg :: texts) = (do
      let flag ← ofLong typed
      withFlags [flag] <$> readOptions texts) := by
  rw [readOptions, isArg]
  split
  next mark => simp_all
  next also =>
    cases also
    rfl
  next noName same =>
    cases same
    exact absurd rfl noName
  next other => simp_all

theorem readOptions_cluster {arg : String} {letter : Char} {more : List Char}
    (isArg : arg.toList = '-' :: letter :: more) (single : letter ≠ '-') (texts : List String) :
    readOptions (arg :: texts) = (do
      let flags ← ofLetters (letter :: more)
      withFlags flags <$> readOptions texts) := by
  rw [readOptions, isArg]
  split
  next mark => simp_all
  next also => simp_all
  next also =>
    cases also
    rfl
  next other => simp_all

theorem readOptions_spelled {arg : String} {flags : List Flag} (spelled : Spells arg.toList flags)
    (texts : List String) : readOptions (arg :: texts) = withFlags flags <$> readOptions texts := by
  generalize isArg : arg.toList = typed at spelled
  cases spelled with
  | @cluster typed _ filled each =>
    obtain ⟨letter, more, rfl⟩ := List.exists_cons_of_ne_nil filled
    have single : letter ≠ '-' := by
      rintro rfl
      obtain ⟨flag, -, inside, -⟩ := List.forall₂_cons_left_iff.1 each
      exact dash_notMem_letters flag inside
    rw [readOptions_cluster isArg single, ofLetters_eq_ok_iff.2 each]
    rfl
  | @long typed full flag named short =>
    have read := ofLong_eq_ok_iff.2 ⟨full, named, short⟩
    have filled : typed ≠ [] := by
      rintro rfl
      cases read
    rw [readOptions_long isArg filled, read]
    rfl

theorem readOptions_strange {arg : String} (strange : IsStrange arg) (texts : List String) :
    ∃ fault, readOptions (arg :: texts) = .error fault := by
  obtain ⟨c, more, isArg, noMark, unspelled⟩ := strange
  rw [isArg] at unspelled
  by_cases dash : c = '-'
  next =>
    subst dash
    have filled : more ≠ [] := by
      rintro rfl
      exact noMark (String.toList_injective isArg)
    cases read : ofLong more with
    | error fault => exact ⟨fault, by rw [readOptions_long isArg filled, read]; rfl⟩
    | ok flag =>
      obtain ⟨full, named, short⟩ := ofLong_eq_ok_iff.1 read
      exact absurd (.long named short) (unspelled [flag])
  next =>
    cases read : ofLetters (c :: more) with
    | error fault => exact ⟨fault, by rw [readOptions_cluster isArg dash, read]; rfl⟩
    | ok flags =>
      exact absurd (.cluster (by simp) (ofLetters_eq_ok_iff.1 read)) (unspelled flags)

theorem arg_cases (arg : String) :
    arg = "--" ∨ IsPlain arg ∨ (∃ flags, Spells arg.toList flags) ∨ IsStrange arg := by
  by_cases mark : arg = "--"
  · exact .inl mark
  by_cases spelled : ∃ flags, Spells arg.toList flags
  · exact .inr (.inr (.inl spelled))
  cases isArg : arg.toList with
  | nil => exact .inr (.inl (.inl (by simp [isArg])))
  | cons first rest =>
    by_cases dash : first = '-'
    next =>
      subst dash
      cases rest with
      | nil => exact .inr (.inl (.inr (String.toList_injective isArg)))
      | cons c more =>
        exact .inr (.inr (.inr ⟨c, more, isArg, mark, fun flags given => spelled ⟨flags, given⟩⟩))
    next => exact .inr (.inl (.inl (by simpa [isArg] using dash)))

/-- What follows a mark, or starts with no option. -/
inductive Leaves : List String → List String → Prop
  | mark (texts : List String) : Leaves ("--" :: texts) texts
  | done : Leaves [] []
  | plain {arg : String} (isPlain : IsPlain arg) (texts : List String) :
      Leaves (arg :: texts) (arg :: texts)

theorem Leaves.readOptions_eq {args texts : List String} (leaves : Leaves args texts) :
    readOptions args = .ok ([], texts) := by
  cases leaves with
  | mark => exact readOptions_mark texts
  | done => rfl
  | plain isPlain => exact readOptions_plain isPlain _

theorem Options.readOptions_append {options : List String} {flags : List Flag}
    (given : Options options flags) (rest : List String) :
    readOptions (options ++ rest) = withFlags flags <$> readOptions rest := by
  induction given with
  | nil => rw [List.nil_append]; cases readOptions rest <;> rfl
  | cons spelled _ ih =>
    rw [List.cons_append, readOptions_spelled spelled, ih]
    cases readOptions rest with
    | error fault => rfl
    | ok read => simp [withFlags, Functor.map, Except.map]

theorem Options.readOptions_eq {options args texts : List String} {flags : List Flag}
    (given : Options options flags) (leaves : Leaves args texts) :
    readOptions (options ++ args) = .ok (flags, texts) := by
  rw [given.readOptions_append, leaves.readOptions_eq]
  simp [withFlags, Functor.map, Except.map]

theorem options_iff {args : List String} {flags : List Flag} :
    Options args flags ↔ readOptions (args ++ ["--"]) = .ok (flags, []) := by
  constructor
  next =>
    intro given
    exact given.readOptions_eq (.mark [])
  next =>
    intro read
    induction args generalizing flags with
    | nil =>
      cases read
      exact .nil
    | cons arg args ih =>
      rw [List.cons_append] at read
      rcases arg_cases arg with rfl | plain | ⟨first, spelled⟩ | strange
      · rw [readOptions_mark] at read
        simp at read
      · rw [readOptions_plain plain] at read
        simp at read
      · rw [readOptions_spelled spelled] at read
        cases others : readOptions (args ++ ["--"]) with
        | error fault =>
          rw [others] at read
          cases read
        | ok found =>
          obtain ⟨more, texts⟩ := found
          rw [others] at read
          cases read
          exact .cons spelled (ih others)
      · obtain ⟨fault, failed⟩ := readOptions_strange strange (args ++ ["--"])
        rw [failed] at read
        cases read

instance (args : List String) (flags : List Flag) : Decidable (Options args flags) :=
  decidable_of_iff (readOptions (args ++ ["--"]) = .ok (flags, [])) options_iff.symm

/-- After some options comes an argument that should be one and is none. -/
def IsFaulty (args : List String) : Prop :=
  ∃ options flags arg rest, args = options ++ arg :: rest ∧ Options options flags ∧ IsStrange arg

theorem IsFaulty.cons {arg : String} {args : List String} {flags : List Flag}
    (spelled : Spells arg.toList flags) (faulty : IsFaulty args) : IsFaulty (arg :: args) := by
  obtain ⟨options, more, strange, rest, rfl, given, isStrange⟩ := faulty
  exact ⟨arg :: options, _, strange, rest, rfl, .cons spelled given, isStrange⟩

theorem options_or_faulty (args : List String) :
    (∃ options flags rest texts, args = options ++ rest ∧ Options options flags ∧ Leaves rest texts) ∨
      IsFaulty args := by
  induction args with
  | nil => exact .inl ⟨[], [], [], [], rfl, .nil, .done⟩
  | cons arg args ih =>
    rcases arg_cases arg with rfl | plain | ⟨flags, spelled⟩ | strange
    · exact .inl ⟨[], [], _, _, rfl, .nil, .mark args⟩
    · exact .inl ⟨[], [], _, _, rfl, .nil, .plain plain args⟩
    · rcases ih with ⟨options, more, rest, texts, rfl, given, leaves⟩ | faulty
      · exact .inl ⟨arg :: options, _, rest, texts, rfl, .cons spelled given, leaves⟩
      · exact .inr (faulty.cons spelled)
    · exact .inr ⟨[], [], arg, args, rfl, .nil, strange⟩

theorem readOptions_eq_error_iff {args : List String} :
    (∃ fault, readOptions args = .error fault) ↔ IsFaulty args := by
  constructor
  next =>
    rintro ⟨fault, failed⟩
    rcases options_or_faulty args with ⟨options, flags, rest, texts, rfl, given, leaves⟩ | faulty
    · rw [given.readOptions_eq leaves] at failed
      cases failed
    · exact faulty
  next =>
    rintro ⟨options, flags, arg, rest, rfl, given, strange⟩
    obtain ⟨fault, failed⟩ := readOptions_strange strange rest
    exact ⟨fault, by rw [given.readOptions_append, failed]; rfl⟩

end FormulaCalculator.CommandLine
