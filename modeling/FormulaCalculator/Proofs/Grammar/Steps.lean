import FormulaCalculator.Grammar.Reading

set_option autoImplicit false

namespace FormulaCalculator.Grammar

variable {α β : Type}

theorem run_bind_ok {step : Reading α} {next : α → Reading β} {cursor mid : Cursor} {value : α}
    (run : step.run.run cursor = (.ok value, mid)) :
    (step >>= next).run.run cursor = (next value).run.run mid := by
  rw [run_bind, run]

theorem run_bind_error {step : Reading α} {next : α → Reading β} {cursor mid : Cursor} {stop : Stop}
    (run : step.run.run cursor = (.error stop, mid)) :
    (step >>= next).run.run cursor = (.error stop, mid) := by
  rw [run_bind, run]

/-- Tokens are passed over at the front and notes made at the end. `meaning` holds where none is made. -/
structure Sound (step : Reading α) (meaning : List Token → α → List Token → Prop) : Prop where
  passes : ∀ cursor, (step.run.run cursor).2.rest <:+ cursor.rest
  notes : ∀ cursor, cursor.noted <+: (step.run.run cursor).2.noted
  means : ∀ tokens noted value rest, step.run.run ⟨tokens, noted⟩ = (.ok value, ⟨rest, noted⟩) →
    meaning tokens value rest

namespace Sound

theorem weaken {step : Reading α} {strong weak : List Token → α → List Token → Prop}
    (sound : Sound step strong)
    (implies : ∀ tokens value rest, strong tokens value rest → weak tokens value rest) :
    Sound step weak :=
  ⟨sound.passes, sound.notes, fun tokens noted value rest run =>
    implies tokens value rest (sound.means tokens noted value rest run)⟩

theorem bind {step : Reading α} {next : α → Reading β}
    {first : List Token → α → List Token → Prop} {meaning : List Token → β → List Token → Prop}
    (sound : Sound step first)
    (after : ∀ given, Sound (next given) fun mid value rest =>
      ∀ tokens, first tokens given mid → meaning tokens value rest) :
    Sound (step >>= next) meaning := by
  constructor
  case passes =>
    intro cursor
    have start := sound.passes cursor
    rcases run : step.run.run cursor with ⟨stop | given, mid⟩ <;> rw [run] at start
    next => rwa [run_bind_error run]
    next =>
      rw [run_bind_ok run]
      exact ((after given).passes mid).trans start
  case notes =>
    intro cursor
    have start := sound.notes cursor
    rcases run : step.run.run cursor with ⟨stop | given, mid⟩ <;> rw [run] at start
    next => rwa [run_bind_error run]
    next =>
      rw [run_bind_ok run]
      exact start.trans ((after given).notes mid)
  case means =>
    intro tokens noted value rest reads
    have start := sound.notes ⟨tokens, noted⟩
    rcases run : step.run.run ⟨tokens, noted⟩ with ⟨stop | given, mid, between⟩ <;> rw [run] at start
    next =>
      rw [run_bind_error run] at reads
      cases reads
    next =>
      rw [run_bind_ok run] at reads
      have finish := (after given).notes ⟨mid, between⟩
      rw [reads] at finish
      -- What the second step starts from lies between two equal lists of notes.
      have same : between = noted := finish.eq_of_length_le start.length_le
      subst same
      exact (after given).means _ _ _ _ reads tokens (sound.means _ _ _ _ run)

theorem pure {value : α} {meaning : List Token → α → List Token → Prop}
    (holds : ∀ tokens, meaning tokens value tokens) : Sound (pure value : Reading α) meaning := by
  constructor
  case passes => exact fun cursor => List.suffix_refl cursor.rest
  case notes => exact fun cursor => List.prefix_refl cursor.noted
  case means =>
    intro tokens noted given rest run
    cases run
    exact holds tokens

theorem throw (stop : Stop) (meaning : List Token → α → List Token → Prop) :
    Sound (throw stop : Reading α) meaning := by
  constructor
  case passes => exact fun cursor => List.suffix_refl cursor.rest
  case notes => exact fun cursor => List.prefix_refl cursor.noted
  case means =>
    intro tokens noted given rest run
    cases run

theorem peek : Sound peek fun tokens given rest => given = tokens.head? ∧ rest = tokens := by
  constructor
  case passes => exact fun cursor => List.suffix_refl cursor.rest
  case notes => exact fun cursor => List.prefix_refl cursor.noted
  case means =>
    intro tokens noted given rest run
    cases run
    exact ⟨rfl, rfl⟩

theorem advance : Sound advance fun tokens _ rest => rest = tokens.tail := by
  constructor
  case passes => exact fun cursor => List.tail_suffix cursor.rest
  case notes => exact fun cursor => List.prefix_refl cursor.noted
  case means =>
    intro tokens noted given rest run
    cases run
    rfl

theorem note (problem : Problem) (token : Option Token)
    (meaning : List Token → Unit → List Token → Prop) : Sound (note problem token) meaning := by
  constructor
  case passes => exact fun cursor => List.suffix_refl cursor.rest
  case notes => exact fun cursor => List.prefix_append cursor.noted _
  case means =>
    intro tokens noted given rest run
    have longer : noted ++ [⟨problem, token⟩] = noted :=
      congrArg (fun result : Except Stop Unit × Cursor => result.2.noted) run
    simp at longer

theorem noteThen {problem : Problem} {token : Option Token} {next : Reading β}
    {meaning : List Token → β → List Token → Prop} (after : Sound next fun _ _ _ => True) :
    Sound (Grammar.note problem token >>= fun _ => next) meaning := by
  refine (note problem token fun _ _ _ => False).bind fun _ => ?_
  exact after.weaken fun _ _ _ _ _ absurd => absurd.elim

theorem remaining :
    Sound remaining fun tokens given rest => given = tokens.length ∧ rest = tokens := by
  constructor
  case passes => exact fun cursor => List.suffix_refl cursor.rest
  case notes => exact fun cursor => List.prefix_refl cursor.noted
  case means =>
    intro tokens noted given rest run
    cases run
    exact ⟨rfl, rfl⟩

theorem isNext (kinds : Kind → Bool) :
    Sound (isNext kinds) fun tokens given rest =>
      given = tokens.head?.any (kinds ·.kind) ∧ rest = tokens := by
  refine peek.bind fun found => ?_
  refine .pure fun tokens => ?_
  rintro before ⟨rfl, rfl⟩
  exact ⟨rfl, rfl⟩

theorem taken {token : Token} {tokens rest : List Token} (found : some token = tokens.head?)
    (after : rest = tokens.tail) : tokens = token :: rest := by
  cases tokens with
  | nil => cases found
  | cons first more => simp_all

theorem takeIf (kinds : Kind → Bool) :
    Sound (takeIf kinds) fun tokens given rest =>
      match given with
      | some token => kinds token.kind = true ∧ tokens = token :: rest
      | none => rest = tokens ∧ tokens.head?.all (!kinds ·.kind) := by
  refine peek.bind fun found => ?_
  cases found with
  | none =>
    refine .pure fun tokens => ?_
    rintro before ⟨isEnd, rfl⟩
    exact ⟨rfl, by simp [← isEnd]⟩
  | some token =>
    by_cases wanted : kinds token.kind = true
    next =>
      simp only [wanted, if_true]
      refine advance.bind fun _ => .pure fun rest => ?_
      rintro mid after before ⟨found, rfl⟩
      exact ⟨wanted, taken found after⟩
    next =>
      simp only [wanted]
      refine .pure fun tokens => ?_
      rintro before ⟨found, rfl⟩
      exact ⟨rfl, by simp [← found, wanted]⟩

theorem consume (wanted : Option Kind) :
    Sound (consume wanted) fun tokens given rest =>
      ∃ token, (∀ kind ∈ wanted, token.kind = kind) ∧ given = some token ∧ tokens = token :: rest := by
  refine peek.bind fun found => ?_
  have stays : Sound (Pure.pure none : Reading (Option Token)) fun _ _ _ => True :=
    .pure fun _ => trivial
  have goes (token : Token) (fits : ∀ kind ∈ wanted, token.kind = kind) :
      Sound (Grammar.advance >>= fun _ => Pure.pure (some token)) fun mid given rest =>
        ∀ tokens, some token = tokens.head? ∧ mid = tokens →
          ∃ token, (∀ kind ∈ wanted, token.kind = kind) ∧ given = some token ∧
            tokens = token :: rest := by
    refine advance.bind fun _ => .pure fun rest => ?_
    rintro mid after before ⟨found, rfl⟩
    exact ⟨token, fits, rfl, taken found after⟩
  cases found with
  | none => cases wanted <;> exact noteThen stays
  | some token =>
    cases wanted with
    | none => exact goes token (by simp)
    | some kind =>
      by_cases same : token.kind = kind
      next =>
        simp only [same, if_true]
        exact goes token (by simp [same])
      next =>
        simp only [same, if_false]
        exact noteThen stays

theorem map {step : Reading α} {first : List Token → α → List Token → Prop} (change : α → β)
    {meaning : List Token → β → List Token → Prop} (sound : Sound step first)
    (implies : ∀ tokens value rest, first tokens value rest → meaning tokens (change value) rest) :
    Sound (change <$> step) meaning := by
  rw [map_eq_pure_bind]
  exact sound.bind fun value => .pure fun rest tokens holds => implies tokens value rest holds

theorem require (kind : Kind) :
    Sound (require kind) fun tokens _ rest => ∃ token, token.kind = kind ∧ tokens = token :: rest := by
  refine (consume (some kind)).map (fun _ => ()) ?_
  rintro tokens given rest ⟨token, fits, -, same⟩
  exact ⟨token, fits kind rfl, same⟩

end Sound

-- The tokens before `rest` are taken without a note, unless the step stops with the excuse for it.
def Meets (excuse : Prop) (step : Reading α) (tokens : List Token) (value : α)
    (rest : List Token) : Prop :=
  ∀ noted, step.run.run ⟨tokens, noted⟩ = (.ok value, ⟨rest, noted⟩) ∨
    excuse ∧ ∃ stop after, step.run.run ⟨tokens, noted⟩ = (.error stop, after)

namespace Meets

variable {excuse : Prop}

theorem weaken {other : Prop} {step : Reading α} {tokens rest : List Token} {value : α}
    (meets : Meets excuse step tokens value rest) (implies : excuse → other) :
    Meets other step tokens value rest := by
  intro noted
  exact (meets noted).imp id fun ⟨excused, stops⟩ => ⟨implies excused, stops⟩

theorem bind {step : Reading α} {next : α → Reading β} {tokens mid rest : List Token} {given : α}
    {value : β} (first : Meets excuse step tokens given mid)
    (second : Meets excuse (next given) mid value rest) :
    Meets excuse (step >>= next) tokens value rest := by
  intro noted
  rcases first noted with run | ⟨excused, stop, after, run⟩
  next =>
    rw [run_bind_ok run]
    exact second noted
  next =>
    rw [run_bind_error run]
    exact .inr ⟨excused, stop, after, rfl⟩

theorem map {step : Reading α} (change : α → β) {tokens rest : List Token} {value : α}
    (meets : Meets excuse step tokens value rest) :
    Meets excuse (change <$> step) tokens (change value) rest := by
  rw [map_eq_pure_bind]
  exact meets.bind fun noted => .inl rfl

theorem pure {value : α} {tokens : List Token} :
    Meets excuse (pure value : Reading α) tokens value tokens :=
  fun _ => .inl rfl

theorem throw (excused : excuse) (stop : Stop) (tokens rest : List Token) (value : α) :
    Meets excuse (throw stop : Reading α) tokens value rest :=
  fun noted => .inr ⟨excused, stop, ⟨tokens, noted⟩, rfl⟩

theorem peek (tokens : List Token) : Meets excuse peek tokens tokens.head? tokens :=
  fun _ => .inl rfl

theorem advance (tokens : List Token) : Meets excuse advance tokens () tokens.tail :=
  fun _ => .inl rfl

theorem remaining (tokens : List Token) : Meets excuse remaining tokens tokens.length tokens :=
  fun _ => .inl rfl

theorem isNext (kinds : Kind → Bool) (tokens : List Token) :
    Meets excuse (isNext kinds) tokens (tokens.head?.any (kinds ·.kind)) tokens :=
  fun _ => .inl rfl

theorem takeIf_some {kinds : Kind → Bool} {token : Token} (wanted : kinds token.kind = true)
    (rest : List Token) : Meets excuse (takeIf kinds) (token :: rest) (some token) rest := by
  refine (peek (token :: rest)).bind ?_
  simp only [List.head?_cons, wanted, if_true]
  exact (advance (token :: rest)).bind pure

theorem takeIf_none {kinds : Kind → Bool} {tokens : List Token}
    (unwanted : ∀ token ∈ tokens.head?, kinds token.kind = false) :
    Meets excuse (takeIf kinds) tokens none tokens := by
  refine (peek tokens).bind ?_
  cases tokens with
  | nil => exact pure
  | cons token rest =>
    have refused := unwanted token rfl
    simp only [List.head?_cons, refused]
    exact pure

theorem consume {token : Token} (wanted : Option Kind)
    (fits : ∀ kind ∈ wanted, token.kind = kind) (rest : List Token) :
    Meets excuse (consume wanted) (token :: rest) (some token) rest := by
  refine (peek (token :: rest)).bind ?_
  have goes : Meets excuse (Grammar.advance >>= fun _ => Pure.pure (some token)) (token :: rest)
      (some token) rest := (advance (token :: rest)).bind pure
  cases wanted with
  | none => exact goes
  | some kind => simpa [fits kind rfl] using goes

theorem require {token : Token} {kind : Kind} (same : token.kind = kind) (rest : List Token) :
    Meets excuse (require kind) (token :: rest) () rest :=
  (consume (some kind) (by simp [same]) rest).map fun _ => ()

end Meets

end FormulaCalculator.Grammar
