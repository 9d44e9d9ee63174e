import FormulaCalculator.Proofs.Grammar.Extent

set_option autoImplicit false

namespace FormulaCalculator.Grammar

variable {α β : Type}

abbrev Steady (step : Reading α) : Prop := Sound step fun _ _ _ => True

theorem Sound.steady {step : Reading α} {meaning : List Token → α → List Token → Prop}
    (sound : Sound step meaning) : Steady step :=
  sound.weaken fun _ _ _ _ => trivial

theorem Steady.bind {step : Reading α} {next : α → Reading β} (first : Steady step)
    (after : ∀ given, Steady (next given)) : Steady (step >>= next) :=
  Sound.bind first fun given => (after given).weaken fun _ _ _ _ _ _ => trivial

theorem head?_append_congr {front tokens other : List Token} (same : other.head? = tokens.head?) :
    (front ++ other).head? = (front ++ tokens).head? := by
  cases front <;> simp [same]

theorem Steady.noted_ne {step : Reading α} {next : α → Reading β} {cursor : Cursor}
    (first : Steady step) (after : ∀ given, Steady (next given))
    (changed : (step.run.run cursor).2.noted ≠ cursor.noted) :
    ((step >>= next).run.run cursor).2.noted ≠ cursor.noted := by
  have start := first.notes cursor
  rcases run : step.run.run cursor with ⟨stop | given, mid⟩ <;> rw [run] at changed start
  next => rwa [run_bind_error run]
  next =>
    rw [run_bind_ok run]
    intro same
    have finish := (after given).notes mid
    rw [same] at finish
    -- What the first step noted would have to be gone again.
    exact changed (finish.eq_of_length_le start.length_le)

theorem Steady.clean_bind {step : Reading α} {next : α → Reading β} {tokens rest : List Token}
    {noted : List Diagnostic} {value : β} (first : Steady step) (after : ∀ given, Steady (next given))
    (run : (step >>= next).run.run ⟨tokens, noted⟩ = (.ok value, ⟨rest, noted⟩)) :
    ∃ given front back, tokens = front ++ (back ++ rest) ∧
      step.run.run ⟨tokens, noted⟩ = (.ok given, ⟨back ++ rest, noted⟩) ∧
      (next given).run.run ⟨back ++ rest, noted⟩ = (.ok value, ⟨rest, noted⟩) := by
  have passes := first.passes ⟨tokens, noted⟩
  have notes := first.notes ⟨tokens, noted⟩
  rcases start : step.run.run ⟨tokens, noted⟩ with ⟨stop | given, mid, between⟩ <;>
    rw [start] at passes notes
  next =>
    rw [run_bind_error start] at run
    cases run
  next =>
    rw [run_bind_ok start] at run
    have morePasses := (after given).passes ⟨mid, between⟩
    have moreNotes := (after given).notes ⟨mid, between⟩
    rw [run] at morePasses moreNotes
    -- Notes are only gained, and none was: there are none in between either.
    obtain rfl : between = noted := moreNotes.eq_of_length_le notes.length_le
    obtain ⟨front, rfl⟩ := passes
    obtain ⟨back, rfl⟩ := morePasses
    exact ⟨given, front, back, rfl, rfl, run⟩

def Agree (count : Nat) (step other : Reading α) : Prop :=
  ∀ cursor, cursor.rest.length ≤ count → step.run.run cursor = other.run.run cursor

namespace Agree

variable {count : Nat}

theorem refl (step : Reading α) : Agree count step step := fun _ _ => rfl

theorem zero {step other : Reading α}
    (same : ∀ noted, step.run.run ⟨[], noted⟩ = other.run.run ⟨[], noted⟩) : Agree 0 step other := by
  rintro ⟨tokens, noted⟩ room
  obtain rfl : tokens = [] := by simpa using room
  exact same noted

theorem bind {step : Reading α} {next other : α → Reading β} (steady : Steady step)
    (after : ∀ given, Agree count (next given) (other given)) :
    Agree count (step >>= next) (step >>= other) := by
  intro cursor room
  have passes := (steady.passes cursor).length_le
  rcases run : step.run.run cursor with ⟨stop | given, mid⟩ <;> rw [run] at passes
  next => rw [run_bind_error run, run_bind_error run]
  next =>
    rw [run_bind_ok run, run_bind_ok run]
    exact after given mid (Nat.le_trans passes room)

theorem first {step other : Reading α} (agree : Agree count step other) (next : α → Reading β) :
    Agree count (step >>= next) (other >>= next) := by
  intro cursor room
  rw [run_bind, run_bind, agree cursor room]

theorem advance {next other : Reading β} (after : Agree count next other) :
    Agree (count + 1) (Grammar.advance >>= fun _ => next) (Grammar.advance >>= fun _ => other) := by
  intro cursor room
  refine after { cursor with rest := cursor.rest.tail } ?_
  rw [List.length_tail]
  exact Nat.sub_le_of_le_add room

theorem takeIf {kinds : Kind → Bool} {next other : Option Token → Reading β}
    (taken : ∀ token, Agree count (next (some token)) (other (some token)))
    (left : Agree (count + 1) (next none) (other none)) :
    Agree (count + 1) (Grammar.takeIf kinds >>= next) (Grammar.takeIf kinds >>= other) := by
  unfold Grammar.takeIf
  simp only [bind_assoc]
  refine bind Sound.peek.steady fun found => ?_
  cases found with
  | none => exact left
  | some token =>
    by_cases wanted : kinds token.kind = true
    next =>
      simp only [wanted, if_true, bind_assoc, pure_bind]
      exact advance (taken token)
    next =>
      simp only [wanted, if_false, pure_bind, Bool.false_eq_true]
      exact left

end Agree

-- The loop turns no oftener than there are tokens left.
def Settled (loop : Nat → Reading α) : Prop := ∀ bound, Agree bound (loop bound) (loop (bound + 1))

theorem Settled.run_eq {loop : Nat → Reading α} (settled : Settled loop) {tokens : List Token}
    {noted : List Diagnostic} {bound : Nat} (room : tokens.length ≤ bound) :
    (loop tokens.length).run.run ⟨tokens, noted⟩ = (loop bound).run.run ⟨tokens, noted⟩ := by
  induction room with
  | refl => rfl
  | @step bound room ih => rw [ih, settled bound ⟨tokens, noted⟩ room]

theorem Settled.first {loop : Nat → Reading α} (settled : Settled loop) (next : α → Reading β) :
    Settled fun bound => loop bound >>= next :=
  fun bound => (settled bound).first next

/-- The second step has room for deeper nesting. It reads what the first reads without a note, and notes
something where that one does, `about` the tokens on both sides of the place. -/
structure Tracks (size : Nat) (starts : Option Token → Prop) (step deeper : Reading α)
    (about : Diagnostic → List Token → List Token → Prop) : Prop where
  steady : Steady step
  also : Steady deeper
  clean : ∀ used rest noted value, starts (used ++ rest).head? →
    step.run.run ⟨used ++ rest, noted⟩ = (.ok value, ⟨rest, noted⟩) →
    ∀ other others, other.head? = rest.head? →
      deeper.run.run ⟨used ++ other, others⟩ = (.ok value, ⟨other, others⟩)
  stuck : ∀ tokens noted first result rest more, starts tokens.head? →
    step.run.run ⟨tokens, noted⟩ = (result, ⟨rest, noted ++ first :: more⟩) →
    ∃ used mid, tokens = used ++ mid ∧ about first used mid ∧
      ∀ other others, other.head? = mid.head? → (used ++ other).length ≤ size →
        (deeper.run.run ⟨used ++ other, others⟩).2.noted ≠ others

def Anything : Option Token → Prop := fun _ => True

def Nothing : Diagnostic → List Token → List Token → Prop := fun _ _ _ => False

namespace Tracks

variable {size : Nat} {starts : Option Token → Prop}
  {about : Diagnostic → List Token → List Token → Prop}

theorem stuck_first {step deeper : Reading α} {follow : α → Reading β}
    {before : Diagnostic → List Token → List Token → Prop} {tokens mid : List Token}
    {noted more : List Diagnostic} {diagnostic : Diagnostic} {result : Except Stop α}
    (first : Tracks size starts step deeper before) (after : ∀ given, Steady (follow given))
    (implies : ∀ diagnostic used mid, starts (used ++ mid).head? → before diagnostic used mid →
      about diagnostic used mid)
    (start : starts tokens.head?)
    (run : step.run.run ⟨tokens, noted⟩ = (result, ⟨mid, noted ++ diagnostic :: more⟩)) :
    ∃ used mid, tokens = used ++ mid ∧ about diagnostic used mid ∧
      ∀ other others, other.head? = mid.head? → (used ++ other).length ≤ size →
        ((deeper >>= follow).run.run ⟨used ++ other, others⟩).2.noted ≠ others := by
  obtain ⟨used, mid, rfl, placed, again⟩ := first.stuck _ _ _ _ _ _ start run
  refine ⟨used, mid, rfl, implies _ _ _ start placed, fun other others same room => ?_⟩
  exact first.also.noted_ne after (again other others same room)

theorem bindFrom {step deeper : Reading α} {next follow : α → Reading β}
    {meaning : List Token → α → List Token → Prop} {begins : α → Option Token → Prop}
    {before : Diagnostic → List Token → List Token → Prop}
    (first : Tracks size starts step deeper before) (sound : Sound step meaning)
    (implies : ∀ diagnostic used mid, starts (used ++ mid).head? → before diagnostic used mid →
      about diagnostic used mid)
    (ready : ∀ front given rest, starts (front ++ rest).head? → meaning (front ++ rest) given rest →
      begins given rest.head?)
    (after : ∀ given, Tracks size (begins given) (next given) (follow given) fun diagnostic used mid =>
      ∀ front, starts (front ++ (used ++ mid)).head? →
        meaning (front ++ (used ++ mid)) given (used ++ mid) → about diagnostic (front ++ used) mid) :
    Tracks size starts (step >>= next) (deeper >>= follow) about where
  steady := first.steady.bind fun given => (after given).steady
  also := first.also.bind fun given => (after given).also
  clean := by
    intro used rest noted value start run other others same
    obtain ⟨given, front, back, split, one, two⟩ :=
      first.steady.clean_bind (fun given => (after given).steady) run
    rw [← List.append_assoc] at split
    obtain rfl : used = front ++ back := List.append_cancel_right split
    rw [List.append_assoc] at start one ⊢
    have begun := ready front given (back ++ rest) start (sound.means _ _ _ _ one)
    have oneAgain := first.clean front (back ++ rest) noted given start one (back ++ other) others
      (head?_append_congr same)
    rw [run_bind_ok oneAgain]
    exact (after given).clean back rest noted value begun two other others same
  stuck := by
    intro tokens noted diagnostic result rest more start run
    have late (given : α) : Steady (follow given) := (after given).also
    have passes := first.steady.passes ⟨tokens, noted⟩
    have notes := first.steady.notes ⟨tokens, noted⟩
    rcases one : step.run.run ⟨tokens, noted⟩ with ⟨stop | given, mid, between⟩ <;>
      rw [one] at passes notes <;> dsimp only at passes notes
    next =>
      rw [run_bind_error one] at run
      cases run
      exact first.stuck_first late implies start one
    next =>
      rw [run_bind_ok one] at run
      have moreNotes := (after given).steady.notes ⟨mid, between⟩
      rw [run] at moreNotes
      dsimp only at moreNotes
      obtain ⟨gained, rfl⟩ := notes
      have begins : gained <+: diagnostic :: more := (List.prefix_append_right_inj noted).1 moreNotes
      cases gained with
      | cons found gained =>
        obtain ⟨rfl, -⟩ := List.cons_prefix_cons.1 begins
        exact first.stuck_first late implies start one
      | nil =>
        -- The first step noted nothing, so the note is that of the second.
        rw [List.append_nil] at one run
        obtain ⟨front, rfl⟩ := passes
        have means := sound.means _ _ _ _ one
        obtain ⟨used, mid, rfl, placed, again⟩ :=
          (after given).stuck _ _ _ _ _ _ (ready front given _ start means) run
        refine ⟨front ++ used, mid, by simp, placed front start means, ?_⟩
        intro other others same room
        have oneAgain := first.clean front (used ++ mid) noted given start one (used ++ other) others
          (head?_append_congr same)
        rw [List.append_assoc, List.length_append] at room
        rw [List.append_assoc, run_bind_ok oneAgain]
        exact again other others same (by omega)

theorem bind {step deeper : Reading α} {next follow : α → Reading β}
    {meaning : List Token → α → List Token → Prop}
    {before : Diagnostic → List Token → List Token → Prop}
    (first : Tracks size starts step deeper before) (sound : Sound step meaning)
    (implies : ∀ diagnostic used mid, starts (used ++ mid).head? → before diagnostic used mid →
      about diagnostic used mid)
    (after : ∀ given, Tracks size Anything (next given) (follow given) fun diagnostic used mid =>
      ∀ front, starts (front ++ (used ++ mid)).head? →
        meaning (front ++ (used ++ mid)) given (used ++ mid) → about diagnostic (front ++ used) mid) :
    Tracks size starts (step >>= next) (deeper >>= follow) about :=
  first.bindFrom sound implies (fun _ _ _ _ _ => trivial) after

theorem weaken {step deeper : Reading α} {before : Diagnostic → List Token → List Token → Prop}
    (tracks : Tracks size starts step deeper before)
    (implies : ∀ diagnostic used mid, before diagnostic used mid → about diagnostic used mid) :
    Tracks size starts step deeper about where
  steady := tracks.steady
  also := tracks.also
  clean := tracks.clean
  stuck := by
    intro tokens noted first result rest more start run
    obtain ⟨used, mid, split, placed, again⟩ := tracks.stuck _ _ _ _ _ _ start run
    exact ⟨used, mid, split, implies _ _ _ placed, again⟩

theorem narrow {step deeper : Reading α} {narrower : Option Token → Prop}
    (tracks : Tracks size starts step deeper about) (within : ∀ next, narrower next → starts next) :
    Tracks size narrower step deeper about where
  steady := tracks.steady
  also := tracks.also
  clean used rest noted value start := tracks.clean used rest noted value (within _ start)
  stuck tokens noted first result rest more start :=
    tracks.stuck tokens noted first result rest more (within _ start)

theorem unstarted {step deeper : Reading α} (steady : Steady step) (also : Steady deeper)
    (never : ∀ next, ¬ starts next) : Tracks size starts step deeper about where
  steady := steady
  also := also
  clean _ _ _ _ start := (never _ start).elim
  stuck _ _ _ _ _ _ start := (never _ start).elim

theorem silent {step deeper : Reading α} (steady : Steady step) (also : Steady deeper)
    (quiet : ∀ cursor, (step.run.run cursor).2.noted = cursor.noted)
    (clean : ∀ used rest noted value, step.run.run ⟨used ++ rest, noted⟩ = (.ok value, ⟨rest, noted⟩) →
      ∀ other others, other.head? = rest.head? →
        deeper.run.run ⟨used ++ other, others⟩ = (.ok value, ⟨other, others⟩)) :
    Tracks size starts step deeper about where
  steady := steady
  also := also
  clean used rest noted value _ := clean used rest noted value
  stuck := by
    intro tokens noted first result rest more _ run
    -- There is no first note that a step without notes could come upon.
    have same := quiet ⟨tokens, noted⟩
    rw [run] at same
    simp at same

theorem pure (value : α) : Tracks size starts (pure value : Reading α) (pure value) about := by
  refine silent (.pure fun _ => trivial) (.pure fun _ => trivial) (fun _ => rfl) ?_
  intro used rest noted given run other others same
  obtain rfl : value = given :=
    Except.ok.inj (congrArg (fun result : Except Stop α × Cursor => result.1) run)
  have split : used ++ rest = rest :=
    congrArg (fun result : Except Stop α × Cursor => result.2.rest) run
  obtain rfl : used = [] := by simpa using split
  rfl

theorem throw (stop : Stop) {deeper : Reading α} (also : Steady deeper) :
    Tracks size starts (throw stop : Reading α) deeper about := by
  refine silent (.throw _ _) also (fun _ => rfl) ?_
  intro used rest noted given run
  cases run

theorem peek : Tracks size starts peek peek about := by
  refine silent Sound.peek.steady Sound.peek.steady (fun _ => rfl) ?_
  intro used rest noted given run other others same
  obtain rfl : (used ++ rest).head? = given :=
    Except.ok.inj (congrArg (fun result : Except Stop (Option Token) × Cursor => result.1) run)
  have split : used ++ rest = rest :=
    congrArg (fun result : Except Stop (Option Token) × Cursor => result.2.rest) run
  obtain rfl : used = [] := by simpa using split
  exact congrArg (fun head => (Except.ok head, (⟨other, others⟩ : Cursor))) same

theorem advance : Tracks size starts advance advance about := by
  refine silent Sound.advance.steady Sound.advance.steady (fun _ => rfl) ?_
  intro used rest noted given run other others same
  have split : (used ++ rest).tail = rest :=
    congrArg (fun result : Except Stop Unit × Cursor => result.2.rest) run
  have after : (used ++ other).tail = other := by
    cases used with
    | nil => cases rest <;> simp_all
    | cons token used =>
      obtain rfl : used = [] := by simpa using split
      rfl
  exact congrArg (fun rest => (Except.ok (), (⟨rest, others⟩ : Cursor))) after

theorem noteThen {problem : Problem} {token : Option Token} {next follow : Reading α}
    (steady : Steady next) (also : Steady follow)
    (placed : ∀ tokens, starts tokens.head? → about ⟨problem, token⟩ [] tokens) :
    Tracks size starts (note problem token >>= fun _ => next) (note problem token >>= fun _ => follow)
      about where
  steady := Steady.bind (Sound.note problem token fun _ _ _ => True) fun _ => steady
  also := Steady.bind (Sound.note problem token fun _ _ _ => True) fun _ => also
  clean := by
    intro used rest noted value _ run
    -- The note is still there at the end, so the step did not read without one.
    have longer := steady.notes ⟨used ++ rest, noted ++ [⟨problem, token⟩]⟩
    change next.run.run ⟨used ++ rest, noted ++ [⟨problem, token⟩]⟩ = _ at run
    rw [run] at longer
    have short := longer.length_le
    simp only [List.length_append, List.length_cons, List.length_nil] at short
    omega
  stuck := by
    intro tokens noted first result rest more start run
    have longer := steady.notes ⟨tokens, noted ++ [⟨problem, token⟩]⟩
    change next.run.run ⟨tokens, noted ++ [⟨problem, token⟩]⟩ = _ at run
    rw [run] at longer
    obtain ⟨rfl, -⟩ := List.cons_prefix_cons.1 ((List.prefix_append_right_inj noted).1 longer)
    refine ⟨[], tokens, rfl, placed tokens start, ?_⟩
    intro other others _ _ same
    have again := also.notes ⟨other, others ++ [⟨problem, token⟩]⟩
    change (follow.run.run ⟨other, others ++ [⟨problem, token⟩]⟩).2.noted = others at same
    rw [same] at again
    have short := again.length_le
    simp only [List.length_append, List.length_cons, List.length_nil] at short
    omega

theorem map {step deeper : Reading α} (change : α → β) (tracks : Tracks size starts step deeper about) :
    Tracks size starts (change <$> step) (change <$> deeper) about := by
  rw [map_eq_pure_bind, map_eq_pure_bind]
  exact tracks.bind tracks.steady (fun _ _ _ _ placed => placed) fun value => .pure (change value)

theorem bindSilent {step deeper : Reading α} {next follow : α → Reading β}
    {meaning : List Token → α → List Token → Prop} (begins : α → Option Token → Prop)
    (first : Tracks size starts step deeper Nothing) (sound : Sound step meaning)
    (ready : ∀ front given rest, starts (front ++ rest).head? → meaning (front ++ rest) given rest →
      begins given rest.head?)
    (after : ∀ given, Tracks size (begins given) (next given) (follow given) fun diagnostic used mid =>
      ∀ front, starts (front ++ (used ++ mid)).head? →
        meaning (front ++ (used ++ mid)) given (used ++ mid) → about diagnostic (front ++ used) mid) :
    Tracks size starts (step >>= next) (deeper >>= follow) about :=
  first.bindFrom sound (fun _ _ _ _ never => never.elim) ready after

theorem bindPeek {next follow : Option Token → Reading β}
    (after : ∀ given,
      Tracks size (fun next => next = given ∧ starts next) (next given) (follow given) about) :
    Tracks size starts (Grammar.peek >>= next) (Grammar.peek >>= follow) about := by
  refine peek.bindSilent (fun given next => next = given ∧ starts next) Sound.peek ?_ fun given => ?_
  case refine_1 =>
    rintro front given rest start ⟨rfl, same⟩
    obtain rfl : front = [] := by simpa using same
    exact ⟨rfl, start⟩
  case refine_2 =>
    refine (after given).weaken ?_
    rintro diagnostic used mid placed front - ⟨-, same⟩
    obtain rfl : front = [] := by simpa using same
    exact placed

theorem bindIsNext {kinds : Kind → Bool} {next follow : Bool → Reading β}
    (after : ∀ given, Tracks size (fun next => next.any (kinds ·.kind) = given ∧ starts next)
      (next given) (follow given) about) :
    Tracks size starts (isNext kinds >>= next) (isNext kinds >>= follow) about := by
  have unfolded (next : Bool → Reading β) :
      isNext kinds >>= next = Grammar.peek >>= fun found => next (found.any (kinds ·.kind)) := by
    simp only [isNext, bind_assoc, pure_bind]
  rw [unfolded, unfolded]
  refine bindPeek fun found => (after _).narrow ?_
  rintro next ⟨rfl, start⟩
  exact ⟨rfl, start⟩

theorem bindAdvance {token : Token} {next follow : Reading β}
    (first : ∀ next, starts next → next = some token)
    (after : Tracks size Anything next follow fun diagnostic used mid =>
      about diagnostic (token :: used) mid) :
    Tracks size starts (Grammar.advance >>= fun _ => next) (Grammar.advance >>= fun _ => follow)
      about := by
  refine advance.bindSilent (fun _ => Anything) Sound.advance (fun _ _ _ _ _ => trivial) fun _ => ?_
  refine after.weaken fun diagnostic used mid placed front start tail => ?_
  have taken := Sound.taken (first _ start).symm tail
  obtain rfl : front = [token] := List.append_cancel_right taken
  exact placed

theorem bindTakeIf {kinds : Kind → Bool} {next follow : Option Token → Reading β}
    (taken : ∀ token, kinds token.kind = true →
      Tracks size Anything (next (some token)) (follow (some token)) fun diagnostic used mid =>
        about diagnostic (token :: used) mid)
    (left : Tracks size (fun next => next.all (!kinds ·.kind) = true ∧ starts next) (next none)
      (follow none) about) :
    Tracks size starts (takeIf kinds >>= next) (takeIf kinds >>= follow) about := by
  unfold takeIf
  simp only [bind_assoc]
  refine bindPeek fun found => ?_
  cases found with
  | none =>
    simp only [pure_bind]
    refine left.narrow ?_
    rintro next ⟨rfl, start⟩
    exact ⟨rfl, start⟩
  | some token =>
    by_cases wanted : kinds token.kind = true
    next =>
      simp only [wanted, if_true, bind_assoc, pure_bind]
      exact bindAdvance (fun _ start => start.1) (taken token wanted)
    next =>
      simp only [wanted, if_false, pure_bind, Bool.false_eq_true]
      refine left.narrow ?_
      rintro next ⟨rfl, start⟩
      exact ⟨by simpa using wanted, start⟩

def sample (kind : Kind) : Token := ⟨kind, "", none⟩

theorem bindRequire {kind : Kind} {next follow : Reading β}
    (blocked : ∀ problem tokens, starts tokens.head? → (∀ token ∈ tokens.head?, token.kind ≠ kind) →
      about ⟨problem, tokens.head?⟩ [] tokens)
    (after : ∀ token : Token, token.kind = kind →
      Tracks size Anything next follow fun diagnostic used mid => about diagnostic (token :: used) mid) :
    Tracks size starts (require kind >>= fun _ => next) (require kind >>= fun _ => follow) about := by
  have steady := (after (sample kind) rfl).steady
  have also := (after (sample kind) rfl).also
  change Tracks size starts ((fun _ => ()) <$> consume (some kind) >>= fun _ => next)
    ((fun _ => ()) <$> consume (some kind) >>= fun _ => follow) about
  simp only [consume, map_eq_pure_bind, bind_assoc, pure_bind]
  refine bindPeek fun found => ?_
  cases found with
  | none =>
    refine noteThen (by simpa using steady) (by simpa using also) ?_
    rintro tokens ⟨ended, start⟩
    have placed := blocked (.ended (.token kind)) tokens start (by simp [ended])
    rwa [ended] at placed
  | some token =>
    by_cases same : token.kind = kind
    next =>
      simp only [same, if_true, bind_assoc, pure_bind]
      exact bindAdvance (fun _ start => start.1) (after token same)
    next =>
      simp only [same, if_false, bind_assoc, pure_bind]
      refine noteThen steady also ?_
      rintro tokens ⟨first, start⟩
      have placed := blocked (.mismatch kind token.kind) tokens start (by simp [first, same])
      rwa [first] at placed

theorem bindRemaining {loop follow : Nat → Reading β} (settled : Settled loop) (also : Settled follow)
    (each : ∀ bound, Tracks size starts (loop bound) (follow bound) about) :
    Tracks size starts (remaining >>= loop) (remaining >>= follow) about where
  steady := Sound.remaining.steady.bind fun bound => (each bound).steady
  also := Sound.remaining.steady.bind fun bound => (each bound).also
  clean := by
    intro used rest noted value start run other others same
    change (loop (used ++ rest).length).run.run ⟨used ++ rest, noted⟩ = _ at run
    change (follow (used ++ other).length).run.run ⟨used ++ other, others⟩ = _
    rw [settled.run_eq (Nat.le_max_left _ (used ++ other).length)] at run
    rw [also.run_eq (Nat.le_max_right (used ++ rest).length _)]
    exact (each _).clean used rest noted value start run other others same
  stuck := by
    intro tokens noted first result rest more start run
    change (loop tokens.length).run.run ⟨tokens, noted⟩ = _ at run
    rw [settled.run_eq (Nat.le_max_left _ size)] at run
    obtain ⟨used, mid, split, placed, again⟩ := (each _).stuck _ _ _ _ _ _ start run
    refine ⟨used, mid, split, placed, fun other others same room => ?_⟩
    change ((follow (used ++ other).length).run.run ⟨used ++ other, others⟩).2.noted ≠ _
    rw [also.run_eq (Nat.le_trans room (Nat.le_max_right tokens.length size))]
    exact again other others same room

end Tracks

end FormulaCalculator.Grammar
