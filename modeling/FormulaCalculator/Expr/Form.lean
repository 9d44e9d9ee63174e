import FormulaCalculator.Text.Quoted

set_option autoImplicit false

namespace FormulaCalculator

inductive Form where
  | absent
  | text (value : String)
  | tuple (items : List Form)
deriving Repr, Inhabited

namespace Form

@[elab_as_elim]
theorem formInduction {motive : Form → Prop} (absent : motive absent) (text : ∀ value, motive (text value))
    (tuple : ∀ items, (∀ item ∈ items, motive item) → motive (tuple items)) (form : Form) : motive form :=
  @Form.rec motive (fun items => ∀ item ∈ items, motive item) absent text tuple
    (fun _ inside => nomatch inside) (fun _ _ head rest => List.forall_mem_cons.2 ⟨head, rest⟩) form

mutual

def same : Form → Form → Bool
  | absent, absent => true
  | text a, text b => a == b
  | tuple as, tuple bs => sames as bs
  | _, _ => false

def sames : List Form → List Form → Bool
  | [], [] => true
  | a :: as, b :: bs => same a b && sames as bs
  | _, _ => false

end

mutual

theorem same_iff : (a b : Form) → same a b = true ↔ a = b
  | absent, b => by cases b <;> simp [same]
  | text a, b => by cases b <;> simp [same]
  | tuple as, b => by cases b <;> simp [same, sames_iff as]

theorem sames_iff : (as bs : List Form) → sames as bs = true ↔ as = bs
  | [], bs => by cases bs <;> simp [sames]
  | a :: as, bs => by cases bs <;> simp [sames, same_iff a, sames_iff as]

end

instance : DecidableEq Form := fun a b => decidable_of_iff (same a b = true) (same_iff a b)

-- A tuple of one item keeps a comma.
def enclosed : List String → String
  | [item] => "(" ++ item ++ ",)"
  | items => "(" ++ ", ".intercalate items ++ ")"

mutual

def shown : Form → String
  | absent => "None"
  | text value => Text.quoted value
  | tuple items => enclosed (shownAll items)

def shownAll : List Form → List String
  | [] => []
  | item :: items => shown item :: shownAll items

end

end Form

end FormulaCalculator
