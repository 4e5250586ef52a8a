import Mathlib.Data.List.Basic

/-!
# Calls that may fail

Rules for computations in `Except`: how a sequence of calls runs, what is known
when it has returned, which faults it can end in, and a loop rule for `foldlM`.
-/

namespace Except

variable {Error First Second : Type}

theorem ok_bind (first : First) (next : First → Except Error Second) :
    ((.ok first : Except Error First) >>= next) = next first :=
  rfl

theorem bind_of_ok {result : Except Error First} {first : First}
    (ran : result = .ok first) (next : First → Except Error Second) :
    (result >>= next) = next first := by
  rw [ran, ok_bind]

theorem bind_eq_ok {result : Except Error First} {next : First → Except Error Second}
    {second : Second} :
    (result >>= next) = .ok second ↔
      ∃ first, result = .ok first ∧ next first = .ok second := by
  cases result with
  | error fault => simp [Bind.bind, Except.bind]
  | ok first => simp [ok_bind]

theorem toOption_eq_some_iff {result : Except Error First} {first : First} :
    result.toOption = some first ↔ result = .ok first := by
  cases result <;> simp [Except.toOption]

/-- A computation that ends in a fault that is tolerated, or returns a value with the
property. -/
def Ends (result : Except Error First) (tolerated : Error → Prop)
    (property : First → Prop) : Prop :=
  match result with
  | .error fault => tolerated fault
  | .ok value => property value

namespace Ends

variable {result : Except Error First} {tolerated : Error → Prop} {property : First → Prop}

theorem bind {next : First → Except Error Second} {property' : Second → Prop}
    (ends : result.Ends tolerated property)
    (continues : ∀ value, property value → (next value).Ends tolerated property') :
    (result >>= next).Ends tolerated property' := by
  cases result with
  | error fault => exact ends
  | ok value => exact continues value ends

theorem mono {property' : First → Prop} (ends : result.Ends tolerated property)
    (weaker : ∀ value, property value → property' value) :
    result.Ends tolerated property' := by
  cases result with
  | error fault => exact ends
  | ok value => exact weaker value ends

theorem of_ok {value : First} (ends : result.Ends tolerated property)
    (returned : result = .ok value) : property value := by
  rw [returned] at ends
  exact ends

theorem of_error {fault : Error} (ends : result.Ends tolerated property)
    (failed : result = .error fault) : tolerated fault := by
  rw [failed] at ends
  exact ends

end Ends

/-- A loop that makes progress at every item returns. -/
theorem foldlM_returns {Item State : Type} {body : State → Item → Except Error State}
    (property : List Item → State → Prop)
    (step : ∀ item rest state, property (item :: rest) state →
      ∃ after, body state item = .ok after ∧ property rest after)
    {items : List Item} {start : State} (starts : property items start) :
    ∃ final, items.foldlM body start = .ok final ∧ property [] final := by
  induction items generalizing start with
  | nil => exact ⟨start, rfl, starts⟩
  | cons item rest ih =>
      obtain ⟨after, bodyEq, next⟩ := step item rest start starts
      obtain ⟨final, folded, done⟩ := ih next
      refine ⟨final, ?_, done⟩
      rw [List.foldlM_cons, bodyEq, ok_bind, folded]

end Except

/-- `assert`. -/
def check {Error : Type} (fault : Error) (condition : Prop) [Decidable condition] :
    Except Error Unit :=
  if condition then .ok () else .error fault

theorem check_of {Error : Type} {fault : Error} {condition : Prop}
    [Decidable condition] (holds : condition) : check fault condition = .ok () :=
  if_pos holds
