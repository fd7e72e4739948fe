set_option autoImplicit false

namespace EdmQuery.Logic

/-- False decides whatever the other operand is. -/
def and : Option Bool → Option Bool → Option Bool
  | some false, _ | _, some false => some false
  | some true, some true => some true
  | _, _ => none

/-- True decides whatever the other operand is. -/
def or : Option Bool → Option Bool → Option Bool
  | some true, _ | _, some true => some true
  | some false, some false => some false
  | _, _ => none

def not (operand : Option Bool) : Option Bool := operand.map (!·)

theorem and_comm (x y : Option Bool) : and x y = and y x := by
  rcases x with _ | (_ | _) <;> rcases y with _ | (_ | _) <;> rfl

theorem or_comm (x y : Option Bool) : or x y = or y x := by
  rcases x with _ | (_ | _) <;> rcases y with _ | (_ | _) <;> rfl

theorem not_and (x y : Option Bool) : not (and x y) = or (not x) (not y) := by
  rcases x with _ | (_ | _) <;> rcases y with _ | (_ | _) <;> rfl

theorem not_or (x y : Option Bool) : not (or x y) = and (not x) (not y) := by
  rcases x with _ | (_ | _) <;> rcases y with _ | (_ | _) <;> rfl

end EdmQuery.Logic
