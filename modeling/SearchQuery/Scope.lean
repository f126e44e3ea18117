set_option autoImplicit false

/-!
# Scopes

Operands stand in the query itself or inside a field group, where no further field can be named.
-/

namespace SearchQuery

/-- Where an operand stands: in the query itself or inside a field group. -/
inductive Scope where
  | query
  | fieldGroup
deriving DecidableEq, Repr, Inhabited

end SearchQuery
