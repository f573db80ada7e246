import LowOrbit.Error

/-!
# Congestion control algorithms

The two algorithms between which a connection chooses, and the names that select them.
-/

namespace LowOrbit

/-- A congestion control algorithm. -/
inductive Algorithm where
  /-- Halves the window on loss and grows it by one packet per round trip. -/
  | reno
  /-- Grows the window along a cubic function of the time since the last loss. -/
  | cubic
  deriving DecidableEq, Repr

namespace Algorithm

/-- The name that selects an algorithm in configurations. -/
def name : Algorithm → String
  | reno => "reno"
  | cubic => "cubic"

/-- The number by which foreign hosts know an algorithm. -/
def code : Algorithm → Nat
  | reno => 0
  | cubic => 1

/-- The algorithm of a name. Case matters. -/
def ofName (name : String) : Except Error Algorithm :=
  if name = "reno" then .ok reno
  else if name = "cubic" then .ok cubic
  else .error .unknownAlgorithm

/-- Every algorithm is found under its own name. -/
theorem ofName_name (a : Algorithm) : ofName a.name = .ok a := by
  cases a <;> simp [ofName, name]

end Algorithm

end LowOrbit
