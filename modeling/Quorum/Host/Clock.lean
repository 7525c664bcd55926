/-!
# Clocks

The wall clock of a host, in whole seconds since the Unix epoch. A simulated host keeps its clock
still, so that a run can be repeated exactly.
-/

namespace Quorum

/-- A wall clock reading, in seconds since the Unix epoch. -/
structure Clock where
  now : Int
  deriving DecidableEq, Repr

def Clock.simulated : Clock := ⟨1790000000⟩

end Quorum
