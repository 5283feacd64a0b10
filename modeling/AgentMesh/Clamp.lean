/-!
# Clamping to fixed-width integers

An exact integer that leaves the range of its type is replaced by the nearest value in range.
-/

namespace AgentMesh

def clampInt32 (i : Int) : Int32 :=
  Int32.ofInt (max (-2147483648) (min 2147483647 i))

def clampInt64 (i : Int) : Int64 :=
  Int64.ofInt (max (-9223372036854775808) (min 9223372036854775807 i))

end AgentMesh
