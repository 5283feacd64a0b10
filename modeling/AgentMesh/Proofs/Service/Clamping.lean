import AgentMesh.Clamp
import Mathlib.Algebra.Order.Ring.Int

/-!
# What clamping gives

The nearest value of the range, as a number.
-/

namespace AgentMesh

theorem clampInt32_toInt (i : Int) : (clampInt32 i).toInt = max (-2 ^ 31) (min (2 ^ 31 - 1) i) := by
  rw [clampInt32, Int32.toInt_ofInt, Int.bmod_def]
  have hsize : (Int32.size : Int) = 2 ^ 32 := rfl
  rw [hsize]
  omega

theorem clampInt64_toInt (i : Int) : (clampInt64 i).toInt = max (-2 ^ 63) (min (2 ^ 63 - 1) i) := by
  rw [clampInt64, Int64.toInt_ofInt, Int.bmod_def]
  have hsize : (Int64.size : Int) = 2 ^ 64 := rfl
  rw [hsize]
  omega

end AgentMesh
