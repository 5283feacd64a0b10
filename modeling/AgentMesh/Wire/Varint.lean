/-!
# Variable-length numbers

A number is written in groups of seven bits, the lowest first; every byte but the last has its top bit set.
Ten bytes hold 64 bits, so the tenth byte is at most one.
-/

namespace AgentMesh.Wire

abbrev Bytes := List UInt8

namespace Varint

def encode (n : Nat) : Bytes :=
  if n < 128 then [UInt8.ofNat n] else UInt8.ofNat (n % 128 + 128) :: encode (n / 128)
termination_by n
decreasing_by omega

/-- Reads a number of at most `room` bytes. The last byte that there is room for is at most one. -/
def decodeIn : Nat → Bytes → Option (Nat × Bytes)
  | 0, _ => none
  | _ + 1, [] => none
  | room + 1, b :: r =>
      if b.toNat < 128 then
        if room = 0 ∧ 1 < b.toNat then none else some (b.toNat, r)
      else do
        let (n, rest) ← decodeIn room r
        return (b.toNat - 128 + 128 * n, rest)

def decode (b : Bytes) : Option (Nat × Bytes) :=
  decodeIn 10 b

end Varint

end AgentMesh.Wire
