import AgentMesh.Net.Ip

/-!
# Socket addresses

An internet address with a port, written `a.b.c.d:port` or `[groups%scope]:port`. A scope of zero is
not written.
-/

namespace AgentMesh.Net

inductive SocketAddr
  | v4 (ip : Ipv4) (port : UInt16)
  | v6 (ip : Ipv6) (scope : UInt32) (port : UInt16)
deriving Repr, DecidableEq, Inhabited

namespace SocketAddr

def ip : SocketAddr → Ip
  | v4 ip _ => .v4 ip
  | v6 ip _ _ => .v6 ip

def port : SocketAddr → UInt16
  | v4 _ port => port
  | v6 _ _ port => port

def ofIp (ip : Ip) (port : UInt16) : SocketAddr :=
  match ip with
  | .v4 ip => v4 ip port
  | .v6 ip => v6 ip 0 port

def text : SocketAddr → String
  | v4 ip port => ip.text ++ ":" ++ toString port.toNat
  | v6 ip scope port =>
      let zone := if scope = 0 then "" else "%" ++ toString scope.toNat
      "[" ++ ip.text ++ zone ++ "]:" ++ toString port.toNat

/-- A colon and a port of any number of digits. -/
def readPort : Reader UInt16 := fun s => do
  let (n, rest) ← readNumber Text.digit? 10 s.length 65536 true (← readChar ':' s)
  return (UInt16.ofNat n, rest)

def readV4 : Reader SocketAddr := fun s => do
  let (ip, s) ← Ipv4.read s
  let (port, s) ← readPort s
  return (.v4 ip port, s)

/-- The scope after a percent sign; zero if there is none to read. -/
def readScope (s : List Char) : UInt32 × List Char :=
  match readChar '%' s with
  | none => (0, s)
  | some r =>
      match readNumber Text.digit? 10 r.length 4294967296 true r with
      | none => (0, s)
      | some (n, rest) => (UInt32.ofNat n, rest)

def readV6 : Reader SocketAddr := fun s => do
  let (ip, s) ← Ipv6.read (← readChar '[' s)
  let (scope, s) := readScope s
  let (port, s) ← readPort (← readChar ']' s)
  return (.v6 ip scope port, s)

def parse? (text : String) : Option SocketAddr :=
  match readV4 text.toList <|> readV6 text.toList with
  | some (addr, []) => some addr
  | _ => none

end SocketAddr

/-- The internet address that a whole text stands for, without brackets. -/
def Ip.parse? (text : String) : Option Ip :=
  match (Ipv4.read text.toList).map fun (ip, rest) => (Ip.v4 ip, rest) with
  | some (ip, []) => some ip
  | _ =>
      match Ipv6.read text.toList with
      | some (ip, []) => some (.v6 ip)
      | _ => none

end AgentMesh.Net
