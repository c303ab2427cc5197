import Mathlib.Data.Nat.Notation

/-!
# Socket addresses

IP addresses and socket addresses of the Rust standard library, with the predicates that decide
which of the two network stacks, the kernel's or the one in user space, an operation goes to.
-/

namespace UsnetSockets

/-- A raw file descriptor. -/
abbrev Fd := ℕ

/-- An IP address: four bytes, or eight segments. -/
inductive IpAddr where
  | v4 (a b c d : UInt8)
  | v6 (a b c d e f g h : UInt16)
  deriving DecidableEq

namespace IpAddr

/-- `127.0.0.0/8` and `::1`. -/
def isLoopback : IpAddr → Bool
  | v4 a _ _ _ => a == 127
  | v6 a b c d e f g h => [a, b, c, d, e, f, g, h] == [0, 0, 0, 0, 0, 0, 0, 1]

/-- `0.0.0.0` and `::`. -/
def isUnspecified : IpAddr → Bool
  | v4 a b c d => [a, b, c, d] == [0, 0, 0, 0]
  | v6 a b c d e f g h => [a, b, c, d, e, f, g, h] == [0, 0, 0, 0, 0, 0, 0, 0]

def isIpv6 : IpAddr → Bool
  | v4 .. => false
  | v6 .. => true

end IpAddr

structure SocketAddr where
  ip : IpAddr
  port : UInt16
  deriving DecidableEq

/-- The errors of the standard library that the operations return: their own, with a text, or one of
the operating system. -/
inductive IoError where
  | other (text : String)
  | wouldBlock (text : String)
  | invalidInput (text : String)
  | os (code : ℕ)
  deriving DecidableEq

end UsnetSockets
