import Telemetry.Text.Numeral

/-!
# Internet addresses

Version 4 and version 6 addresses, socket addresses, and their canonical written forms.  A version 6
address is written with its longest run of zero groups, the first of equally long ones, shortened to
`::`; one that carries a version 4 address ends in that address.
-/

namespace Telemetry

structure Ipv4 where
  (a b c d : UInt8)
  deriving DecidableEq, Repr

structure Ipv6 where
  groups : List UInt16
  length_groups : groups.length = 8
  deriving DecidableEq

inductive IpAddress where
  | v4 (ip : Ipv4)
  | v6 (ip : Ipv6)
  deriving DecidableEq

/-! ## Version 4 addresses inside version 6 -/

namespace Ipv4

/-- The two groups that spell a version 4 address. -/
def toGroups (ip : Ipv4) : List UInt16 :=
  [ip.a.toUInt16 * 256 + ip.b.toUInt16, ip.c.toUInt16 * 256 + ip.d.toUInt16]

def ofGroups (high low : UInt16) : Ipv4 :=
  ⟨(high / 256).toUInt8, high.toUInt8, (low / 256).toUInt8, low.toUInt8⟩

/-- The address mapped into version 6. -/
def mapped (ip : Ipv4) : Ipv6 where
  groups := [0, 0, 0, 0, 0, 0xFFFF] ++ ip.toGroups
  length_groups := rfl

end Ipv4

namespace Ipv6

/-- The version 4 address that is mapped into this one. -/
def mapped? (ip : Ipv6) : Option Ipv4 :=
  match ip.groups with
  | [0, 0, 0, 0, 0, 0xFFFF, high, low] => some (Ipv4.ofGroups high low)
  | _ => none

def isUnspecified (ip : Ipv6) : Bool :=
  ip.groups == [0, 0, 0, 0, 0, 0, 0, 0]

end Ipv6

namespace IpAddress

/-- A mapped version 4 address in its plain form; any other address as it is. -/
def canonical : IpAddress → IpAddress
  | v4 ip => v4 ip
  | v6 ip =>
      match ip.mapped? with
      | some plain => v4 plain
      | none => v6 ip

end IpAddress

/-- Whether an address belongs to every machine: a loopback or unspecified one. -/
def IpAddress.isOwn : IpAddress → Bool
  | .v4 ip => ip.a == 127 || ip == ⟨0, 0, 0, 0⟩
  | .v6 ip => ip.groups == [0, 0, 0, 0, 0, 0, 0, 1] || ip.isUnspecified

/-! ## Written forms -/

namespace Ipv4

def text (ip : Ipv4) : String :=
  s!"{ip.a}.{ip.b}.{ip.c}.{ip.d}"

end Ipv4

namespace Ipv6

/-- Groups in hexadecimal, separated by colons. -/
def joinGroups (groups : List UInt16) : String :=
  String.intercalate ":" (groups.map fun g => String.ofList (Nat.toDigits 16 g.toNat))

/-- Start and length of the longest run of zero groups, the first one of equally long runs. -/
def longestZeroRun (groups : List UInt16) : Nat × Nat :=
  (List.range groups.length).foldl
    (fun best i =>
      let length := ((groups.drop i).takeWhile (· == 0)).length
      if best.2 < length then (i, length) else best)
    (0, 0)

def text (ip : Ipv6) : String :=
  match ip.mapped? with
  | some plain => s!"::ffff:{plain.text}"
  | none =>
      let (start, length) := longestZeroRun ip.groups
      if 1 < length then
        joinGroups (ip.groups.take start) ++ "::" ++ joinGroups (ip.groups.drop (start + length))
      else
        joinGroups ip.groups

end Ipv6

namespace IpAddress

def text : IpAddress → String
  | v4 ip => ip.text
  | v6 ip => ip.text

end IpAddress

/-! ## Socket addresses -/

/-- An address with a port; the scope is that of a link-local version 6 address. -/
structure SocketAddress where
  ip : IpAddress
  scope : UInt32
  port : UInt16
  deriving DecidableEq

namespace SocketAddress

def text (s : SocketAddress) : String :=
  match s.ip with
  | .v4 ip => s!"{ip.text}:{s.port}"
  | .v6 ip =>
      if s.scope = 0 then s!"[{ip.text}]:{s.port}" else s!"[{ip.text}%{s.scope}]:{s.port}"

end SocketAddress
end Telemetry
