import Telemetry.Address.Ip

/-!
# Address literals

Readers for written addresses.  Each takes its part from the front of a text and gives the rest;
`IpAddress.parse?` and `SocketAddress.parse?` want the whole text to be one address.
-/

namespace Telemetry
namespace Literal

/-- A number in a radix: at most `width` digits if a width is given, at most `greatest`, and without
a leading zero unless that is allowed. -/
def number (radix : Nat) (width : Option Nat) (leadingZero : Bool) (greatest : Nat)
    (cs : List Char) : Option (Nat × List Char) :=
  let isDigit (c : Char) : Bool := (Text.hexValue? c).any (· < radix)
  let digits := cs.takeWhile isDigit
  let n := digits.foldl (fun n c => n * radix + (Text.hexValue? c).getD 0) 0
  let tooLong := width.any (· < digits.length)
  let badZero := !leadingZero && digits.head? == some '0' && 1 < digits.length
  if digits.isEmpty || tooLong || badZero || greatest < n then none
  else some (n, cs.drop digits.length)

def char (c : Char) : List Char → Option (List Char)
  | d :: cs => if d = c then some cs else none
  | [] => none

/-! ## Addresses -/

private def octet (cs : List Char) : Option (UInt8 × List Char) :=
  (number 10 (some 3) false 255 cs).map fun (n, rest) => (n.toUInt8, rest)

def ipv4 (cs : List Char) : Option (Ipv4 × List Char) := do
  let (a, cs) ← octet cs
  let cs ← char '.' cs
  let (b, cs) ← octet cs
  let cs ← char '.' cs
  let (c, cs) ← octet cs
  let cs ← char '.' cs
  let (d, cs) ← octet cs
  return (⟨a, b, c, d⟩, cs)

/-- Up to `left` groups separated by colons, the first one without a colon in front.  A version 4
address may stand for the last two; whether it did is the second part of the answer. -/
def groups (first : Bool) : (left : Nat) → List Char → List UInt16 × Bool × List Char
  | 0, cs => ([], false, cs)
  | left + 1, cs =>
      match if first then some cs else char ':' cs with
      | none => ([], false, cs)
      | some body =>
          -- an embedded address needs room for two groups
          match if left = 0 then none else ipv4 body with
          | some (ip, rest) => (ip.toGroups, true, rest)
          | none =>
              match number 16 (some 4) true 0xFFFF body with
              | none => ([], false, cs)
              | some (g, rest) =>
                  let (gs, embedded, rest) := groups false left rest
                  (g.toUInt16 :: gs, embedded, rest)

/-- Eight groups, or fewer with `::` for the zero groups between them. -/
def ipv6 (cs : List Char) : Option (Ipv6 × List Char) :=
  let (head, embedded, rest) := groups true 8 cs
  if h : head.length = 8 then some (⟨head, h⟩, rest)
  else if embedded then none
  else do
    let rest ← char ':' rest
    let rest ← char ':' rest
    -- the double colon stands for one zero group at least
    let (tail, _, rest) := groups true (7 - head.length) rest
    let all := head ++ List.replicate (8 - head.length - tail.length) 0 ++ tail
    if h : all.length = 8 then return (⟨all, h⟩, rest) else none

def port (cs : List Char) : Option (UInt16 × List Char) := do
  let cs ← char ':' cs
  let (n, cs) ← number 10 none true 65535 cs
  return (n.toUInt16, cs)

def scope (cs : List Char) : Option (UInt32 × List Char) := do
  let cs ← char '%' cs
  let (n, cs) ← number 10 none true 4294967295 cs
  return (n.toUInt32, cs)

def socketV4 (cs : List Char) : Option (SocketAddress × List Char) := do
  let (ip, cs) ← ipv4 cs
  let (p, cs) ← port cs
  return (⟨.v4 ip, 0, p⟩, cs)

def socketV6 (cs : List Char) : Option (SocketAddress × List Char) := do
  let cs ← char '[' cs
  let (ip, cs) ← ipv6 cs
  let (s, cs) := (scope cs).getD (0, cs)
  let cs ← char ']' cs
  let (p, cs) ← port cs
  return (⟨.v6 ip, s, p⟩, cs)

/-- The answer of a reader that took the whole text. -/
def whole {α : Type} (r : Option (α × List Char)) : Option α :=
  match r with
  | some (a, []) => some a
  | _ => none

end Literal

/-! ## Whole texts -/

def IpAddress.parse? (s : String) : Option IpAddress :=
  match Literal.ipv4 s.toList with
  | some r => Literal.whole (some (.v4 r.1, r.2))
  | none => Literal.whole ((Literal.ipv6 s.toList).map fun (ip, rest) => (.v6 ip, rest))

def SocketAddress.parse? (s : String) : Option SocketAddress :=
  match Literal.socketV4 s.toList with
  | some r => Literal.whole (some r)
  | none => Literal.whole (Literal.socketV6 s.toList)

end Telemetry
