/-!
# Column — fitting a text into a column

A `Layout` asks for a least width, an alignment and a precision.  Words are cut to the precision
and lean left unless told otherwise; whole numbers are never cut and lean right.
-/

namespace Telemetry
namespace Text

inductive Align where
  | left
  | center
  | right
  deriving DecidableEq, Repr

/-- What a column asks of the text put into it. -/
structure Layout where
  align : Option Align
  width : Nat
  precision : Option Nat
  deriving DecidableEq, Repr

def spaces (n : Nat) : List Char :=
  List.replicate n ' '

/-- Pad `cs` with spaces to `width` characters; a centred text has the smaller half in front. -/
def padTo (align : Align) (width : Nat) (cs : List Char) : List Char :=
  let gap := width - cs.length
  match align with
  | .left => cs ++ spaces gap
  | .right => spaces gap ++ cs
  | .center => spaces (gap / 2) ++ cs ++ spaces (gap - gap / 2)

namespace Layout

/-- Lay out a word: cut to the precision, then padded, on the right by default. -/
def word (l : Layout) (s : String) : String :=
  let cs := match l.precision with
    | some p => s.toList.take p
    | none => s.toList
  String.ofList (padTo (l.align.getD .left) l.width cs)

/-- Lay out a whole number: padded, on the left by default. -/
def number (l : Layout) (s : String) : String :=
  String.ofList (padTo (l.align.getD .right) l.width s.toList)

end Layout

def alignRight (width : Nat) (s : String) : String :=
  String.ofList (padTo .right width s.toList)

end Text
end Telemetry
