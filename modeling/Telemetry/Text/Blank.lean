/-!
# Blank — Unicode white space and trimming

`isBlank` is the Unicode property `White_Space`.  `trim` removes the blank characters at both ends
of a text and keeps everything between them.
-/

namespace Telemetry
namespace Text

/-- The Unicode property `White_Space`. -/
def isBlank (c : Char) : Bool :=
  let n := c.toNat
  (9 ≤ n && n ≤ 13) || n == 0x20 || n == 0x85 || n == 0xA0 || n == 0x1680
    || (0x2000 ≤ n && n ≤ 0x200A) || n == 0x2028 || n == 0x2029 || n == 0x202F
    || n == 0x205F || n == 0x3000

def trimEnd (cs : List Char) : List Char :=
  (cs.reverse.dropWhile isBlank).reverse

def trimList (cs : List Char) : List Char :=
  trimEnd (cs.dropWhile isBlank)

/-- Drop the blank characters at both ends of a text. -/
def trim (s : String) : String :=
  String.ofList (trimList s.toList)

end Text
end Telemetry
