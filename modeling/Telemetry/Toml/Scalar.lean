import Telemetry.Decimal.Shortest
import Telemetry.Text.Numeral
import Telemetry.Toml.Value

/-!
# TOML scalars

Readers for strings, numbers, dates and times.  A reader takes its part from the front of a text and
gives the rest, or refuses.
-/

namespace Telemetry
namespace Toml

/-- Takes a part from the front of a text. -/
abbrev Scan (α : Type) := List Char → Option (α × List Char)

/-! ## Characters and line ends -/

def isSpace (c : Char) : Bool :=
  c == ' ' || c == '\t'

def skipSpaces (cs : List Char) : List Char :=
  cs.dropWhile isSpace

/-- What may stand in a comment: a tab and everything but control characters. -/
def isPlain (c : Char) : Bool :=
  c == '\t' || (0x20 ≤ c.toNat && c.toNat != 0x7F)

/-- A line feed, with or without a carriage return in front. -/
def newline : List Char → Option (List Char)
  | '\n' :: cs => some cs
  | '\r' :: '\n' :: cs => some cs
  | _ => none

def skipComment : List Char → List Char
  | '#' :: cs => cs.dropWhile isPlain
  | cs => cs

/-- Drop blanks, comments and line ends; a comment must be followed by a line end. -/
def skipBlank : (fuel : Nat) → List Char → List Char
  | 0, cs => cs
  | fuel + 1, cs =>
      let cs := skipSpaces cs
      match newline (skipComment cs) with
      | some rest => skipBlank fuel rest
      | none => cs

/-! ## Strings -/

/-- The character with a code point given by exactly `n` hexadecimal digits. -/
def codePoint (n : Nat) (cs : List Char) : Option (Char × List Char) :=
  let digits := (cs.take n).filterMap Text.hexValue?
  let value := digits.foldl (fun v d => v * 16 + d) 0
  if digits.length = n ∧ value.isValidChar then some (Char.ofNat value, cs.drop n) else none

/-- The character of an escape, read after its backslash. -/
def escape : Scan Char
  | 'b' :: cs => some ('\x08', cs)
  | 't' :: cs => some ('\t', cs)
  | 'n' :: cs => some ('\n', cs)
  | 'f' :: cs => some ('\x0C', cs)
  | 'r' :: cs => some ('\r', cs)
  | '"' :: cs => some ('"', cs)
  | '\\' :: cs => some ('\\', cs)
  | 'u' :: cs => codePoint 4 cs
  | 'U' :: cs => codePoint 8 cs
  | _ => none

def basicString : (fuel : Nat) → Scan (List Char)
  | 0, _ => none
  | fuel + 1, cs =>
      match cs with
      | '"' :: rest => some ([], rest)
      | '\\' :: rest => do
          let (c, rest) ← escape rest
          let (text, rest) ← basicString fuel rest
          return (c :: text, rest)
      | c :: rest =>
          if isPlain c then do
            let (text, rest) ← basicString fuel rest
            return (c :: text, rest)
          else none
      | [] => none

def literalString (cs : List Char) : Option (List Char × List Char) :=
  let text := cs.takeWhile fun c => c != '\'' && isPlain c
  match cs.drop text.length with
  | '\'' :: rest => some (text, rest)
  | _ => none

def skipLines : (fuel : Nat) → List Char → List Char
  | 0, cs => cs
  | fuel + 1, cs =>
      let cs := skipSpaces cs
      match newline cs with
      | some rest => skipLines fuel rest
      | none => cs

/-- The rest of a string over several lines, in marks of the given kind; only in quotation marks are
there escapes.  Up to two marks are part of the text, also just before the three that end it. -/
def multiline (mark : Char) : (fuel : Nat) → Scan (List Char)
  | 0, _ => none
  | fuel + 1, cs =>
      let marks := (cs.takeWhile (· == mark)).length
      -- three marks end the string, and up to two more in front of them are text
      if 3 ≤ marks then
        let inside := min (marks - 3) 2
        some (List.replicate inside mark, cs.drop (inside + 3))
      else
        match newline cs with
        | some rest => do
            let (text, rest) ← multiline mark fuel rest
            return ('\n' :: text, rest)
        | none =>
            match cs with
            | [] => none
            | c :: rest =>
                if c = '\\' ∧ mark = '"' then
                  match newline (skipSpaces rest) with
                  -- a backslash at the end of a line joins it to the next text
                  | some after => multiline mark fuel (skipLines after.length after)
                  | none => do
                      let (e, rest) ← escape rest
                      let (text, rest) ← multiline mark fuel rest
                      return (e :: text, rest)
                else if isPlain c then do
                  let (text, rest) ← multiline mark fuel rest
                  return (c :: text, rest)
                else none

/-- A multi-line string, read after its opening marks; a line end right behind them is dropped. -/
def multilineBody (mark : Char) (cs : List Char) : Option (List Char × List Char) :=
  let body := (newline cs).getD cs
  multiline mark (body.length + 1) body

/-- A string of any of the four kinds. -/
def string : Scan String
  | '"' :: '"' :: '"' :: cs => (multilineBody '"' cs).map fun (t, r) => (String.ofList t, r)
  | '"' :: cs => (basicString cs.length cs).map fun (t, r) => (String.ofList t, r)
  | '\'' :: '\'' :: '\'' :: cs => (multilineBody '\'' cs).map fun (t, r) => (String.ofList t, r)
  | '\'' :: cs => (literalString cs).map fun (t, r) => (String.ofList t, r)
  | _ => none

/-! ## Numbers -/

def digit? (radix : Nat) (c : Char) : Option Nat :=
  (Text.hexValue? c).filter (· < radix)

/-- Digits of a radix; an underscore may stand in front of a digit. -/
def moreDigits (radix : Nat) : List Char → List Nat × List Char
  | [] => ([], [])
  | c :: cs =>
      match digit? radix c with
      | some d =>
          let (ds, rest) := moreDigits radix cs
          (d :: ds, rest)
      | none =>
          -- an underscore stands only between digits
          if c = '_' ∧ (cs.head?.bind (digit? radix)).isSome then moreDigits radix cs
          else ([], c :: cs)

/-- At least one digit of a radix, with single underscores between digits left out. -/
def digits (radix : Nat) (cs : List Char) : Option (List Nat × List Char) :=
  match cs with
  | [] => none
  | c :: cs =>
      (digit? radix c).map fun d =>
        let (ds, rest) := moreDigits radix cs
        (d :: ds, rest)

def ofDigits (radix : Nat) (ds : List Nat) : Nat :=
  ds.foldl (fun n d => n * radix + d) 0

def sign : List Char → Bool × List Char
  | '+' :: cs => (false, cs)
  | '-' :: cs => (true, cs)
  | cs => (false, cs)

/-- Decimal digits without a leading zero. -/
def wholePart (cs : List Char) : Option (List Nat × List Char) :=
  match cs with
  | '0' :: rest => some ([0], rest)
  | _ => digits 10 cs

def isInteger64 (n : Int) : Bool :=
  -0x8000000000000000 ≤ n && n < 0x8000000000000000

/-- A whole number of 64 bits: signed decimal, or hexadecimal, octal or binary. -/
def integer (cs : List Char) : Option (Int × List Char) := do
  let (n, rest) ← (match cs with
    | '0' :: 'x' :: cs => (digits 16 cs).map fun (ds, r) => ((ofDigits 16 ds : Int), r)
    | '0' :: 'o' :: cs => (digits 8 cs).map fun (ds, r) => ((ofDigits 8 ds : Int), r)
    | '0' :: 'b' :: cs => (digits 2 cs).map fun (ds, r) => ((ofDigits 2 ds : Int), r)
    | _ =>
        let (negative, cs) := sign cs
        (wholePart cs).map fun (ds, r) =>
          ((if negative then -(ofDigits 10 ds : Int) else (ofDigits 10 ds : Int)), r))
  if isInteger64 n then return (n, rest) else none

def fraction : List Char → Option (List Nat × List Char)
  | '.' :: cs => digits 10 cs
  | _ => none

def exponent : List Char → Option (Int × List Char)
  | c :: cs =>
      if c = 'e' ∨ c = 'E' then
        let (negative, cs) := sign cs
        (digits 10 cs).map fun (ds, r) =>
          ((if negative then -(ofDigits 10 ds : Int) else (ofDigits 10 ds : Int)), r)
      else none
  | [] => none

def specialFloat (cs : List Char) : Option (Float × List Char) :=
  let (negative, cs) := sign cs
  match cs with
  | 'i' :: 'n' :: 'f' :: rest =>
      some (Float.ofBits (if negative then 0xFFF0000000000000 else 0x7FF0000000000000), rest)
  | 'n' :: 'a' :: 'n' :: rest =>
      some (Float.ofBits (if negative then 0xFFF8000000000000 else 0x7FF8000000000000), rest)
  | _ => none

/-- A number with a fraction, an exponent or both.  One that is too large is refused. -/
def decimalFloat (cs : List Char) : Option (Float × List Char) := do
  let (negative, body) := sign cs
  let (whole, rest) ← wholePart body
  let frac := fraction rest
  let (fracDigits, rest) := frac.getD ([], rest)
  let exp := exponent rest
  let (power, rest) := exp.getD (0, rest)
  if frac.isNone && exp.isNone then none
  else
    let x := Decimal.toDouble ⟨negative, ofDigits 10 (whole ++ fracDigits), power - fracDigits.length⟩
    -- only a positive overflow is refused
    if x.toBits = 0x7FF0000000000000 then none else return (x, rest)

/-! ## Dates and times -/

/-- A number of exactly `n` digits within bounds. -/
def fixedDigits (n least greatest : Nat) (cs : List Char) : Option (Nat × List Char) :=
  let ds := (cs.take n).filterMap (digit? 10)
  let value := ofDigits 10 ds
  if ds.length = n ∧ least ≤ value ∧ value ≤ greatest then some (value, cs.drop n) else none

def expect (c : Char) : List Char → Option (List Char)
  | d :: cs => if c = d then some cs else none
  | [] => none

def daysIn (year month : Nat) : Nat :=
  if month = 2 then
    if year % 4 = 0 ∧ (year % 100 ≠ 0 ∨ year % 400 = 0) then 29 else 28
  else if month = 4 ∨ month = 6 ∨ month = 9 ∨ month = 11 then 30
  else 31

/-- `year-month-day`. -/
def date (cs : List Char) : Option (List Char) := do
  let (year, cs) ← fixedDigits 4 0 9999 cs
  let cs ← expect '-' cs
  let (month, cs) ← fixedDigits 2 1 12 cs
  let cs ← expect '-' cs
  let (_, cs) ← fixedDigits 2 1 (daysIn year month) cs
  return cs

/-- `hour:minute:second`, with a fraction of a second if there is one. -/
def time (cs : List Char) : Option (List Char) := do
  let (_, cs) ← fixedDigits 2 0 23 cs
  let cs ← expect ':' cs
  let (_, cs) ← fixedDigits 2 0 59 cs
  let cs ← expect ':' cs
  let (_, cs) ← fixedDigits 2 0 60 cs
  match cs with
  | '.' :: frac =>
      let ds := frac.takeWhile Char.isDigit
      return if ds.isEmpty then cs else frac.drop ds.length
  | _ => return cs

/-- `Z`, or a sign with hours and minutes. -/
def offset : List Char → Option (List Char)
  | c :: cs =>
      if c = 'Z' ∨ c = 'z' then some cs
      else if c = '+' ∨ c = '-' then do
        let (_, cs) ← fixedDigits 2 0 23 cs
        let cs ← expect ':' cs
        let (_, cs) ← fixedDigits 2 0 59 cs
        return cs
      else none
  | [] => none

/-- A date, a time, or both with an offset if there is one. -/
def datetime (cs : List Char) : Option (List Char) :=
  match date cs with
  | none => time cs
  | some rest =>
      match rest with
      | c :: after =>
          if c = 'T' ∨ c = 't' ∨ c = ' ' then
            match time after with
            | some rest' => some ((offset rest').getD rest')
            -- a blank that no time follows is not part of the date
            | none => some rest
          else some rest
      | [] => some rest

/-! ## Any scalar -/

/-- A date or time, a number with a fraction or exponent, or a whole number. -/
def number (cs : List Char) : Option (Value × List Char) :=
  match datetime cs with
  | some rest => some (.datetime, rest)
  | none =>
      match decimalFloat cs <|> specialFloat cs with
      | some (x, rest) => some (.float x, rest)
      | none => (integer cs).map fun (n, rest) => (.integer n, rest)

def scalar (cs : List Char) : Option (Value × List Char) :=
  match cs with
  | 't' :: 'r' :: 'u' :: 'e' :: rest => some (.boolean true, rest)
  | 'f' :: 'a' :: 'l' :: 's' :: 'e' :: rest => some (.boolean false, rest)
  | '"' :: _ | '\'' :: _ => (string cs).map fun (s, rest) => (.string s, rest)
  | _ => number cs

end Toml
end Telemetry
