/-!
# Utf8 — texts as bytes

`encode` and `decode` are inverse to each other.  Bytes that are no text are refused with the
length of the valid part in front and, unless the bytes merely end too early, the length of the
ill-formed part after it.  `cut` shortens a text to a byte limit without splitting a character.
-/

namespace Telemetry
namespace Utf8

def encode (s : String) : List UInt8 :=
  s.toUTF8.data.toList

/-! ## Where bytes stop being a text -/

/-- The first ill-formed place of a byte string. -/
structure Fault where
  /-- bytes of the valid part in front -/
  validUpTo : Nat
  /-- bytes of the ill-formed part, or none when the bytes end inside a character -/
  badLength : Option Nat
  deriving DecidableEq, Repr

/-- Bytes after the first one of a character, by its first byte. -/
def followers? (b : UInt8) : Option Nat :=
  if b < 0x80 then some 0
  else if b < 0xC2 then none
  else if b < 0xE0 then some 1
  else if b < 0xF0 then some 2
  else if b < 0xF5 then some 3
  else none

/-- Second bytes allowed after a first byte: no overlong forms, no surrogates, nothing past the
last code point. -/
def secondAllowed (first second : UInt8) : Bool :=
  if first == 0xE0 then 0xA0 ≤ second && second < 0xC0
  else if first == 0xED then 0x80 ≤ second && second < 0xA0
  else if first == 0xF0 then 0x90 ≤ second && second < 0xC0
  else if first == 0xF4 then 0x80 ≤ second && second < 0x90
  else 0x80 ≤ second && second < 0xC0

/-- How far the followers of a character reach: `none` if all `n` are there, otherwise how many
are, and whether the bytes ended there. -/
def followersFault (n : Nat) (allowed : UInt8 → Bool) (bytes : List UInt8) : Option (Nat × Bool) :=
  match n, bytes with
  | 0, _ => none
  | _ + 1, [] => some (0, true)
  | n + 1, b :: rest =>
      -- only the second byte depends on the first one
      if allowed b then
        (followersFault n (fun c => 0x80 ≤ c && c < 0xC0) rest).map fun (k, ended) => (k + 1, ended)
      else
        some (0, false)

/-- Look for the first ill-formed place; `at_` bytes precede `bytes`. -/
def faultFrom (fuel : Nat) (at_ : Nat) (bytes : List UInt8) : Fault :=
  match fuel, bytes with
  | 0, _ => ⟨at_, none⟩
  | _ + 1, [] => ⟨at_, none⟩
  | fuel + 1, b :: rest =>
      match followers? b with
      | none => ⟨at_, some 1⟩
      | some n =>
          match followersFault n (secondAllowed b) rest with
          | none => faultFrom fuel (at_ + n + 1) (rest.drop n)
          -- the bytes ended inside a character that was right so far
          | some (_, true) => ⟨at_, none⟩
          | some (k, false) => ⟨at_, some (k + 1)⟩

def firstFault (bytes : List UInt8) : Fault :=
  faultFrom bytes.length 0 bytes

namespace Fault

def message (f : Fault) : String :=
  match f.badLength with
  | some n => s!"invalid utf-8 sequence of {n} bytes from index {f.validUpTo}"
  | none => s!"incomplete utf-8 byte sequence from index {f.validUpTo}"

end Fault

/-! ## Decoding -/

/-- The text whose bytes these are. -/
def decode (bytes : List UInt8) : Except Fault String :=
  match String.fromUTF8? ⟨bytes.toArray⟩ with
  | some s => .ok s
  | none => .error (firstFault bytes)

theorem fromUTF8?_toUTF8 (s : String) : String.fromUTF8? s.toUTF8 = some s := by
  unfold String.fromUTF8?
  rw [String.toUTF8_eq_toByteArray, dif_pos s.isValidUTF8]
  rfl

theorem decode_encode (s : String) : decode (encode s) = .ok s := by
  have h : String.fromUTF8? ⟨(encode s).toArray⟩ = some s := by
    rw [encode, Array.toArray_toList]
    exact fromUTF8?_toUTF8 s
  simp only [decode, h]

theorem encode_of_decode {bytes : List UInt8} {s : String} (h : decode bytes = .ok s) :
    encode s = bytes := by
  unfold decode at h
  split at h
  · next t ht =>
    have hst : t = s := by simpa using h
    subst hst
    unfold String.fromUTF8? at ht
    split at ht
    · next hv =>
      rw [Option.some.injEq] at ht
      subst ht
      rfl
    · contradiction
  · contradiction

/-! ## Cutting at a character boundary -/

/-- The longest run of leading characters that fits into `limit` bytes. -/
def takeBytes : (limit : Nat) → List Char → List Char
  | _, [] => []
  | limit, c :: cs => if c.utf8Size ≤ limit then c :: takeBytes (limit - c.utf8Size) cs else []

/-- The longest leading part of a text that fits into `limit` bytes. -/
def cut (limit : Nat) (s : String) : String :=
  String.ofList (takeBytes limit s.toList)

end Utf8
end Telemetry
