import Telemetry.Proofs.Wire.Decoding
import Telemetry.Wire.Put

/-!
# Puts — any sequence of them, with its failures, read back

To put a number in place comes to the same as `Writer.put`, and a refused one leaves the writer alone
(`Writer.perform_of_put_ok`, `perform_of_put_error`).  So each put has one of two outcomes, told apart
by the room that is left (`Writer.of_perform`), and by induction a sequence of puts writes the bytes of
those that succeeded and nothing else (`Writer.writes_of_performAll`).  Where the puts are of values, a
reader finds the successful ones again (`Writer.performAll_readBack`).
-/

namespace Telemetry
namespace Wire

/-! ## What succeeded -/

section Succeeded

variable {α β : Type}

/-- The elements that stand beside a success. -/
def succeeded (xs : List α) (answers : List (Except WireError Unit)) : List α :=
  (xs.zip answers).filterMap fun (x, answer) => if answer.isOk then some x else none

@[simp] theorem succeeded_cons_ok (x : α) (xs : List α) (answers : List (Except WireError Unit)) :
    succeeded (x :: xs) (.ok () :: answers) = x :: succeeded xs answers := rfl

@[simp] theorem succeeded_cons_error (x : α) (xs : List α) (e : WireError)
    (answers : List (Except WireError Unit)) :
    succeeded (x :: xs) (.error e :: answers) = succeeded xs answers := rfl

theorem succeeded_map (f : α → β) (xs : List α) (answers : List (Except WireError Unit)) :
    succeeded (xs.map f) answers = (succeeded xs answers).map f := by
  induction xs generalizing answers with
  | nil =>
      rfl
  | cons x xs ih =>
      cases answers with
      | nil => rfl
      | cons answer answers =>
          cases answer with
          | ok success =>
              rw [List.map_cons, succeeded_cons_ok, succeeded_cons_ok, List.map_cons, ih]
          | error e =>
              rw [List.map_cons, succeeded_cons_error, succeeded_cons_error, ih]

end Succeeded

namespace Put

def totalSize (ps : List Put) : Nat :=
  ps.foldr (fun p n => p.size + n) 0

def allBytes (ps : List Put) : List UInt8 :=
  ps.flatMap bytes

@[simp] theorem length_allBytes (ps : List Put) : (allBytes ps).length = totalSize ps := by
  induction ps with
  | nil =>
      rfl
  | cons p ps ih =>
      rw [allBytes, List.flatMap_cons, List.length_append, length_bytes]
      exact congrArg (p.size + ·) ih

theorem allBytes_map_ofValue (vs : List Value) : allBytes (vs.map ofValue) = Value.allBytes vs := by
  simp [allBytes, Value.allBytes, List.flatMap_map]

end Put

namespace Writer

variable {w w' : Writer} {p : Put}

/-! ## One put -/

theorem perform_of_put_ok (h : w.put p.bytes = .ok w') : w.perform p = some (.ok (), w') := by
  unfold put at h
  split at h
  · next hroom =>
    cases h
    have hsize := p.length_bytes
    have hfree : ¬ w.offset + p.size ≥ w.capacity := by omega
    have hwithin : w.offset + p.bytes.length ≤ w.capacity := by omega
    rw [perform, claim, if_neg hfree]
    dsimp only
    rw [overwrite?, dif_pos hwithin, Option.map_some]
    simp only [hsize]
  · contradiction

theorem perform_of_put_error {e : WireError} (h : w.put p.bytes = .error e) :
    w.perform p = some (.error e, w) := by
  unfold put at h
  split at h
  · contradiction
  · next hfull =>
    cases h
    rw [Put.length_bytes] at hfull ⊢
    rw [perform, claim, if_pos (Nat.not_lt.1 hfull)]

theorem perform_of_room (h : w.offset + p.size < w.capacity) :
    ∃ w', w.perform p = some (.ok (), w') ∧ w.Writes p.bytes w' := by
  rw [← p.length_bytes] at h
  obtain ⟨w', hput, hwrites⟩ := put_of_room h
  exact ⟨w', perform_of_put_ok hput, hwrites⟩

theorem perform_of_no_room (h : ¬ w.offset + p.size < w.capacity) :
    w.perform p = some (.error (.overflow w.offset p.size w.capacity), w) := by
  rw [← p.length_bytes] at h ⊢
  exact perform_of_put_error (put_of_no_room h)

/-- A put succeeds and writes its bytes, or it is refused for want of room and changes nothing. -/
theorem of_perform {answer : Except WireError Unit} (h : w.perform p = some (answer, w')) :
    (answer = .ok () ∧ w.offset + p.size < w.capacity ∧ w.Writes p.bytes w')
      ∨ (answer = .error (.overflow w.offset p.size w.capacity)
          ∧ ¬ w.offset + p.size < w.capacity ∧ w' = w) := by
  by_cases hroom : w.offset + p.size < w.capacity
  · obtain ⟨after, hput, hwrites⟩ := perform_of_room hroom
    rw [hput] at h
    cases h
    exact .inl ⟨rfl, hroom, hwrites⟩
  · rw [perform_of_no_room hroom] at h
    cases h
    exact .inr ⟨rfl, hroom, rfl⟩

theorem exists_perform (w : Writer) (p : Put) :
    ∃ answer w', w.perform p = some (answer, w') := by
  by_cases hroom : w.offset + p.size < w.capacity
  · obtain ⟨w', hput, -⟩ := perform_of_room hroom
    exact ⟨_, w', hput⟩
  · exact ⟨_, w, perform_of_no_room hroom⟩

/-! ## Sequences of puts -/

section Sequences

variable {front rest ps : List Put} {answers : List (Except WireError Unit)}

theorem performAll_cons_eq_some_iff : w.performAll (p :: ps) = some (answers, w') ↔
    ∃ answer w₁ later, w.perform p = some (answer, w₁) ∧ w₁.performAll ps = some (later, w')
      ∧ answers = answer :: later := by
  simp only [performAll, Option.bind_eq_bind, Option.bind_eq_some_iff, Option.pure_def,
    Option.some.injEq, Prod.mk.injEq, Prod.exists]
  constructor
  · rintro ⟨answer, w₁, hput, later, w₂, hrest, rfl, rfl⟩
    exact ⟨answer, w₁, later, hput, hrest, rfl⟩
  · rintro ⟨answer, w₁, later, hput, hrest, rfl⟩
    exact ⟨answer, w₁, hput, later, w', hrest, rfl, rfl⟩

/-- A sequence of puts is taken apart at any place. -/
theorem exists_of_performAll_append (h : w.performAll (front ++ rest) = some (answers, w')) :
    ∃ earlier w₁ later, w.performAll front = some (earlier, w₁)
      ∧ w₁.performAll rest = some (later, w') ∧ answers = earlier ++ later := by
  induction front generalizing w answers with
  | nil =>
      exact ⟨[], w, answers, rfl, h, rfl⟩
  | cons p front ih =>
      obtain ⟨answer, w₁, _, hput, hbehind, rfl⟩ := performAll_cons_eq_some_iff.1 h
      obtain ⟨earlier, w₂, later, hfront, hrest, rfl⟩ := ih hbehind
      exact ⟨answer :: earlier, w₂, later,
        performAll_cons_eq_some_iff.2 ⟨answer, w₁, earlier, hput, hfront, rfl⟩, hrest, rfl⟩

theorem exists_performAll (w : Writer) (ps : List Put) :
    ∃ answers w', w.performAll ps = some (answers, w') := by
  induction ps generalizing w with
  | nil =>
      exact ⟨[], w, rfl⟩
  | cons p ps ih =>
      obtain ⟨answer, w₁, hput⟩ := exists_perform w p
      obtain ⟨later, w', hrest⟩ := ih w₁
      exact ⟨_, w', performAll_cons_eq_some_iff.2 ⟨answer, w₁, later, hput, hrest, rfl⟩⟩

/-- A sequence of puts writes the bytes of those that succeed, one behind the other. -/
theorem writes_of_performAll (h : w.performAll ps = some (answers, w')) :
    answers.length = ps.length ∧ w.Writes (Put.allBytes (succeeded ps answers)) w' := by
  induction ps generalizing w answers with
  | nil =>
      cases h
      exact ⟨rfl, .refl _⟩
  | cons p ps ih =>
      obtain ⟨answer, w₁, later, hput, hrest, rfl⟩ := performAll_cons_eq_some_iff.1 h
      obtain ⟨hlength, hwrites⟩ := ih hrest
      rcases of_perform hput with ⟨rfl, -, hfirst⟩ | ⟨rfl, -, rfl⟩
      · exact ⟨congrArg (· + 1) hlength, hfirst.trans hwrites⟩
      · -- a refused put leaves the writer itself for the rest
        exact ⟨congrArg (· + 1) hlength, hwrites⟩

end Sequences

/-! ## Main statement -/

/-- Any sequence of puts, into a buffer of any length and from any offset on, goes through without
passing the end of the buffer.  Each put succeeds just when a byte stays free behind it; a refused one
leaves the writer as it was, so that a put for which there is room succeeds in its place.  The writer
ends behind what was written, and the bytes around that are untouched.  If values were put, then a
reader that begins where the writer began and asks for the kinds of those that were taken is given
just these, and ends where the writer ended. -/
theorem performAll_readBack (buffer : List UInt8) (start : Nat) (puts : List Put) :
    ∃ answers w, (Writer.start buffer start).performAll puts = some (answers, w)
      ∧ answers.length = puts.length
      ∧ (∀ front p rest, puts = front ++ p :: rest →
          ∃ earlier before answer after later,
            (Writer.start buffer start).performAll front = some (earlier, before)
            ∧ before.perform p = some (answer, after)
            ∧ after.performAll rest = some (later, w)
            ∧ answers = earlier ++ answer :: later
            ∧ (answer = .ok () ↔ before.offset + p.size < buffer.length)
            ∧ (answer ≠ .ok () →
                answer = .error (.overflow before.offset p.size buffer.length)
                ∧ after.buffer = before.buffer ∧ after.offset = before.offset
                ∧ ∀ q : Put, before.offset + q.size < buffer.length →
                    ∃ last, after.perform q = some (.ok (), last)))
      ∧ w.offset = start + Put.totalSize (succeeded puts answers)
      ∧ w.buffer.length = buffer.length
      ∧ (∀ i, i < start ∨ w.offset ≤ i → w.buffer[i]? = buffer[i]?)
      ∧ ∀ vs : List Value, puts = vs.map Put.ofValue →
          let taken := succeeded vs answers
          let reader : Reader := ⟨w.buffer, start⟩
          reader.getValues (taken.map Value.kind) = .ok (taken, ⟨w.buffer, w.offset⟩)
          ∧ reader.getValuesInRange (taken.map Value.kind)
              = some (.ok (taken, ⟨w.buffer, w.offset⟩)) := by
  obtain ⟨answers, w, hrun⟩ := exists_performAll (Writer.start buffer start) puts
  obtain ⟨hlength, hwrites⟩ := writes_of_performAll hrun
  refine ⟨answers, w, hrun, hlength, ?_, ?_, ?_, ?_, ?_⟩
  · rintro front p rest rfl
    obtain ⟨earlier, before, _, hfront, hbehind, rfl⟩ := exists_of_performAll_append hrun
    obtain ⟨answer, after, later, hput, hrest, rfl⟩ := performAll_cons_eq_some_iff.1 hbehind
    have hcapacity : before.capacity = buffer.length := (writes_of_performAll hfront).2.capacity
    refine ⟨earlier, before, answer, after, later, hfront, hput, hrest, rfl, ?_⟩
    rw [← hcapacity]
    rcases of_perform hput with ⟨rfl, hroom, -⟩ | ⟨rfl, hfull, rfl⟩
    · exact ⟨iff_of_true rfl hroom, fun hfailed => absurd rfl hfailed⟩
    · refine ⟨iff_of_false nofun hfull, fun _ => ⟨rfl, rfl, rfl, fun q hroom => ?_⟩⟩
      obtain ⟨last, hlast, -⟩ := perform_of_room hroom
      exact ⟨last, hlast⟩
  · rw [hwrites.offset, Put.length_allBytes]
    rfl
  · rw [w.length_buffer, hwrites.capacity]
    rfl
  · intro i hi
    exact hwrites.getElem?_outside hi
  · rintro vs rfl taken reader
    have hvalues : (Writer.start buffer start).Writes (Value.allBytes taken) w := by
      rwa [succeeded_map, Put.allBytes_map_ofValue] at hwrites
    have hread : reader.getValues (taken.map Value.kind) = .ok (taken, ⟨w.buffer, w.offset⟩) :=
      hvalues.getValues
    exact ⟨hread, by rw [Reader.getValuesInRange_eq, hread]⟩

/-- Behind two puts that are refused a smaller one succeeds; the last byte stays free. -/
example : (((start (List.replicate 12 0xAA) 1).performAll
      [.i64 (-2), .u64 1, .u32 2, .u16 3, .u8 4]).map
      fun (answers, w) => (answers.map Except.isOk, w.offset, w.buffer))
    = some ([true, false, false, true, false], 11,
        [0xAA, 0xFF, 0xFF, 0xFF, 0xFF, 0xFF, 0xFF, 0xFF, 0xFE, 0, 3, 0xAA]) := by
  decide

end Writer
end Wire
end Telemetry
