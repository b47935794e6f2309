import Mathlib.Data.List.Basic
import Telemetry.Text.Blank

/-!
# Trimmed — texts without blanks at their ends

Trimming gives a text without blanks at its ends (`trimmed_trimList`), and leaves a text as it is just
when it has none (`trimList_eq_self_iff`).
-/

namespace Telemetry
namespace Text

variable {cs : List Char}

structure Trimmed (cs : List Char) : Prop where
  first : ∀ c ∈ cs.head?, isBlank c = false
  last : ∀ c ∈ cs.getLast?, isBlank c = false

theorem all_ends_iff :
    (cs.head?.all (!isBlank ·) && cs.getLast?.all (!isBlank ·)) = true ↔ Trimmed cs := by
  simp only [Bool.and_eq_true, Option.all_eq_true, Bool.not_eq_true']
  exact ⟨fun h => ⟨h.1, h.2⟩, fun h => ⟨h.first, h.last⟩⟩

instance (cs : List Char) : Decidable (Trimmed cs) :=
  decidable_of_iff _ all_ends_iff

theorem dropWhile_eq_self {p : Char → Bool} (h : ∀ c ∈ cs.head?, p c = false) :
    cs.dropWhile p = cs := by
  cases cs with
  | nil => rfl
  | cons c cs =>
      have hc : p c = false := h c rfl
      exact List.dropWhile_cons_of_neg (by simp [hc])

theorem head?_dropWhile {p : Char → Bool} : ∀ c ∈ (cs.dropWhile p).head?, p c = false := by
  intro c hc
  have hstop := List.head?_dropWhile_not p cs
  rw [Option.mem_def.1 hc] at hstop
  simpa using hstop

/-- Dropping at the end takes no character from the front but the last of them all. -/
theorem head?_trimEnd : ∀ c ∈ (trimEnd cs).head?, c ∈ cs.head? := by
  intro c hc
  have hprefix : trimEnd cs <+: cs := by
    have hsuffix := List.dropWhile_suffix isBlank (l := cs.reverse)
    simpa [trimEnd] using List.reverse_prefix.2 hsuffix
  rcases hprefix with ⟨rest, hrest⟩
  rw [← hrest, List.head?_append, Option.mem_def.1 hc]
  rfl

theorem trimmed_trimList : Trimmed (trimList cs) where
  first := fun c hc => head?_dropWhile c (head?_trimEnd c hc)
  last := by
    intro c hc
    rw [trimList, trimEnd, List.getLast?_reverse] at hc
    exact head?_dropWhile c hc

theorem Trimmed.trimList (h : Trimmed cs) : trimList cs = cs := by
  have hlast : ∀ c ∈ cs.reverse.head?, isBlank c = false := by
    rw [List.head?_reverse]
    exact h.last
  rw [Text.trimList, dropWhile_eq_self h.first, trimEnd, dropWhile_eq_self hlast, List.reverse_reverse]

theorem trimList_eq_self_iff : trimList cs = cs ↔ Trimmed cs := by
  refine ⟨fun h => ?_, Trimmed.trimList⟩
  rw [← h]
  exact trimmed_trimList

end Text
end Telemetry
