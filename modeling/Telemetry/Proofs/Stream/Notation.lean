import Mathlib.Data.List.TakeDrop
import Mathlib.Data.List.TakeWhile
import Telemetry.Proofs.Text.Trimmed
import Telemetry.Toml.Shape

/-!
# Notation — written stream keys, read back

A key is read back from its text just when its argument holds no parenthesis and has no blanks at its
ends (`StreamKey.parse_text_eq_ok_iff`).  Every key that is read is of this kind
(`StreamKey.legible_of_parse`), so what was read once can be written and read again.
-/

namespace Telemetry

namespace StreamKind

theorem ofName?_name (k : StreamKind) : ofName? k.name = some k := by
  cases k <;> decide

theorem name_ne_nil (k : StreamKind) : k.name.toList ≠ [] := by
  cases k <;> decide

theorem opening_notMem_name (k : StreamKind) : '(' ∉ k.name.toList := by
  cases k <;> decide

theorem trimmed_name (k : StreamKind) : Text.Trimmed k.name.toList := by
  cases k <;> decide

end StreamKind

namespace StreamKey

/-- The notation carries the argument of the key as it is. -/
structure Legible (k : StreamKey) : Prop where
  opening : '(' ∉ k.argument.toList
  closing : ')' ∉ k.argument.toList
  trimmed : Text.Trimmed k.argument.toList

instance (k : StreamKey) : Decidable k.Legible :=
  decidable_of_iff ('(' ∉ k.argument.toList ∧ ')' ∉ k.argument.toList
      ∧ Text.Trimmed k.argument.toList)
    ⟨fun h => ⟨h.1, h.2.1, h.2.2⟩, fun h => ⟨h.opening, h.closing, h.trimmed⟩⟩

variable {k : StreamKey} {kind : StreamKind} {argument : String} {cs name inner : List Char}

theorem ofArgument_eq_ok_iff :
    ofArgument kind argument = .ok k ↔ k.kind = kind ∧ k.argument = argument := by
  constructor
  · intro h
    rw [ofArgument] at h
    split at h
    · split at h
      · contradiction
      · cases h
        exact ⟨rfl, rfl⟩
    · contradiction
  · rintro ⟨rfl, rfl⟩
    rw [ofArgument, dif_pos k.fits, dif_neg k.noNul]

/-! ## Splitting -/

theorem ne_opening_of_notMem (h : '(' ∉ name) : ∀ c ∈ name, (c != '(') = true := by
  intro c hc
  have hne : c ≠ '(' := by
    rintro rfl
    exact h hc
  exact bne_iff_ne.2 hne

theorem split?_of_notMem (h : '(' ∉ name) : split? name = some (name, []) := by
  have hall := ne_opening_of_notMem h
  rw [split?, List.span_eq_takeWhile_dropWhile, List.takeWhile_eq_self_iff.2 hall,
    List.dropWhile_eq_nil_iff.2 hall]

theorem split?_call (h : '(' ∉ name) :
    split? (name ++ '(' :: (inner ++ [')'])) = some (name, Text.trimList inner) := by
  have hall := ne_opening_of_notMem h
  rw [split?, List.span_eq_takeWhile_dropWhile, List.takeWhile_append_of_pos hall,
    List.dropWhile_append_of_pos hall]
  simp

/-- The argument is trimmed, whatever is split. -/
theorem trimmed_of_split? (h : split? cs = some (name, inner)) : Text.Trimmed inner := by
  rw [split?] at h
  split at h
  · cases h
    exact ⟨nofun, nofun⟩
  · split at h
    · cases h
      exact Text.trimmed_trimList
    · contradiction

/-! ## Reading -/

/-- What is read of a text that splits into the name of a kind and an argument. -/
theorem parse_eq_of_split? {s : String} (hsplit : split? (Text.trimList s.toList)
    = some (kind.name.toList, inner)) :
    parse s =
      if '(' ∈ inner ∨ ')' ∈ inner then .error (.malformedKey (Text.trim s))
      else ofArgument kind (String.ofList inner) := by
  have hname : String.ofList (Text.trimList kind.name.toList) = kind.name := by
    rw [kind.trimmed_name.trimList, String.ofList_toList]
  have hnonempty : kind.name.toList.isEmpty = false := by
    simpa using kind.name_ne_nil
  rw [parse]
  simp only [hsplit, hname, hnonempty, StreamKind.ofName?_name]
  by_cases hparens : '(' ∈ inner ∨ ')' ∈ inner
  · rw [if_pos hparens, if_pos (by simpa using hparens)]
    rfl
  · rw [if_neg hparens, if_neg (by simpa using hparens)]

theorem toList_text_of_ne (h : k.argument ≠ "") :
    k.text.toList = k.kind.name.toList ++ '(' :: (k.argument.toList ++ [')']) := by
  have hnonempty : k.argument.isEmpty = false := by simpa using h
  rw [text, channelText, hnonempty]
  simp [String.toList_append, toString]

theorem parse_text_of_empty (h : k.argument = "") : parse k.text = .ok k := by
  have htext : k.text = k.kind.name := by
    rw [text, channelText, h]
    rfl
  have hsplit : split? (Text.trimList k.text.toList) = some (k.kind.name.toList, []) := by
    rw [htext, k.kind.trimmed_name.trimList]
    exact split?_of_notMem k.kind.opening_notMem_name
  rw [parse_eq_of_split? hsplit, if_neg (by simp)]
  exact ofArgument_eq_ok_iff.2 ⟨rfl, h⟩

theorem parse_text_of_ne (h : k.argument ≠ "") :
    parse k.text =
      if '(' ∈ Text.trimList k.argument.toList ∨ ')' ∈ Text.trimList k.argument.toList then
        .error (.malformedKey k.text)
      else ofArgument k.kind (String.ofList (Text.trimList k.argument.toList)) := by
  have hends : Text.Trimmed k.text.toList := by
    rw [toList_text_of_ne h]
    refine ⟨?_, ?_⟩
    · rw [List.head?_append_of_ne_nil _ k.kind.name_ne_nil]
      exact k.kind.trimmed_name.first
    · intro c hc
      have hlast : (k.kind.name.toList ++ '(' :: (k.argument.toList ++ [')'])).getLast? = some ')' := by
        simp [List.getLast?_append, List.getLast?_cons]
      rw [hlast] at hc
      cases hc
      decide
  have hsplit : split? (Text.trimList k.text.toList)
      = some (k.kind.name.toList, Text.trimList k.argument.toList) := by
    rw [hends.trimList, toList_text_of_ne h]
    exact split?_call k.kind.opening_notMem_name
  have htrim : Text.trim k.text = k.text := by
    rw [Text.trim, hends.trimList, String.ofList_toList]
  rw [parse_eq_of_split? hsplit, htrim]

theorem parse_text_eq_ok_iff : parse k.text = .ok k ↔ k.Legible := by
  by_cases hempty : k.argument = ""
  · refine ⟨fun _ => ?_, fun _ => parse_text_of_empty hempty⟩
    have hnil : k.argument.toList = [] := by rw [hempty]; rfl
    refine ⟨?_, ?_, ?_⟩
    · simp [hnil]
    · simp [hnil]
    · rw [hnil]
      decide
  · rw [parse_text_of_ne hempty]
    constructor
    · intro h
      split at h
      · contradiction
      next hparens =>
          -- the argument that was read is the trimmed one
          have hsame : Text.trimList k.argument.toList = k.argument.toList := by
            have hread := congrArg String.toList (ofArgument_eq_ok_iff.1 h).2
            rw [String.toList_ofList] at hread
            exact hread.symm
          rw [hsame, not_or] at hparens
          exact ⟨hparens.1, hparens.2, Text.trimList_eq_self_iff.1 hsame⟩
    · intro h
      rw [h.trimmed.trimList, if_neg (not_or.2 ⟨h.opening, h.closing⟩), String.ofList_toList]
      exact ofArgument_eq_ok_iff.2 ⟨rfl, rfl⟩

/-- A blank in front of an argument is lost. -/
example : ¬(⟨.load, " a", by decide, by decide⟩ : StreamKey).Legible := by
  decide

theorem legible_of_parse {s : String} (h : parse s = .ok k) : k.Legible := by
  rw [parse] at h
  dsimp only at h
  split at h
  · contradiction
  next name inner hsplit =>
  split at h
  · contradiction
  next hchecked =>
  simp only [Bool.or_eq_true, not_or, List.contains_iff_mem] at hchecked
  split at h
  · contradiction
  next kind _ =>
  have hinner : k.argument.toList = inner := by
    rw [(ofArgument_eq_ok_iff.1 h).2, String.toList_ofList]
  rw [← hinner] at hchecked hsplit
  exact ⟨hchecked.1.2, hchecked.2, trimmed_of_split? hsplit⟩

/-! ## Writing and reading again -/

theorem parse_of_asKey {v : Toml.Value} (h : Toml.asKey v = .ok k) : ∃ s, parse s = .ok k := by
  rw [Toml.asKey] at h
  split at h
  · contradiction
  next s _ =>
  split at h
  next k' hparse =>
      cases h
      exact ⟨s, hparse⟩
  · contradiction

theorem asKey_string_eq_ok_iff {s : String} : Toml.asKey (.string s) = .ok k ↔ parse s = .ok k := by
  rw [Toml.asKey, Toml.asString]
  dsimp only
  cases parse s with
  | ok k' =>
      dsimp only
      rw [Except.ok.injEq, Except.ok.injEq]
  | error e => exact iff_of_false nofun nofun

/-- A key is read back from its text just when its argument holds no parenthesis and has no blanks at
its ends, as that of every key which was read; so keys that were read are told apart by their texts.
A document reads a string as the key that the string is read as, and so reads a key back from the text
that is written for it. -/
theorem notation_roundTrip :
    (∀ k : StreamKey, parse k.text = .ok k ↔
      '(' ∉ k.argument.toList ∧ ')' ∉ k.argument.toList
        ∧ (∀ c ∈ k.argument.toList.head?, Text.isBlank c = false)
        ∧ ∀ c ∈ k.argument.toList.getLast?, Text.isBlank c = false)
    ∧ (∀ s k, parse s = .ok k → k.Legible ∧ parse k.text = .ok k)
    ∧ (∀ s s' k k', parse s = .ok k → parse s' = .ok k' → k.text = k'.text → k = k')
    ∧ (∀ s k, Toml.asKey (.string s) = .ok k ↔ parse s = .ok k)
    ∧ (∀ s k, parse s = .ok k → Toml.asKey (.string k.text) = .ok k)
    ∧ ∀ v k, Toml.asKey v = .ok k → Toml.asKey (.string k.text) = .ok k := by
  have hagain {s : String} {k : StreamKey} (h : parse s = .ok k) : parse k.text = .ok k :=
    parse_text_eq_ok_iff.2 (legible_of_parse h)
  have hloads {s : String} {k : StreamKey} (h : parse s = .ok k) :
      Toml.asKey (.string k.text) = .ok k :=
    asKey_string_eq_ok_iff.2 (hagain h)
  refine ⟨fun k => ?_, fun s k h => ⟨legible_of_parse h, hagain h⟩, ?_,
    fun s k => asKey_string_eq_ok_iff, fun s k => hloads, ?_⟩
  · rw [parse_text_eq_ok_iff]
    refine ⟨fun h => ⟨h.opening, h.closing, h.trimmed.first, h.trimmed.last⟩, ?_⟩
    rintro ⟨hopening, hclosing, hfirst, hlast⟩
    exact ⟨hopening, hclosing, ⟨hfirst, hlast⟩⟩
  · intro s s' k k' h h' htext
    have hsame : (Except.ok k : Except StreamError StreamKey) = .ok k' :=
      calc
        .ok k = parse k.text := (hagain h).symm
        _ = parse k'.text := by rw [htext]
        _ = .ok k' := hagain h'
    exact Except.ok.inj hsame
  · intro v k h
    obtain ⟨s, hparse⟩ := parse_of_asKey h
    exact hloads hparse

end StreamKey
end Telemetry
