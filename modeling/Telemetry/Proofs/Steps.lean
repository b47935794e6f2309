import Mathlib.Data.List.Forall2

/-!
# Steps — computations that may fail

What is known of a computation made of steps, each of which may fail, once it has succeeded.
-/

namespace Telemetry

variable {ε α β γ : Type}

theorem ok_of_toOption {x : Except ε α} {a : α} (h : x.toOption = some a) : x = .ok a := by
  cases x with
  | error e => contradiction
  | ok b => exact congrArg Except.ok (Option.some.inj h)

theorem error_of_toOption {x : Except ε α} (h : x.toOption = none) : ∃ e, x = .error e := by
  cases x with
  | error e => exact ⟨e, rfl⟩
  | ok b => contradiction

/-- What comes of two steps, if they succeed, comes of the second. -/
theorem ok_of_bind {x : Except ε α} {f : α → Except ε β} {b : β} (h : x >>= f = .ok b) :
    ∃ a, x = .ok a ∧ f a = .ok b := by
  cases x with
  | error e => contradiction
  | ok a => exact ⟨a, rfl, h⟩

theorem bind_eq_ok_iff {x : Except ε α} {f : α → Except ε β} {b : β} :
    x >>= f = .ok b ↔ ∃ a, x = .ok a ∧ f a = .ok b := by
  refine ⟨ok_of_bind, ?_⟩
  rintro ⟨a, rfl, h⟩
  exact h

theorem map_eq_ok {x : Except ε α} {f : α → β} {b : β} (h : x.map f = .ok b) :
    ∃ a, x = .ok a ∧ b = f a := by
  cases x with
  | error e => contradiction
  | ok a =>
      cases h
      exact ⟨a, rfl, rfl⟩

/-! ## Along a list -/

theorem forall₂_of_mapM {f : α → Except ε β} {as : List α} {bs : List β} (h : as.mapM f = .ok bs) :
    List.Forall₂ (fun a b => f a = .ok b) as bs := by
  induction as generalizing bs with
  | nil =>
      cases h
      exact .nil
  | cons a as ih =>
      rw [List.mapM_cons] at h
      obtain ⟨b, hb, h⟩ := ok_of_bind h
      obtain ⟨rest, hrest, h⟩ := ok_of_bind h
      cases h
      exact .cons hb (ih hrest)

theorem mapM_eq_ok_iff {f : α → Except ε β} {as : List α} {bs : List β} :
    as.mapM f = .ok bs ↔ List.Forall₂ (fun a b => f a = .ok b) as bs := by
  refine ⟨forall₂_of_mapM, fun h => ?_⟩
  induction h with
  | nil => rfl
  | cons ha _ ih =>
      rw [List.mapM_cons, ha, ih]
      rfl

/-- Steps that each put in what an entry asks for put in what the list asks for. -/
theorem foldl_of_foldlM {take : γ → α → Except ε γ} {asks : α → β → Prop} {add : γ → β → γ}
    (hstep : ∀ {c a c'}, take c a = .ok c' → ∃ b, asks a b ∧ c' = add c b) {as : List α} {c c' : γ}
    (h : as.foldlM take c = .ok c') : ∃ bs, List.Forall₂ asks as bs ∧ c' = bs.foldl add c := by
  induction as generalizing c with
  | nil =>
      cases h
      exact ⟨[], .nil, rfl⟩
  | cons a as ih =>
      rw [List.foldlM_cons] at h
      obtain ⟨next, hnext, hrest⟩ := ok_of_bind h
      obtain ⟨b, hb, rfl⟩ := hstep hnext
      obtain ⟨bs, hbs, rfl⟩ := ih hrest
      exact ⟨b :: bs, .cons hb hbs, rfl⟩

variable {f g : β → α → Except ε β} {as : List α} {b b' : β}

/-- Steps that succeed alike come to the same end. -/
theorem foldlM_mono (hstep : ∀ {b a b'}, f b a = .ok b' → g b a = .ok b')
    (h : as.foldlM f b = .ok b') : as.foldlM g b = .ok b' := by
  induction as generalizing b with
  | nil => exact h
  | cons a as ih =>
      rw [List.foldlM_cons] at h ⊢
      obtain ⟨next, hnext, h⟩ := ok_of_bind h
      rw [hstep hnext]
      exact ih h

end Telemetry
