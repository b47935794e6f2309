/-!
# Separated — parts told apart by a separator

Parts that do not hold the separator are found again between the separators
(`splitOn_append_flatMap`).  A part that may hold it is found again if it is known how often the
separator stands behind it (`append_cons_inj_of_count`).
-/

namespace Telemetry
namespace Text

variable {sep : Char} {x : List Char} {xs : List (List Char)}

theorem splitOn_append_flatMap (hx : sep ∉ x) (hxs : ∀ y ∈ xs, sep ∉ y) :
    (x ++ xs.flatMap (sep :: ·)).splitOn sep = x :: xs := by
  induction xs generalizing x with
  | nil => simpa using List.splitOn_eq_singleton hx
  | cons y xs ih =>
      rw [List.forall_mem_cons] at hxs
      rw [List.flatMap_cons, List.cons_append, List.splitOn_append_cons_self_of_not_mem hx,
        ih hxs.1 hxs.2]

theorem count_append_flatMap (hx : sep ∉ x) (hxs : ∀ y ∈ xs, sep ∉ y) :
    (x ++ xs.flatMap (sep :: ·)).count sep = xs.length := by
  induction xs generalizing x with
  | nil => simpa using List.count_eq_zero.2 hx
  | cons y xs ih =>
      rw [List.forall_mem_cons] at hxs
      rw [List.flatMap_cons, List.cons_append, List.count_append, List.count_cons_self,
        ih hxs.1 hxs.2, List.count_eq_zero.2 hx, Nat.zero_add, List.length_cons]

/-- Separators in front of the parts, or behind them. -/
theorem cons_flatMap_concat (sep : Char) (xs : List (List Char)) (rest : List Char) :
    sep :: (xs.flatMap (· ++ [sep]) ++ rest) = xs.flatMap (sep :: ·) ++ sep :: rest := by
  induction xs with
  | nil => rfl
  | cons x xs ih => simp [← ih]

/-- The cut is where as many separators follow as are known to. -/
theorem append_cons_inj_of_count {x y x' y' : List Char} (hcount : y.count sep = y'.count sep)
    (h : x ++ sep :: y = x' ++ sep :: y') : x = x' ∧ y = y' := by
  -- a part in between would begin with a separator that only one side counts
  have hmid {y y' mid : List Char} (hcount : y.count sep = y'.count sep)
      (hy : sep :: y = mid ++ sep :: y') : mid = [] := by
    cases mid with
    | nil => rfl
    | cons c mid =>
        simp only [List.cons_append, List.cons.injEq] at hy
        rw [hy.2, List.count_append, List.count_cons_self] at hcount
        omega
  rcases List.append_eq_append_iff.1 h with ⟨mid, hx, hy⟩ | ⟨mid, hx, hy⟩
  · rw [hmid hcount hy] at hx hy
    simp_all
  · rw [hmid hcount.symm hy] at hx hy
    simp_all

/-- The cut is at the first separator. -/
theorem append_cons_inj_of_notMem {x y x' y' : List Char} (hx : sep ∉ x) (hx' : sep ∉ x')
    (h : x ++ sep :: y = x' ++ sep :: y') : x = x' ∧ y = y' := by
  have hcount : x.reverse.count sep = x'.reverse.count sep := by
    rw [List.count_reverse, List.count_reverse, List.count_eq_zero.2 hx, List.count_eq_zero.2 hx']
  have hback : y.reverse ++ sep :: x.reverse = y'.reverse ++ sep :: x'.reverse := by
    simpa using congrArg List.reverse h
  obtain ⟨hy, hx⟩ := append_cons_inj_of_count hcount hback
  exact ⟨List.reverse_inj.1 hx, List.reverse_inj.1 hy⟩

end Text
end Telemetry
