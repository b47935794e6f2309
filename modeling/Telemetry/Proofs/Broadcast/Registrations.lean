import Mathlib.Data.List.DropRight
import Mathlib.Data.Nat.Find
import Mathlib.Data.Set.Card
import Mathlib.Order.Interval.Finset.Nat
import Telemetry.Broadcast.Region
import Telemetry.Proofs.Broadcast.Admission

/-!
# Registrations — each is counted once

The admission word of a fresh region goes through calls in any order, readers registering and the master
advancing the epoch.  While no more registrations stand in a row than the low half can count, the word
keeps its epoch and the registrations that wait apart (`Admission.counts_after`).  So an advance answers
exactly the registrations since the advance before it (`Admission.registrations_counted`).
-/

namespace Telemetry
namespace Admission

/-! ## Calls -/

inductive Call where
  | register
  | advance
  deriving DecidableEq, Repr

def called (a : Admission) : Call → Admission
  | .register => a.register.2
  | .advance => a.advance.2

def after (a : Admission) (cs : List Call) : Admission :=
  cs.foldl called a

def answers (a : Admission) : List Call → List ℕ
  | [] => []
  | .register :: cs => a.register.2.answers cs
  | .advance :: cs => a.advance.1.toNat :: a.advance.2.answers cs

/-- The registrations behind the last advance. -/
def waiting (cs : List Call) : List Call :=
  cs.rtakeWhile (· = .register)

/-- The advance at position `j` is the first one behind the registration at position `i`. -/
structure Admits (cs : List Call) (i j : ℕ) : Prop where
  lt : i < j
  registers : ∀ k, i ≤ k → k < j → cs[k]? = some .register
  advances : cs[j]? = some .advance

/-- At no time do more readers wait than the low half of the word counts. -/
def Uncrowded (cs : List Call) : Prop :=
  ∀ n, List.replicate n Call.register <:+: cs → n < epochs

variable {a : Admission} {cs : List Call} {c : Call}

theorem after_cons (a : Admission) (c : Call) (cs : List Call) :
    a.after (c :: cs) = (a.called c).after cs := rfl

theorem after_concat (a : Admission) (cs : List Call) (c : Call) :
    a.after (cs ++ [c]) = (a.after cs).called c := by
  rw [after, List.foldl_concat]
  rfl

theorem answers_append (a : Admission) (cs cs' : List Call) :
    a.answers (cs ++ cs') = a.answers cs ++ (a.after cs).answers cs' := by
  induction cs generalizing a with
  | nil => rfl
  | cons c cs ih =>
      cases c with
      | register => simp only [List.cons_append, answers, after_cons, called, ih]
      | advance => simp only [List.cons_append, answers, after_cons, called, ih]

/-! ## Waiting readers -/

@[simp] theorem waiting_register (cs : List Call) :
    waiting (cs ++ [.register]) = waiting cs ++ [.register] :=
  List.rtakeWhile_concat_pos _ _ _ (by decide)

@[simp] theorem waiting_advance (cs : List Call) : waiting (cs ++ [.advance]) = [] :=
  List.rtakeWhile_concat_neg _ _ _ (by decide)

theorem waiting_eq_replicate (cs : List Call) :
    waiting cs = List.replicate (waiting cs).length .register := by
  refine List.eq_replicate_of_mem fun c hc => ?_
  simpa using List.mem_rtakeWhile_imp hc

theorem Uncrowded.mono {cs' : List Call} (h : Uncrowded cs) (hcs' : cs' <:+: cs) : Uncrowded cs' :=
  fun n hn => h n (hn.trans hcs')

theorem Uncrowded.length_waiting_lt (h : Uncrowded cs) : (waiting cs).length < epochs := by
  apply h
  rw [← waiting_eq_replicate]
  exact (List.rtakeWhile_suffix _ _).isInfix

/-- From a position on there are registrations only, exactly if it is where the last of them begin. -/
theorem registers_iff (cs : List Call) (i : ℕ) :
    (∀ k, i ≤ k → k < cs.length → cs[k]? = some .register) ↔ cs.length - (waiting cs).length ≤ i := by
  induction cs using List.reverseRecOn with
  | nil => simp
  | append_singleton cs c ih =>
      have hfront {k : ℕ} (hk : k < cs.length) : (cs ++ [c])[k]? = cs[k]? :=
        List.getElem?_append_left hk
      have hlast : (cs ++ [c])[cs.length]? = some c := List.getElem?_concat_length
      have hlength : (cs ++ [c]).length = cs.length + 1 := List.length_append
      cases c with
      | register =>
          have hwaiting : (waiting (cs ++ [.register])).length = (waiting cs).length + 1 := by simp
          rw [hlength, hwaiting, Nat.add_sub_add_right, ← ih]
          constructor
          · intro h k hik hk
            rw [← hfront hk]
            exact h k hik (Nat.lt_succ_of_lt hk)
          · intro h k hik hk
            rcases Nat.lt_succ_iff_lt_or_eq.1 hk with hlt | rfl
            · rw [hfront hlt]
              exact h k hik hlt
            · exact hlast
      | advance =>
          rw [hlength, waiting_advance, List.length_nil, Nat.sub_zero]
          constructor
          · intro h
            by_contra hi
            have hregister := h cs.length (by omega) (Nat.lt_succ_self _)
            rw [hlast] at hregister
            cases hregister
          · intro h k hik hk
            omega

/-- The registrations that an advance admits are those that wait for it. -/
theorem ncard_admits {j : ℕ} (hj : cs[j]? = some .advance) :
    Set.ncard {i | Admits cs i j} = (waiting (cs.take j)).length := by
  have hlt : j < cs.length := (List.getElem?_eq_some_iff.1 hj).1
  have hlength : (cs.take j).length = j := by simp [hlt.le]
  have hfront {k : ℕ} (hk : k < j) : (cs.take j)[k]? = cs[k]? := List.getElem?_take_of_lt hk
  have hle : (waiting (cs.take j)).length ≤ j := by
    have hsuffix : waiting (cs.take j) <:+ cs.take j := List.rtakeWhile_suffix _ _
    exact hsuffix.length_le.trans hlength.le
  have hadmits : {i | Admits cs i j} = ↑(Finset.Ico (j - (waiting (cs.take j)).length) j) := by
    ext i
    rw [Set.mem_ofPred_eq, Finset.coe_Ico, Set.mem_Ico]
    have hiff := registers_iff (cs.take j) i
    rw [hlength] at hiff
    rw [← hiff]
    constructor
    · intro h
      exact ⟨fun k hik hk => (hfront hk).trans (h.registers k hik hk), h.lt⟩
    · rintro ⟨hregisters, hi⟩
      exact ⟨hi, fun k hik hk => (hfront hk).symm.trans (hregisters k hik hk), hj⟩
  rw [hadmits, Set.ncard_coe_finset, Nat.card_Ico]
  omega

/-- Behind a registration there is one first advance, if there is any. -/
theorem existsUnique_admits {i j : ℕ} (hi : cs[i]? = some .register) (hij : i < j)
    (hj : cs[j]? = some .advance) : ∃! k, Admits cs i k := by
  classical
  have hsome : ∃ k, i < k ∧ cs[k]? = some .advance := ⟨j, hij, hj⟩
  have hfirst := Nat.find_spec hsome
  have hlength : Nat.find hsome < cs.length := (List.getElem?_eq_some_iff.1 hfirst.2).1
  refine ⟨Nat.find hsome, ⟨hfirst.1, fun k hik hk => ?_, hfirst.2⟩, ?_⟩
  · rcases Nat.eq_or_lt_of_le hik with rfl | hlt
    · exact hi
    · -- a call that is no advance is a registration
      have hnone : ¬(i < k ∧ cs[k]? = some .advance) := Nat.find_min hsome hk
      rw [List.getElem?_eq_getElem (hk.trans hlength)] at hnone ⊢
      cases hc : cs[k] with
      | register => rfl
      | advance => exact absurd ⟨hlt, congrArg some hc⟩ hnone
  · intro k hk
    have hle : Nat.find hsome ≤ k := Nat.find_min' hsome ⟨hk.lt, hk.advances⟩
    rcases Nat.eq_or_lt_of_le hle with hsame | hlt
    · exact hsame.symm
    · have hregister := hk.registers _ hfirst.1.le hlt
      rw [hfirst.2] at hregister
      cases hregister

/-! ## Runs -/

/-- The word counts the advances, and the registrations behind the last of them. -/
theorem counts_after (ha : a.Counts 0 0) (hcs : Uncrowded cs) :
    (a.after cs).Counts (cs.count .advance) (waiting cs).length := by
  induction cs using List.reverseRecOn with
  | nil => exact ha
  | append_singleton cs c ih =>
      have hbefore := ih (hcs.mono (List.prefix_append cs [c]).isInfix)
      have hroom := hcs.length_waiting_lt
      rw [after_concat]
      cases c with
      | register =>
          rw [waiting_register, List.length_append, List.length_singleton] at hroom ⊢
          simpa [called] using (hbefore.register hroom).2
      | advance => simpa [called] using hbefore.advance

/-- What advances answered and what still waits are all the registrations. -/
theorem sum_answers_add_waiting (ha : a.Counts 0 0) (hcs : Uncrowded cs) :
    (a.answers cs).sum + (waiting cs).length = cs.count .register := by
  induction cs using List.reverseRecOn with
  | nil => rfl
  | append_singleton cs c ih =>
      have hfront : Uncrowded cs := hcs.mono (List.prefix_append cs [c]).isInfix
      have hbefore := ih hfront
      rw [answers_append, List.sum_append, List.count_append]
      cases c with
      | register =>
          simp [answers]
          omega
      | advance =>
          have hanswer : (a.after cs).advance.1.toNat = (waiting cs).length :=
            (counts_after ha hfront).pending_eq
          simp [answers, hanswer]
          omega

/-- Whatever readers and the master call, a registration answers the number of advances before it modulo
the number of epochs, which is what the word shows for its epoch.  An advance answers the number of
registrations that it is the first advance behind, and there is one such advance for each registration
that has an advance behind it.  The answers and the low half of the word are all the registrations. -/
theorem registrations_counted (capacity : ℕ) (cs : List Call) (hcs : Uncrowded cs) :
    (∀ i, ((Region.fresh capacity).admission.after (cs.take i)).register.1.toNat
        = (cs.take i).count .advance % epochs
      ∧ ((Region.fresh capacity).admission.after (cs.take i)).epoch.toNat
        = (cs.take i).count .advance % epochs)
    ∧ (∀ j, cs[j]? = some .advance →
      ((Region.fresh capacity).admission.after (cs.take j)).advance.1.toNat
        = Set.ncard {i | Admits cs i j})
    ∧ (∀ i j, cs[i]? = some .register → i < j → cs[j]? = some .advance → ∃! k, Admits cs i k)
    ∧ ((Region.fresh capacity).admission.answers cs).sum
        + ((Region.fresh capacity).admission.after cs).pending.toNat = cs.count .register := by
  have hstart : (Region.fresh capacity).admission.Counts 0 0 := ⟨rfl, by decide⟩
  have hcounts (i : ℕ) := counts_after hstart (hcs.mono (List.take_prefix i cs).isInfix)
  have hepoch (i : ℕ) : ((Region.fresh capacity).admission.after (cs.take i)).epoch.toNat
      = (cs.take i).count .advance % epochs := by
    rw [(hcounts i).epoch_eq]
    exact UInt32.toNat_ofNat'
  refine ⟨fun i => ⟨hepoch i, hepoch i⟩, ?_, fun i j => existsUnique_admits, ?_⟩
  · intro j hj
    rw [ncard_admits hj]
    exact (hcounts j).pending_eq
  · rw [(counts_after hstart hcs).pending_eq]
    exact sum_answers_add_waiting hstart hcs

/-- Two readers register for the first advance, and one for the second. -/
theorem registrations_counted_twoAdvances :
    Uncrowded [.register, .register, .advance, .register, .advance]
    ∧ Set.ncard {i | Admits [.register, .register, .advance, .register, .advance] i 2} = 2 := by
  have hcs : Uncrowded [.register, .register, .advance, .register, .advance] := by
    intro n hn
    have hle : n ≤ 5 := by simpa using hn.length_le
    exact lt_of_le_of_lt hle (by decide)
  refine ⟨hcs, ?_⟩
  rw [← (registrations_counted 8 _ hcs).2.1 2 rfl]
  rfl

end Admission
end Telemetry
