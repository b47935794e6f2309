import Mathlib.Dynamics.PeriodicPts.Defs
import Mathlib.Tactic.NormNum.Prime
import Telemetry.Packet.Checksum

/-!
# Polynomial — the register of the checksum as a polynomial over the field of two elements

Bit `31 - k` of a register is the coefficient of `x ^ k`.  Shifting a register multiplies it by `x`
modulo the polynomial of the checksum, so `power k` is `x ^ k`, and a register is a `sum` of powers.

* `sum_ne_zero_of_window`: distinct powers out of 32 consecutive ones do not cancel.
* `power_injective_below`: the powers below `period` are distinct, as the polynomial is primitive.
-/

namespace Telemetry
namespace Checksum

/-! ## Linear maps -/

/-- Maps of registers that respect the sum of polynomials. -/
structure Linear (f : BitVec 32 → BitVec 32) : Prop where
  map_xor : ∀ a b, f (a ^^^ b) = f a ^^^ f b

namespace Linear

variable {f g : BitVec 32 → BitVec 32}

theorem map_zero (hf : Linear f) : f 0#32 = 0#32 := by
  have h := hf.map_xor 0#32 0#32
  rw [BitVec.xor_self, BitVec.xor_self] at h
  exact h

theorem comp (hf : Linear f) (hg : Linear g) : Linear fun a => f (g a) where
  map_xor a b := by rw [hg.map_xor, hf.map_xor]

theorem iterate (hf : Linear f) (n : Nat) : Linear f^[n] := by
  induction n with
  | zero =>
      exact ⟨fun _ _ => rfl⟩
  | succ n ih =>
      exact ih.comp hf

end Linear

theorem linear_shiftBit : Linear shiftBit where
  map_xor a b := by
    have hcancel : ∀ u v : BitVec 32, u ^^^ polynomial ^^^ (v ^^^ polynomial) = u ^^^ v := by
      intro u v
      rw [BitVec.xor_assoc, BitVec.xor_comm v, ← BitVec.xor_assoc polynomial, BitVec.xor_self,
        BitVec.zero_xor]
    simp only [shiftBit, BitVec.getLsbD_xor, BitVec.ushiftRight_xor_distrib]
    cases a.getLsbD 0 <;> cases b.getLsbD 0
    · rfl
    · exact BitVec.xor_assoc _ _ _
    · simp only [Bool.xor_false, if_true, Bool.false_eq_true, if_false]
      rw [BitVec.xor_assoc, BitVec.xor_assoc, BitVec.xor_comm polynomial]
    · exact (hcancel _ _).symm

theorem linear_shiftBits (n : Nat) : Linear (shiftBits n) := by
  induction n with
  | zero =>
      exact ⟨fun _ _ => rfl⟩
  | succ n ih =>
      exact ih.comp linear_shiftBit

theorem shiftBits_add (m n : Nat) (r : BitVec 32) :
    shiftBits (m + n) r = shiftBits m (shiftBits n r) := by
  induction n generalizing r with
  | zero =>
      rfl
  | succ n ih =>
      exact ih (shiftBit r)

/-- A register that is shifted to zero is zero: the polynomial has a constant term. -/
theorem eq_zero_of_shiftBit {r : BitVec 32} (h : shiftBit r = 0#32) : r = 0#32 := by
  have hhigh : (r >>> 1).getLsbD 31 = false := by simp
  rw [shiftBit] at h
  split at h
  next =>
    have hr : r >>> 1 = polynomial := BitVec.xor_eq_zero_iff.1 h
    rw [hr] at hhigh
    exact absurd hhigh (by decide)
  next hlow =>
    refine BitVec.eq_of_getLsbD_eq fun i hi => ?_
    cases i with
    | zero =>
        simpa using hlow
    | succ i =>
        have hbit : (r >>> 1).getLsbD i = false := by rw [h, BitVec.getLsbD_zero]
        rw [BitVec.getLsbD_ushiftRight, Nat.add_comm] at hbit
        rw [hbit, BitVec.getLsbD_zero]

theorem eq_zero_of_shiftBits {n : Nat} {r : BitVec 32} (h : shiftBits n r = 0#32) : r = 0#32 := by
  induction n generalizing r with
  | zero =>
      exact h
  | succ n ih =>
      exact eq_zero_of_shiftBit (ih h)

/-! ## Powers and their sums -/

/-- The polynomial `1`. -/
def one : BitVec 32 := 0x80000000#32

/-- The polynomial `x ^ k`. -/
def power (k : Nat) : BitVec 32 :=
  shiftBits k one

theorem shiftBits_power (n k : Nat) : shiftBits n (power k) = power (n + k) :=
  (shiftBits_add n k one).symm

theorem power_ne_zero (k : Nat) : power k ≠ 0#32 := by
  intro h
  exact absurd (eq_zero_of_shiftBits h) (by decide)

/-- The first 32 powers are single bits. -/
theorem getLsbD_power {k t : Nat} (hk : k < 32) (ht : t < 32) :
    (power k).getLsbD (31 - t) = decide (k = t) := by
  have h : ∀ k : Fin 32, ∀ t : Fin 32, (power k).getLsbD (31 - t) = decide (k = t) := by
    decide +kernel
  have := h ⟨k, hk⟩ ⟨t, ht⟩
  simpa [Fin.ext_iff] using this

def sum (ks : List Nat) : BitVec 32 :=
  ks.foldr (fun k r => power k ^^^ r) 0#32

@[simp] theorem sum_nil : sum [] = 0#32 := rfl

@[simp] theorem sum_cons (k : Nat) (ks : List Nat) : sum (k :: ks) = power k ^^^ sum ks := rfl

theorem sum_append (ks ls : List Nat) : sum (ks ++ ls) = sum ks ^^^ sum ls := by
  induction ks with
  | nil =>
      rw [List.nil_append, sum_nil, BitVec.zero_xor]
  | cons k ks ih =>
      rw [List.cons_append, sum_cons, sum_cons, ih, BitVec.xor_assoc]

theorem shiftBits_sum (n : Nat) (ks : List Nat) : shiftBits n (sum ks) = sum (ks.map (n + ·)) := by
  induction ks with
  | nil =>
      exact (linear_shiftBits n).map_zero
  | cons k ks ih =>
      rw [sum_cons, (linear_shiftBits n).map_xor, ih, shiftBits_power, List.map_cons, sum_cons]

/-- The coefficient of `x ^ t` counts the exponents `t`. -/
theorem getLsbD_sum {ks : List Nat} (hks : ∀ k ∈ ks, k < 32) {t : Nat} (ht : t < 32) :
    (sum ks).getLsbD (31 - t) = decide (ks.count t % 2 = 1) := by
  induction ks with
  | nil =>
      simp
  | cons k ks ih =>
      rw [sum_cons, BitVec.getLsbD_xor, getLsbD_power (hks k List.mem_cons_self) ht,
        ih fun l hl => hks l (List.mem_cons_of_mem k hl), List.count_cons]
      -- the head turns the parity exactly if it is `t`
      by_cases h : k = t
      · simp only [h, beq_self_eq_true, if_true, decide_true, Bool.true_xor]
        rw [← decide_not]
        exact decide_eq_decide.2 (by omega)
      · simp [h]

/-- Distinct powers out of 32 consecutive ones do not cancel. -/
theorem sum_ne_zero_of_window {ks : List Nat} {m : Nat} (hnodup : ks.Nodup) (hne : ks ≠ [])
    (hks : ∀ k ∈ ks, m ≤ k ∧ k < m + 32) : sum ks ≠ 0#32 := by
  -- divided by `x ^ m`, the powers are bits of one register
  let ls := ks.map (· - m)
  have hback : ls.map (m + ·) = ks := by
    rw [List.map_map]
    refine (List.map_congr_left fun k hk => ?_).trans (List.map_id' ks)
    have := hks k hk
    simp only [Function.comp_apply]
    omega
  have hls : ∀ l ∈ ls, l < 32 := by
    refine List.forall_mem_map.2 fun k hk => ?_
    have := hks k hk
    omega
  have hlnodup : ls.Nodup := List.Nodup.of_map _ (hback ▸ hnodup)
  intro hzero
  rw [← hback, ← shiftBits_sum] at hzero
  obtain ⟨l, hl⟩ := List.exists_mem_of_ne_nil ls fun h => hne (by rw [← hback, h]; rfl)
  have hbit := getLsbD_sum hls (hls l hl)
  rw [eq_zero_of_shiftBits hzero, hlnodup.count, if_pos hl] at hbit
  exact absurd hbit (by simp)

/-- Every register is the sum of the powers that its bits name. -/
theorem exists_eq_sum (a : BitVec 32) : ∃ ks : List Nat, (∀ k ∈ ks, k < 32) ∧ a = sum ks := by
  let ks := (List.range 32).filter fun k => a.getLsbD (31 - k)
  have hks : ∀ k ∈ ks, k < 32 := fun k hk => List.mem_range.1 (List.mem_filter.1 hk).1
  refine ⟨ks, hks, BitVec.eq_of_getLsbD_eq fun i hi => ?_⟩
  have hbit := getLsbD_sum hks (t := 31 - i) (by omega)
  rw [show 31 - (31 - i) = i by omega] at hbit
  have hcount : ks.count (31 - i) = if a.getLsbD i then 1 else 0 := by
    rw [(List.nodup_range.filter _).count]
    simp only [List.mem_filter, List.mem_range, show 31 - (31 - i) = i by omega]
    simp only [show 31 - i < 32 by omega, true_and]
  rw [hbit, hcount]
  cases a.getLsbD i <;> rfl

/-- Linear maps are equal if they agree on the first 32 powers. -/
theorem Linear.ext_power {f g : BitVec 32 → BitVec 32} (hf : Linear f) (hg : Linear g)
    (h : ∀ k : Fin 32, f (power k) = g (power k)) (a : BitVec 32) : f a = g a := by
  obtain ⟨ks, hks, rfl⟩ := exists_eq_sum a
  induction ks with
  | nil =>
      exact hf.map_zero.trans hg.map_zero.symm
  | cons k ks ih =>
      rw [sum_cons, hf.map_xor, hg.map_xor, ih fun l hl => hks l (List.mem_cons_of_mem k hl),
        h ⟨k, hks k List.mem_cons_self⟩]

/-! ## Squares -/

/-- Coefficients of a register, spread to the even exponents. -/
def spread (a : BitVec 32) (ks : List Nat) : BitVec 32 :=
  ks.foldr (fun k r => shiftBits 2 r ^^^ if a.getLsbD (31 - k) then one else 0#32) 0#32

/-- The square of a polynomial: over two elements, it is the polynomial in `x ^ 2`. -/
def square (a : BitVec 32) : BitVec 32 :=
  spread a (List.range 32)

theorem linear_spread (ks : List Nat) : Linear fun a => spread a ks := by
  induction ks with
  | nil =>
      exact ⟨fun _ _ => BitVec.xor_self.symm⟩
  | cons k ks ih =>
      refine ⟨fun a b => ?_⟩
      have hcoefficient : (if (a ^^^ b).getLsbD (31 - k) then one else 0#32)
          = (if a.getLsbD (31 - k) then one else 0#32)
            ^^^ if b.getLsbD (31 - k) then one else 0#32 := by
        rw [BitVec.getLsbD_xor]
        cases a.getLsbD (31 - k) <;> cases b.getLsbD (31 - k) <;> decide
      have hrest : shiftBits 2 (spread (a ^^^ b) ks)
          = shiftBits 2 (spread a ks) ^^^ shiftBits 2 (spread b ks) := by
        rw [ih.map_xor, (linear_shiftBits 2).map_xor]
      show shiftBits 2 (spread (a ^^^ b) ks) ^^^ _
        = shiftBits 2 (spread a ks) ^^^ _ ^^^ (shiftBits 2 (spread b ks) ^^^ _)
      rw [hcoefficient, hrest]
      ac_rfl

theorem linear_square : Linear square :=
  linear_spread (List.range 32)

theorem square_shiftBit (a : BitVec 32) : square (shiftBit a) = shiftBits 2 (square a) :=
  (linear_square.comp linear_shiftBit).ext_power ((linear_shiftBits 2).comp linear_square)
    (by decide +kernel) a

theorem square_power (n : Nat) : square (power n) = power (2 * n) := by
  induction n with
  | zero =>
      decide +kernel
  | succ n ih =>
      rw [Nat.add_comm n, ← shiftBits_power 1 n, Nat.mul_add, ← shiftBits_power (2 * 1), ← ih]
      exact square_shiftBit (power n)

/-- Continue with an evaluated register: a number is evaluated before it is matched. -/
def evaluated (r : BitVec 32) (f : BitVec 32 → BitVec 32) : BitVec 32 :=
  match r.toNat with
  | 0 => f 0#32
  | n + 1 => f (BitVec.ofNat 32 (n + 1))

theorem evaluated_eq (r : BitVec 32) (f : BitVec 32 → BitVec 32) : evaluated r f = f r := by
  have hr : BitVec.ofNat 32 r.toNat = r := BitVec.eq_of_toNat_eq (by simp)
  rw [evaluated]
  split
  next h => rw [← hr, h]
  next n h => rw [Nat.add_one, ← h, hr]

/-- Square a register for each binary digit, and multiply it by `x` for each one among them. -/
def raise (r : BitVec 32) : (digits : List Bool) → BitVec 32
  | [] => r
  | false :: digits => evaluated (square r) fun s => raise s digits
  | true :: digits => evaluated (shiftBit (square r)) fun s => raise s digits

/-- The number with further binary digits, most significant first. -/
def ofDigits (n : Nat) : (digits : List Bool) → Nat
  | [] => n
  | false :: digits => ofDigits (2 * n) digits
  | true :: digits => ofDigits (2 * n + 1) digits

theorem raise_power (n : Nat) (digits : List Bool) :
    raise (power n) digits = power (ofDigits n digits) := by
  induction digits generalizing n with
  | nil =>
      rfl
  | cons b digits ih =>
      cases b with
      | false =>
          rw [raise, evaluated_eq, square_power, ih, ofDigits]
      | true =>
          have hshift : shiftBit (power (2 * n)) = power (2 * n + 1) := by
            rw [Nat.add_comm, ← shiftBits_power]
            rfl
          rw [raise, evaluated_eq, square_power, hshift, ih, ofDigits]

/-! ## The order of `x` -/

/-- The order of `x`: as many as there are nonzero polynomials. -/
def period : Nat := 4294967295

def digits (n : Nat) : List Bool :=
  (List.range 32).map fun i => n.testBit (31 - i)

theorem power_period : power period = one := by
  have hdigits : ofDigits 0 (digits period) = period := by decide +kernel
  rw [← hdigits, ← raise_power]
  decide +kernel

/-- The order of `x` is no proper divisor of `period`. -/
theorem power_period_div {q : Nat} (hq : q ∈ [3, 5, 17, 257, 65537]) :
    power (period / q) ≠ one := by
  have h : ∀ q ∈ [3, 5, 17, 257, 65537],
      ofDigits 0 (digits (period / q)) = period / q
        ∧ raise (power 0) (digits (period / q)) ≠ one := by
    decide +kernel
  obtain ⟨hdigits, hraise⟩ := h q hq
  rw [← hdigits, ← raise_power]
  exact hraise

theorem mem_of_prime_dvd_period {q : Nat} (hq : q.Prime) (h : q ∣ period) :
    q ∈ [3, 5, 17, 257, 65537] := by
  rw [show period = 3 * 5 * 17 * 257 * 65537 from rfl] at h
  simp only [hq.dvd_mul] at h
  have hprime : ∀ {p}, p.Prime → q ∣ p → q = p := fun hp => (Nat.prime_dvd_prime_iff_eq hq hp).1
  rcases h with (((h | h) | h) | h) | h
  · simp [hprime (by norm_num) h]
  · simp [hprime (by norm_num) h]
  · simp [hprime (by norm_num) h]
  · simp [hprime (by norm_num) h]
  · simp [hprime (by norm_num) h]

theorem iterate_shiftBit (n : Nat) (r : BitVec 32) : shiftBit^[n] r = shiftBits n r := by
  induction n generalizing r with
  | zero =>
      rfl
  | succ n ih =>
      exact ih (shiftBit r)

theorem minimalPeriod_shiftBit : Function.minimalPeriod shiftBit one = period := by
  have hperiodic : ∀ {n}, Function.IsPeriodicPt shiftBit n one ↔ power n = one := by
    intro n
    rw [Function.IsPeriodicPt, Function.IsFixedPt, iterate_shiftBit, power]
  obtain ⟨c, hc⟩ := (hperiodic.2 power_period).minimalPeriod_dvd
  by_cases hone : c = 1
  · rw [hc, hone, Nat.mul_one]
  -- otherwise a prime divides the cofactor, and the order divides the rest
  · obtain ⟨q, hq, hdvd⟩ := Nat.exists_prime_and_dvd hone
    obtain ⟨e, he⟩ := hdvd
    have hmem := mem_of_prime_dvd_period hq (hc ▸ (he ▸ Dvd.intro e rfl : q ∣ c).mul_left _)
    have hdiv : period / q = Function.minimalPeriod shiftBit one * e := by
      rw [hc, he, Nat.mul_left_comm, Nat.mul_div_cancel_left _ hq.pos]
    have hshort : Function.IsPeriodicPt shiftBit (period / q) one := by
      rw [hdiv]
      exact (Function.isPeriodicPt_minimalPeriod shiftBit one).mul_const e
    exact absurd (hperiodic.1 hshort) (power_period_div hmem)

/-- The powers below the order of `x` are distinct. -/
theorem power_injective_below {i j : Nat} (hi : i < period) (hj : j < period)
    (h : power i = power j) : i = j := by
  rw [← minimalPeriod_shiftBit] at hi hj
  refine Function.iterate_injOn_Iio_minimalPeriod hi hj ?_
  simp only [iterate_shiftBit]
  exact h

/-- One power, or two distinct ones below the order of `x`, do not cancel. -/
theorem sum_ne_zero_of_two {ks : List Nat} (hnodup : ks.Nodup)
    (hlength : ks.length = 1 ∨ ks.length = 2) (hks : ∀ k ∈ ks, k < period) : sum ks ≠ 0#32 := by
  intro hzero
  match ks, hlength with
  | [k], _ =>
      rw [sum_cons, sum_nil, BitVec.xor_zero] at hzero
      exact power_ne_zero k hzero
  | [k, l], _ =>
      rw [sum_cons, sum_cons, sum_nil, BitVec.xor_zero, BitVec.xor_eq_zero_iff] at hzero
      have hkl := power_injective_below (hks k (by simp)) (hks l (by simp)) hzero
      simp [hkl] at hnodup

end Checksum
end Telemetry
