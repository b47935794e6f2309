import Mathlib.Data.List.DropRight
import Mathlib.Data.Set.Operations
import Mathlib.Order.Basic
import Telemetry.Transport.MuxSender

/-!
# Throttling — what a tracker reports over a whole run

A tracker is fed one outcome after another, and `SendTracker.reports` lists what it says about each.
The counters are those of the outcomes (`SendTracker.Tracks`), whatever stands between two failures.  So
outages are reported for the first failure and every fiftieth, and a recovery is reported exactly for a
run of failures in which an outage was (`SendTracker.throttled`).  The tracker of a sender is fed the
outcomes of the datagrams that the sender hands over (`MuxSender.errors_sendAll`).
-/

namespace Telemetry

inductive SendOutcome where
  | failed
  | sent
  deriving DecidableEq, Repr

inductive SendReport where
  /-- a failure that is worth a report -/
  | outage
  /-- the end of so many failures in a row -/
  | recovery (failures : ℕ)
  deriving DecidableEq, Repr

namespace SendReport

def isRecovery : SendReport → Bool
  | outage => false
  | recovery _ => true

end SendReport

namespace SendTracker

/-! ## Runs -/

def record (t : SendTracker) : SendOutcome → SendTracker
  | .failed => t.fail.2
  | .sent => t.succeed.2

/-- What a tracker says about an outcome. -/
def report? (t : SendTracker) : SendOutcome → Option SendReport
  | .failed => if t.fail.1 then some .outage else none
  | .sent => t.succeed.1.map .recovery

def after (os : List SendOutcome) : SendTracker :=
  os.foldl record fresh

def reports (t : SendTracker) : List SendOutcome → List (Option SendReport)
  | [] => []
  | o :: os => t.report? o :: (t.record o).reports os

variable {t : SendTracker} {os : List SendOutcome} {o : SendOutcome}

theorem after_concat (os : List SendOutcome) (o : SendOutcome) :
    after (os ++ [o]) = (after os).record o := by
  rw [after, List.foldl_concat]
  rfl

theorem reports_append (t : SendTracker) (os os' : List SendOutcome) :
    t.reports (os ++ os') = t.reports os ++ (os.foldl record t).reports os' := by
  induction os generalizing t with
  | nil => rfl
  | cons o os ih => simp only [List.cons_append, reports, ih, List.foldl_cons]

theorem reports_concat (os : List SendOutcome) (o : SendOutcome) :
    fresh.reports (os ++ [o]) = fresh.reports os ++ [(after os).report? o] :=
  reports_append fresh os [o]

@[simp] theorem length_reports (t : SendTracker) (os : List SendOutcome) :
    (t.reports os).length = os.length := by
  induction os generalizing t with
  | nil => rfl
  | cons o os ih => simp only [reports, List.length_cons, ih]

theorem getElem?_reports_length (os : List SendOutcome) (o : SendOutcome) (os' : List SendOutcome) :
    (fresh.reports (os ++ o :: os'))[os.length]? = some ((after os).report? o) := by
  rw [reports_append, List.getElem?_append_right (by simp), length_reports, Nat.sub_self]
  rfl

/-! ## Outages -/

/-- A failure was reported at position `j`, and all is failure from there to position `i`. -/
structure OutageBefore (os : List SendOutcome) (j i : ℕ) : Prop where
  lt : j < i
  reported : (fresh.reports os)[j]? = some (some .outage)
  failures : ∀ k, j ≤ k → k < i → os[k]? = some .failed

/-- What follows a run changes nothing in it. -/
theorem outageBefore_append {j i : ℕ} (hi : i ≤ os.length) (os' : List SendOutcome) :
    OutageBefore (os ++ os') j i ↔ OutageBefore os j i := by
  have hreports (hj : j < i) : (fresh.reports (os ++ os'))[j]? = (fresh.reports os)[j]? := by
    rw [reports_append, List.getElem?_append_left (by simp; omega)]
  have houtcomes {k : ℕ} (hk : k < i) : (os ++ os')[k]? = os[k]? :=
    List.getElem?_append_left (by omega)
  constructor
  · intro h
    refine ⟨h.lt, hreports h.lt ▸ h.reported, fun k hjk hk => ?_⟩
    exact houtcomes hk ▸ h.failures k hjk hk
  · intro h
    refine ⟨h.lt, (hreports h.lt).trans h.reported, fun k hjk hk => ?_⟩
    exact (houtcomes hk).trans (h.failures k hjk hk)

theorem report?_failed : t.report? .failed = some .outage ↔ t.fail.1 = true := by
  simp [report?]

/-- One more failure goes on with the outage before it, or is reported itself. -/
theorem exists_outageBefore_failed (os : List SendOutcome) :
    (∃ j, OutageBefore (os ++ [.failed]) j (os.length + 1))
      ↔ (∃ j, OutageBefore os j os.length) ∨ (after os).fail.1 = true := by
  have hlast : (os ++ [SendOutcome.failed])[os.length]? = some .failed :=
    List.getElem?_concat_length
  constructor
  · rintro ⟨j, h⟩
    by_cases hj : j < os.length
    · have hbefore : OutageBefore (os ++ [.failed]) j os.length :=
        ⟨hj, h.reported, fun k hjk hk => h.failures k hjk (by omega)⟩
      exact .inl ⟨j, (outageBefore_append le_rfl _).1 hbefore⟩
    · have hsame : j = os.length := by
        have := h.lt
        omega
      have hreported := h.reported
      rw [hsame, getElem?_reports_length os .failed []] at hreported
      exact .inr (report?_failed.1 (Option.some.inj hreported))
  · rintro (⟨j, h⟩ | h)
    · have hbefore := (outageBefore_append le_rfl [.failed]).2 h
      refine ⟨j, Nat.lt_succ_of_lt h.lt, hbefore.reported, fun k hjk hk => ?_⟩
      rcases Nat.lt_succ_iff_lt_or_eq.1 hk with hlt | rfl
      · exact hbefore.failures k hjk hlt
      · exact hlast
    · refine ⟨os.length, Nat.lt_succ_self _, ?_, fun k hjk hk => ?_⟩
      · rw [getElem?_reports_length os .failed [], report?_failed.2 h]
      · have hsame : k = os.length := by omega
        rw [hsame, hlast]

theorem not_outageBefore_sent (os : List SendOutcome) (j : ℕ) :
    ¬OutageBefore (os ++ [.sent]) j (os.length + 1) := by
  intro h
  have hlast := h.failures os.length (Nat.lt_succ_iff.1 h.lt) (Nat.lt_succ_self _)
  simp at hlast

/-! ## Steps -/

/-- A failure is reported if it is the first, or its number is a multiple of the interval. -/
theorem fail_fst (t : SendTracker) : t.fail.1 = true ↔ t.total + 1 = 1 ∨ 50 ∣ t.total + 1 := by
  simp [fail, reportInterval, Nat.dvd_iff_mod_eq_zero]

theorem fail_snd (t : SendTracker) :
    t.fail.2 = ⟨t.total + 1, t.consecutive + 1, t.reported || t.fail.1⟩ := rfl

theorem succeed_snd (t : SendTracker) : t.succeed.2 = ⟨t.total, 0, false⟩ := rfl

theorem succeed_fst {n : ℕ} : t.succeed.1 = some n ↔
    n = t.consecutive ∧ 0 < n ∧ t.reported = true := by
  rw [succeed]
  constructor
  · intro h
    split at h
    next hrun =>
        cases h
        simp_all
    · contradiction
  · rintro ⟨rfl, hpos, hreported⟩
    simp [hpos, hreported]

/-- A tracker knows the failures of a run, those at its end, and whether one of these was reported. -/
structure Tracks (t : SendTracker) (os : List SendOutcome) : Prop where
  total_eq : t.total = os.count .failed
  consecutive_eq : t.consecutive = (os.rtakeWhile (· = .failed)).length
  reported_iff : t.reported = true ↔ ∃ j, OutageBefore os j os.length

theorem tracks_nil : fresh.Tracks [] where
  total_eq := rfl
  consecutive_eq := rfl
  reported_iff := by
    constructor
    · intro h
      contradiction
    · rintro ⟨j, h⟩
      exact absurd h.lt (Nat.not_lt_zero j)

theorem Tracks.record (h : (after os).Tracks os) (o : SendOutcome) :
    ((after os).record o).Tracks (os ++ [o]) := by
  cases o with
  | failed =>
      have hrun : (os ++ [SendOutcome.failed]).rtakeWhile (· = .failed)
          = os.rtakeWhile (· = .failed) ++ [SendOutcome.failed] :=
        List.rtakeWhile_concat_pos _ _ _ (by decide)
      refine ⟨?_, ?_, ?_⟩
      · simp [SendTracker.record, fail_snd, h.total_eq]
      · simp [SendTracker.record, fail_snd, hrun, h.consecutive_eq]
      · rw [SendTracker.record, fail_snd, Bool.or_eq_true, h.reported_iff, List.length_append]
        exact (exists_outageBefore_failed os).symm
  | sent =>
      have hrun : (os ++ [SendOutcome.sent]).rtakeWhile (· = .failed) = [] :=
        List.rtakeWhile_concat_neg _ _ _ (by decide)
      refine ⟨?_, ?_, ?_⟩
      · simp [SendTracker.record, succeed_snd, h.total_eq]
      · simp [SendTracker.record, succeed_snd, hrun]
      · have hnone : ¬∃ j, OutageBefore (os ++ [.sent]) j (os ++ [SendOutcome.sent]).length := by
          rintro ⟨j, hj⟩
          rw [List.length_append] at hj
          exact not_outageBefore_sent os j hj
        exact iff_of_false (by simp [SendTracker.record, succeed_snd]) hnone

theorem tracks_after (os : List SendOutcome) : (after os).Tracks os := by
  induction os using List.reverseRecOn with
  | nil => exact tracks_nil
  | append_singleton os o ih =>
      rw [after_concat]
      exact ih.record o

/-! ## Counts -/

/-- Outages are reported for the first failure and every fiftieth. -/
theorem count_outage_reports (os : List SendOutcome) :
    (fresh.reports os).count (some .outage)
      = min (os.count .failed) 1 + os.count .failed / 50 := by
  induction os using List.reverseRecOn with
  | nil => rfl
  | append_singleton os o ih =>
      rw [reports_concat, List.count_append, ih, List.count_append]
      cases o with
      | failed =>
          have hreported := fail_fst (after os)
          rw [(tracks_after os).total_eq] at hreported
          by_cases hfail : (after os).fail.1 = true
          · have hnumber := hreported.1 hfail
            simp [report?, hfail]
            omega
          · have hnumber := mt hreported.2 hfail
            simp [report?, hfail]
            omega
      | sent => simp [report?]

/-- Every recovery is the end of a run with a reported failure, and there may be one more such run. -/
theorem countP_recovery_reports_le (os : List SendOutcome) :
    (fresh.reports os).countP (·.any SendReport.isRecovery) + (after os).reported.toNat
      ≤ (fresh.reports os).count (some .outage) := by
  induction os using List.reverseRecOn with
  | nil => rfl
  | append_singleton os o ih =>
      rw [reports_concat, List.countP_append, List.count_append, after_concat]
      cases o with
      | failed =>
          by_cases hfail : (after os).fail.1 = true
          · simp [report?, record, fail_snd, hfail, SendReport.isRecovery]
            omega
          · simpa [report?, record, fail_snd, hfail] using ih
      | sent =>
          cases hsucceed : (after os).succeed.1 with
          | none =>
              simp [report?, record, succeed_snd, hsucceed]
              omega
          | some n =>
              have hreported := (succeed_fst.1 hsucceed).2.2
              simp [report?, record, succeed_snd, hsucceed, SendReport.isRecovery]
              simp [hreported] at ih
              omega

/-! ## Recoveries -/

/-- A recovery is the success at the end of an outage. -/
theorem exists_outageBefore_of_recovery {i n : ℕ}
    (h : (fresh.reports os)[i]? = some (some (.recovery n))) :
    os[i]? = some .sent ∧ ∃ j, OutageBefore os j i := by
  have hi : i < os.length := by
    rw [← length_reports fresh os]
    exact (List.getElem?_eq_some_iff.1 h).1
  -- the outcomes before it, itself, and those behind it
  have hsplit : os.take i ++ os[i] :: os.drop (i + 1) = os := by simp
  have hlength : (os.take i).length = i := by simp [hi.le]
  have hreport : (after (os.take i)).report? os[i] = some (.recovery n) := by
    have hlast := getElem?_reports_length (os.take i) os[i] (os.drop (i + 1))
    rw [hsplit, hlength, h] at hlast
    exact (Option.some.inj hlast).symm
  cases ho : os[i] with
  | failed =>
      rw [ho, report?] at hreport
      split at hreport
      · cases hreport
      · cases hreport
  | sent =>
      rw [ho, report?, Option.map_eq_some_iff] at hreport
      rcases hreport with ⟨m, hsucceed, -⟩
      have hreported := (succeed_fst.1 hsucceed).2.2
      rcases (tracks_after (os.take i)).reported_iff.1 hreported with ⟨j, hj⟩
      rw [hlength] at hj
      refine ⟨by rw [List.getElem?_eq_getElem hi, ho], j, ?_⟩
      rw [← hsplit]
      exact (outageBefore_append hlength.ge _).2 hj

def recoveries (os : List SendOutcome) : Set ℕ :=
  {i | ∃ n, (fresh.reports os)[i]? = some (some (.recovery n))}

/-- Two recoveries do not end one outage: a success stands between them. -/
theorem eq_of_outageBefore {i i' j : ℕ} (hi : i ∈ recoveries os) (hj : OutageBefore os j i)
    (hj' : OutageBefore os j i') : i' ≤ i := by
  rcases hi with ⟨n, hn⟩
  by_contra hlt
  have hsent : os[i]? = some .sent := (exists_outageBefore_of_recovery hn).1
  have hfailed : os[i]? = some .failed := hj'.failures i hj.lt.le (not_le.1 hlt)
  rw [hsent] at hfailed
  cases hfailed

/-- After any run the counters are the failures of the run and those at its end.  The next failure is
reported if it is the first or its number is a multiple of fifty, whatever successes there were, and the
next success is if it ends a run of failures with a reported one.  So each recovery comes with an outage
of its own in the run that it ends. -/
theorem throttled (os : List SendOutcome) :
    (after os).total = os.count .failed
    ∧ (after os).consecutive = (os.rtakeWhile (· = .failed)).length
    ∧ ((after os).fail.1 = true ↔ os.count .failed + 1 = 1 ∨ 50 ∣ os.count .failed + 1)
    ∧ (fresh.reports os).count (some .outage) = min (os.count .failed) 1 + os.count .failed / 50
    ∧ (∀ n, (after os).succeed.1 = some n ↔ n = (os.rtakeWhile (· = .failed)).length
      ∧ 1 ≤ n ∧ ∃ j, OutageBefore os j os.length)
    ∧ (fresh.reports os).countP (·.any SendReport.isRecovery)
      ≤ (fresh.reports os).count (some .outage)
    ∧ ∃ outage : ℕ → ℕ, Set.InjOn outage (recoveries os)
      ∧ ∀ i ∈ recoveries os, OutageBefore os (outage i) i := by
  have htracks := tracks_after os
  refine ⟨htracks.total_eq, htracks.consecutive_eq, ?_, count_outage_reports os, ?_, ?_, ?_⟩
  · rw [fail_fst, htracks.total_eq]
  · intro n
    rw [succeed_fst, htracks.consecutive_eq, htracks.reported_iff]
    rfl
  · exact le_trans (Nat.le_add_right _ _) (countP_recovery_reports_le os)
  · have hpair : ∀ i, ∃ j, i ∈ recoveries os → OutageBefore os j i := by
      intro i
      by_cases hi : i ∈ recoveries os
      · rcases hi with ⟨n, hn⟩
        rcases exists_outageBefore_of_recovery hn with ⟨-, j, hj⟩
        exact ⟨j, fun _ => hj⟩
      · exact ⟨0, fun h => absurd h hi⟩
    choose outage houtage using hpair
    refine ⟨outage, ?_, houtage⟩
    intro i hi i' hi' hsame
    have hj := houtage i hi
    have hj' := houtage i' hi'
    rw [← hsame] at hj'
    exact le_antisymm (eq_of_outageBefore hi' hj' hj) (eq_of_outageBefore hi hj hj')

/-- Of two short runs of failures only the one with the first failure of all is reported to end. -/
theorem throttled_twoRuns :
    fresh.reports [.failed, .failed, .sent, .failed, .sent]
      = [some .outage, none, some (.recovery 2), none, none]
    ∧ ∃ j, OutageBefore [.failed, .failed, .sent, .failed, .sent] j 2 := by
  rcases (throttled [.failed, .failed, .sent, .failed, .sent]).2.2.2.2.2.2 with ⟨outage, -, houtage⟩
  exact ⟨by decide, outage 2, houtage 2 ⟨2, by decide⟩⟩

end SendTracker

/-! ## Senders -/

namespace MuxSender

variable (link : Link) (s : MuxSender)

theorem send_keeps (d : List UInt8) :
    (s.send link d).2.name = s.name ∧ (s.send link d).2.remote = s.remote := by
  rw [send]
  split
  · exact ⟨rfl, rfl⟩
  · split
    · exact ⟨rfl, rfl⟩
    · exact ⟨rfl, rfl⟩

theorem sendAll_concat (ds : List (List UInt8)) (d : List UInt8) :
    s.sendAll link (ds ++ [d])
      = match (s.sendAll link ds).2.send link d with
        | (.ok (), s') => ((s.sendAll link ds).1 ++ [d], s')
        | (.error _, s') => ((s.sendAll link ds).1, s') := by
  rw [sendAll, List.foldl_concat]
  rfl

theorem sendAll_concat_snd (ds : List (List UInt8)) (d : List UInt8) :
    (s.sendAll link (ds ++ [d])).2 = ((s.sendAll link ds).2.send link d).2 := by
  rw [sendAll_concat]
  generalize (s.sendAll link ds).2.send link d = result
  obtain ⟨_ | _, s'⟩ := result
  · rfl
  · rfl

theorem sendAll_keeps (ds : List (List UInt8)) :
    (s.sendAll link ds).2.name = s.name ∧ (s.sendAll link ds).2.remote = s.remote := by
  induction ds using List.reverseRecOn with
  | nil => exact ⟨rfl, rfl⟩
  | append_singleton ds d ih =>
      have hsend := (s.sendAll link ds).2.send_keeps link d
      rw [ih.1, ih.2] at hsend
      rw [sendAll_concat_snd]
      exact hsend

def outcome? (link : Link) (remote : SocketAddress) (d : List UInt8) : Option SendOutcome :=
  if maxDatagram < d.length then none
  else some (if (link remote d).isSome then .failed else .sent)

theorem errors_send (d : List UInt8) : (s.send link d).2.errors
    = (outcome? link s.remote d).toList.foldl SendTracker.record s.errors := by
  rw [send, outcome?]
  split
  · rfl
  · split
    next hlink => simp [hlink, SendTracker.record]
    next fault hlink => simp [hlink, SendTracker.record]

/-- A sender's tracker is fed the outcomes of the datagrams that are handed over. -/
theorem errors_sendAll (ds : List (List UInt8)) : (s.sendAll link ds).2.errors
    = (ds.filterMap (outcome? link s.remote)).foldl SendTracker.record s.errors := by
  induction ds using List.reverseRecOn with
  | nil => rfl
  | append_singleton ds d ih =>
      have hlast : [d].filterMap (outcome? link s.remote) = (outcome? link s.remote d).toList := by
        cases h : outcome? link s.remote d with
        | none => simp [h]
        | some o => simp [h]
      rw [sendAll_concat_snd, errors_send, (s.sendAll_keeps link ds).2, ih, List.filterMap_append,
        hlast, List.foldl_append]

end MuxSender
end Telemetry
