import Mathlib.Data.List.Basic
import Mathlib.Data.List.Induction
import Telemetry.Config.Agent

/-!
# Sampling lists — every key once

The keys that an agent samples are those of its destinations, each of them once, in the order in which
they are mentioned first (`AgentConfig.firstMentions_sampledStreams`).
-/

namespace Telemetry

/-- The members of a list, ordered by where they stand in it first. -/
structure FirstMentions {α : Type} [DecidableEq α] (as firsts : List α) : Prop where
  mem_iff : ∀ a, a ∈ firsts ↔ a ∈ as
  ordered : firsts.Pairwise fun a b => as.idxOf a < as.idxOf b

namespace FirstMentions

variable {α : Type} [DecidableEq α] {as firsts : List α} {a : α}

theorem nodup (h : FirstMentions as firsts) : firsts.Nodup :=
  h.ordered.imp fun hlt => by
    rintro rfl
    exact Nat.lt_irrefl _ hlt

/-- What comes later does not move the members that are there. -/
theorem ordered_concat (h : FirstMentions as firsts) (a : α) :
    firsts.Pairwise fun b c => (as ++ [a]).idxOf b < (as ++ [a]).idxOf c := by
  apply h.ordered.imp_of_mem
  intro b c hb hc hlt
  rw [List.idxOf_append_of_mem ((h.mem_iff b).1 hb), List.idxOf_append_of_mem ((h.mem_iff c).1 hc)]
  exact hlt

theorem concat_of_mem (h : FirstMentions as firsts) (ha : a ∈ firsts) :
    FirstMentions (as ++ [a]) firsts where
  mem_iff b := by
    rw [h.mem_iff, List.mem_append, List.mem_singleton]
    refine ⟨.inl, ?_⟩
    rintro (hb | rfl)
    · exact hb
    · exact (h.mem_iff _).1 ha
  ordered := h.ordered_concat a

theorem concat_of_notMem (h : FirstMentions as firsts) (ha : a ∉ firsts) :
    FirstMentions (as ++ [a]) (firsts ++ [a]) where
  mem_iff b := by
    rw [List.mem_append, List.mem_append, h.mem_iff]
  ordered := by
    have hnew : (as ++ [a]).idxOf a = as.length := by
      have hnot : a ∉ as := fun hmem => ha ((h.mem_iff a).2 hmem)
      rw [List.idxOf_append_of_notMem hnot, List.idxOf_cons_self, Nat.add_zero]
    rw [List.pairwise_append]
    refine ⟨h.ordered_concat a, List.pairwise_singleton _ _, ?_⟩
    intro b hb c hc
    rw [List.mem_singleton.1 hc, hnew, List.idxOf_append_of_mem ((h.mem_iff b).1 hb)]
    exact List.idxOf_lt_length_of_mem ((h.mem_iff b).1 hb)

end FirstMentions

/-- Taking each member that is not there yet takes every member when it is mentioned first. -/
theorem firstMentions_foldl {α : Type} [DecidableEq α] (as : List α) :
    FirstMentions as (as.foldl (fun seen a => if a ∈ seen then seen else seen ++ [a]) []) := by
  induction as using List.reverseRecOn with
  | nil => exact ⟨fun a => Iff.rfl, .nil⟩
  | append_singleton as a ih =>
      rw [List.foldl_concat]
      split
      next hseen => exact ih.concat_of_mem hseen
      next hnew => exact ih.concat_of_notMem hnew

namespace AgentConfig

def shippedKeys (c : AgentConfig) : List StreamKey :=
  c.muxes.entries.flatMap fun m => m.channels.entries.map Channel.key

theorem firstMentions_sampledStreams (c : AgentConfig) :
    FirstMentions c.shippedKeys c.sampledStreams :=
  firstMentions_foldl c.shippedKeys

theorem mem_sampledStreams {c : AgentConfig} {m : Mux} (hm : m ∈ c.muxes.entries) {k : StreamKey}
    (hk : k ∈ m.channels.entries.map Channel.key) : k ∈ c.sampledStreams :=
  (c.firstMentions_sampledStreams.mem_iff k).2 (List.mem_flatMap.2 ⟨m, hm, hk⟩)

end AgentConfig
end Telemetry
