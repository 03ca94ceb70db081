import AudioGraph.Properties.Compilation
import AudioGraph.Properties.Diagnosis

namespace AudioGraph

open Dependency Relation

theorem Feeds.mono {edges edges' : List Edge} (hsub : ∀ e ∈ edges, e ∈ edges') (a b : NodeId)
    (h : Feeds edges a b) : Feeds edges' a b := by
  obtain ⟨e, he, hsrc, hdst⟩ := h
  exact ⟨e, hsub e he, hsrc, hdst⟩

section

variable [AudioCore] {P S : Type} [AudioNode P] [SinkNode S]

namespace Graph

theorem compile_of_uncompiled {g : Graph P S} (hc : g.compiled = false) (config : GraphConfig) :
    (∃ remaining, topologicalSort g.nodeCount g.edges = .error remaining ∧
      (g.compile config).2 = .error (.cycleDetected remaining)) ∨
    (∃ order, topologicalSort g.nodeCount g.edges = .ok order) ∧ (g.compile config).2 = .ok () := by
  unfold compile nodeCount
  cases hsort : topologicalSort g.scratch.nodes.length g.edges with
  | error remaining => exact .inl ⟨remaining, rfl, by simp [hc]⟩
  | ok order => exact .inr ⟨⟨order, rfl⟩, by simp [hc]⟩

structure Rejected (edges : List Edge) (g : Graph P S) : Prop where
  compiled : g.compiled = false
  inRange : InRange g
  edges : ∀ e ∈ edges, e ∈ g.edges

theorem Rejected.change {edges : List Edge} (hcycle : ¬ Acyclic (Feeds edges))
    {g g' : Graph P S} {op : Op P S} (h : Rejected edges g) (hc : Change g op g') :
    Rejected edges g' := by
  have hrange := h.inRange.change hc
  cases hc with
  | run hop =>
    refine ⟨?_, hrange, ?_⟩ <;> rw [step_runs_eq g hop]
    · exact h.compiled
    · exact h.edges
  | add _ slot =>
    refine ⟨?_, hrange, ?_⟩ <;> rw [addSlot_eq]
    · exact h.compiled
    · exact h.edges
  | link _ src dst _ =>
    exact ⟨h.compiled, hrange, fun e he => List.mem_append_left _ (h.edges e he)⟩
  | compile _ hready =>
    have hlin := hready.linearizes fun e he => (h.inRange e he).2
    rw [hready.edges] at hlin
    exact absurd (hlin.acyclic.mono (Feeds.mono h.edges)) hcycle
  | listen _ => exact ⟨h.compiled, hrange, h.edges⟩

theorem Rejected.compile {edges : List Edge} (hcycle : ¬ Acyclic (Feeds edges)) {g : Graph P S}
    (h : Rejected edges g) (config : GraphConfig) :
    ∃ remaining, (g.compile config).2 = .error (.cycleDetected remaining) ∧
      ∀ v, v ∈ remaining ↔ Trapped (Feeds g.edges) v := by
  rcases compile_of_uncompiled h.compiled config with ⟨remaining, hsort, heq⟩ | ⟨hsort, -⟩
  · exact ⟨remaining, heq, (topologicalSort_diagnosis h.inRange hsort).2.2⟩
  · have hacyclic := (topologicalSort_ok_iff h.inRange).mp hsort
    exact absurd (hacyclic.mono (Feeds.mono h.edges)) hcycle

theorem rejection_permanent {g : Graph P S} (hg : Reachable g) {config : GraphConfig}
    {remaining : List NodeId} (h : (g.compile config).2 = .error (.cycleDetected remaining))
    (ops : List (Op P S)) :
    (g.run ops).1.compiled = false ∧
    (∀ config', ∃ remaining',
      ((g.run ops).1.compile config').2 = .error (.cycleDetected remaining') ∧
        remaining ⊆ remaining') ∧
    ∀ ctx, ((g.run ops).1.processCycle ctx).2.2 = .error .notCompiled := by
  have hrange : InRange g := by
    obtain ⟨before, rfl⟩ := hg
    exact inRange_run before
  have hc : g.compiled = false := by
    cases hc : g.compiled with
    | false => rfl
    | true =>
      rw [compile_of_compiled hc] at h
      cases h
  have hsort : topologicalSort g.nodeCount g.edges = .error remaining := by
    rcases compile_of_uncompiled hc config with ⟨remaining', hsort, heq⟩ | ⟨-, heq⟩
    · rw [h] at heq
      cases heq
      exact hsort
    · rw [h] at heq
      cases heq
  obtain ⟨hne, -, hmem⟩ := topologicalSort_diagnosis hrange hsort
  have hcycle : ¬ Acyclic (Feeds g.edges) := by
    obtain ⟨v, hv⟩ := List.exists_mem_of_ne_nil remaining hne
    obtain ⟨c, hc, -⟩ := (hmem v).mp hv
    exact fun hacyclic => hacyclic c hc
  have hstart : Rejected g.edges g := ⟨hc, hrange, fun _ he => he⟩
  have hend : Rejected g.edges (g.run ops).1 :=
    Transition.run_always (fun s op hs => hs.change hcycle (step_change s op)) hstart ops
  refine ⟨hend.compiled, fun config' => ?_, fun ctx => ?_⟩
  · obtain ⟨remaining', heq, hmem'⟩ := hend.compile hcycle config'
    refine ⟨remaining', heq, fun v hv => (hmem' v).mpr ?_⟩
    exact Trapped.mono ((hmem v).mp hv) (Feeds.mono hend.edges)
  · simp [processCycle, hend.compiled]

end Graph

end

structure Thru where
deriving DecidableEq

instance [AudioCore] : AudioNode Thru where
  inputs _ := [⟨.input, 1, .f32⟩]
  outputs _ := [⟨.output, 1, .f32⟩]
  process n ctx i o := ⟨n, ctx, o.mapIdx fun p out => (i[p]?.map out.copyFrom).getD out⟩
  process_outputs_length _ _ _ _ := List.length_mapIdx

namespace Sample

open PlainCore

def loop : List (Op Thru RingSink) := [.addNode ⟨⟩, .link (0, 0) (0, 0)]

def loopBuilt : Graph Thru RingSink := (Graph.new.run loop).1

end Sample

open PlainCore Sample in
theorem rejection_permanent_sample :
    ∃ remaining',
      ((loopBuilt.run [.addNode ⟨⟩, .link (0, 0) (1, 0)]).1.compile Sample.config).2 =
          .error (.cycleDetected remaining') ∧ [0] ⊆ remaining' := by
  have hrejected : (loopBuilt.compile Sample.config).2 = .error (.cycleDetected [0]) := rfl
  obtain ⟨-, hlater, -⟩ := Graph.rejection_permanent ⟨loop, rfl⟩ hrejected
    [.addNode ⟨⟩, .link (0, 0) (1, 0)]
  exact hlater Sample.config

end AudioGraph
