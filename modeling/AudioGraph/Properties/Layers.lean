import AudioGraph.Foundation.Layering
import AudioGraph.Properties.Confluence

namespace AudioGraph

open Dependency

namespace TopologicalSort

variable {numNodes : Nat} {edges : List Edge} {s : Kahn} {rank : NodeId → Nat}

def unfed (edges : List Edge) (n : NodeId) : Bool := edges.all fun e => e.dst.1 ≠ n

theorem KahnInv.pop_queued (h : KahnInv numNodes edges s) {n : NodeId} {queue : List NodeId}
    (hq : s.queue = n :: queue) :
    ∃ queued, (TopologicalSort.pop numNodes edges s).order = s.order ++ [n] ∧
      (TopologicalSort.pop numNodes edges s).queue = queue ++ queued ∧
      ∀ v ∈ queued, v < numNodes ∧ Feeds edges n v ∧
        ∀ a, Feeds edges a v → a ∈ s.order ++ [n] := by
  obtain ⟨queued, hr⟩ := relaxed_fold n edges (s := (s.inDegree, queue)) h.length
  have hpop : TopologicalSort.pop numNodes edges s =
      { inDegree := (edges.foldl (relax numNodes n) (s.inDegree, queue)).1
        queue := queue ++ queued
        order := s.order ++ [n] } := by
    simp only [TopologicalSort.pop, hq, hr.queue]
  refine ⟨queued, by rw [hpop], by rw [hpop], fun v hv => ?_⟩
  obtain ⟨hlt, hpos, hzero⟩ := (hr.mem_queued v).mp hv
  have hdeg := hr.inDegree v hlt
  have hbetween : edges.countP (between n v) ≠ 0 := by omega
  rw [Ne, List.countP_eq_zero] at hbetween
  push Not at hbetween
  obtain ⟨e, he, hnv⟩ := hbetween
  simp only [between, decide_eq_true_eq] at hnv
  refine ⟨hlt, ⟨e, he, hnv.1, hnv.2⟩, fun a ha => ?_⟩
  obtain ⟨e', he', rfl, hdst⟩ := ha
  have hsettled := h.pop.sources_settled hlt (by rw [hpop]; exact hzero) e' he' hdst
  rwa [hpop] at hsettled

-- The queue spans two layers at most, and all that was popped lies no deeper.
structure Layers (numNodes : Nat) (edges : List Edge) (s : Kahn) : Prop where
  kahn : KahnInv numNodes edges s
  sorted : (s.order ++ s.queue).Pairwise fun a b => depth (Feeds edges) a ≤ depth (Feeds edges) b
  narrow : ∀ a ∈ s.queue, ∀ b ∈ s.queue, depth (Feeds edges) b ≤ depth (Feeds edges) a + 1
  sources : (List.range numNodes).filter (unfed edges) <+: s.order ++ s.queue

theorem degree_zero_iff {v : NodeId} (hv : v < numNodes) :
    degree (countInDegree numNodes edges) v = 0 ↔ unfed edges v := by
  rw [(countInDegree_spec numNodes edges).2 v hv, List.countP_eq_zero, unfed, List.all_eq_true]
  simp [into]

theorem Layers.start (hr : Ranked (Feeds edges) {v | v < numNodes} rank) :
    Layers numNodes edges (start numNodes edges) := by
  have hqueue : (TopologicalSort.start numNodes edges).queue =
      (List.range numNodes).filter (unfed edges) := by
    refine List.filter_congr fun v hv => ?_
    have hiff : degree (countInDegree numNodes edges) v = 0 ↔ unfed edges v :=
      degree_zero_iff (List.mem_range.mp hv)
    rw [Bool.eq_iff_iff, decide_eq_true_eq]
    exact hiff
  have hzero : ∀ v ∈ (TopologicalSort.start numNodes edges).queue, depth (Feeds edges) v = 0 := by
    intro v hv
    rw [hqueue, List.mem_filter, unfed, List.all_eq_true] at hv
    obtain ⟨hmem, hall⟩ := hv
    by_contra hpos
    obtain ⟨a, ⟨e, he, -, hdst⟩, -⟩ :=
      hr.exists_below (List.mem_range.mp hmem) (Nat.pos_of_ne_zero hpos)
    simpa [hdst] using hall e he
  have hnil : (TopologicalSort.start numNodes edges).order = [] := rfl
  refine ⟨.start, ?_, fun a ha b hb => ?_, ?_⟩
  · rw [hnil, List.nil_append]
    refine List.pairwise_of_forall_mem_list fun a ha b hb => ?_
    rw [hzero a ha]
    exact Nat.zero_le _
  · rw [hzero b hb]
    exact Nat.zero_le _
  · rw [hnil, List.nil_append, hqueue]

theorem Layers.pop (h : Layers numNodes edges s)
    (hr : Ranked (Feeds edges) {v | v < numNodes} rank) :
    Layers numNodes edges (pop numNodes edges s) := by
  cases hq : s.queue with
  | nil =>
    have hstay : TopologicalSort.pop numNodes edges s = s := by simp [TopologicalSort.pop, hq]
    rw [hstay]
    exact h
  | cons n queue =>
    obtain ⟨queued, horder, hqueue, hqueued⟩ := h.kahn.pop_queued hq
    have hsorted := h.sorted
    rw [hq] at hsorted
    obtain ⟨-, htail, hover⟩ := List.pairwise_append.mp hsorted
    have hhead := (List.pairwise_cons.mp htail).1
    have hpopped : ∀ a ∈ s.order ++ [n], depth (Feeds edges) a ≤ depth (Feeds edges) n := by
      intro a ha
      rcases List.mem_append.mp ha with ha | ha
      · exact hover a ha n List.mem_cons_self
      · rw [List.mem_singleton.mp ha]
    have hnext : ∀ v ∈ queued, depth (Feeds edges) v = depth (Feeds edges) n + 1 := by
      intro v hv
      obtain ⟨hlt, hnv, hall⟩ := hqueued v hv
      have hbelow := hr.depth_lt hnv hlt
      obtain ⟨a, hav, heq⟩ := hr.exists_below hlt (Nat.zero_lt_of_lt hbelow)
      have hle := hpopped a (hall a hav)
      omega
    have hspan : ∀ b ∈ queue ++ queued, depth (Feeds edges) n ≤ depth (Feeds edges) b ∧
        depth (Feeds edges) b ≤ depth (Feeds edges) n + 1 := by
      intro b hb
      rcases List.mem_append.mp hb with hb | hb
      · refine ⟨hhead b hb, h.narrow n ?_ b ?_⟩
        · simp [hq]
        · simp [hq, hb]
      · have heq := hnext b hb
        omega
    have hsplit : s.order ++ [n] ++ (queue ++ queued) = (s.order ++ n :: queue) ++ queued := by
      simp
    refine ⟨h.kahn.pop, ?_, fun a ha b hb => ?_, ?_⟩
    · rw [horder, hqueue, hsplit]
      refine List.pairwise_append.mpr ⟨hsorted, ?_, fun a ha v hv => ?_⟩
      · refine List.pairwise_of_forall_mem_list fun a ha b hb => ?_
        rw [hnext a ha, hnext b hb]
      · rw [hnext v hv]
        rcases List.mem_append.mp ha with ha | ha
        · exact (hpopped a (List.mem_append_left _ ha)).trans (Nat.le_succ _)
        · rcases List.mem_cons.mp ha with rfl | ha
          · exact Nat.le_succ _
          · exact (hspan a (List.mem_append_left _ ha)).2
    · rw [hqueue] at ha hb
      have hlow := (hspan a ha).1
      have hhigh := (hspan b hb).2
      omega
    · rw [horder, hqueue, hsplit, ← hq]
      exact h.sources.trans (List.prefix_append _ _)

theorem Layers.drain (h : Layers numNodes edges s)
    (hr : Ranked (Feeds edges) {v | v < numNodes} rank) (fuel : Nat) :
    Layers numNodes edges (drain numNodes edges fuel s) := by
  induction fuel generalizing s with
  | zero => exact h
  | succ fuel ih => exact ih (h.pop hr)

end TopologicalSort

open TopologicalSort

theorem topologicalSort_ranked {numNodes : Nat} {edges : List Edge} {order : List NodeId}
    (h : topologicalSort numNodes edges = .ok order) :
    Ranked (Feeds edges) {v | v < numNodes} order.idxOf := by
  obtain ⟨hperm, hbefore⟩ := topologicalSort_ok h
  constructor
  · rintro a b ⟨e, he, rfl, rfl⟩ hb
    have hdst : e.dst.1 ∈ order := hperm.mem_iff.mpr (List.mem_range.mpr hb)
    have hsrc : e.src.1 ∈ order :=
      List.idxOf_lt_length_iff.mp ((hbefore e he hb).trans (List.idxOf_lt_length_of_mem hdst))
    exact List.mem_range.mp (hperm.mem_iff.mp hsrc)
  · rintro a b ⟨e, he, rfl, rfl⟩ hb
    exact hbefore e he hb

theorem topologicalSort_layers {numNodes : Nat} {edges : List Edge} {order : List NodeId}
    (h : topologicalSort numNodes edges = .ok order) :
    order.Pairwise (fun a b => depth (Feeds edges) a ≤ depth (Feeds edges) b) ∧
      (List.range numNodes).filter (unfed edges) <+: order := by
  have hr := topologicalSort_ranked h
  have hdrained := (Layers.start hr).drain hr numNodes
  have hqueue := drain_queue_nil numNodes edges
  have hsorted := hdrained.sorted
  have hsources := hdrained.sources
  rw [hqueue, List.append_nil] at hsorted hsources
  simp only [topologicalSort] at h
  split at h
  · cases h
    exact ⟨hsorted, hsources⟩
  · cases h

namespace Graph

variable [AudioCore] {P S : Type} [AudioNode P] [SinkNode S] {config : GraphConfig}

theorem Running.layers {ready g : Graph P S} (h : Running config ready g) :
    g.executionOrder.Pairwise (fun a b => depth (Feeds g.edges) a ≤ depth (Feeds g.edges) b) ∧
      (List.range g.nodeCount).filter (unfed g.edges) <+: g.executionOrder := by
  obtain ⟨built, -, hcompile⟩ := h.compiles
  have hc := compiled_of_compile hcompile
  obtain ⟨-, order, hsort, heq⟩ := compile_ok hcompile
  have horder : ready.executionOrder = order := by
    rw [heq]
    rfl
  have hcount : ready.nodeCount = built.scratch.nodes.length := congrArg List.length hc.nodes
  rw [h.order, h.edges, h.nodeCount, hcount, horder, hc.edges]
  exact topologicalSort_layers hsort

theorem processCycle_layers [KeepsContext P] [KeepsContext S] {ready g : Graph P S}
    (h : Running config ready g) :
    (∀ n < g.nodeCount, Walk (Feeds g.edges) (depth (Feeds g.edges) n) n ∧
      ∀ k, Walk (Feeds g.edges) k n → k ≤ depth (Feeds g.edges) n) ∧
    g.executionOrder.Pairwise (fun a b => depth (Feeds g.edges) a ≤ depth (Feeds g.edges) b) ∧
    (List.range g.nodeCount).filter (unfed g.edges) <+: g.executionOrder ∧
    ∀ (order : List NodeId) (ctx : ProcessContext), order.Perm g.executionOrder →
      order.Pairwise (fun a b => depth (Feeds g.edges) a ≤ depth (Feeds g.edges) b) →
      let byLayer : Graph P S := { g with executionOrder := order }
      (byLayer.processCycle ctx).1.scratch = (g.processCycle ctx).1.scratch ∧
        (byLayer.processCycle ctx).2 = (g.processCycle ctx).2 := by
  have hlin := h.linearizes
  have hinto : ∀ a b, Feeds g.edges a b →
      a ∈ List.range g.nodeCount ∧ b ∈ List.range g.nodeCount := by
    rintro a b ⟨e, he, rfl, rfl⟩
    have hrange := checkLink_range (h.links e he)
    simp only [List.mem_range, h.nodeCount]
    exact hrange
  have hr := hlin.ranked fun a b hab => (hinto a b hab).1
  obtain ⟨hsorted, hsources⟩ := h.layers
  refine ⟨fun n hn => ?_, hsorted, hsources, fun order ctx hperm hlayers => ?_⟩
  · have hmem : n ∈ {n | n ∈ List.range g.nodeCount} := List.mem_range.mpr hn
    exact ⟨hr.walk_depth hmem, fun k hk => hr.walk_le_depth hk hmem⟩
  · have horder := hr.linearizes (fun a b hab => (hinto a b hab).2) (hperm.trans hlin.perm) hlayers
    have hcycle := h.reschedule horder (fun _ => rfl) ctx
    rw [h.processCycle_eq]
    simp [processCycle, h.compiled, hcycle]

end Graph

open PlainCore Sample in
theorem processCycle_layers_fork :
    (forkReady 1 2).executionOrder.Pairwise (fun a b =>
        depth (Feeds (forkReady 1 2).edges) a ≤ depth (Feeds (forkReady 1 2).edges) b) ∧
      [0] <+: (forkReady 1 2).executionOrder := by
  have hrunning : Graph.Running Sample.config (forkReady 1 2) (forkReady 1 2) :=
    Graph.Running.refl (forkBuilt_spec 1 2) rfl
  obtain ⟨-, hsorted, hsources, -⟩ := Graph.processCycle_layers hrunning
  exact ⟨hsorted, hsources⟩

end AudioGraph
