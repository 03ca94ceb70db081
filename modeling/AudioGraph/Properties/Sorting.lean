import AudioGraph.Engine.Topology
import AudioGraph.Foundation.Dependency
import Mathlib.Data.Set.Finite.Lattice

namespace AudioGraph

open Dependency TopologicalSort

def Feeds (edges : List Edge) (a b : NodeId) : Prop :=
  ∃ e ∈ edges, e.src.1 = a ∧ e.dst.1 = b

namespace TopologicalSort

theorem degree_set {l : List Nat} {i v : Nat} (j : Nat) (hi : i < l.length) :
    degree (l.set i v) j = if i = j then v else degree l j := by
  simp only [degree, List.getD_eq_getElem?_getD, List.getElem?_set]
  by_cases hij : i = j
  · subst hij
    simp [hi]
  · simp [hij]

def into (v : NodeId) (edge : Edge) : Bool := edge.dst.1 = v

def between (n v : NodeId) (edge : Edge) : Bool := edge.src.1 = n ∧ edge.dst.1 = v

theorem countInDegree_fold (numNodes : Nat) (edges : List Edge) (d : List Nat)
    (hd : d.length = numNodes) :
    let d' := edges.foldl
      (fun inDegree edge =>
        if edge.dst.1 < numNodes then inDegree.set edge.dst.1 (degree inDegree edge.dst.1 + 1)
        else inDegree) d
    d'.length = numNodes ∧ ∀ v < numNodes, degree d' v = degree d v + edges.countP (into v) := by
  induction edges generalizing d with
  | nil => simp [hd]
  | cons e edges ih =>
    simp only [List.foldl_cons]
    by_cases he : e.dst.1 < numNodes
    · rw [if_pos he]
      obtain ⟨hlen, hdeg⟩ := ih (d.set e.dst.1 (degree d e.dst.1 + 1)) (by simp [hd])
      refine ⟨hlen, fun v hv => ?_⟩
      rw [hdeg v hv, degree_set v (hd ▸ he), List.countP_cons]
      by_cases hev : e.dst.1 = v
      · subst hev
        simp [into]
        omega
      · simp [into, hev]
    · rw [if_neg he]
      obtain ⟨hlen, hdeg⟩ := ih d hd
      refine ⟨hlen, fun v hv => ?_⟩
      have hev : e.dst.1 ≠ v := fun h => he (h ▸ hv)
      rw [hdeg v hv, List.countP_cons]
      simp [into, hev]

theorem countInDegree_spec (numNodes : Nat) (edges : List Edge) :
    (countInDegree numNodes edges).length = numNodes ∧
      ∀ v < numNodes, degree (countInDegree numNodes edges) v = edges.countP (into v) := by
  have h := countInDegree_fold numNodes edges (List.replicate numNodes 0) (by simp)
  refine ⟨h.1, fun v hv => ?_⟩
  rw [countInDegree, h.2 v hv]
  simp [degree, List.getD_eq_getElem?_getD, hv]

structure Relaxed (numNodes : Nat) (edges : List Edge) (n : NodeId)
    (before after : List Nat × List NodeId) (queued : List NodeId) : Prop where
  length : after.1.length = before.1.length
  inDegree : ∀ v < numNodes,
    degree after.1 v = degree before.1 v - edges.countP (between n v)
  queue : after.2 = before.2 ++ queued
  nodup : queued.Nodup
  mem_queued : ∀ v, v ∈ queued ↔ v < numNodes ∧ 0 < degree before.1 v ∧ degree after.1 v = 0

theorem relax_skip {numNodes : Nat} {n : NodeId} {s : List Nat × List NodeId} {e : Edge}
    (h : ¬ (e.src.1 = n ∧ e.dst.1 < numNodes ∧ 0 < degree s.1 e.dst.1)) :
    relax numNodes n s e = s := by
  unfold relax
  by_cases hedge : e.src.1 = n ∧ e.dst.1 < numNodes
  · have hzero : ¬ 0 < degree s.1 e.dst.1 := fun hpos => h ⟨hedge.1, hedge.2, hpos⟩
    rw [if_pos hedge, if_neg hzero]
  · rw [if_neg hedge]

theorem relax_hit {numNodes : Nat} {n : NodeId} {s : List Nat × List NodeId} {e : Edge}
    (hlen : s.1.length = numNodes) (hsrc : e.src.1 = n) (hdst : e.dst.1 < numNodes)
    (hpos : 0 < degree s.1 e.dst.1) :
    relax numNodes n s e =
      (s.1.set e.dst.1 (degree s.1 e.dst.1 - 1),
        s.2 ++ if degree s.1 e.dst.1 = 1 then [e.dst.1] else []) := by
  unfold relax
  rw [if_pos ⟨hsrc, hdst⟩, if_pos hpos]
  simp only [degree_set e.dst.1 (hlen ▸ hdst), if_true]
  by_cases hone : degree s.1 e.dst.1 = 1
  · simp [hone]
  · have hne : degree s.1 e.dst.1 - 1 ≠ 0 := by omega
    simp [hone, hne]

theorem relaxed_single {numNodes : Nat} (n : NodeId) {s : List Nat × List NodeId} (e : Edge)
    (hlen : s.1.length = numNodes) :
    ∃ queued, Relaxed numNodes [e] n s (relax numNodes n s e) queued := by
  by_cases he : e.src.1 = n ∧ e.dst.1 < numNodes ∧ 0 < degree s.1 e.dst.1
  · obtain ⟨hsrc, hdst, hpos⟩ := he
    rw [relax_hit hlen hsrc hdst hpos]
    have hdeg : ∀ v, degree (s.1.set e.dst.1 (degree s.1 e.dst.1 - 1)) v =
        degree s.1 v - [e].countP (between n v) := by
      intro v
      rw [degree_set v (hlen ▸ hdst)]
      by_cases hv : e.dst.1 = v
      · simp [between, hsrc, hv]
      · simp [between, hv]
    refine ⟨_, by simp, fun v _ => hdeg v, rfl, by split <;> simp, fun v => ?_⟩
    rw [degree_set v (hlen ▸ hdst)]
    by_cases hv : e.dst.1 = v
    · subst hv
      by_cases hone : degree s.1 e.dst.1 = 1
      · simp [hone, hdst]
      · have hmore : degree s.1 e.dst.1 - 1 ≠ 0 := by omega
        simp [hone, hmore]
    · rw [if_neg hv]
      have hnot : ¬ (v < numNodes ∧ 0 < degree s.1 v ∧ degree s.1 v = 0) := by omega
      refine iff_of_false (fun hmem => ?_) hnot
      split at hmem
      · exact hv (List.mem_singleton.mp hmem).symm
      · exact List.not_mem_nil hmem
  · rw [relax_skip he]
    refine ⟨[], rfl, fun v hv => ?_, by simp, .nil, fun v => ?_⟩
    · by_cases hb : e.src.1 = n ∧ e.dst.1 = v
      · obtain ⟨hsrc, rfl⟩ := hb
        have hzero : degree s.1 e.dst.1 = 0 := by
          by_contra hne
          exact he ⟨hsrc, hv, by omega⟩
        omega
      · simp [between, hb]
    · simp
      omega

theorem Relaxed.cons {numNodes : Nat} {n : NodeId} {e : Edge} {edges : List Edge}
    {s₀ s₁ s₂ : List Nat × List NodeId} {q₁ q₂ : List NodeId}
    (h₁ : Relaxed numNodes [e] n s₀ s₁ q₁) (h₂ : Relaxed numNodes edges n s₁ s₂ q₂) :
    Relaxed numNodes (e :: edges) n s₀ s₂ (q₁ ++ q₂) where
  length := h₂.length.trans h₁.length
  inDegree v hv := by
    have hcount : (e :: edges).countP (between n v) =
        [e].countP (between n v) + edges.countP (between n v) := by
      rw [← List.countP_append, List.singleton_append]
    rw [h₂.inDegree v hv, h₁.inDegree v hv, hcount]
    omega
  queue := by rw [h₂.queue, h₁.queue, List.append_assoc]
  nodup := by
    refine List.nodup_append.mpr ⟨h₁.nodup, h₂.nodup, ?_⟩
    rintro a ha b hb rfl
    have hzero := ((h₁.mem_queued a).mp ha).2.2
    have hpos := ((h₂.mem_queued a).mp hb).2.1
    omega
  mem_queued v := by
    rw [List.mem_append, h₁.mem_queued, h₂.mem_queued]
    constructor
    · rintro (⟨hv, hpos, hzero⟩ | ⟨hv, hpos, hzero⟩)
      · have := h₂.inDegree v hv
        exact ⟨hv, hpos, by omega⟩
      · have := h₁.inDegree v hv
        exact ⟨hv, by omega, hzero⟩
    · rintro ⟨hv, hpos, hzero⟩
      by_cases hmid : degree s₁.1 v = 0
      · exact Or.inl ⟨hv, hpos, hmid⟩
      · exact Or.inr ⟨hv, by omega, hzero⟩

theorem relaxed_fold {numNodes : Nat} (n : NodeId) (edges : List Edge)
    {s : List Nat × List NodeId} (hlen : s.1.length = numNodes) :
    ∃ queued, Relaxed numNodes edges n s (edges.foldl (relax numNodes n) s) queued := by
  induction edges generalizing s with
  | nil =>
    refine ⟨[], rfl, by simp, by simp, .nil, fun v => ?_⟩
    simp
    omega
  | cons e edges ih =>
    obtain ⟨q₁, h₁⟩ := relaxed_single n e hlen
    obtain ⟨q₂, h₂⟩ := ih (h₁.length.trans hlen)
    exact ⟨q₁ ++ q₂, h₁.cons h₂⟩

theorem Relaxed.settled_iff {numNodes : Nat} {n : NodeId} {edges : List Edge}
    {before after : List Nat × List NodeId} {queued : List NodeId}
    (h : Relaxed numNodes edges n before after queued) (v : NodeId) :
    (v < numNodes ∧ degree before.1 v = 0) ∨ v ∈ queued ↔
      v < numNodes ∧ degree after.1 v = 0 := by
  rw [h.mem_queued]
  constructor
  · rintro (⟨hv, hzero⟩ | ⟨hv, -, hzero⟩)
    · have hdeg := h.inDegree v hv
      exact ⟨hv, by omega⟩
    · exact ⟨hv, hzero⟩
  · rintro ⟨hv, hzero⟩
    by_cases hbefore : degree before.1 v = 0
    · exact Or.inl ⟨hv, hbefore⟩
    · exact Or.inr ⟨hv, Nat.pos_of_ne_zero hbefore, hzero⟩

def pending (order : List NodeId) (v : NodeId) (edge : Edge) : Bool :=
  edge.dst.1 = v ∧ edge.src.1 ∉ order

theorem countP_pending_concat {order : List NodeId} {n : NodeId} (hn : n ∉ order) (v : NodeId)
    (edges : List Edge) :
    edges.countP (pending order v) =
      edges.countP (pending (order ++ [n]) v) + edges.countP (between n v) := by
  induction edges with
  | nil => rfl
  | cons e edges ih =>
    rw [List.countP_cons, List.countP_cons, List.countP_cons, ih]
    by_cases hdst : e.dst.1 = v
    · by_cases hsrc : e.src.1 = n
      · simp [pending, between, hdst, hsrc, hn]
        omega
      · by_cases hmem : e.src.1 ∈ order <;> simp [pending, between, hdst, hsrc, hmem]
        omega
    · simp [pending, between, hdst]

-- Popped and queued nodes are exactly those whose every edge comes from a popped node.
structure KahnInv (numNodes : Nat) (edges : List Edge) (s : Kahn) : Prop where
  length : s.inDegree.length = numNodes
  degree_eq : ∀ v < numNodes, degree s.inDegree v = edges.countP (pending s.order v)
  nodup : (s.order ++ s.queue).Nodup
  settled : ∀ v, v ∈ s.order ++ s.queue ↔ v < numNodes ∧ degree s.inDegree v = 0
  sorted : ∀ e ∈ edges, e.dst.1 ∈ s.order → s.order.idxOf e.src.1 < s.order.idxOf e.dst.1

variable {numNodes : Nat} {edges : List Edge} {s : Kahn}

theorem KahnInv.start : KahnInv numNodes edges (start numNodes edges) where
  length := (countInDegree_spec numNodes edges).1
  degree_eq v hv := by
    have hpending : pending [] v = into v := by
      funext e
      simp [pending, into]
    rw [TopologicalSort.start, hpending]
    exact (countInDegree_spec numNodes edges).2 v hv
  nodup := by simpa [TopologicalSort.start] using List.nodup_range.filter _
  settled v := by simp [TopologicalSort.start]
  sorted e _ h := by simp [TopologicalSort.start] at h

theorem KahnInv.sources_settled (h : KahnInv numNodes edges s) {v : NodeId} (hv : v < numNodes)
    (hzero : degree s.inDegree v = 0) : ∀ e ∈ edges, e.dst.1 = v → e.src.1 ∈ s.order := by
  intro e he hdst
  have hnone := List.countP_eq_zero.mp ((h.degree_eq v hv).symm.trans hzero) e he
  simpa [pending, hdst] using hnone

theorem KahnInv.sorted_concat (h : KahnInv numNodes edges s) {n : NodeId} (hn : n ∉ s.order)
    (hlt : n < numNodes) (hzero : degree s.inDegree n = 0) {e : Edge} (he : e ∈ edges)
    (hdst : e.dst.1 ∈ s.order ++ [n]) :
    (s.order ++ [n]).idxOf e.src.1 < (s.order ++ [n]).idxOf e.dst.1 := by
  rcases List.mem_append.mp hdst with hdst | hdst
  · have hbefore := h.sorted e he hdst
    have hsrc : e.src.1 ∈ s.order :=
      List.idxOf_lt_length_iff.mp (hbefore.trans (List.idxOf_lt_length_of_mem hdst))
    rwa [List.idxOf_append_of_mem hsrc, List.idxOf_append_of_mem hdst]
  · rw [List.mem_singleton] at hdst
    rw [hdst]
    exact idxOf_lt_of_mem hn (h.sources_settled hlt hzero e he hdst)

theorem KahnInv.pop (h : KahnInv numNodes edges s) :
    KahnInv numNodes edges (pop numNodes edges s) := by
  cases hq : s.queue with
  | nil => simpa [TopologicalSort.pop, hq] using h
  | cons n queue =>
    have hnodup := h.nodup
    rw [hq] at hnodup
    obtain ⟨-, -, hdisj⟩ := List.nodup_append.mp hnodup
    have hn : n ∉ s.order := fun hmem => hdisj n hmem n (by simp) rfl
    obtain ⟨hnlt, hnzero⟩ := (h.settled n).mp (by simp [hq])
    obtain ⟨queued, hr⟩ := relaxed_fold n edges (s := (s.inDegree, queue)) h.length
    have hpop : TopologicalSort.pop numNodes edges s =
        { inDegree := (edges.foldl (relax numNodes n) (s.inDegree, queue)).1
          queue := queue ++ queued
          order := s.order ++ [n] } := by
      simp only [TopologicalSort.pop, hq, hr.queue]
    have hall : ∀ v, v ∈ s.order ++ [n] ++ (queue ++ queued) ↔
        v ∈ s.order ++ s.queue ∨ v ∈ queued := by
      intro v
      simp [hq, or_assoc]
    rw [hpop]
    refine ⟨hr.length.trans h.length, fun v hv => ?_, ?_, fun v => ?_, fun e he hdst => ?_⟩
    · have hdeg := hr.inDegree v hv
      have hbefore := h.degree_eq v hv
      have hcount := countP_pending_concat hn v edges
      simp only at hdeg ⊢
      omega
    · have hsplit : s.order ++ [n] ++ (queue ++ queued) = (s.order ++ n :: queue) ++ queued := by
        simp
      rw [hsplit]
      refine List.nodup_append.mpr ⟨hnodup, hr.nodup, ?_⟩
      rintro v hv w hw rfl
      have hzero := ((h.settled v).mp (hq ▸ hv)).2
      have hpos := ((hr.mem_queued v).mp hw).2.1
      exact hpos.ne' hzero
    · rw [hall, h.settled]
      exact hr.settled_iff v
    · exact h.sorted_concat hn hnlt hnzero he hdst

theorem KahnInv.drain (fuel : Nat) (h : KahnInv numNodes edges s) :
    KahnInv numNodes edges (drain numNodes edges fuel s) := by
  induction fuel generalizing s with
  | zero => exact h
  | succ fuel ih => exact ih h.pop

theorem drained (numNodes : Nat) (edges : List Edge) :
    KahnInv numNodes edges (drain numNodes edges numNodes (start numNodes edges)) :=
  KahnInv.start.drain numNodes

theorem drain_progress (numNodes : Nat) (edges : List Edge) (fuel : Nat) (s : Kahn) :
    (drain numNodes edges fuel s).queue = [] ∨
      (drain numNodes edges fuel s).order.length = s.order.length + fuel := by
  induction fuel generalizing s with
  | zero => exact Or.inr rfl
  | succ fuel ih =>
    cases hq : s.queue with
    | nil =>
      have hstay : ∀ k, TopologicalSort.drain numNodes edges k s = s := by
        intro k
        induction k with
        | zero => rfl
        | succ k ihk =>
          rw [TopologicalSort.drain, show pop numNodes edges s = s by simp [pop, hq], ihk]
      exact Or.inl (by rw [hstay, hq])
    | cons n queue =>
      have hlen : (pop numNodes edges s).order.length = s.order.length + 1 := by simp [pop, hq]
      rcases ih (pop numNodes edges s) with hnil | hgrow
      · exact Or.inl hnil
      · exact Or.inr (by rw [TopologicalSort.drain, hgrow, hlen]; omega)

theorem KahnInv.length_le (h : KahnInv numNodes edges s) :
    (s.order ++ s.queue).length ≤ numNodes := by
  have hsub : s.order ++ s.queue ⊆ List.range numNodes := by
    intro v hv
    exact List.mem_range.mpr ((h.settled v).mp hv).1
  simpa using (List.subperm_of_subset h.nodup hsub).length_le

theorem drain_queue_nil (numNodes : Nat) (edges : List Edge) :
    (drain numNodes edges numNodes (start numNodes edges)).queue = [] := by
  have hinv := drained numNodes edges
  rcases drain_progress numNodes edges numNodes (start numNodes edges) with hnil | hfull
  · exact hnil
  · have hle := hinv.length_le
    rw [List.length_append, hfull] at hle
    exact List.eq_nil_of_length_eq_zero (by omega)

end TopologicalSort

theorem topologicalSort_ok {numNodes : Nat} {edges : List Edge} {order : List NodeId}
    (h : topologicalSort numNodes edges = .ok order) :
    order.Perm (List.range numNodes) ∧
      ∀ e ∈ edges, e.dst.1 < numNodes → order.idxOf e.src.1 < order.idxOf e.dst.1 := by
  have hinv := drained numNodes edges
  simp only [topologicalSort] at h
  split at h
  · rename_i hlen
    cases h
    have hsub : (drain numNodes edges numNodes (start numNodes edges)).order ⊆
        List.range numNodes := by
      intro v hv
      exact List.mem_range.mpr ((hinv.settled v).mp (by simp [hv])).1
    have hnodup := (List.nodup_append.mp hinv.nodup).1
    have hperm : (drain numNodes edges numNodes (start numNodes edges)).order.Perm
        (List.range numNodes) :=
      (List.subperm_of_subset hnodup hsub).perm_of_length_le (by simp [hlen])
    exact ⟨hperm, fun e he hdst =>
      hinv.sorted e he (hperm.mem_iff.mpr (List.mem_range.mpr hdst))⟩
  · cases h

theorem topologicalSort_complete {numNodes : Nat} {edges : List Edge}
    (hrange : ∀ e ∈ edges, e.src.1 < numNodes) (hacyclic : Acyclic (Feeds edges)) :
    ∃ order, topologicalSort numNodes edges = .ok order := by
  have hinv := drained numNodes edges
  have hqueue := drain_queue_nil numNodes edges
  let s := drain numNodes edges numNodes (start numNodes edges)
  change KahnInv numNodes edges s at hinv
  change s.queue = [] at hqueue
  by_cases hlen : s.order.length = numNodes
  · exact ⟨s.order, if_pos hlen⟩
  · exfalso
    let stuck : Set NodeId := {v | v < numNodes ∧ v ∉ s.order}
    have hfin : stuck.Finite := (Set.finite_lt_nat numNodes).subset fun v hv => hv.1
    have hne : stuck.Nonempty := by
      by_contra hempty
      have hsub : List.range numNodes ⊆ s.order := by
        intro v hv
        by_contra hmem
        exact hempty ⟨v, List.mem_range.mp hv, hmem⟩
      have hle := (List.subperm_of_subset List.nodup_range hsub).length_le
      have hge := hinv.length_le
      rw [List.length_range] at hle
      rw [hqueue, List.append_nil] at hge
      exact hlen (le_antisymm hge hle)
    obtain ⟨b, ⟨hb, hbstuck⟩, hsource⟩ := hacyclic.exists_source hfin hne
    have hpos : degree s.inDegree b ≠ 0 := by
      intro hzero
      have hmem := (hinv.settled b).mpr ⟨hb, hzero⟩
      rw [hqueue, List.append_nil] at hmem
      exact hbstuck hmem
    rw [hinv.degree_eq b hb, Ne, List.countP_eq_zero] at hpos
    push Not at hpos
    obtain ⟨e, he, hpending⟩ := hpos
    simp only [pending, decide_eq_true_eq] at hpending
    exact hsource e.src.1 ⟨hrange e he, hpending.2⟩ ⟨e, he, rfl, hpending.1⟩

end AudioGraph
