import AudioGraph.Properties.Sorting

namespace AudioGraph

open Dependency Relation TopologicalSort

namespace TopologicalSort

variable {numNodes : Nat} {edges : List Edge} {s : Kahn}

theorem KahnInv.log (h : KahnInv numNodes edges s) :
    ∃ queued, (TopologicalSort.pop numNodes edges s).order ++
        (TopologicalSort.pop numNodes edges s).queue = s.order ++ s.queue ++ queued := by
  cases hq : s.queue with
  | nil => exact ⟨[], by simp [TopologicalSort.pop, hq]⟩
  | cons n queue =>
    obtain ⟨queued, hr⟩ := relaxed_fold n edges (s := (s.inDegree, queue)) h.length
    exact ⟨queued, by simp [TopologicalSort.pop, hq, hr.queue]⟩

theorem drain_succ (numNodes : Nat) (edges : List Edge) (k : Nat) (s : Kahn) :
    drain numNodes edges (k + 1) s = pop numNodes edges (drain numNodes edges k s) := by
  induction k generalizing s with
  | zero => rfl
  | succ k ih =>
    have hrest := ih (pop numNodes edges s)
    exact hrest

theorem drain_length {k : Nat}
    (h : ∀ j < k, (drain numNodes edges j s).queue ≠ []) :
    (drain numNodes edges k s).order.length = s.order.length + k := by
  induction k with
  | zero => rfl
  | succ k ih =>
    have hk := ih fun j hj => h j (Nat.lt_succ_of_lt hj)
    obtain ⟨n, queue, hq⟩ := List.exists_cons_of_ne_nil (h k (Nat.lt_succ_self k))
    rw [drain_succ, pop, hq]
    simp only [List.length_append, List.length_singleton, hk]
    omega

def kahnAfter (numNodes : Nat) (edges : List Edge) (k : Nat) : Kahn :=
  drain numNodes edges k (start numNodes edges)

theorem kahnAfter_inv (numNodes : Nat) (edges : List Edge) (k : Nat) :
    KahnInv numNodes edges (kahnAfter numNodes edges k) :=
  KahnInv.start.drain k

theorem mem_order_iff {v : NodeId} :
    v ∈ (kahnAfter numNodes edges numNodes).order ↔
      v < numNodes ∧ degree (kahnAfter numNodes edges numNodes).inDegree v = 0 := by
  have hsettled := (kahnAfter_inv numNodes edges numNodes).settled v
  rwa [show (kahnAfter numNodes edges numNodes).queue = [] from drain_queue_nil numNodes edges,
    List.append_nil] at hsettled

theorem order_closed {e : Edge} (he : e ∈ edges)
    (hdst : e.dst.1 ∈ (kahnAfter numNodes edges numNodes).order) :
    e.src.1 ∈ (kahnAfter numNodes edges numNodes).order ∧
      (kahnAfter numNodes edges numNodes).order.idxOf e.src.1 <
        (kahnAfter numNodes edges numNodes).order.idxOf e.dst.1 := by
  have hbefore := (kahnAfter_inv numNodes edges numNodes).sorted e he hdst
  exact ⟨List.idxOf_lt_length_iff.mp (hbefore.trans (List.idxOf_lt_length_of_mem hdst)), hbefore⟩

def inRange (numNodes : Nat) (edge : Edge) : Bool :=
  edge.src.1 < numNodes ∧ edge.dst.1 < numNodes

theorem feeds_inRange {a b : NodeId} :
    Feeds (edges.filter (inRange numNodes)) a b ↔
      a < numNodes ∧ b < numNodes ∧ Feeds edges a b := by
  constructor
  · rintro ⟨e, he, rfl, rfl⟩
    obtain ⟨he, hrange⟩ := List.mem_filter.mp he
    obtain ⟨hsrc, hdst⟩ : e.src.1 < numNodes ∧ e.dst.1 < numNodes := by
      simpa [inRange] using hrange
    exact ⟨hsrc, hdst, e, he, rfl, rfl⟩
  · rintro ⟨ha, hb, e, he, rfl, rfl⟩
    exact ⟨e, List.mem_filter.mpr ⟨he, by simp [inRange, ha, hb]⟩, rfl, rfl⟩

-- Behind an edge that comes from past the end: it is counted, and no pop ever takes it off.
def Blocked (numNodes : Nat) (edges : List Edge) (v : NodeId) : Prop :=
  ∃ e ∈ edges, numNodes ≤ e.src.1 ∧ e.dst.1 < numNodes ∧
    ReflTransGen (Feeds (edges.filter (inRange numNodes))) e.dst.1 v

def Residual (numNodes : Nat) (edges : List Edge) (v : NodeId) : Prop :=
  v < numNodes ∧ 0 < degree (kahnAfter numNodes edges numNodes).inDegree v

variable {a b v : NodeId}

theorem Residual.of_not_mem (hv : v < numNodes)
    (h : v ∉ (kahnAfter numNodes edges numNodes).order) : Residual numNodes edges v :=
  ⟨hv, Nat.pos_of_ne_zero fun hzero => h (mem_order_iff.mpr ⟨hv, hzero⟩)⟩

theorem Residual.not_mem (h : Residual numNodes edges v) :
    v ∉ (kahnAfter numNodes edges numNodes).order :=
  fun hmem => h.2.ne' (mem_order_iff.mp hmem).2

theorem ordered_of_feeds (hab : Feeds (edges.filter (inRange numNodes)) a b)
    (hb : b ∈ (kahnAfter numNodes edges numNodes).order) :
    a ∈ (kahnAfter numNodes edges numNodes).order ∧
      (kahnAfter numNodes edges numNodes).order.idxOf a <
        (kahnAfter numNodes edges numNodes).order.idxOf b := by
  obtain ⟨-, -, e, he, rfl, rfl⟩ := feeds_inRange.mp hab
  exact order_closed he hb

theorem Residual.feeds (h : Residual numNodes edges a)
    (hab : Feeds (edges.filter (inRange numNodes)) a b) : Residual numNodes edges b :=
  .of_not_mem (feeds_inRange.mp hab).2.1 fun hb => h.not_mem (ordered_of_feeds hab hb).1

theorem Residual.held_up (h : Residual numNodes edges v) :
    (∃ e ∈ edges, numNodes ≤ e.src.1 ∧ e.dst.1 = v) ∨
      ∃ u, Residual numNodes edges u ∧ Feeds (edges.filter (inRange numNodes)) u v := by
  have hpos := h.2
  rw [(kahnAfter_inv numNodes edges numNodes).degree_eq v h.1, List.countP_pos_iff] at hpos
  obtain ⟨e, he, hpending⟩ := hpos
  obtain ⟨rfl, hsrc⟩ : e.dst.1 = v ∧ e.src.1 ∉ _ := by simpa [pending] using hpending
  rcases Nat.lt_or_ge e.src.1 numNodes with hlow | hge
  · exact .inr ⟨e.src.1, .of_not_mem hlow hsrc, feeds_inRange.mpr ⟨hlow, h.1, e, he, rfl, rfl⟩⟩
  · exact .inl ⟨e, he, hge, rfl⟩

theorem Residual.trapped (h : Residual numNodes edges v) (hfree : ¬ Blocked numNodes edges v) :
    Trapped (Feeds (edges.filter (inRange numNodes))) v := by
  let stuck : Set NodeId := {u | Residual numNodes edges u ∧ ¬ Blocked numNodes edges u}
  have hfin : stuck.Finite := (Set.finite_lt_nat numNodes).subset fun u hu => hu.1.1
  refine trapped_of_stuck hfin (fun b hb => ?_) (b := v) ⟨h, hfree⟩
  obtain ⟨hresidual, hunblocked⟩ := hb
  rcases hresidual.held_up with ⟨e, he, hge, rfl⟩ | ⟨a, ha, hab⟩
  · exact absurd ⟨e, he, hge, hresidual.1, .refl⟩ hunblocked
  · refine ⟨a, ⟨ha, ?_⟩, hab⟩
    rintro ⟨e, he, hge, hdst, hpath⟩
    exact hunblocked ⟨e, he, hge, hdst, hpath.tail hab⟩

theorem Residual.of_trapped (h : Trapped (Feeds (edges.filter (inRange numNodes))) v) :
    Residual numNodes edges v := by
  obtain ⟨a, hav⟩ := h.exists_edge
  refine .of_not_mem (feeds_inRange.mp hav).2.1 fun hmem => ?_
  have hmem : v ∈ {u | u ∈ (kahnAfter numNodes edges numNodes).order} := hmem
  exact not_trapped_of_rank _ (fun _ _ hab hb => ordered_of_feeds hab hb) hmem h

theorem Blocked.residual (h : Blocked numNodes edges v) : Residual numNodes edges v := by
  obtain ⟨e, he, hge, hdst, hpath⟩ := h
  induction hpath with
  | refl =>
    refine .of_not_mem hdst fun hmem => ?_
    have hsrc := (order_closed he hmem).1
    exact absurd (mem_order_iff.mp hsrc).1 hge.not_gt
  | tail _ hab ih => exact ih.feeds hab

theorem residual_iff : Residual numNodes edges v ↔
    Trapped (Feeds (edges.filter (inRange numNodes))) v ∨ Blocked numNodes edges v := by
  constructor
  · intro h
    rw [or_iff_not_imp_right]
    exact h.trapped
  · rintro (h | h)
    · exact .of_trapped h
    · exact h.residual

theorem residual_iff_trapped
    (hrange : ∀ e ∈ edges, e.src.1 < numNodes ∧ e.dst.1 < numNodes) :
    Residual numNodes edges v ↔ Trapped (Feeds edges) v := by
  have hall : edges.filter (inRange numNodes) = edges :=
    List.filter_eq_self.mpr fun e he => by simp [inRange, hrange e he]
  have hfree : ¬ Blocked numNodes edges v := by
    rintro ⟨e, he, hge, -⟩
    exact absurd (hrange e he).1 hge.not_gt
  rw [residual_iff, hall, or_iff_left hfree]

end TopologicalSort

section

variable {numNodes : Nat} {edges : List Edge}

theorem topologicalSort_error {remaining : List NodeId}
    (h : topologicalSort numNodes edges = .error remaining) :
    remaining = (List.range numNodes).filter
      fun n => 0 < degree (kahnAfter numNodes edges numNodes).inDegree n := by
  simp only [topologicalSort] at h
  split at h
  · cases h
  · cases h
    rfl

theorem mem_remaining_iff {remaining : List NodeId}
    (h : topologicalSort numNodes edges = .error remaining) {v : NodeId} :
    v ∈ remaining ↔ Residual numNodes edges v := by
  rw [topologicalSort_error h]
  simp [Residual]

theorem topologicalSort_ok_iff
    (hrange : ∀ e ∈ edges, e.src.1 < numNodes ∧ e.dst.1 < numNodes) :
    (∃ order, topologicalSort numNodes edges = .ok order) ↔ Acyclic (Feeds edges) := by
  constructor
  · rintro ⟨order, h⟩
    refine acyclic_of_rank order.idxOf ?_
    rintro _ _ ⟨e, he, rfl, rfl⟩
    exact (topologicalSort_ok h).2 e he (hrange e he).2
  · exact topologicalSort_complete fun e he => (hrange e he).1

theorem topologicalSort_skip {p : Edge → Bool}
    (hskip : ∀ e ∈ edges, p e = false → numNodes ≤ e.dst.1) :
    topologicalSort numNodes edges = topologicalSort numNodes (edges.filter p) := by
  have hfold : ∀ {σ : Type} (f : σ → Edge → σ), (∀ s e, numNodes ≤ e.dst.1 → f s e = s) →
      ∀ s, edges.foldl f s = (edges.filter p).foldl f s := by
    intro σ f hf s
    rw [List.foldl_filter]
    refine List.foldl_ext _ _ _ fun s e he => ?_
    cases hp : p e with
    | true => simp
    | false => simp [hf s e (hskip e he hp)]
  have hcount : countInDegree numNodes edges = countInDegree numNodes (edges.filter p) :=
    hfold _ (fun d e he => if_neg he.not_gt) _
  have hpop : ∀ s, pop numNodes edges s = pop numNodes (edges.filter p) s := by
    intro s
    simp only [pop]
    cases s.queue with
    | nil => rfl
    | cons n queue =>
      have hrelax := hfold (relax numNodes n) (fun s e he => if_neg fun h => he.not_gt h.2)
        (s.inDegree, queue)
      simp only [hrelax]
  have hdrain : ∀ fuel s, drain numNodes edges fuel s = drain numNodes (edges.filter p) fuel s := by
    intro fuel
    induction fuel with
    | zero => exact fun _ => rfl
    | succ fuel ih => exact fun s => by rw [drain, drain, hpop, ih]
  have hend : drain numNodes edges numNodes (start numNodes edges) =
      drain numNodes (edges.filter p) numNodes (start numNodes (edges.filter p)) := by
    rw [hdrain, start, start, hcount]
  unfold topologicalSort
  rw [hend]

theorem topologicalSort_residual {v : NodeId} (h : Residual numNodes edges v) :
    ∃ remaining, topologicalSort numNodes edges = .error remaining := by
  cases hsort : topologicalSort numNodes edges with
  | error remaining => exact ⟨remaining, rfl⟩
  | ok order =>
    have hmem : v ∈ order := (topologicalSort_ok hsort).1.mem_iff.mpr (List.mem_range.mpr h.1)
    have horder : order = (kahnAfter numNodes edges numNodes).order := by
      simp only [topologicalSort] at hsort
      split at hsort
      · cases hsort
        rfl
      · cases hsort
    exact absurd (horder ▸ hmem) h.not_mem

theorem topologicalSort_skips_iff (numNodes : Nat) (edges : List Edge) :
    topologicalSort numNodes edges = topologicalSort numNodes (edges.filter (inRange numNodes)) ↔
      ∀ e ∈ edges, numNodes ≤ e.src.1 → e.dst.1 < numNodes →
        Trapped (Feeds (edges.filter (inRange numNodes))) e.dst.1 := by
  have hinner : ∀ e ∈ edges.filter (inRange numNodes),
      e.src.1 < numNodes ∧ e.dst.1 < numNodes :=
    fun e he => by simpa [inRange] using (List.mem_filter.mp he).2
  constructor
  · intro heq e he hsrc hdst
    have hstuck : Residual numNodes edges e.dst.1 :=
      Blocked.residual ⟨e, he, hsrc, hdst, .refl⟩
    obtain ⟨remaining, hsort⟩ := topologicalSort_residual hstuck
    have hmem := (mem_remaining_iff hsort).mpr hstuck
    exact (residual_iff_trapped hinner).mp ((mem_remaining_iff (heq ▸ hsort)).mp hmem)
  · intro htrapped
    by_cases hdangling : ∃ e ∈ edges, numNodes ≤ e.src.1 ∧ e.dst.1 < numNodes
    · have hsame : ∀ v, Residual numNodes edges v ↔
          Residual numNodes (edges.filter (inRange numNodes)) v := by
        intro v
        rw [residual_iff, residual_iff_trapped hinner, or_iff_left_of_imp]
        rintro ⟨e, he, hsrc, hdst, hpath⟩
        obtain ⟨c, hcycle, hreach⟩ := htrapped e he hsrc hdst
        exact ⟨c, hcycle, hreach.trans hpath⟩
      obtain ⟨e, he, hsrc, hdst⟩ := hdangling
      have hstuck : Residual numNodes edges e.dst.1 :=
        Blocked.residual ⟨e, he, hsrc, hdst, .refl⟩
      obtain ⟨remaining, hsort⟩ := topologicalSort_residual hstuck
      obtain ⟨remaining', hsort'⟩ := topologicalSort_residual ((hsame _).mp hstuck)
      rw [hsort, hsort', topologicalSort_error hsort, topologicalSort_error hsort']
      refine congrArg Except.error (List.filter_congr fun v hv => ?_)
      have hiff := hsame v
      simpa [Residual, List.mem_range.mp hv] using hiff
    · refine topologicalSort_skip fun e he hp => ?_
      by_contra hdst
      refine hdangling ⟨e, he, ?_, not_le.mp hdst⟩
      by_contra hsrc
      simp [inRange, not_le.mp hsrc, not_le.mp hdst] at hp

theorem topologicalSort_correct
    (hrange : ∀ e ∈ edges, e.src.1 < numNodes ∧ e.dst.1 < numNodes) :
    (∀ k, (∀ j < k, (kahnAfter numNodes edges j).queue ≠ []) → k ≤ numNodes) ∧
    (kahnAfter numNodes edges numNodes).queue = [] ∧
    (∀ k, ((kahnAfter numNodes edges k).order ++ (kahnAfter numNodes edges k).queue).Nodup ∧
      ∃ queued, (kahnAfter numNodes edges (k + 1)).order ++
          (kahnAfter numNodes edges (k + 1)).queue =
        (kahnAfter numNodes edges k).order ++ (kahnAfter numNodes edges k).queue ++ queued) ∧
    ((∃ order, topologicalSort numNodes edges = .ok order) ↔ Acyclic (Feeds edges)) ∧
    ∀ order, topologicalSort numNodes edges = .ok order →
      order.Perm (List.range numNodes) ∧
        ∀ e ∈ edges, order.idxOf e.src.1 < order.idxOf e.dst.1 := by
  refine ⟨fun k hk => ?_, drain_queue_nil numNodes edges, fun k => ⟨?_, ?_⟩,
    topologicalSort_ok_iff hrange, fun order h => ?_⟩
  · have hpops : (kahnAfter numNodes edges k).order.length = 0 + k := drain_length hk
    have hle := (kahnAfter_inv numNodes edges k).length_le
    rw [List.length_append] at hle
    omega
  · exact (kahnAfter_inv numNodes edges k).nodup
  · have hlog := (kahnAfter_inv numNodes edges k).log
    rwa [kahnAfter, kahnAfter, drain_succ]
  · obtain ⟨hperm, hbefore⟩ := topologicalSort_ok h
    exact ⟨hperm, fun e he => hbefore e he (hrange e he).2⟩

theorem topologicalSort_diagnosis
    (hrange : ∀ e ∈ edges, e.src.1 < numNodes ∧ e.dst.1 < numNodes) {remaining : List NodeId}
    (h : topologicalSort numNodes edges = .error remaining) :
    remaining ≠ [] ∧ remaining.Pairwise (· < ·) ∧
      ∀ v, v ∈ remaining ↔
        ∃ c, TransGen (Feeds edges) c c ∧ ReflTransGen (Feeds edges) c v := by
  have hmem : ∀ v, v ∈ remaining ↔ Trapped (Feeds edges) v :=
    fun v => (mem_remaining_iff h).trans (residual_iff_trapped hrange)
  refine ⟨?_, ?_, hmem⟩
  · rintro rfl
    have hacyclic : Acyclic (Feeds edges) :=
      fun c hc => List.not_mem_nil ((hmem c).mpr ⟨c, hc, .refl⟩)
    obtain ⟨order, hok⟩ := (topologicalSort_ok_iff hrange).mpr hacyclic
    rw [h] at hok
    cases hok
  · rw [topologicalSort_error h]
    exact List.pairwise_lt_range.filter _

end

namespace Sample

def parallel : List Edge := [⟨(0, 0), (1, 0)⟩, ⟨(0, 1), (1, 1)⟩]

-- Node 0 feeds the cycle through 1 and 2, which feeds 3.
def loopWithTail : List Edge :=
  [⟨(0, 0), (1, 0)⟩, ⟨(1, 0), (2, 0)⟩, ⟨(2, 0), (1, 1)⟩, ⟨(2, 0), (3, 0)⟩]

end Sample

theorem topologicalSort_correct_sample : Acyclic (Feeds Sample.parallel) :=
  (topologicalSort_correct (by decide)).2.2.2.1.mp
    ⟨[0, 2, 1], show topologicalSort 3 Sample.parallel = .ok [0, 2, 1] from rfl⟩

theorem topologicalSort_diagnosis_sample :
    ∃ c, TransGen (Feeds Sample.loopWithTail) c c ∧
      ReflTransGen (Feeds Sample.loopWithTail) c 3 := by
  have hsort : topologicalSort 4 Sample.loopWithTail = .error [1, 2, 3] := rfl
  obtain ⟨-, -, hmem⟩ := topologicalSort_diagnosis (by decide) hsort
  exact (hmem 3).mp (by decide)

theorem dangling_source_counts :
    ¬ ∀ (numNodes : Nat) (edges : List Edge), topologicalSort numNodes edges =
      topologicalSort numNodes (edges.filter (inRange numNodes)) := by
  intro h
  have hskipped := h 1 [⟨(5, 0), (0, 0)⟩]
  have hfails : topologicalSort 1 [⟨(5, 0), (0, 0)⟩] = .error [0] := rfl
  have hsorts : topologicalSort 1 ([⟨(5, 0), (0, 0)⟩].filter (inRange 1)) = .ok [0] := rfl
  rw [hfails, hsorts] at hskipped
  cases hskipped

end AudioGraph
