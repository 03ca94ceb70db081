import AudioGraph.Properties.Edit
import AudioGraph.Properties.Rejection

namespace AudioGraph

open Dependency KeyedLog Relation TopologicalSort

def Mutation.removes : Mutation → Prop
  | .removeNode _ => True
  | .removeLink _ => True
  | _ => False

namespace TopologySnapshot

variable {s : TopologySnapshot} {m : Mutation} {ms : List Mutation}

def Stuck (s : TopologySnapshot) (remaining : List NodeId) (id : NodeId) : Prop :=
  id ∈ s.ids ∧ s.ids.idxOf id ∈ remaining

theorem apply_removes (hm : m.removes) : (s.apply m).edges ⊆ s.edges := by
  cases m with
  | removeNode id => exact List.filter_sublist.subset
  | removeLink linkId =>
    simp only [apply]
    split
    · exact List.eraseIdx_subset
    · exact List.Subset.refl _
  | addNode ns => cases hm
  | addLink se => cases hm

theorem applyAll_removes (hms : ∀ m ∈ ms, m.removes) : (s.applyAll ms).edges ⊆ s.edges := by
  induction ms generalizing s with
  | nil => exact List.Subset.refl _
  | cons m ms ih =>
    obtain ⟨hm, hms⟩ := List.forall_mem_cons.mp hms
    exact List.Subset.trans (ih (s := s.apply m) hms) (apply_removes hm)

theorem Leads.mono {s s' : TopologySnapshot} (h : s'.edges ⊆ s.edges) (a b : NodeId)
    (hab : s'.Leads a b) : s.Leads a b := by
  obtain ⟨e, he, hsrc, hdst⟩ := hab
  exact ⟨e, h he, hsrc, hdst⟩

theorem getD_idxOf {id : NodeId} (hid : id ∈ s.ids) : s.ids.getD (s.ids.idxOf id) 0 = id := by
  simp [List.getD_eq_getElem?_getD, List.idxOf_lt_length_of_mem hid]

end TopologySnapshot

namespace Graph

section

variable {P S : Type} {s : TopologySnapshot} {g : Graph P S}

theorem Laid.feeds (hl : Laid s g) {a b : NodeId} (h : s.Leads a b) :
    Feeds g.edges (s.ids.idxOf a) (s.ids.idxOf b) := by
  obtain ⟨e, he, rfl, rfl⟩ := h
  rw [hl.edges]
  exact ⟨s.placed e, List.mem_map_of_mem he, rfl, rfl⟩

theorem Laid.leads (hl : Laid s g) {m n : NodeId} (h : Feeds g.edges m n) :
    s.Leads (s.ids.getD m 0) (s.ids.getD n 0) := by
  obtain ⟨_, he, rfl, rfl⟩ := h
  rw [hl.edges] at he
  obtain ⟨e, hmem, rfl⟩ := List.mem_map.mp he
  obtain ⟨hsrc, hdst⟩ := hl.known e hmem
  exact ⟨e, hmem, (TopologySnapshot.getD_idxOf hsrc).symm, (TopologySnapshot.getD_idxOf hdst).symm⟩

theorem Laid.inRange (hl : Laid s g) : InRange g := by
  intro e he
  rw [hl.edges] at he
  obtain ⟨se, hmem, rfl⟩ := List.mem_map.mp he
  obtain ⟨hsrc, hdst⟩ := hl.known se hmem
  rw [hl.count]
  exact ⟨List.idxOf_lt_length_of_mem hsrc, List.idxOf_lt_length_of_mem hdst⟩

theorem Laid.acyclic_iff (hl : Laid s g) : Acyclic (Feeds g.edges) ↔ Acyclic s.Leads :=
  ⟨fun h => h.map s.ids.idxOf fun _ _ => hl.feeds,
    fun h => h.map (s.ids.getD · 0) fun _ _ => hl.leads⟩

theorem Laid.trapped_iff (hl : Laid s g) {id : NodeId} (hid : id ∈ s.ids) :
    Trapped (Feeds g.edges) (s.ids.idxOf id) ↔ Trapped s.Leads id := by
  constructor
  · intro h
    have htrapped := h.map (s.ids.getD · 0) fun _ _ => hl.leads
    rwa [TopologySnapshot.getD_idxOf hid] at htrapped
  · exact fun h => h.map s.ids.idxOf fun _ _ => hl.feeds

end

section

variable [AudioCore] {Φ Ψ P S : Type} [AudioNode P] [SinkNode S] {s : TopologySnapshot}
  {factory : Φ → NodeId → Option P × Φ} {φ φ' : Φ} {g g' : Graph P S} {config : GraphConfig}
  {remaining : List NodeId}

theorem Laid.compile_ok_iff (hl : Laid s g) (hc : g.compiled = false) (config : GraphConfig) :
    (g.compile config).2 = .ok () ↔ Acyclic s.Leads := by
  rw [← hl.acyclic_iff, ← topologicalSort_ok_iff hl.inRange]
  rcases compile_of_uncompiled hc config with ⟨remaining, hsort, heq⟩ | ⟨hsort, heq⟩
  · simp [hsort, heq]
  · simp [hsort, heq]

theorem Laid.stuck_iff (hl : Laid s g) (hc : g.compiled = false)
    (h : (g.compile config).2 = .error (.cycleDetected remaining)) {id : NodeId} :
    s.Stuck remaining id ↔ Trapped s.Leads id := by
  have hmem : ∀ v, v ∈ remaining ↔ Trapped (Feeds g.edges) v := by
    intro v
    rcases compile_of_uncompiled hc config with ⟨remaining', hsort, heq⟩ | ⟨-, heq⟩
    · cases h.symm.trans heq
      exact (mem_remaining_iff hsort).trans (residual_iff_trapped hl.inRange)
    · cases h.symm.trans heq
  constructor
  · rintro ⟨hid, hv⟩
    exact (hl.trapped_iff hid).mp ((hmem _).mp hv)
  · intro htrapped
    obtain ⟨a, e, he, -, hdst⟩ := htrapped.exists_edge
    have hid : id ∈ s.ids := hdst ▸ (hl.known e he).2
    exact ⟨hid, (hmem _).mpr ((hl.trapped_iff hid).mpr htrapped)⟩

theorem repaired {factory' : Ψ → NodeId → Option P × Ψ} {ψ ψ' : Ψ} (hids : s.ids.Nodup)
    (hg : fromSnapshot s factory φ = (φ', .ok g))
    (hreject : (g.compile config).2 = .error (.cycleDetected remaining)) {ms : List Mutation}
    (hms : ∀ m ∈ ms, m.removes) (hg' : fromSnapshot (s.applyAll ms) factory' ψ = (ψ', .ok g'))
    (config' : GraphConfig) :
    (∀ remaining', (g'.compile config').2 = .error (.cycleDetected remaining') →
      ∀ id, (s.applyAll ms).Stuck remaining' id → s.Stuck remaining id) ∧
    ((g'.compile config').2 = .ok () ↔ Acyclic fun a b =>
      (s.applyAll ms).Leads a b ∧ s.Stuck remaining a ∧ s.Stuck remaining b) ∧
    ((g'.compile config').2 = .ok () → ∃ e ∈ s.edges,
      s.Stuck remaining e.src.1 ∧ s.Stuck remaining e.dst.1 ∧ e ∉ (s.applyAll ms).edges) := by
  obtain ⟨hlaid, hbuilt⟩ := laid_of_fromSnapshot hids hg
  obtain ⟨hlaid', hbuilt'⟩ := laid_of_fromSnapshot (TopologySnapshot.applyAll_ids_nodup hids ms) hg'
  have hsub := TopologySnapshot.Leads.mono (TopologySnapshot.applyAll_removes (s := s) hms)
  have hstuck : ∀ id, s.Stuck remaining id ↔ Trapped s.Leads id :=
    fun id => hlaid.stuck_iff hbuilt.wired.compiled hreject
  have hok := hlaid'.compile_ok_iff hbuilt'.wired.compiled config'
  refine ⟨fun remaining' hreject' id hid => ?_, ?_, fun hcompiles => ?_⟩
  · rw [hlaid'.stuck_iff hbuilt'.wired.compiled hreject'] at hid
    exact (hstuck id).mpr (hid.mono hsub)
  · simp only [hok, hstuck]
    exact ⟨fun h => h.mono fun _ _ hab => hab.1, acyclic_of_trapped hsub⟩
  · by_contra hkept
    push Not at hkept
    have hrejected := hlaid.compile_ok_iff hbuilt.wired.compiled config
    rw [hreject] at hrejected
    have hcyclic : ¬ Acyclic s.Leads := fun h => by cases hrejected.mpr h
    refine hcyclic (acyclic_of_trapped (fun _ _ h => h) ((hok.mp hcompiles).mono ?_))
    rintro _ _ ⟨⟨e, he, rfl, rfl⟩, hsrc, hdst⟩
    exact ⟨e, hkept e he ((hstuck _).mpr hsrc) ((hstuck _).mpr hdst), rfl, rfl⟩

end

end Graph

namespace Sample

open PlainCore

def feedbackPair : TopologySnapshot where
  nodes := [⟨9, [⟨.input, 1, .f32⟩], [⟨.output, 1, .f32⟩]⟩,
    ⟨4, [⟨.input, 1, .f32⟩], [⟨.output, 1, .f32⟩]⟩]
  edges := [⟨(9, 0), (4, 0)⟩, ⟨(4, 0), (9, 0)⟩]

def thruFactory (_ : Unit) (_ : NodeId) : Option Thru × Unit := (some ⟨⟩, ())

def feedbackGraph : Graph Thru RingSink := .rebuilt [⟨⟩, ⟨⟩] [⟨(0, 0), (1, 0)⟩, ⟨(1, 0), (0, 0)⟩]

def openedGraph : Graph Thru RingSink := .rebuilt [⟨⟩, ⟨⟩] [⟨(0, 0), (1, 0)⟩]

end Sample

open PlainCore Sample in
theorem repaired_sample :
    ∃ e ∈ feedbackPair.edges, feedbackPair.Stuck [0, 1] e.src.1 ∧
      feedbackPair.Stuck [0, 1] e.dst.1 ∧ e ∉ (feedbackPair.applyAll [.removeLink 1]).edges := by
  have hg : Graph.fromSnapshot feedbackPair thruFactory () = ((), .ok feedbackGraph) := rfl
  have hg' : Graph.fromSnapshot (feedbackPair.applyAll [.removeLink 1]) thruFactory () =
      ((), .ok openedGraph) := rfl
  have hreject : (feedbackGraph.compile Sample.config).2 = .error (.cycleDetected [0, 1]) := rfl
  have hremoves : ∀ m ∈ [Mutation.removeLink 1], m.removes := by simp [Mutation.removes]
  have hrepair := Graph.repaired (by decide) hg hreject hremoves hg' Sample.config
  exact hrepair.2.2 rfl

end AudioGraph
