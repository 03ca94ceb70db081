import AudioGraph.Engine.Graph
import AudioGraph.Foundation.Schedule
import AudioGraph.Properties.Shape
import AudioGraph.Properties.Sorting

namespace AudioGraph

structure Cell (P S : Type) where
  node : Option (NodeSlot P S)
  inFrames : Option (List AudioFrame)
  outFrames : Option (List AudioFrame)

namespace Cell

variable {P S : Type}

def source (cells : NodeId → Cell P S) (slot : NodeId × PortIdx) : Option AudioFrame :=
  (cells slot.1).outFrames.bind (·[slot.2]?)

theorem source_update {t : NodeId → Cell P S} {n : NodeId} {c : Cell P S}
    {slot : NodeId × PortIdx} (hne : slot.1 ≠ n) :
    source (Function.update t n c) slot = source t slot := by
  rw [source, Function.update_of_ne hne]
  rfl

theorem called_or_not (c : Cell P S) :
    c.inFrames = none ∨ ∃ slots, c.inFrames = some slots ∧
      ((c.outFrames = none ∨ c.node = none) ∨
        ∃ outSlots node, c.outFrames = some outSlots ∧ c.node = some node) := by
  cases c.inFrames with
  | none => exact .inl rfl
  | some slots =>
    refine .inr ⟨slots, rfl, ?_⟩
    cases c.outFrames with
    | none => exact .inl (.inl rfl)
    | some outSlots =>
      cases c.node with
      | none => exact .inl (.inr rfl)
      | some node => exact .inr ⟨outSlots, node, rfl, rfl⟩

end Cell

namespace GraphScratch

variable {P S : Type}

def cells (s : GraphScratch P S) (n : NodeId) : Cell P S where
  node := s.nodes[n]?
  inFrames := s.inputScratch[n]?
  outFrames := s.outputScratch[n]?

theorem cells_injective : Function.Injective (cells (P := P) (S := S)) := by
  intro s t h
  have hcell : ∀ n, s.cells n = t.cells n := fun n => congrFun h n
  have hnodes : s.nodes = t.nodes := List.ext_getElem? fun n => congrArg Cell.node (hcell n)
  have hins : s.inputScratch = t.inputScratch :=
    List.ext_getElem? fun n => congrArg Cell.inFrames (hcell n)
  have houts : s.outputScratch = t.outputScratch :=
    List.ext_getElem? fun n => congrArg Cell.outFrames (hcell n)
  cases s
  cases t
  cases hnodes
  cases hins
  cases houts
  rfl

@[simp] theorem source_cells (s : GraphScratch P S) :
    Cell.source s.cells = frameAt s.outputScratch := rfl

end GraphScratch

theorem update_cells {P S : Type} {f : NodeId → Cell P S} {s : GraphScratch P S} {n : NodeId}
    {c : Cell P S}
    (hn : s.cells n = c) (hm : ∀ m, m ≠ n → s.cells m = f m) :
    s.cells = Function.update f n c := by
  funext m
  by_cases h : m = n
  · subst h
    rw [hn, Function.update_self]
  · rw [hm m h, Function.update_of_ne h]

def fed (edges : List Edge) (source : NodeId × PortIdx → Option AudioFrame)
    (target : NodeId × PortIdx) : Option (Option AudioFrame) :=
  (edges.find? fun e => e.dst = target).map fun e => source e.src

theorem fillSlot_eq_fed (edges : List Edge) (source : NodeId × PortIdx → Option AudioFrame)
    (target : NodeId × PortIdx) (slot : AudioFrame) :
    fillSlot edges source target slot =
      match fed edges source target with
      | some (some f) => slot.copyFrom f
      | some none => slot
      | none => slot.silenced := by
  unfold fillSlot fed
  cases edges.find? (fun e => e.dst = target) with
  | none => rfl
  | some e => cases h : source e.src <;> simp [h]

theorem fillSlots_of_fed {edges edges' : List Edge}
    {source source' : NodeId × PortIdx → Option AudioFrame} {n m : NodeId}
    (slots : List AudioFrame)
    (h : ∀ p, fed edges' source' (m, p) = fed edges source (n, p)) :
    fillSlots edges' source' m slots = fillSlots edges source n slots := by
  unfold fillSlots
  refine List.ext_getElem (by simp) fun p hp hp' => ?_
  simp only [List.getElem_mapIdx, fillSlot_eq_fed, h p]

theorem fed_congr {edges edges' : List Edge}
    {source source' : NodeId × PortIdx → Option AudioFrame} {target : NodeId × PortIdx}
    (hfirst : edges'.find? (fun e => e.dst = target) = edges.find? (fun e => e.dst = target))
    (hsource : ∀ e ∈ edges, e.dst = target → source' e.src = source e.src) :
    fed edges' source' target = fed edges source target := by
  unfold fed
  rw [hfirst]
  cases hfind : edges.find? (fun e => e.dst = target) with
  | none => rfl
  | some e =>
    have hdst : e.dst = target := by simpa using List.find?_some hfind
    simp only [Option.map_some, hsource e (List.mem_of_find?_eq_some hfind) hdst]

theorem fed_eq_some {edges : List Edge} {source : NodeId × PortIdx → Option AudioFrame}
    {target : NodeId × PortIdx} {frame : Option AudioFrame}
    (hsome : ∃ e ∈ edges, e.dst = target)
    (hsource : ∀ e ∈ edges, e.dst = target → source e.src = frame) :
    fed edges source target = some frame := by
  unfold fed
  cases hfind : edges.find? (fun e => e.dst = target) with
  | none =>
    obtain ⟨e, he, hdst⟩ := hsome
    exact absurd hdst (by simpa using List.find?_eq_none.mp hfind e he)
  | some e =>
    have hdst : e.dst = target := by simpa using List.find?_some hfind
    rw [Option.map_some, hsource e (List.mem_of_find?_eq_some hfind) hdst]

theorem fillSlots_congr {edges edges' : List Edge}
    {source source' : NodeId × PortIdx → Option AudioFrame} {n : NodeId} (slots : List AudioFrame)
    (hfirst : ∀ p, edges'.find? (fun e => e.dst = (n, p)) = edges.find? (fun e => e.dst = (n, p)))
    (hsource : ∀ e ∈ edges, e.dst.1 = n → source' e.src = source e.src) :
    fillSlots edges' source' n slots = fillSlots edges source n slots :=
  fillSlots_of_fed slots fun p =>
    fed_congr (hfirst p) fun e he hdst => hsource e he (by rw [hdst])

theorem getElem?_fillSlots {edges : List Edge} {source : NodeId × PortIdx → Option AudioFrame}
    {n : NodeId} {slots : List AudioFrame} {p : PortIdx} :
    (fillSlots edges source n slots)[p]? = slots[p]?.map (fillSlot edges source (n, p)) := by
  simp [fillSlots]

variable [AudioCore] {P S : Type} [AudioNode P] [SinkNode S]

def visitCell (edges : List Edge) (n : NodeId) (cells : NodeId → Cell P S)
    (ctx : ProcessContext) : Cell P S × ProcessContext :=
  match (cells n).inFrames with
  | none => (cells n, ctx)
  | some slots =>
    let inSlots := fillSlots edges (Cell.source cells) n slots
    match (cells n).outFrames, (cells n).node with
    | some outSlots, some node =>
      let r := process node ctx inSlots outSlots
      (⟨some r.node, some inSlots, some r.outputs⟩, r.ctx)
    | _, _ => ({ cells n with inFrames := some inSlots }, ctx)

section VisitCell

variable {edges : List Edge} {n : NodeId} {cells : NodeId → Cell P S} {ctx : ProcessContext}
  {slots outSlots : List AudioFrame} {node : NodeSlot P S}

theorem visitCell_absent (hin : (cells n).inFrames = none) :
    visitCell edges n cells ctx = (cells n, ctx) := by
  simp [visitCell, hin]

theorem visitCell_uncalled (hin : (cells n).inFrames = some slots)
    (h : (cells n).outFrames = none ∨ (cells n).node = none) :
    visitCell edges n cells ctx =
      ({ cells n with inFrames := some (fillSlots edges (Cell.source cells) n slots) }, ctx) := by
  rcases h with hout | hnode
  · simp [visitCell, hin, hout]
  · cases hout : (cells n).outFrames <;> simp [visitCell, hin, hout, hnode]

theorem visitCell_called (hin : (cells n).inFrames = some slots)
    (hout : (cells n).outFrames = some outSlots) (hnode : (cells n).node = some node) :
    visitCell edges n cells ctx =
      let inSlots := fillSlots edges (Cell.source cells) n slots
      let r := process node ctx inSlots outSlots
      (⟨some r.node, some inSlots, some r.outputs⟩, r.ctx) := by
  simp [visitCell, hin, hout, hnode]

end VisitCell

theorem visit_cells (edges : List Edge) (st : GraphScratch P S × ProcessContext) (n : NodeId) :
    ((visit edges st n).1.cells, (visit edges st n).2) =
      Schedule.visit (visitCell edges) (st.1.cells, st.2) n := by
  obtain ⟨s, ctx⟩ := st
  have hframe : ∀ {α : Type} {l : List α} {x : α} {m : NodeId}, m ≠ n → (l.set n x)[m]? = l[m]? :=
    fun h => List.getElem?_set_ne (Ne.symm h)
  rw [Schedule.visit]
  rcases visit_cases edges s ctx n with ⟨hin, heq⟩ | ⟨slots, hin, hmissing, heq⟩ |
    ⟨slots, outSlots, node, hin, hout, hnode, heq⟩
  · have hnone : (s.cells n).inFrames = none := hin
    rw [heq, visitCell_absent hnone, Function.update_eq_self]
  · have hlt : n < s.inputScratch.length := (List.getElem?_eq_some_iff.mp hin).1
    have hins : (s.cells n).inFrames = some slots := hin
    have huncalled : (s.cells n).outFrames = none ∨ (s.cells n).node = none := hmissing
    rw [heq, visitCell_uncalled hins huncalled]
    refine Prod.ext (update_cells ?_ fun m hm => ?_) rfl
    · simp [GraphScratch.cells, hlt]
    · simp [GraphScratch.cells, hframe hm]
  · have hlt : n < s.inputScratch.length := (List.getElem?_eq_some_iff.mp hin).1
    have hltOut : n < s.outputScratch.length := (List.getElem?_eq_some_iff.mp hout).1
    have hltNode : n < s.nodes.length := (List.getElem?_eq_some_iff.mp hnode).1
    have hins : (s.cells n).inFrames = some slots := hin
    have houts : (s.cells n).outFrames = some outSlots := hout
    have hnodes : (s.cells n).node = some node := hnode
    rw [heq, visitCell_called hins houts hnodes]
    refine Prod.ext (update_cells ?_ fun m hm => ?_) rfl
    · simp [GraphScratch.cells, hlt, hltOut, hltNode]
    · simp [GraphScratch.cells, hframe hm]

-- The in-place loop over the scratch vectors is a scheduled evaluation of the cells.
theorem cycle_cells (edges : List Edge) (order : List NodeId)
    (st : GraphScratch P S × ProcessContext) :
    ((cycle edges order st).1.cells, (cycle edges order st).2) =
      Schedule.run (visitCell edges) order (st.1.cells, st.2) := by
  induction order generalizing st with
  | nil => rfl
  | cons n order ih =>
    rw [Schedule.run_cons, ← visit_cells]
    exact ih (visit edges st n)

theorem visitCell_of_fed {edges edges' : List Edge} {n m : NodeId}
    {cells cells' : NodeId → Cell P S} (ctx : ProcessContext) (hself : cells' m = cells n)
    (hfed : ∀ p, fed edges' (Cell.source cells') (m, p) = fed edges (Cell.source cells) (n, p)) :
    visitCell edges' m cells' ctx = visitCell edges n cells ctx := by
  have hfill := fun slots => fillSlots_of_fed slots hfed
  simp only [visitCell, hself, hfill]

theorem visitCell_readsOnly (edges : List Edge) :
    Schedule.ReadsOnly (visitCell (P := P) (S := S) edges) (Feeds edges) := by
  intro n cells cells' ctx hself hfeeds
  refine visitCell_of_fed ctx hself fun p => fed_congr rfl fun e he hdst => ?_
  simp only [Cell.source, hfeeds e.src.1 ⟨e, he, rfl, by rw [hdst]⟩]

theorem visitCell_keepsAmbient [KeepsContext P] [KeepsContext S] (edges : List Edge) :
    Schedule.KeepsAmbient (visitCell (P := P) (S := S) edges) := by
  intro n cells ctx
  rcases (cells n).called_or_not with hin | ⟨slots, hin, hmissing | ⟨outSlots, node, hout,
    hnode⟩⟩
  · rw [visitCell_absent hin]
  · rw [visitCell_uncalled hin hmissing]
  · rw [visitCell_called hin hout hnode]
    exact KeepsContext.process_ctx node ctx _ outSlots

namespace Cell

omit [AudioCore] [AudioNode P] [SinkNode S] in
def feed (c : Cell P S) (port : PortIdx) (src : AudioFrame) : Cell P S :=
  { c with outFrames := c.outFrames.map fun slots => slots.modify port (·.copyFrom src) }

def flushed (c : Cell P S) : Cell P S := { c with node := c.node.map (·.flushed) }

end Cell

namespace Graph

omit [AudioCore] [AudioNode P] [SinkNode S] in
theorem feed_cells (g : Graph P S) (node : NodeId) (port : PortIdx) (src : AudioFrame)
    (n : NodeId) :
    (g.feed node port src).scratch.cells n =
      if n = node then (g.scratch.cells n).feed port src else g.scratch.cells n := by
  by_cases hn : n = node
  · subst hn
    rw [if_pos rfl]
    unfold Graph.feed
    split
    · rename_i hnone
      simp [GraphScratch.cells, Cell.feed, hnone]
    · rename_i slots hslots
      obtain ⟨hlt, hat⟩ := List.getElem?_eq_some_iff.mp hslots
      split
      · rename_i hport
        have hkept : slots.modify port (·.copyFrom src) = slots :=
          List.modify_eq_self (List.getElem?_eq_none_iff.mp hport)
        simp [GraphScratch.cells, Cell.feed, hslots, hkept]
      · rename_i dst hport
        have hset : slots.modify port (·.copyFrom src) = slots.set port (dst.copyFrom src) := by
          rw [List.modify_eq_set_getElem?, hport]
          rfl
        simp [GraphScratch.cells, Cell.feed, hlt, hat, hset]
  · rw [if_neg hn]
    unfold Graph.feed
    split
    · rfl
    · split
      · rfl
      · simp [GraphScratch.cells, List.getElem?_set_ne (Ne.symm hn)]

omit [AudioNode P] in
theorem flushSinks_cells (g : Graph P S) (n : NodeId) :
    g.flushSinks.1.scratch.cells n = (g.scratch.cells n).flushed := by
  rw [flushSinks_eq]
  simp [GraphScratch.cells, Cell.flushed]

omit [AudioNode P] in
theorem flushSink_cells (g : Graph P S) (node n : NodeId) :
    (g.flushSink node).1.scratch.cells n =
      if n = node then (g.scratch.cells n).flushed else g.scratch.cells n := by
  rw [flushSink_eq]
  by_cases hn : n = node
  · subst hn
    simp [GraphScratch.cells, Cell.flushed]
  · simp [GraphScratch.cells, hn, Ne.symm hn]

end Graph

end AudioGraph
