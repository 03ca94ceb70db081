import AudioGraph.Engine.Run
import AudioGraph.Foundation.Pointwise

namespace AudioGraph

open Pointwise

def rows {τ : Type} (measure : AudioFrame → τ) (table : List (List AudioFrame)) : List (List τ) :=
  table.map (·.map measure)

structure Shape (τ : Type) where
  nodes : Nat
  inputs : List (List τ)
  outputs : List (List τ)

def GraphScratch.shape {P S τ : Type} (measure : AudioFrame → τ) (s : GraphScratch P S) :
    Shape τ where
  nodes := s.nodes.length
  inputs := rows measure s.inputScratch
  outputs := rows measure s.outputScratch

structure Aligned {P S : Type} (s : GraphScratch P S) : Prop where
  inputs : s.inputScratch.length = s.nodes.length
  outputs : s.outputScratch.length = s.nodes.length

theorem aligned_of_shape {P S τ : Type} {measure : AudioFrame → τ} {s s' : GraphScratch P S}
    (h : s'.shape measure = s.shape measure) (hs : Aligned s) : Aligned s' := by
  simp only [GraphScratch.shape, Shape.mk.injEq] at h
  obtain ⟨hn, hi, ho⟩ := h
  have hil := congrArg List.length hi
  have hol := congrArg List.length ho
  simp only [rows, List.length_map] at hil hol
  exact ⟨by rw [hil, hs.inputs, hn], by rw [hol, hs.outputs, hn]⟩

structure Measured [AudioCore] {τ : Type} (measure : AudioFrame → τ) (P S : Type) [AudioNode P]
    [SinkNode S] : Prop where
  copyFrom : ∀ dst src, measure (dst.copyFrom src) = measure dst
  silenced : ∀ f, measure f.silenced = measure f
  process : ∀ (n : NodeSlot P S) ctx i o,
    (process n ctx i o).outputs.map measure = o.map measure

namespace NodeSlot

variable {P S : Type}

def isSink : NodeSlot P S → Bool
  | .plain _ => false
  | .sink _ => true

@[simp] theorem isSink_plain (n : P) : (plain n : NodeSlot P S).isSink = false := rfl

@[simp] theorem isSink_sink (n : S) : (sink n : NodeSlot P S).isSink = true := rfl

theorem exists_sink {nodes nodes' : List (NodeSlot P S)}
    (h : nodes.map NodeSlot.isSink = nodes'.map NodeSlot.isSink) {id : NodeId} {s : S}
    (hs : nodes'[id]? = some (.sink s)) : ∃ s', nodes[id]? = some (.sink s') := by
  have hkind := congrArg (fun l => l[id]?) h
  simp only [List.getElem?_map, hs, Option.map_some, isSink_sink] at hkind
  obtain ⟨slot, hslot, hsink⟩ := Option.map_eq_some_iff.mp hkind
  cases slot with
  | plain n => cases hsink
  | sink s' => exact ⟨s', hslot⟩

variable [AudioCore] [SinkNode S]

def flushed : NodeSlot P S → NodeSlot P S
  | .plain n => .plain n
  | .sink n => .sink (flush n).1

def flushError : NodeSlot P S → Option FlushError
  | .plain _ => none
  | .sink n => match (flush n).2 with
    | .error e => some e
    | .ok () => none

@[simp] theorem flushed_plain (n : P) : (plain n : NodeSlot P S).flushed = plain n := rfl

@[simp] theorem flushed_sink (n : S) : (sink n : NodeSlot P S).flushed = sink (flush n).1 := rfl

@[simp] theorem flushError_plain (n : P) : (plain n : NodeSlot P S).flushError = none := rfl

theorem flushError_of_ok {n : S} (h : (flush n).2 = .ok ()) :
    (sink n : NodeSlot P S).flushError = none := by
  simp [flushError, h]

end NodeSlot

section Rows

variable {τ : Type} {measure : AudioFrame → τ} {table : List (List AudioFrame)}

theorem getElem?_rows (n : NodeId) :
    (rows measure table)[n]? = table[n]?.map (·.map measure) := by
  simp [rows]

theorem rows_append (table' : List (List AudioFrame)) :
    rows measure (table ++ table') = rows measure table ++ rows measure table' := by
  simp [rows]

theorem rows_set {n : NodeId} {row row' : List AudioFrame} (hn : table[n]? = some row)
    (hrow : row'.map measure = row.map measure) :
    rows measure (table.set n row') = rows measure table := by
  refine List.ext_getElem? fun m => ?_
  rw [getElem?_rows, getElem?_rows, List.getElem?_set]
  by_cases hm : n = m
  · subst hm
    obtain ⟨hlt, rfl⟩ := List.getElem?_eq_some_iff.mp hn
    simp [hlt, hrow]
  · simp [hm]

theorem map_set {n : Nat} {row : List AudioFrame} {f f' : AudioFrame} (hn : row[n]? = some f)
    (hf : measure f' = measure f) : (row.set n f').map measure = row.map measure := by
  refine List.ext_getElem? fun m => ?_
  rw [List.getElem?_map, List.getElem?_map, List.getElem?_set]
  by_cases hm : n = m
  · subst hm
    obtain ⟨hlt, rfl⟩ := List.getElem?_eq_some_iff.mp hn
    simp [hlt, hf]
  · simp [hm]

theorem frameAt_rows (n : NodeId) (p : PortIdx) :
    (rows measure table)[n]?.bind (·[p]?) = (frameAt table (n, p)).map measure := by
  rw [getElem?_rows, frameAt]
  cases table[n]? with
  | none => rfl
  | some row => simp

end Rows

variable [AudioCore] {P S τ : Type} [AudioNode P] [SinkNode S] {measure : AudioFrame → τ}

theorem measured_unit : Measured (fun _ => ()) P S where
  copyFrom _ _ := rfl
  silenced _ := rfl
  process n ctx i o := by
    refine List.ext_getElem ?_ fun _ _ _ => rfl
    simpa using AudioNode.process_outputs_length n ctx i o

theorem measured_len [KeepsLengths P] [KeepsLengths S] : Measured AudioFrame.len P S where
  copyFrom := AudioFrame.copyFrom_len
  silenced := AudioFrame.silenced_len
  process n ctx i o := KeepsLengths.process_lens n ctx i o

omit [AudioCore] in
theorem fillSlots_measure (hcopy : ∀ dst src, measure (dst.copyFrom src) = measure dst)
    (hsilence : ∀ f, measure f.silenced = measure f) (edges : List Edge)
    (source : NodeId × PortIdx → Option AudioFrame) (n : NodeId) (slots : List AudioFrame) :
    (fillSlots edges source n slots).map measure = slots.map measure := by
  have hslot : ∀ target slot, measure (fillSlot edges source target slot) = measure slot := by
    intro target slot
    unfold fillSlot
    split
    · split
      · exact hcopy _ _
      · rfl
    · exact hsilence _
  refine List.ext_getElem (by simp [fillSlots]) fun p _ _ => ?_
  simp only [fillSlots, List.getElem_map, List.getElem_mapIdx]
  exact hslot _ _

theorem visit_shape (h : Measured measure P S) (edges : List Edge)
    (st : GraphScratch P S × ProcessContext) (n : NodeId) :
    (visit edges st n).1.shape measure = st.1.shape measure := by
  obtain ⟨s, ctx⟩ := st
  have hins : ∀ slots, s.inputScratch[n]? = some slots →
      rows measure (s.inputScratch.set n (fillSlots edges (frameAt s.outputScratch) n slots)) =
        rows measure s.inputScratch :=
    fun slots hin => rows_set hin (fillSlots_measure h.copyFrom h.silenced edges _ n slots)
  rcases visit_cases edges s ctx n with ⟨-, heq⟩ | ⟨slots, hin, -, heq⟩ |
    ⟨slots, outSlots, node, hin, hout, -, heq⟩
  · rw [heq]
  · rw [heq]
    simp only [GraphScratch.shape, hins slots hin]
  · rw [heq]
    have houts := rows_set hout
      (h.process node ctx (fillSlots edges (frameAt s.outputScratch) n slots) outSlots)
    simp only [GraphScratch.shape, hins slots hin, houts, List.length_set]

theorem cycle_shape (h : Measured measure P S) (edges : List Edge) (order : List NodeId)
    (st : GraphScratch P S × ProcessContext) :
    (cycle edges order st).1.shape measure = st.1.shape measure := by
  induction order generalizing st with
  | nil => rfl
  | cons n order ih => exact (ih (visit edges st n)).trans (visit_shape h edges st n)

theorem visit_input_lens (edges : List Edge) (st : GraphScratch P S × ProcessContext)
    (n : NodeId) :
    rows AudioFrame.len (visit edges st n).1.inputScratch =
      rows AudioFrame.len st.1.inputScratch := by
  obtain ⟨s, ctx⟩ := st
  have hins : ∀ slots, s.inputScratch[n]? = some slots →
      rows AudioFrame.len
          (s.inputScratch.set n (fillSlots edges (frameAt s.outputScratch) n slots)) =
        rows AudioFrame.len s.inputScratch :=
    fun slots hin => rows_set hin
      (fillSlots_measure AudioFrame.copyFrom_len AudioFrame.silenced_len edges _ n slots)
  rcases visit_cases edges s ctx n with ⟨-, heq⟩ | ⟨slots, hin, -, heq⟩ |
    ⟨slots, outSlots, node, hin, -, -, heq⟩
  · rw [heq]
  · rw [heq]
    exact hins slots hin
  · rw [heq]
    exact hins slots hin

theorem cycle_input_lens (edges : List Edge) (order : List NodeId)
    (st : GraphScratch P S × ProcessContext) :
    rows AudioFrame.len (cycle edges order st).1.inputScratch =
      rows AudioFrame.len st.1.inputScratch := by
  induction order generalizing st with
  | nil => rfl
  | cons n order ih => exact (ih (visit edges st n)).trans (visit_input_lens edges st n)

structure Evolves (R : NodeSlot P S → NodeSlot P S → Prop) : Prop where
  refl : ∀ n, R n n
  trans : ∀ a b c, R a b → R b c → R a c
  process : ∀ n ctx i o, R n (process n ctx i o).node

theorem Evolves.visit {R : NodeSlot P S → NodeSlot P S → Prop} (h : Evolves R)
    (edges : List Edge) (st : GraphScratch P S × ProcessContext) (n : NodeId) :
    List.Forall₂ R st.1.nodes (visit edges st n).1.nodes := by
  obtain ⟨s, ctx⟩ := st
  rcases visit_cases edges s ctx n with ⟨-, heq⟩ | ⟨slots, -, -, heq⟩ |
    ⟨slots, outSlots, node, -, -, hnode, heq⟩
  · rw [heq]
    exact forall₂_self h.refl s.nodes
  · rw [heq]
    exact forall₂_self h.refl s.nodes
  · rw [heq]
    exact forall₂_set_self h.refl hnode (h.process node ctx _ _)

theorem Evolves.cycle {R : NodeSlot P S → NodeSlot P S → Prop} (h : Evolves R)
    (edges : List Edge) (order : List NodeId) (st : GraphScratch P S × ProcessContext) :
    List.Forall₂ R st.1.nodes (cycle edges order st).1.nodes := by
  induction order generalizing st with
  | nil => exact forall₂_self h.refl st.1.nodes
  | cons n order ih =>
    exact forall₂_trans h.trans (h.visit edges st n) (ih (AudioGraph.visit edges st n))

theorem evolves_of_read {read : NodeSlot P S → τ}
    (h : ∀ n ctx i o, read (process n ctx i o).node = read n) :
    Evolves fun n n' : NodeSlot P S => read n' = read n where
  refl _ := rfl
  trans _ _ _ hab hbc := hbc.trans hab
  process := h

omit [AudioNode P] in
theorem flushNodes_spec (nodes : List (NodeSlot P S)) (count : Nat)
    (firstErr : Option FlushError) :
    flushNodes nodes count firstErr =
      (nodes.map (·.flushed), count + nodes.countP (·.isSink),
        firstErr.or (nodes.findSome? (·.flushError))) := by
  induction nodes generalizing count firstErr with
  | nil => simp [flushNodes]
  | cons n nodes ih =>
    cases n with
    | plain n => simp [flushNodes, ih, List.findSome?_cons]
    | sink n =>
      have hcount : count + 1 + nodes.countP (·.isSink) =
          count + (nodes.countP (·.isSink) + 1) := by omega
      cases hf : (flush n).2 with
      | ok u => simp [flushNodes, ih, List.countP_cons, NodeSlot.flushError, hf, hcount]
      | error e =>
        cases firstErr <;>
          simp [flushNodes, ih, List.countP_cons, NodeSlot.flushError, hf, hcount]

namespace Graph

omit [AudioNode P] in
theorem flushSinks_eq (g : Graph P S) :
    g.flushSinks = ({ g with scratch.nodes := g.scratch.nodes.map (·.flushed) },
      g.scratch.nodes.countP (·.isSink), g.scratch.nodes.findSome? (·.flushError)) := by
  simp [flushSinks, flushNodes_spec]

omit [AudioCore] [AudioNode P] [SinkNode S] in
theorem feed_eq (g : Graph P S) (node : NodeId) (port : PortIdx) (src : AudioFrame) :
    g.feed node port src = { g with scratch := (g.feed node port src).scratch } := by
  unfold feed
  split
  · rfl
  · split <;> rfl

theorem feed_shape (h : Measured measure P S) (g : Graph P S) (node : NodeId) (port : PortIdx)
    (src : AudioFrame) :
    (g.feed node port src).scratch.shape measure = g.scratch.shape measure := by
  unfold feed
  split
  · rfl
  · rename_i slots hslots
    split
    · rfl
    · rename_i dst hdst
      have houts := rows_set hslots (map_set hdst (h.copyFrom dst src))
      simp [GraphScratch.shape, houts]

omit [AudioCore] [AudioNode P] [SinkNode S] in
theorem feed_nodes (g : Graph P S) (node : NodeId) (port : PortIdx) (src : AudioFrame) :
    (g.feed node port src).scratch.nodes = g.scratch.nodes := by
  unfold feed
  split
  · rfl
  · split <;> rfl

theorem processCycle_evolves {R : NodeSlot P S → NodeSlot P S → Prop} (h : Evolves R)
    (g : Graph P S) (ctx : ProcessContext) :
    List.Forall₂ R g.scratch.nodes (g.processCycle ctx).1.scratch.nodes := by
  unfold processCycle
  split
  · exact h.cycle g.edges g.executionOrder (g.scratch, ctx)
  · exact forall₂_self h.refl g.scratch.nodes

theorem processCycle_reads {read : NodeSlot P S → τ}
    (h : ∀ n ctx i o, read (process n ctx i o).node = read n) (g : Graph P S)
    (ctx : ProcessContext) :
    (g.processCycle ctx).1.scratch.nodes.map read = g.scratch.nodes.map read :=
  map_eq_of_forall₂ (processCycle_evolves (evolves_of_read h) g ctx)

omit [AudioNode P] in
theorem flushSink_nodes (g : Graph P S) (node : NodeId) :
    (g.flushSink node).1.scratch.nodes = g.scratch.nodes.modify node (·.flushed) := by
  refine List.ext_getElem? fun m => ?_
  rw [List.getElem?_modify]
  unfold flushSink
  split
  · rename_i n hn
    obtain ⟨hlt, hat⟩ := List.getElem?_eq_some_iff.mp hn
    by_cases hm : node = m
    · subst hm
      simp [hlt, hat]
    · simp [hm]
  · rename_i n hn
    by_cases hm : node = m
    · subst hm
      simp [hn]
    · simp [hm]
  · rename_i hn
    by_cases hm : node = m
    · subst hm
      simp [hn]
    · simp [hm]

omit [AudioNode P] in
theorem flushSink_eq (g : Graph P S) (node : NodeId) :
    (g.flushSink node).1 =
      { g with scratch.nodes := g.scratch.nodes.modify node (·.flushed) } := by
  rw [← flushSink_nodes]
  unfold flushSink
  split <;> rfl

theorem processCycle_eq (g : Graph P S) (ctx : ProcessContext) :
    (g.processCycle ctx).1 = { g with scratch := (g.processCycle ctx).1.scratch } := by
  unfold processCycle
  split <;> rfl

theorem processCycle_shape (h : Measured measure P S) (g : Graph P S) (ctx : ProcessContext) :
    (g.processCycle ctx).1.scratch.shape measure = g.scratch.shape measure := by
  unfold processCycle
  split
  · exact cycle_shape h g.edges g.executionOrder (g.scratch, ctx)
  · rfl

theorem step_runs_eq (g : Graph P S) {op : Op P S} (hop : op.runs) :
    (g.step op).1 = { g with scratch := (g.step op).1.scratch } := by
  cases op with
  | feed node port src => exact feed_eq g node port src
  | flushSinks => rfl
  | flushSink node =>
    change (g.flushSink node).1 = { g with scratch := (g.flushSink node).1.scratch }
    rw [flushSink_eq]
  | processCycle ctx => exact processCycle_eq g ctx
  | _ => cases hop

theorem step_runs_shape (h : Measured measure P S) (g : Graph P S) {op : Op P S}
    (hop : op.runs) : (g.step op).1.scratch.shape measure = g.scratch.shape measure := by
  cases op with
  | feed node port src => exact feed_shape h g node port src
  | flushSinks => simp [step, flushSinks_eq, GraphScratch.shape]
  | flushSink node =>
    change (g.flushSink node).1.scratch.shape measure = _
    rw [flushSink_eq]
    simp only [GraphScratch.shape, List.length_modify]
  | processCycle ctx => exact processCycle_shape h g ctx
  | _ => cases hop

theorem step_runs_evolves {R : NodeSlot P S → NodeSlot P S → Prop} (h : Evolves R)
    (hflush : ∀ n, R n n.flushed) (g : Graph P S) {op : Op P S} (hop : op.runs) :
    List.Forall₂ R g.scratch.nodes (g.step op).1.scratch.nodes := by
  cases op with
  | feed node port src =>
    change List.Forall₂ R g.scratch.nodes (g.feed node port src).scratch.nodes
    rw [feed_nodes]
    exact forall₂_self h.refl g.scratch.nodes
  | flushSinks =>
    simp only [step, flushSinks_eq]
    exact List.forall₂_map_right_iff.mpr (forall₂_self hflush g.scratch.nodes)
  | flushSink node =>
    change List.Forall₂ R g.scratch.nodes (g.flushSink node).1.scratch.nodes
    rw [flushSink_nodes]
    exact forall₂_modify h.refl hflush g.scratch.nodes node
  | processCycle ctx => exact processCycle_evolves h g ctx
  | _ => cases hop

theorem step_runs_reads {read : NodeSlot P S → τ}
    (hprocess : ∀ n ctx i o, read (process n ctx i o).node = read n)
    (hflush : ∀ n, read n.flushed = read n) (g : Graph P S) {op : Op P S} (hop : op.runs) :
    (g.step op).1.scratch.nodes.map read = g.scratch.nodes.map read :=
  map_eq_of_forall₂ (step_runs_evolves (evolves_of_read hprocess) hflush g hop)

structure Steady (measure : AudioFrame → τ) (base g : Graph P S) : Prop where
  eq : g = { base with scratch := g.scratch }
  shape : g.scratch.shape measure = base.scratch.shape measure

omit [AudioCore] [AudioNode P] [SinkNode S] in
theorem Steady.refl (measure : AudioFrame → τ) (g : Graph P S) : Steady measure g g := ⟨rfl, rfl⟩

omit [AudioCore] [AudioNode P] [SinkNode S] in
theorem Steady.setNodes {base g : Graph P S} (h : Steady measure base g)
    {nodes : List (NodeSlot P S)} (hlen : nodes.length = g.scratch.nodes.length) :
    Steady measure base { g with scratch.nodes := nodes } where
  eq := by
    have heq := h.eq
    rw [heq]
  shape := by
    rw [← h.shape]
    simp only [GraphScratch.shape, hlen]

theorem Steady.step (hm : Measured measure P S) {base g : Graph P S} (h : Steady measure base g)
    {op : Op P S} (hop : op.runs) : Steady measure base (g.step op).1 where
  eq := by
    have hstep := step_runs_eq g hop
    rw [h.eq] at hstep
    rw [h.eq]
    exact hstep
  shape := (step_runs_shape hm g hop).trans h.shape

theorem compile_of_compiled {g : Graph P S} (h : g.compiled = true) (config : GraphConfig) :
    g.compile config = (g, .error .alreadyCompiled) := by
  simp [Graph.compile, h]

omit [AudioCore] [AudioNode P] [SinkNode S] in
theorem Steady.compiled {base g : Graph P S} (h : Steady measure base g)
    (hc : base.compiled = true) : g.compiled = true := by
  rw [h.eq]
  exact hc

theorem Steady.step_drive (hm : Measured measure P S) {base g : Graph P S}
    (hc : base.compiled = true) (h : Steady measure base g) (d : Drive) :
    Steady measure base (g.step d.op).1 := by
  have hruns : (d.op : Op P S).runs → Steady measure base (g.step d.op).1 :=
    fun hop => h.step hm hop
  cases d with
  | compile config =>
    change Steady measure base (g.compile config).1
    rw [compile_of_compiled (h.compiled hc)]
    exact h
  | feed node port src => exact hruns trivial
  | flushSinks => exact hruns trivial
  | flushSink node => exact hruns trivial
  | processCycle ctx => exact hruns trivial

theorem processCycle_input_lens (g : Graph P S) (ctx : ProcessContext) :
    rows AudioFrame.len (g.processCycle ctx).1.scratch.inputScratch =
      rows AudioFrame.len g.scratch.inputScratch := by
  unfold processCycle
  split
  · exact cycle_input_lens g.edges g.executionOrder (g.scratch, ctx)
  · rfl

theorem Steady.run (hm : Measured measure P S) (base : Graph P S) {ops : List (Op P S)}
    (hops : ∀ op ∈ ops, Op.runs op) : Steady measure base (base.run ops).1 :=
  Transition.run_invariant (fun _ _ hop h => h.step hm hop) hops (Steady.refl measure base)

end Graph

end AudioGraph
