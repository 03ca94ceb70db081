import AudioGraph.Engine.Worker

namespace AudioGraph

-- The copies as slice operations that panic, `none`, when a bound is exceeded.
def slicePrefix (samples : List F32) (n : Nat) : Option (List F32) :=
  if n ≤ samples.length then some (samples.take n) else none

def copyFromSlice (samples : List F32) (n : Nat) (src : List F32) : Option (List F32) :=
  if n ≤ samples.length ∧ src.length = n then some (src ++ samples.drop n) else none

namespace Checked

def copyFrom (dst src : AudioFrame) : Option AudioFrame :=
  let copyLen := min src.samples.length dst.samples.length
  (slicePrefix src.samples copyLen).bind fun part =>
    (copyFromSlice dst.samples copyLen part).map fun samples =>
      { channels := src.channels, sampleRate := src.sampleRate, samples := samples }

def fillSlot (edges : List Edge) (source : NodeId × PortIdx → Option AudioFrame)
    (target : NodeId × PortIdx) (slot : AudioFrame) : Option AudioFrame :=
  match edges.find? (fun edge => edge.dst = target) with
  | some edge =>
    match source edge.src with
    | some srcFrame => copyFrom slot srcFrame
    | none => some slot
  | none => some slot.silenced

def fillSlots (edges : List Edge) (source : NodeId × PortIdx → Option AudioFrame) (n : NodeId)
    (slots : List AudioFrame) : Option (List AudioFrame) :=
  (slots.mapIdx fun pi slot => fillSlot edges source (n, pi) slot).mapM id

def feed {P S : Type} (g : Graph P S) (node : NodeId) (port : PortIdx) (src : AudioFrame) :
    Option (Graph P S) :=
  match g.scratch.outputScratch[node]? with
  | none => some g
  | some slots =>
    match slots[port]? with
    | none => some g
    | some dst =>
      (copyFrom dst src).map fun frame =>
        { g with
          scratch.outputScratch := g.scratch.outputScratch.set node (slots.set port frame) }

theorem copyFrom_eq (dst src : AudioFrame) : copyFrom dst src = some (dst.copyFrom src) := by
  have hsrc : min src.samples.length dst.samples.length ≤ src.samples.length := Nat.min_le_left _ _
  have hdst : min src.samples.length dst.samples.length ≤ dst.samples.length := Nat.min_le_right _ _
  simp [copyFrom, slicePrefix, copyFromSlice, AudioFrame.copyFrom, hsrc, hdst]

theorem fillSlot_eq (edges : List Edge) (source : NodeId × PortIdx → Option AudioFrame)
    (target : NodeId × PortIdx) (slot : AudioFrame) :
    fillSlot edges source target slot = some (AudioGraph.fillSlot edges source target slot) := by
  unfold fillSlot AudioGraph.fillSlot
  cases edges.find? (fun edge => edge.dst = target) with
  | none => rfl
  | some edge => cases hsource : source edge.src <;> simp [hsource, copyFrom_eq]

theorem fillSlots_eq (edges : List Edge) (source : NodeId × PortIdx → Option AudioFrame)
    (n : NodeId) (slots : List AudioFrame) :
    fillSlots edges source n slots = some (AudioGraph.fillSlots edges source n slots) := by
  have hsome : (slots.mapIdx fun pi slot => fillSlot edges source (n, pi) slot) =
      (AudioGraph.fillSlots edges source n slots).map some := by
    refine List.ext_getElem (by simp [AudioGraph.fillSlots]) fun p _ _ => ?_
    simp [AudioGraph.fillSlots, fillSlot_eq]
  rw [fillSlots, hsome, List.mapM_map]
  exact (List.mapM_pure (f := id)).trans (congrArg some (List.map_id _))

theorem feed_eq {P S : Type} (g : Graph P S) (node : NodeId) (port : PortIdx)
    (src : AudioFrame) : feed g node port src = some (g.feed node port src) := by
  unfold feed Graph.feed
  cases hslots : g.scratch.outputScratch[node]? with
  | none => rfl
  | some slots => cases hport : slots[port]? <;> simp [hport, copyFrom_eq]

variable [AudioCore] {Q R : Type} [AudioNode Q] [SinkNode R]

def sourceProcess (n : RingSource) (ctx : ProcessContext) (outFrames : List AudioFrame) :
    Option (Processed RingSource) :=
  match outFrames with
  | [] => some ⟨n, ctx, []⟩
  | out :: rest =>
    match n.consumer.pop with
    | some (frame, consumer) =>
      (copyFrom out frame).bind fun out =>
        (copyFrom n.last frame).map fun last =>
          ⟨{ n with consumer := consumer, last := last }, ctx, out :: rest⟩
    | none => (copyFrom out n.last).map fun out => ⟨n, ctx, out :: rest⟩

def sinkProcess (n : RingSink) (ctx : ProcessContext) (inFrames outFrames : List AudioFrame) :
    Option (Processed RingSink) :=
  match inFrames with
  | [] => some ⟨n, ctx, outFrames⟩
  | inp :: _ => (copyFrom n.stash inp).map fun stash => ⟨{ n with stash := stash }, ctx, outFrames⟩

def process (n : NodeSlot (DynNode Q) (DynSink R)) (ctx : ProcessContext)
    (i o : List AudioFrame) : Option (Processed (NodeSlot (DynNode Q) (DynSink R))) :=
  match n with
  | .plain (.ringSource n) => (sourceProcess n ctx o).map (·.map fun n => .plain (.ringSource n))
  | .plain (.ringSink n) => (sinkProcess n ctx i o).map (·.map fun n => .plain (.ringSink n))
  | .sink (.ringSink n) => (sinkProcess n ctx i o).map (·.map fun n => .sink (.ringSink n))
  | n => some (AudioNode.process n ctx i o)

def visit (edges : List Edge)
    (st : GraphScratch (DynNode Q) (DynSink R) × ProcessContext) (n : NodeId) :
    Option (GraphScratch (DynNode Q) (DynSink R) × ProcessContext) :=
  match st.1.inputScratch[n]? with
  | none => some st
  | some slots =>
    (fillSlots edges (frameAt st.1.outputScratch) n slots).bind fun inSlots =>
      let scratch := { st.1 with inputScratch := st.1.inputScratch.set n inSlots }
      match scratch.outputScratch[n]? with
      | none => some (scratch, st.2)
      | some outSlots =>
        match scratch.nodes[n]? with
        | none => some (scratch, st.2)
        | some node =>
          (process node st.2 inSlots outSlots).map fun r =>
            ({ scratch with
                nodes := scratch.nodes.set n r.node
                outputScratch := scratch.outputScratch.set n r.outputs }, r.ctx)

def processCycle (g : Graph (DynNode Q) (DynSink R)) (ctx : ProcessContext) :
    Option (Graph (DynNode Q) (DynSink R) × ProcessContext × Except GraphError Unit) :=
  if g.compiled then
    (g.executionOrder.foldlM (visit g.edges) (g.scratch, ctx)).map fun st =>
      ({ g with scratch := st.1 }, st.2, .ok ())
  else some (g, ctx, .error .notCompiled)

def act (g : Graph (DynNode Q) (DynSink R)) (a : Act Q R) :
    Option (Graph (DynNode Q) (DynSink R) × Seen) :=
  match a with
  | .call (.feed node port src) => (feed g node port src).map fun g => (g, .called .fed)
  | .call (.processCycle ctx) =>
    (processCycle g ctx).map fun r => (r.1, .called (.cycled r.2.1 r.2.2))
  | a => some (g.act a)

theorem sourceProcess_eq (n : RingSource) (ctx : ProcessContext) (i o : List AudioFrame) :
    sourceProcess n ctx o = some (n.process ctx i o) := by
  cases o with
  | nil => rfl
  | cons out rest =>
    cases h : n.consumer.pop with
    | none => simp [sourceProcess, h, copyFrom_eq, RingSource.process_of_empty h]
    | some popped => simp [sourceProcess, h, copyFrom_eq, RingSource.process_of_pop h]

theorem sinkProcess_eq (n : RingSink) (ctx : ProcessContext) (i o : List AudioFrame) :
    sinkProcess n ctx i o = some (n.process ctx i o) := by
  cases i with
  | nil => rfl
  | cons inp rest => simp [sinkProcess, copyFrom_eq, RingSink.process]

theorem process_eq (n : NodeSlot (DynNode Q) (DynSink R)) (ctx : ProcessContext)
    (i o : List AudioFrame) : process n ctx i o = some (AudioNode.process n ctx i o) := by
  cases n with
  | plain n =>
    cases n with
    | ringSource n => simp only [process, sourceProcess_eq n ctx i o]; rfl
    | ringSink n => simp only [process, sinkProcess_eq]; rfl
    | other n => rfl
  | sink n =>
    cases n with
    | ringSink n => simp only [process, sinkProcess_eq]; rfl
    | other n => rfl

theorem visit_eq (edges : List Edge)
    (st : GraphScratch (DynNode Q) (DynSink R) × ProcessContext) (n : NodeId) :
    visit edges st n = some (AudioGraph.visit edges st n) := by
  cases hin : st.1.inputScratch[n]? with
  | none => simp [visit, AudioGraph.visit, hin]
  | some slots =>
    cases hout : st.1.outputScratch[n]? with
    | none => simp [visit, AudioGraph.visit, fillSlots_eq, hin, hout]
    | some outSlots =>
      cases hnode : st.1.nodes[n]? with
      | none => simp [visit, AudioGraph.visit, fillSlots_eq, hin, hout, hnode]
      | some node =>
        simp [visit, AudioGraph.visit, fillSlots_eq, process_eq, hin, hout, hnode]

theorem cycle_eq (edges : List Edge) (order : List NodeId)
    (st : GraphScratch (DynNode Q) (DynSink R) × ProcessContext) :
    order.foldlM (visit edges) st = some (cycle edges order st) := by
  induction order generalizing st with
  | nil => rfl
  | cons n order ih =>
    rw [List.foldlM_cons, visit_eq]
    exact ih (AudioGraph.visit edges st n)

theorem processCycle_eq (g : Graph (DynNode Q) (DynSink R)) (ctx : ProcessContext) :
    processCycle g ctx = some (g.processCycle ctx) := by
  unfold processCycle Graph.processCycle
  split
  · rw [cycle_eq]
    rfl
  · rfl

theorem act_eq (g : Graph (DynNode Q) (DynSink R)) (a : Act Q R) : act g a = some (g.act a) := by
  cases a with
  | call op =>
    cases op with
    | feed node port src => simp only [act, feed_eq]; rfl
    | processCycle ctx => simp only [act, processCycle_eq]; rfl
    | _ => rfl
  | _ => rfl

end Checked

end AudioGraph
