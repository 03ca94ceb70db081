import AudioGraph.Engine.Checked
import AudioGraph.Properties.Compilation
import AudioGraph.Properties.Links

namespace AudioGraph

open BoundedFifo Pointwise Relation

section

variable [AudioCore] {Q R : Type} [AudioNode Q] [SinkNode R]

def NodeSlot.memoryLen : NodeSlot (DynNode Q) (DynSink R) → Option Nat
  | .plain (.ringSource n) => some n.last.len
  | .plain (.ringSink n) => some n.stash.len
  | .sink (.ringSink n) => some n.stash.len
  | _ => none

theorem process_memoryLen (n : NodeSlot (DynNode Q) (DynSink R)) (ctx : ProcessContext)
    (i o : List AudioFrame) : (process n ctx i o).node.memoryLen = n.memoryLen := by
  have hsource : ∀ n : RingSource, (n.process ctx i o).node.last.len = n.last.len := by
    intro n
    cases o with
    | nil => rfl
    | cons out rest =>
      cases hpop : n.consumer.pop with
      | none => rw [RingSource.process_of_empty hpop]
      | some popped =>
        rw [RingSource.process_of_pop hpop]
        exact AudioFrame.copyFrom_len n.last popped.1
  have hsink : ∀ n : RingSink, (n.process ctx i o).node.stash.len = n.stash.len := by
    intro n
    cases i with
    | nil => rfl
    | cons inp rest => exact AudioFrame.copyFrom_len n.stash inp
  cases n with
  | plain n =>
    cases n with
    | ringSource n => exact congrArg some (hsource n)
    | ringSink n => exact congrArg some (hsink n)
    | other n => rfl
  | sink n =>
    cases n with
    | ringSink n => exact congrArg some (hsink n)
    | other n => rfl

omit [AudioNode Q] in
theorem flushed_memoryLen (n : NodeSlot (DynNode Q) (DynSink R)) :
    n.flushed.memoryLen = n.memoryLen := by
  cases n with
  | plain n => rfl
  | sink n =>
    cases n with
    | ringSink n =>
      change NodeSlot.memoryLen (.sink (.ringSink n.flush.1)) = _
      unfold RingSink.flush
      split <;> rfl
    | other n => rfl

theorem served_memoryLen {n n' : NodeSlot (DynNode Q) (DynSink R)}
    (h : ReflTransGen Served n n') : n'.memoryLen = n.memoryLen := by
  induction h with
  | refl => rfl
  | tail _ hserved ih =>
    cases hserved with
    | process ctx i o => exact (process_memoryLen _ ctx i o).trans ih
    | flush => exact (flushed_memoryLen _).trans ih

def Act.nodeMade (a : Act Q R) (seen : Seen) : List (NodeSlot (DynNode Q) (DynSink R)) :=
  match a, seen with
  | .call op, .called outcome => (op.nodeMade outcome).map Prod.snd
  | _, _ => []

def Act.memoryMade (a : Act Q R) (seen : Seen) : List (Option Nat) :=
  (a.nodeMade seen).map NodeSlot.memoryLen

namespace Graph

omit [AudioCore] [AudioNode Q] [SinkNode R] in
def memory (g : Graph (DynNode Q) (DynSink R)) : List (Option Nat) :=
  g.scratch.nodes.map NodeSlot.memoryLen

def added (g : Graph (DynNode Q) (DynSink R)) (acts : List (Act Q R)) :
    List (NodeSlot (DynNode Q) (DynSink R)) :=
  Transition.log Act.nodeMade act g acts

omit [AudioCore] [AudioNode Q] [SinkNode R] in
theorem setConsumer_memoryLen (g : Graph (DynNode Q) (DynSink R)) (id : NodeId)
    (ring : RingBuffer AudioFrame) :
    (g.setConsumer id ring).memory = g.memory := by
  refine map_eq_of_forall₂ (forall₂_modify
    (R := fun n n' => NodeSlot.memoryLen n' = n.memoryLen) (fun _ => rfl) (fun slot => ?_) _ id)
  cases slot with
  | plain n => cases n <;> rfl
  | sink n => rfl

omit [AudioCore] [AudioNode Q] [SinkNode R] in
theorem setProducer_memoryLen (g : Graph (DynNode Q) (DynSink R)) (id : NodeId)
    (ring : RingBuffer AudioFrame) :
    (g.setProducer id ring).memory = g.memory := by
  refine map_eq_of_forall₂ (forall₂_modify
    (R := fun n n' => NodeSlot.memoryLen n' = n.memoryLen) (fun _ => rfl) (fun slot => ?_) _ id)
  cases slot with
  | plain n => rfl
  | sink n => cases n <;> rfl

inductive Turned (g : Graph (DynNode Q) (DynSink R)) :
    Act Q R → Graph (DynNode Q) (DynSink R) × Seen → Prop
  | call (op : Op (DynNode Q) (DynSink R)) :
      Turned g (.call op) ((g.step op).1, .called (g.step op).2)
  | peer {a : Act Q R} {seen : Seen} (nodes : List (NodeSlot (DynNode Q) (DynSink R)))
      (hmade : a.nodeMade seen = [])
      (hkept : nodes.map NodeSlot.memoryLen = g.memory) :
      Turned g a ({ g with scratch.nodes := nodes }, seen)

theorem act_turned (g : Graph (DynNode Q) (DynSink R)) (a : Act Q R) : Turned g a (g.act a) := by
  cases a with
  | call op => exact .call op
  | push source frame =>
    simp only [act]
    rcases pushSource_cases g source frame with heq | ⟨n, ring, -, -, heq⟩
    · rw [heq]
      exact .peer g.scratch.nodes rfl rfl
    · rw [heq]
      exact .peer _ rfl (setConsumer_memoryLen g source ring)
  | pop sink =>
    simp only [act]
    rcases popSink_cases g sink with heq | ⟨n, frame, ring, -, -, heq⟩
    · rw [heq]
      exact .peer g.scratch.nodes rfl rfl
    · rw [heq]
      exact .peer _ rfl (setProducer_memoryLen g sink ring)
  | readInput node port => exact .peer g.scratch.nodes rfl rfl
  | readOutput node port => exact .peer g.scratch.nodes rfl rfl

theorem act_memory (g : Graph (DynNode Q) (DynSink R)) (a : Act Q R) :
    (g.act a).1.memory = g.memory ++ a.memoryMade (g.act a).2 := by
  have hturned := act_turned g a
  generalize g.act a = r at hturned ⊢
  cases hturned with
  | call op =>
    have hserved := ((step_performs g op).nodeMade).2
    rw [memory, memory, Act.memoryMade, ← List.map_append]
    exact map_eq_of_forall₂ (hserved.imp fun _ _ h => served_memoryLen h)
  | peer nodes hmade hkept =>
    rw [Act.memoryMade, hmade, List.map_nil, List.append_nil]
    exact hkept

structure Allocated (base g : Graph (DynNode Q) (DynSink R)) : Prop where
  compiled : g.compiled = true
  inputs : rows AudioFrame.len base.scratch.inputScratch <+:
    rows AudioFrame.len g.scratch.inputScratch
  outputs : rows AudioFrame.len base.scratch.outputScratch <+:
    rows AudioFrame.len g.scratch.outputScratch

theorem Allocated.change [KeepsLengths Q] [KeepsLengths R]
    {base g g' : Graph (DynNode Q) (DynSink R)} {op : Op (DynNode Q) (DynSink R)}
    (h : Allocated base g) (hc : Change g op g') :
    Allocated base g' := by
  cases hc with
  | run hop =>
    have hshape := step_runs_shape measured_len g hop
    have hins := congrArg Shape.inputs hshape
    have houts := congrArg Shape.outputs hshape
    simp only [GraphScratch.shape] at hins houts
    refine ⟨?_, hins ▸ h.inputs, houts ▸ h.outputs⟩
    rw [step_runs_eq g hop]
    exact h.compiled
  | add _ slot =>
    rw [addSlot_eq]
    refine ⟨h.compiled, ?_, ?_⟩
    · simp only [emitEvent, pushed, rows_append]
      exact h.inputs.trans (List.prefix_append _ _)
    · simp only [emitEvent, pushed, rows_append]
      exact h.outputs.trans (List.prefix_append _ _)
  | link _ src dst _ => exact ⟨h.compiled, h.inputs, h.outputs⟩
  | compile hfalse _ => exact absurd (hfalse.symm.trans h.compiled) (by decide)
  | listen _ => exact ⟨h.compiled, h.inputs, h.outputs⟩

theorem Allocated.act [KeepsLengths Q] [KeepsLengths R] {base g : Graph (DynNode Q) (DynSink R)}
    (h : Allocated base g) (a : Act Q R) : Allocated base (g.act a).1 := by
  have hturned := act_turned g a
  generalize g.act a = r at hturned ⊢
  cases hturned with
  | call op => exact h.change (step_change g op)
  | peer nodes _ _ => exact ⟨h.compiled, h.inputs, h.outputs⟩

omit [AudioNode Q] [SinkNode R] in
theorem row_kept {nodes : List (NodeSlot (DynNode Q) (DynSink R))} {config : GraphConfig}
    {ports : NodeSlot (DynNode Q) (DynSink R) → List PortDescriptor}
    {table : List (List AudioFrame)} {n : NodeId} {node : NodeSlot (DynNode Q) (DynSink R)}
    (hn : nodes[n]? = some node)
    (hkept : rows AudioFrame.len (nodes.map fun m => portFrames config (ports m)) <+:
      rows AudioFrame.len table) :
    table[n]?.map (·.map AudioFrame.len) = some ((ports node).map fun _ => config.frameLen) := by
  obtain ⟨more, hmore⟩ := hkept
  have hrow : (rows AudioFrame.len (nodes.map fun m => portFrames config (ports m)))[n]? =
      some ((ports node).map fun _ => config.frameLen) := by
    rw [getElem?_rows, List.getElem?_map, hn, Option.map_some, Option.map_some, portFrames_len]
    rfl
  have hlt := (List.getElem?_eq_some_iff.mp hrow).1
  rw [← getElem?_rows, ← hmore, List.getElem?_append_left hlt, hrow]

theorem buffers_keep_size [KeepsLengths Q] [KeepsLengths R]
    (before after : List (Act Q R)) (config : GraphConfig) (ready : Graph (DynNode Q) (DynSink R))
    (hcompile : (new.play before).1.compile config = (ready, .ok ())) :
    (∀ (n : NodeId) node, ready.scratch.nodes[n]? = some node →
      (ready.play after).1.scratch.inputScratch[n]?.map (·.map AudioFrame.len) =
          some ((AudioNode.inputs node).map fun _ => config.frameLen) ∧
        (ready.play after).1.scratch.outputScratch[n]?.map (·.map AudioFrame.len) =
          some ((AudioNode.outputs node).map fun _ => config.frameLen)) ∧
    (ready.play after).1.memory =
      (new.added (before ++ .call (.compile config) :: after)).map NodeSlot.memoryLen ∧
    ∀ a, Checked.act (ready.play after).1 a = some ((ready.play after).1.act a) := by
  have hc := compiled_of_compile hcompile
  have hstart : Allocated ready ready := ⟨hc.compiled, List.prefix_rfl, List.prefix_rfl⟩
  have hend : Allocated ready (ready.play after).1 :=
    Transition.run_always (fun g a h => h.act a) hstart after
  refine ⟨fun n node hn => ⟨?_, ?_⟩, ?_, fun a => Checked.act_eq _ a⟩
  · have hkept := hend.inputs
    rw [hc.inputs, ← hc.nodes] at hkept
    exact row_kept hn hkept
  · have hkept := hend.outputs
    rw [hc.outputs, ← hc.nodes] at hkept
    exact row_kept hn hkept
  · have hready : (new.play (before ++ .call (.compile config) :: after)).1 =
        (ready.play after).1 := by
      simp only [play] at hcompile ⊢
      simp only [Transition.run_append, Transition.run_cons, act, step, hcompile]
    rw [← hready, added, ← Transition.log_map]
    exact Transition.run_log act_memory new (before ++ .call (.compile config) :: after)

end Graph

end

namespace Sample

open PlainCore

def boxedBuild : List (Act RingSource RingSink) :=
  [.call (.addNode (.ringSource source)), .call (.addSink (.ringSink sink)),
    .call (.link (0, 0) (1, 0))]

def boxedReady : Graph (DynNode RingSource) (DynSink RingSink) :=
  ((Graph.new.play boxedBuild).1.compile config).1

theorem boxedReady_compiles :
    (Graph.new.play boxedBuild).1.compile config = (boxedReady, .ok ()) := rfl

def wide : AudioFrame := ⟨2, 48000, [⟨1⟩, ⟨2⟩, ⟨3⟩, ⟨4⟩]⟩

def wideFrames : List (Act RingSource RingSink) :=
  [.push 0 wide, .call (.processCycle ()), .call (.feed 0 0 wide), .call (.processCycle ()),
    .call .flushSinks]

end Sample

open PlainCore Sample in
theorem buffers_keep_size_wide :
    (boxedReady.play wideFrames).1.memory =
      (Graph.new.added (boxedBuild ++ .call (.compile Sample.config) :: wideFrames)).map
        NodeSlot.memoryLen :=
  (Graph.buffers_keep_size boxedBuild wideFrames Sample.config boxedReady boxedReady_compiles).2.1

end AudioGraph
