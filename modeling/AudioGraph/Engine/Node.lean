import AudioGraph.Engine.Error
import AudioGraph.Engine.Frame

namespace AudioGraph

variable [AudioCore]

structure Processed (N : Type) where
  node : N
  ctx : ProcessContext
  outputs : List AudioFrame

class AudioNode (N : Type) where
  inputs : N → List PortDescriptor
  outputs : N → List PortDescriptor
  process : N → ProcessContext → List AudioFrame → List AudioFrame → Processed N
  -- The output frames are a borrowed slice: a node may rewrite them but not add or drop one.
  process_outputs_length : ∀ n ctx i o, (process n ctx i o).outputs.length = o.length

class Flushable (N : Type) where
  flush : N → N × Except FlushError Unit

class SinkNode (N : Type) extends AudioNode N, Flushable N

export AudioNode (process)
export Flushable (flush)

class KeepsLengths (N : Type) [AudioNode N] : Prop where
  process_lens : ∀ (n : N) ctx i o, (process n ctx i o).outputs.map (·.len) = o.map (·.len)

class KeepsContext (N : Type) [AudioNode N] : Prop where
  process_ctx : ∀ (n : N) ctx i o, (process n ctx i o).ctx = ctx

class FixedPorts (N : Type) [AudioNode N] : Prop where
  process_inputs : ∀ (n : N) ctx i o,
    AudioNode.inputs (process n ctx i o).node = AudioNode.inputs n
  process_outputs : ∀ (n : N) ctx i o,
    AudioNode.outputs (process n ctx i o).node = AudioNode.outputs n

class FixedSinkPorts (N : Type) [SinkNode N] : Prop extends FixedPorts N where
  flush_inputs : ∀ n : N, AudioNode.inputs (flush n).1 = AudioNode.inputs n
  flush_outputs : ∀ n : N, AudioNode.outputs (flush n).1 = AudioNode.outputs n

inductive NodeSlot (P S : Type) where
  | plain (n : P)
  | sink (n : S)
deriving DecidableEq

variable {P S : Type} [AudioNode P] [SinkNode S]

def Processed.map {N M : Type} (f : N → M) (r : Processed N) : Processed M :=
  ⟨f r.node, r.ctx, r.outputs⟩

instance : AudioNode (NodeSlot P S) where
  inputs
    | .plain n => AudioNode.inputs n
    | .sink n => AudioNode.inputs n
  outputs
    | .plain n => AudioNode.outputs n
    | .sink n => AudioNode.outputs n
  process
    | .plain n, ctx, i, o => (process n ctx i o).map .plain
    | .sink n, ctx, i, o => (process n ctx i o).map .sink
  process_outputs_length n ctx i o := by
    cases n with
    | plain n => exact AudioNode.process_outputs_length n ctx i o
    | sink n => exact AudioNode.process_outputs_length n ctx i o

instance [KeepsLengths P] [KeepsLengths S] : KeepsLengths (NodeSlot P S) where
  process_lens n ctx i o := by
    cases n with
    | plain n => exact KeepsLengths.process_lens n ctx i o
    | sink n => exact KeepsLengths.process_lens n ctx i o

instance [KeepsContext P] [KeepsContext S] : KeepsContext (NodeSlot P S) where
  process_ctx n ctx i o := by
    cases n with
    | plain n => exact KeepsContext.process_ctx n ctx i o
    | sink n => exact KeepsContext.process_ctx n ctx i o

instance [FixedPorts P] [FixedSinkPorts S] : FixedPorts (NodeSlot P S) where
  process_inputs n ctx i o := by
    cases n with
    | plain n => exact FixedPorts.process_inputs n ctx i o
    | sink n => exact FixedPorts.process_inputs n ctx i o
  process_outputs n ctx i o := by
    cases n with
    | plain n => exact FixedPorts.process_outputs n ctx i o
    | sink n => exact FixedPorts.process_outputs n ctx i o

end AudioGraph
