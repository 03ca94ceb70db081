import AudioGraph.Engine.Node
import AudioGraph.Foundation.BoundedFifo

namespace AudioGraph

open BoundedFifo

-- Either end holds the ring by value: a graph that owns both ends of one ring is not modelled.
structure RingSource where
  consumer : RingBuffer AudioFrame
  outPort : PortDescriptor
  last : AudioFrame
deriving DecidableEq

structure RingSink where
  producer : RingBuffer AudioFrame
  inPort : PortDescriptor
  stash : AudioFrame
deriving DecidableEq

variable [AudioCore]

namespace RingSource

def new (consumer : RingBuffer AudioFrame) (channels : UInt16) (sampleRate : UInt32)
    (numFrames : Nat) : RingSource where
  consumer := consumer
  outPort := ⟨.output, channels, .f32⟩
  last := silence channels numFrames sampleRate

def inputs (_ : RingSource) : List PortDescriptor := []

def outputs (n : RingSource) : List PortDescriptor := [n.outPort]

def process (n : RingSource) (ctx : ProcessContext) (_inFrames outFrames : List AudioFrame) :
    Processed RingSource :=
  match outFrames with
  | [] => ⟨n, ctx, []⟩
  | out :: rest =>
    match n.consumer.pop with
    | some (frame, consumer) =>
      ⟨{ n with consumer := consumer, last := n.last.copyFrom frame }, ctx,
        out.copyFrom frame :: rest⟩
    | none => ⟨n, ctx, out.copyFrom n.last :: rest⟩

variable {n : RingSource} {ctx : ProcessContext} {i rest : List AudioFrame} {out : AudioFrame}

theorem process_of_pop {frame : AudioFrame} {consumer : RingBuffer AudioFrame}
    (h : n.consumer.pop = some (frame, consumer)) :
    n.process ctx i (out :: rest) =
      ⟨{ n with consumer := consumer, last := n.last.copyFrom frame }, ctx,
        out.copyFrom frame :: rest⟩ := by
  simp [process, h]

theorem process_of_empty (h : n.consumer.pop = none) :
    n.process ctx i (out :: rest) = ⟨n, ctx, out.copyFrom n.last :: rest⟩ := by
  simp [process, h]

theorem process_spec (n : RingSource) (ctx : ProcessContext) (i o : List AudioFrame) :
    (n.process ctx i o).outputs.map (·.len) = o.map (·.len) ∧ (n.process ctx i o).ctx = ctx ∧
      (n.process ctx i o).node.outPort = n.outPort := by
  cases o with
  | nil => exact ⟨rfl, rfl, rfl⟩
  | cons out rest =>
    cases h : n.consumer.pop with
    | none => simp [process_of_empty h]
    | some popped => simp [process_of_pop h]

instance : AudioNode RingSource where
  inputs := inputs
  outputs := outputs
  process := process
  process_outputs_length n ctx i o := by
    simpa using congrArg List.length (process_spec n ctx i o).1

instance : KeepsLengths RingSource where
  process_lens n ctx i o := (process_spec n ctx i o).1

instance : KeepsContext RingSource where
  process_ctx n ctx i o := (process_spec n ctx i o).2.1

instance : FixedPorts RingSource where
  process_inputs _ _ _ _ := rfl
  process_outputs n ctx i o := congrArg (fun port => [port]) (process_spec n ctx i o).2.2

end RingSource

namespace RingSink

def new (producer : RingBuffer AudioFrame) (channels : UInt16) (sampleRate : UInt32)
    (numFrames : Nat) : RingSink where
  producer := producer
  inPort := ⟨.input, channels, .f32⟩
  stash := silence channels numFrames sampleRate

def inputs (n : RingSink) : List PortDescriptor := [n.inPort]

def outputs (_ : RingSink) : List PortDescriptor := []

def process (n : RingSink) (ctx : ProcessContext) (inFrames outFrames : List AudioFrame) :
    Processed RingSink :=
  match inFrames with
  | [] => ⟨n, ctx, outFrames⟩
  | inp :: _ => ⟨{ n with stash := n.stash.copyFrom inp }, ctx, outFrames⟩

def flush (n : RingSink) : RingSink × Except FlushError Unit :=
  match n.producer.push n.stash with
  | some producer => ({ n with producer := producer }, .ok ())
  | none => (n, .error (.ringFull 1))

omit [AudioCore] in
theorem flush_cases (n : RingSink) :
    (∃ ring, n.producer.push n.stash = some ring ∧
      n.flush = ({ n with producer := ring }, .ok ())) ∨
    n.producer.push n.stash = none ∧ n.flush = (n, .error (.ringFull 1)) := by
  cases h : n.producer.push n.stash with
  | some ring => exact Or.inl ⟨ring, rfl, by simp [flush, h]⟩
  | none => exact Or.inr ⟨rfl, by simp [flush, h]⟩

omit [AudioCore] in
theorem flush_stash (n : RingSink) : n.flush.1.stash = n.stash := by
  rcases n.flush_cases with ⟨ring, -, heq⟩ | ⟨-, heq⟩ <;> rw [heq]

instance : SinkNode RingSink where
  inputs := inputs
  outputs := outputs
  process := process
  process_outputs_length n ctx i o := by cases i <;> rfl
  flush := flush

instance : KeepsLengths RingSink where
  process_lens n ctx i o := by cases i <;> rfl

instance : KeepsContext RingSink where
  process_ctx n ctx i o := by cases i <;> rfl

instance : FixedSinkPorts RingSink where
  process_inputs n ctx i o := by cases i <;> rfl
  process_outputs _ _ _ _ := rfl
  flush_inputs n := by
    change [(flush n).1.inPort] = [n.inPort]
    cases h : n.producer.push n.stash <;> simp [flush, h]
  flush_outputs _ := rfl

end RingSink

-- `Box<dyn AudioNode>` and `Box<dyn SinkNode>`: a node of this crate or one of the caller's.
inductive DynNode (Q : Type) where
  | ringSource (n : RingSource)
  | ringSink (n : RingSink)
  | other (n : Q)
deriving DecidableEq

inductive DynSink (R : Type) where
  | ringSink (n : RingSink)
  | other (n : R)
deriving DecidableEq

variable {Q R : Type} [AudioNode Q] [SinkNode R]

instance : AudioNode (DynNode Q) where
  inputs
    | .ringSource n => n.inputs
    | .ringSink n => n.inputs
    | .other n => AudioNode.inputs n
  outputs
    | .ringSource n => n.outputs
    | .ringSink n => n.outputs
    | .other n => AudioNode.outputs n
  process
    | .ringSource n, ctx, i, o => (n.process ctx i o).map .ringSource
    | .ringSink n, ctx, i, o => (n.process ctx i o).map .ringSink
    | .other n, ctx, i, o => (process n ctx i o).map .other
  process_outputs_length n ctx i o := by
    cases n with
    | ringSource n => exact AudioNode.process_outputs_length n ctx i o
    | ringSink n => exact AudioNode.process_outputs_length n ctx i o
    | other n => exact AudioNode.process_outputs_length n ctx i o

instance : SinkNode (DynSink R) where
  inputs
    | .ringSink n => n.inputs
    | .other n => AudioNode.inputs n
  outputs
    | .ringSink n => n.outputs
    | .other n => AudioNode.outputs n
  process
    | .ringSink n, ctx, i, o => (n.process ctx i o).map .ringSink
    | .other n, ctx, i, o => (process n ctx i o).map .other
  process_outputs_length n ctx i o := by
    cases n with
    | ringSink n => exact AudioNode.process_outputs_length n ctx i o
    | other n => exact AudioNode.process_outputs_length n ctx i o
  flush
    | .ringSink n => (.ringSink n.flush.1, n.flush.2)
    | .other n => (.other (flush n).1, (flush n).2)

instance [KeepsLengths Q] : KeepsLengths (DynNode Q) where
  process_lens n ctx i o := by
    cases n with
    | ringSource n => exact KeepsLengths.process_lens n ctx i o
    | ringSink n => exact KeepsLengths.process_lens n ctx i o
    | other n => exact KeepsLengths.process_lens n ctx i o

instance [KeepsLengths R] : KeepsLengths (DynSink R) where
  process_lens n ctx i o := by
    cases n with
    | ringSink n => exact KeepsLengths.process_lens n ctx i o
    | other n => exact KeepsLengths.process_lens n ctx i o

instance [KeepsContext Q] : KeepsContext (DynNode Q) where
  process_ctx n ctx i o := by
    cases n with
    | ringSource n => exact KeepsContext.process_ctx n ctx i o
    | ringSink n => exact KeepsContext.process_ctx n ctx i o
    | other n => exact KeepsContext.process_ctx n ctx i o

instance [KeepsContext R] : KeepsContext (DynSink R) where
  process_ctx n ctx i o := by
    cases n with
    | ringSink n => exact KeepsContext.process_ctx n ctx i o
    | other n => exact KeepsContext.process_ctx n ctx i o

instance [FixedPorts Q] : FixedPorts (DynNode Q) where
  process_inputs n ctx i o := by
    cases n with
    | ringSource n => exact FixedPorts.process_inputs n ctx i o
    | ringSink n => exact FixedPorts.process_inputs n ctx i o
    | other n => exact FixedPorts.process_inputs n ctx i o
  process_outputs n ctx i o := by
    cases n with
    | ringSource n => exact FixedPorts.process_outputs n ctx i o
    | ringSink n => exact FixedPorts.process_outputs n ctx i o
    | other n => exact FixedPorts.process_outputs n ctx i o

instance [FixedSinkPorts R] : FixedSinkPorts (DynSink R) where
  process_inputs n ctx i o := by
    cases n with
    | ringSink n => exact FixedPorts.process_inputs n ctx i o
    | other n => exact FixedPorts.process_inputs n ctx i o
  process_outputs n ctx i o := by
    cases n with
    | ringSink n => exact FixedPorts.process_outputs n ctx i o
    | other n => exact FixedPorts.process_outputs n ctx i o
  flush_inputs n := by
    cases n with
    | ringSink n => exact FixedSinkPorts.flush_inputs n
    | other n => exact FixedSinkPorts.flush_inputs n
  flush_outputs n := by
    cases n with
    | ringSink n => exact FixedSinkPorts.flush_outputs n
    | other n => exact FixedSinkPorts.flush_outputs n

end AudioGraph
