import AudioGraph.Engine.Frame
import AudioGraph.Engine.Topology

namespace AudioGraph

inductive PortDir where
  | input
  | output
deriving DecidableEq, Repr

inductive SampleFmt where
  | f32
  | f64
  | i16
  | i32
deriving DecidableEq, Repr

structure PortMeta where
  direction : PortDir
  channels : UInt16
  sampleFormat : SampleFmt
deriving DecidableEq, Repr

def PortMeta.fromDescriptor (d : PortDescriptor) : PortMeta where
  direction := match d.direction with
    | .input => .input
    | .output => .output
  channels := d.channels
  sampleFormat := match d.sampleFormat with
    | .f32 => .f32
    | .f64 => .f64
    | .i16 => .i16
    | .i32 => .i32

def PortMeta.toDescriptor (m : PortMeta) : PortDescriptor where
  direction := match m.direction with
    | .input => .input
    | .output => .output
  channels := m.channels
  sampleFormat := match m.sampleFormat with
    | .f32 => .f32
    | .f64 => .f64
    | .i16 => .i16
    | .i32 => .i32

@[simp] theorem PortMeta.to_from_descriptor (d : PortDescriptor) :
    (PortMeta.fromDescriptor d).toDescriptor = d := by
  obtain ⟨direction, channels, sampleFormat⟩ := d
  cases direction <;> cases sampleFormat <;> rfl

theorem PortMeta.fromDescriptor_injective : Function.Injective PortMeta.fromDescriptor :=
  Function.LeftInverse.injective PortMeta.to_from_descriptor

structure SnapshotEdge where
  src : NodeId × PortIdx
  dst : NodeId × PortIdx
deriving DecidableEq, Repr

structure NodeSnapshot where
  id : NodeId
  inputs : List PortMeta
  outputs : List PortMeta
deriving DecidableEq, Repr

structure TopologySnapshot where
  nodes : List NodeSnapshot
  edges : List SnapshotEdge
deriving DecidableEq, Repr

inductive TopologyEvent where
  | nodeAdded (node : NodeSnapshot)
  | nodeRemoved (id : NodeId)
  | linkAdded (edge : SnapshotEdge)
  | linkRemoved (id : LinkId)
  | graphCompiled
  | graphReset
deriving DecidableEq, Repr

inductive Mutation where
  | addNode (node : NodeSnapshot)
  | removeNode (id : NodeId)
  | addLink (edge : SnapshotEdge)
  | removeLink (id : LinkId)
deriving DecidableEq, Repr

namespace TopologySnapshot

def new : TopologySnapshot := ⟨[], []⟩

def node (s : TopologySnapshot) (id : NodeId) : Option NodeSnapshot :=
  s.nodes.find? (fun n => n.id = id)

def replaceFirst (ns : NodeSnapshot) : List NodeSnapshot → Option (List NodeSnapshot)
  | [] => none
  | n :: rest => if n.id = ns.id then some (ns :: rest) else (replaceFirst ns rest).map (n :: ·)

def apply (s : TopologySnapshot) : Mutation → TopologySnapshot
  | .addNode ns =>
    match replaceFirst ns s.nodes with
    | some nodes => { s with nodes := nodes }
    | none => { s with nodes := s.nodes ++ [ns] }
  | .removeNode id =>
    { nodes := s.nodes.filter (fun n => n.id ≠ id)
      edges := s.edges.filter (fun e => e.src.1 ≠ id ∧ e.dst.1 ≠ id) }
  | .addLink se => { s with edges := s.edges ++ [se] }
  | .removeLink linkId =>
    if linkId < s.edges.length then { s with edges := s.edges.eraseIdx linkId } else s

theorem replaceFirst_eq_none_iff {ns : NodeSnapshot} {nodes : List NodeSnapshot} :
    replaceFirst ns nodes = none ↔ ns.id ∉ nodes.map (·.id) := by
  induction nodes with
  | nil => simp [replaceFirst]
  | cons n nodes ih =>
    by_cases hn : n.id = ns.id
    · simp [replaceFirst, hn]
    · simp [replaceFirst, hn, Ne.symm hn, ih]

theorem apply_addNode_fresh {s : TopologySnapshot} {ns : NodeSnapshot}
    (h : ns.id ∉ s.nodes.map (·.id)) :
    s.apply (.addNode ns) = { s with nodes := s.nodes ++ [ns] } := by
  simp [apply, replaceFirst_eq_none_iff.mpr h]

end TopologySnapshot

end AudioGraph
