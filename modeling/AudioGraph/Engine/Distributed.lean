import AudioGraph.Engine.Run

namespace AudioGraph

inductive TransportHint where
  | rtp
  | aes67
  | custom
deriving DecidableEq, Repr

structure RemoteNode where
  nodeId : NodeId
  host : String
  port : UInt16
  transportHint : TransportHint
deriving DecidableEq, Repr

inductive PortKind where
  | «local»
  | network (remote : RemoteNode)
deriving DecidableEq, Repr

structure BoundaryPort where
  node : NodeId
  port : PortIdx
  kind : PortKind
  direction : PortDir
deriving DecidableEq, Repr

structure PartitionHint where
  localNodes : List NodeId
  boundaryPorts : List BoundaryPort
deriving DecidableEq, Repr

structure GraphPartition (P S : Type) where
  graph : Graph P S
  boundary : List BoundaryPort

variable [AudioCore] {P S : Type} [AudioNode P] [SinkNode S]

namespace Graph

-- Outputs first: a port index that is good on both sides is an output.
def boundaryPortDirection (g : Graph P S) (node : NodeId) (port : PortIdx) : Option PortDir :=
  match g.scratch.nodes[node]? with
  | none => none
  | some n =>
    if port < (AudioNode.outputs n).length then some .output
    else if port < (AudioNode.inputs n).length then some .input
    else none

def partitionHints (g : Graph P S) (boundaries : List (NodeId × PortIdx × RemoteNode)) :
    List PartitionHint :=
  let localNodes := List.range g.nodeCount
  let boundaryPorts := boundaries.filterMap fun b =>
    (g.boundaryPortDirection b.1 b.2.1).map fun direction =>
      { node := b.1, port := b.2.1, kind := .network b.2.2, direction := direction }
  [⟨localNodes, boundaryPorts⟩]

end Graph

inductive PartitionCall (P S : Type) where
  | compile (config : GraphConfig)
  | processCycle (ctx : ProcessContext)
  | graphMut (op : Op P S)

def PartitionCall.op : PartitionCall P S → Op P S
  | .compile config => .compile config
  | .processCycle ctx => .processCycle ctx
  | .graphMut op => op

namespace GraphPartition

def new (graph : Graph P S) (boundary : List BoundaryPort) : GraphPartition P S :=
  ⟨graph, boundary⟩

def compile (p : GraphPartition P S) (config : GraphConfig) :
    GraphPartition P S × Except GraphError Unit :=
  let r := p.graph.compile config
  ({ p with graph := r.1 }, r.2)

def processCycle (p : GraphPartition P S) (ctx : ProcessContext) :
    GraphPartition P S × ProcessContext × Except GraphError Unit :=
  let r := p.graph.processCycle ctx
  ({ p with graph := r.1 }, r.2)

def graphMut (p : GraphPartition P S) (op : Op P S) : GraphPartition P S × Outcome :=
  let r := p.graph.step op
  ({ p with graph := r.1 }, r.2)

def step (p : GraphPartition P S) : PartitionCall P S → GraphPartition P S × Outcome
  | .compile config => let r := p.compile config; (r.1, .compiled r.2)
  | .processCycle ctx => let r := p.processCycle ctx; (r.1, .cycled r.2.1 r.2.2)
  | .graphMut op => p.graphMut op

def run (p : GraphPartition P S) (calls : List (PartitionCall P S)) :
    GraphPartition P S × List Outcome :=
  Transition.run step p calls

end GraphPartition

end AudioGraph
