import AudioGraph.Engine.Bridge

namespace AudioGraph

open BoundedFifo

inductive Place where
  | a (id : NodeId)
  | b (id : NodeId)
deriving DecidableEq

-- Where each node of a graph goes, and the ring that stands for its `i`-th link when that crosses.
structure Cut where
  place : NodeId → Option Place
  wire : Nat → Wire
  capacity : Nat → Nat

namespace Cut

variable (cut : Cut)

def crosses (e : Edge) : Bool :=
  match cut.place e.src.1, cut.place e.dst.1 with
  | some (.a _), some (.b _) => true
  | _, _ => false

def linkA (link : Edge × Nat) : Option Edge :=
  match cut.place link.1.src.1, cut.place link.1.dst.1 with
  | some (.a src), some (.a dst) => some ⟨(src, link.1.src.2), (dst, link.1.dst.2)⟩
  | some (.a src), some (.b _) => some ⟨(src, link.1.src.2), ((cut.wire link.2).sink, 0)⟩
  | _, _ => none

def linkB (link : Edge × Nat) : Option Edge :=
  match cut.place link.1.src.1, cut.place link.1.dst.1 with
  | some (.b src), some (.b dst) => some ⟨(src, link.1.src.2), (dst, link.1.dst.2)⟩
  | some (.a _), some (.b dst) => some ⟨((cut.wire link.2).source, 0), (dst, link.1.dst.2)⟩
  | _, _ => none

def linksA (edges : List Edge) : List Edge := edges.zipIdx.filterMap cut.linkA

def linksB (edges : List Edge) : List Edge := edges.zipIdx.filterMap cut.linkB

def crossings (edges : List Edge) : List (Edge × Nat) :=
  edges.zipIdx.filter fun link => cut.crosses link.1

def wires (edges : List Edge) : List Wire := (cut.crossings edges).map fun link => cut.wire link.2

variable [AudioCore] {Q R : Type}

def ringSink (config : GraphConfig) (i : Nat) : RingSink :=
  RingSink.new (RingBuffer.new (cut.capacity i)) config.channels config.sampleRate config.numFrames

def ringSource (config : GraphConfig) (i : Nat) : RingSource :=
  RingSource.new (RingBuffer.new (cut.capacity i)) config.channels config.sampleRate
    config.numFrames

-- Only the order of the links into one port can matter to the graph, so only that is fixed.
def SameLinks (edges edges' : List Edge) : Prop :=
  ∀ target : NodeId × PortIdx,
    edges'.filter (fun e => e.dst = target) = edges.filter (fun e => e.dst = target)

-- `a` and `b` are the parts of `g`, every crossing link replaced by a sink, a source and a ring.
-- Rings with both ends among the nodes of `g` are outside the model, as `RingSource` says.
structure Splits (config : GraphConfig) (g a b : Graph (DynNode Q) (DynSink R)) : Prop where
  placed : ∀ n : NodeId, (cut.place n).isSome ↔ n < g.scratch.nodes.length
  injective : ∀ (m n : NodeId) (p : Place), cut.place m = some p → cut.place n = some p → m = n
  forward : ∀ e ∈ g.edges, ∀ src dst : NodeId,
    ¬ (cut.place e.src.1 = some (.b src) ∧ cut.place e.dst.1 = some (.a dst))
  nodeA : ∀ n m : NodeId, cut.place n = some (.a m) → a.scratch.nodes[m]? = g.scratch.nodes[n]?
  nodeB : ∀ n m : NodeId, cut.place n = some (.b m) → b.scratch.nodes[m]? = g.scratch.nodes[n]?
  capacity : ∀ link ∈ cut.crossings g.edges, 1 ≤ cut.capacity link.2
  sink : ∀ link ∈ cut.crossings g.edges,
    a.scratch.nodes[(cut.wire link.2).sink]? = some (.sink (.ringSink (cut.ringSink config link.2)))
  source : ∀ link ∈ cut.crossings g.edges,
    b.scratch.nodes[(cut.wire link.2).source]? =
      some (.plain (.ringSource (cut.ringSource config link.2)))
  separate : Separate (cut.wires g.edges)
  sink_new : ∀ link ∈ cut.crossings g.edges, ∀ n : NodeId,
    cut.place n ≠ some (.a (cut.wire link.2).sink)
  source_new : ∀ link ∈ cut.crossings g.edges, ∀ n : NodeId,
    cut.place n ≠ some (.b (cut.wire link.2).source)
  allA : ∀ m : NodeId, m < a.scratch.nodes.length →
    (∃ n, cut.place n = some (.a m)) ∨ ∃ w ∈ cut.wires g.edges, w.sink = m
  allB : ∀ m : NodeId, m < b.scratch.nodes.length →
    (∃ n, cut.place n = some (.b m)) ∨ ∃ w ∈ cut.wires g.edges, w.source = m
  linksA : SameLinks (cut.linksA g.edges) a.edges
  linksB : SameLinks (cut.linksB g.edges) b.edges

end Cut

structure Round [AudioCore] where
  feeds : List (NodeId × PortIdx × AudioFrame)
  ctx : ProcessContext

variable [AudioCore]

def Round.drives (r : Round) : List Drive :=
  r.feeds.map (fun f => .feed f.1 f.2.1 f.2.2) ++ [.processCycle r.ctx]

namespace Cut

variable (cut : Cut) {Q R : Type}

def feed (f : NodeId × PortIdx × AudioFrame) : Option Turn :=
  match cut.place f.1 with
  | some (.a n) => some (.a (.feed n f.2.1 f.2.2))
  | some (.b n) => some (.b (.feed n f.2.1 f.2.2))
  | none => none

def turns (r : Round) : List Turn :=
  r.feeds.filterMap cut.feed ++ Turn.pass r.ctx

def ownSinks (g : Graph (DynNode Q) (DynSink R)) : List NodeId :=
  (List.range g.scratch.nodes.length).filter fun n =>
    match cut.place n, g.scratch.nodes[n]? with
    | some (.a _), some (.sink _) => true
    | _, _ => false

end Cut

end AudioGraph
