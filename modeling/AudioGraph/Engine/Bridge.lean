import AudioGraph.Engine.Ring
import AudioGraph.Engine.Run
import AudioGraph.Foundation.Handoff
import Mathlib.Data.List.Nodup

namespace AudioGraph

open BoundedFifo Handoff

variable {P R Q S : Type}

namespace Graph

def sinkAt (g : Graph P (DynSink R)) (id : NodeId) : Option RingSink :=
  match g.scratch.nodes[id]? with
  | some (.sink (.ringSink n)) => some n
  | _ => none

theorem sinkAt_eq_some {g : Graph P (DynSink R)} {id : NodeId} {n : RingSink} :
    g.sinkAt id = some n ↔ g.scratch.nodes[id]? = some (.sink (.ringSink n)) := by
  unfold sinkAt
  split
  · rename_i m hm
    simp [hm]
  · rename_i hother
    constructor
    · intro h
      cases h
    · exact fun h => absurd h (hother n)

def sourceAt (g : Graph (DynNode Q) S) (id : NodeId) : Option RingSource :=
  match g.scratch.nodes[id]? with
  | some (.plain (.ringSource n)) => some n
  | _ => none

theorem sourceAt_eq_some {g : Graph (DynNode Q) S} {id : NodeId} {n : RingSource} :
    g.sourceAt id = some n ↔ g.scratch.nodes[id]? = some (.plain (.ringSource n)) := by
  unfold sourceAt
  split
  · rename_i m hm
    simp [hm]
  · rename_i hother
    constructor
    · intro h
      cases h
    · exact fun h => absurd h (hother n)

def setProducer (g : Graph P (DynSink R)) (id : NodeId) (ring : RingBuffer AudioFrame) :
    Graph P (DynSink R) :=
  { g with
    scratch.nodes := g.scratch.nodes.modify id fun
      | .sink (.ringSink n) => .sink (.ringSink { n with producer := ring })
      | slot => slot }

def setConsumer (g : Graph (DynNode Q) S) (id : NodeId) (ring : RingBuffer AudioFrame) :
    Graph (DynNode Q) S :=
  { g with
    scratch.nodes := g.scratch.nodes.modify id fun
      | .plain (.ringSource n) => .plain (.ringSource { n with consumer := ring })
      | slot => slot }

end Graph

structure Wire where
  sink : NodeId
  source : NodeId
deriving DecidableEq

def handRight (a : Graph P (DynSink R)) (b : Graph (DynNode Q) S) (w : Wire) :
    Graph (DynNode Q) S :=
  match a.sinkAt w.sink with
  | some n => b.setConsumer w.source n.producer
  | none => b

def handLeft (b : Graph (DynNode Q) S) (a : Graph P (DynSink R)) (w : Wire) :
    Graph P (DynSink R) :=
  match b.sourceAt w.source with
  | some n => a.setProducer w.sink n.consumer
  | none => a

structure Separate (wires : List Wire) : Prop where
  sinks : (wires.map Wire.sink).Nodup
  sources : (wires.map Wire.source).Nodup

theorem Separate.nodup {wires : List Wire} (h : Separate wires) : wires.Nodup :=
  List.Nodup.of_map Wire.sink h.sinks

theorem Separate.sink_ne {wires : List Wire} (h : Separate wires) {v w : Wire} (hv : v ∈ wires)
    (hw : w ∈ wires) (hne : v ≠ w) : v.sink ≠ w.sink :=
  fun heq => hne (List.inj_on_of_nodup_map h.sinks hv hw heq)

theorem Separate.source_ne {wires : List Wire} (h : Separate wires) {v w : Wire} (hv : v ∈ wires)
    (hw : w ∈ wires) (hne : v ≠ w) : v.source ≠ w.source :=
  fun heq => hne (List.inj_on_of_nodup_map h.sources hv hw heq)

-- Two graphs, on threads of their own, that hold the two ends of some rings.
structure Bridge (P R Q S : Type) where
  a : Graph P (DynSink R)
  b : Graph (DynNode Q) S

variable [AudioCore]

inductive Turn where
  | a (d : Drive)
  | b (d : Drive)

def Turn.pass (ctx : ProcessContext) : List Turn :=
  [.a (.processCycle ctx), .a .flushSinks, .b (.processCycle ctx)]

def Turn.kind (w : Wire) : Turn → Option Kind
  | .a (.processCycle _) => some .store
  | .a .flushSinks => some .flush
  | .a (.flushSink node) => if node = w.sink then some .flush else none
  | .b (.processCycle _) => some .play
  | _ => none

namespace Bridge

variable [AudioNode P] [SinkNode R] [AudioNode Q] [SinkNode S]

-- A ring is one object: what an action at one end leaves of it is what the other end sees.
def step (wires : List Wire) (st : Bridge P R Q S) : Turn → Bridge P R Q S × Outcome
  | .a d =>
    let r := st.a.step d.op
    (⟨r.1, wires.foldl (handRight r.1) st.b⟩, r.2)
  | .b d =>
    let r := st.b.step d.op
    (⟨wires.foldl (handLeft r.1) st.a, r.1⟩, r.2)

def run (wires : List Wire) (st : Bridge P R Q S) (turns : List Turn) :
    Bridge P R Q S × List Outcome :=
  Transition.run (step wires) st turns

def sinkEvents (sink : NodeId) (before after : Graph P (DynSink R)) :
    Drive → List (Event AudioFrame FlushError)
  | .processCycle _ => (after.readInput sink 0).toList.map .stored
  | .flushSinks => (before.sinkAt sink).toList.map fun n => .flushed n.stash n.flush.2
  | .flushSink node =>
    if node = sink then (before.sinkAt sink).toList.map fun n => .flushed n.stash n.flush.2 else []
  | _ => []

def sourceEvents (source : NodeId) (before after : Graph (DynNode Q) S) :
    Drive → List (Event AudioFrame FlushError)
  | .processCycle _ =>
    (after.readOutput source 0).toList.map fun frame =>
      .played frame ((before.sourceAt source).any fun n => n.consumer.pop.isSome)
  | _ => []

def events (w : Wire) (before after : Bridge P R Q S) : Turn → List (Event AudioFrame FlushError)
  | .a d => sinkEvents w.sink before.a after.a d
  | .b d => sourceEvents w.source before.b after.b d

def history (wires : List Wire) (w : Wire) :
    Bridge P R Q S → List Turn → List (Event AudioFrame FlushError)
  | _, [] => []
  | st, turn :: turns =>
    let next := (step wires st turn).1
    events w st next turn ++ history wires w next turns

end Bridge

end AudioGraph
