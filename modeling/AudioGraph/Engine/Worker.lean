import AudioGraph.Engine.Bridge

namespace AudioGraph

variable {P Q R S : Type}

namespace Graph

-- The other ends of the rings: what a worker does to the nodes of a graph it does not hold.
def pushSource (g : Graph (DynNode Q) S) (id : NodeId) (frame : AudioFrame) :
    Graph (DynNode Q) S × Bool :=
  match (g.sourceAt id).bind (·.consumer.push frame) with
  | some ring => (g.setConsumer id ring, true)
  | none => (g, false)

def popSink (g : Graph P (DynSink R)) (id : NodeId) :
    Graph P (DynSink R) × Option AudioFrame :=
  match (g.sinkAt id).bind (·.producer.pop) with
  | some (frame, ring) => (g.setProducer id ring, some frame)
  | none => (g, none)

theorem pushSource_cases (g : Graph (DynNode Q) S) (id : NodeId) (frame : AudioFrame) :
    g.pushSource id frame = (g, false) ∨
      ∃ n ring, g.scratch.nodes[id]? = some (.plain (.ringSource n)) ∧
        n.consumer.push frame = some ring ∧
        g.pushSource id frame = (g.setConsumer id ring, true) := by
  unfold pushSource
  split
  · rename_i ring hring
    obtain ⟨n, hn, hpush⟩ := Option.bind_eq_some_iff.mp hring
    exact Or.inr ⟨n, ring, sourceAt_eq_some.mp hn, hpush, rfl⟩
  · exact Or.inl rfl

theorem popSink_cases (g : Graph P (DynSink R)) (id : NodeId) :
    g.popSink id = (g, none) ∨
      ∃ n frame ring, g.scratch.nodes[id]? = some (.sink (.ringSink n)) ∧
        n.producer.pop = some (frame, ring) ∧
        g.popSink id = (g.setProducer id ring, some frame) := by
  unfold popSink
  split
  · rename_i frame ring hring
    obtain ⟨n, hn, hpop⟩ := Option.bind_eq_some_iff.mp hring
    exact Or.inr ⟨n, frame, ring, sinkAt_eq_some.mp hn, hpop, rfl⟩
  · exact Or.inl rfl

end Graph

variable [AudioCore]

inductive Act (Q R : Type) where
  | call (op : Op (DynNode Q) (DynSink R))
  | push (source : NodeId) (frame : AudioFrame)
  | pop (sink : NodeId)
  | readInput (node : NodeId) (port : PortIdx)
  | readOutput (node : NodeId) (port : PortIdx)

def Act.plays : Act Q R → Prop
  | .call op => op.runs
  | _ => True

inductive Seen where
  | called (outcome : Outcome)
  | pushed (accepted : Bool)
  | popped (frame : Option AudioFrame)
  | read (frame : Option AudioFrame)

namespace Graph

variable [AudioNode Q] [SinkNode R]

def act (g : Graph (DynNode Q) (DynSink R)) : Act Q R → Graph (DynNode Q) (DynSink R) × Seen
  | .call op => let r := g.step op; (r.1, .called r.2)
  | .push source frame => let r := g.pushSource source frame; (r.1, .pushed r.2)
  | .pop sink => let r := g.popSink sink; (r.1, .popped r.2)
  | .readInput node port => (g, .read (g.readInput node port))
  | .readOutput node port => (g, .read (g.readOutput node port))

def play (g : Graph (DynNode Q) (DynSink R)) (acts : List (Act Q R)) :
    Graph (DynNode Q) (DynSink R) × List Seen :=
  Transition.run act g acts

end Graph

end AudioGraph
