import AudioGraph.Engine.Graph
import AudioGraph.Foundation.Transition

namespace AudioGraph

variable [AudioCore]

inductive Op (P S : Type) where
  | addNode (node : P)
  | addSink (sink : S)
  | link (src dst : NodeId × PortIdx)
  | compile (config : GraphConfig)
  | feed (node : NodeId) (port : PortIdx) (src : AudioFrame)
  | flushSinks
  | flushSink (node : NodeId)
  | processCycle (ctx : ProcessContext)
  | subscribeTopology
  | dropReceiver (rx : ReceiverId)

-- Operations that name no node type, so that graphs over different nodes can share a run of them.
inductive Drive where
  | compile (config : GraphConfig)
  | feed (node : NodeId) (port : PortIdx) (src : AudioFrame)
  | flushSinks
  | flushSink (node : NodeId)
  | processCycle (ctx : ProcessContext)

def Drive.op {P S : Type} : Drive → Op P S
  | .compile config => .compile config
  | .feed node port src => .feed node port src
  | .flushSinks => .flushSinks
  | .flushSink node => .flushSink node
  | .processCycle ctx => .processCycle ctx

def Drive.feedsOrCycles : Drive → Prop
  | .feed _ _ _ | .processCycle _ => True
  | _ => False

inductive Outcome where
  | added (id : NodeId)
  | linked (result : Except GraphError LinkId)
  | compiled (result : Except GraphError Unit)
  | fed
  | flushedAll (count : Nat) (firstErr : Option FlushError)
  | flushed (result : Except FlushError Unit)
  | cycled (ctx : ProcessContext) (result : Except GraphError Unit)
  | subscribed (rx : ReceiverId)
  | dropped

def Outcome.failed : Outcome → Bool
  | .linked (.error _) => true
  | .compiled (.error _) => true
  | .flushed (.error _) => true
  | .cycled _ (.error _) => true
  | _ => false

def Outcome.flushFailed : Outcome → Bool
  | .flushedAll _ (some _) => true
  | .flushed (.error _) => true
  | _ => false

namespace Op

variable {P S : Type}

def builds : Op P S → Prop
  | .addNode _ | .addSink _ | .link _ _ => True
  | _ => False

def runs : Op P S → Prop
  | .feed _ _ _ | .flushSinks | .flushSink _ | .processCycle _ => True
  | _ => False

def feedsOrCycles : Op P S → Prop
  | .feed _ _ _ | .processCycle _ => True
  | _ => False

theorem feedsOrCycles.runs {op : Op P S} (h : op.feedsOrCycles) : op.runs := by
  cases op <;> trivial

end Op

variable {P S : Type} [AudioNode P] [SinkNode S]

namespace Graph

def step (g : Graph P S) : Op P S → Graph P S × Outcome
  | .addNode node => let r := g.addNode node; (r.1, .added r.2)
  | .addSink sink => let r := g.addSink sink; (r.1, .added r.2)
  | .link src dst => let r := g.link src dst; (r.1, .linked r.2)
  | .compile config => let r := g.compile config; (r.1, .compiled r.2)
  | .feed node port src => (g.feed node port src, .fed)
  | .flushSinks => let r := g.flushSinks; (r.1, .flushedAll r.2.1 r.2.2)
  | .flushSink node => let r := g.flushSink node; (r.1, .flushed r.2)
  | .processCycle ctx => let r := g.processCycle ctx; (r.1, .cycled r.2.1 r.2.2)
  | .subscribeTopology => let r := g.subscribeTopology; (r.1, .subscribed r.2)
  | .dropReceiver rx => (g.dropReceiver rx, .dropped)

def run (g : Graph P S) (ops : List (Op P S)) : Graph P S × List Outcome :=
  Transition.run step g ops

def drive (g : Graph P S) (ds : List Drive) : Graph P S × List Outcome :=
  Transition.run (fun g (d : Drive) => g.step d.op) g ds

def Reachable (g : Graph P S) : Prop := ∃ ops, (new.run ops).1 = g

def Built (g : Graph P S) : Prop := ∃ ops, (∀ op ∈ ops, Op.builds op) ∧ (new.run ops).1 = g

structure Running (config : GraphConfig) (compiled g : Graph P S) : Prop where
  compiles : ∃ built : Graph P S, Built built ∧ built.compile config = (compiled, .ok ())
  runs : ∃ ops, (∀ op ∈ ops, Op.runs op) ∧ (compiled.run ops).1 = g

end Graph

end AudioGraph
