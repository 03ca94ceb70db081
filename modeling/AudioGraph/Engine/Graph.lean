import AudioGraph.Engine.Node
import AudioGraph.Engine.Snapshot

namespace AudioGraph

structure GraphConfig where
  numFrames : Nat
  sampleRate : UInt32
  channels : UInt16
deriving DecidableEq, Repr

structure GraphScratch (P S : Type) where
  nodes : List (NodeSlot P S)
  inputScratch : List (List AudioFrame)
  outputScratch : List (List AudioFrame)
deriving DecidableEq

abbrev ReceiverId := Nat

-- The graph owns the only sending end of a channel, so what was sent is kept with that end.
structure Sender where
  receiver : ReceiverId
  queue : List TopologyEvent
  connected : Bool
deriving DecidableEq, Repr

def Sender.send (tx : Sender) (event : TopologyEvent) : Option Sender :=
  if tx.connected then some { tx with queue := tx.queue ++ [event] } else none

structure Graph (P S : Type) where
  edges : List Edge
  executionOrder : List NodeId
  config : GraphConfig
  compiled : Bool
  scratch : GraphScratch P S
  subscribers : List Sender
deriving DecidableEq

def frameAt (table : List (List AudioFrame)) (slot : NodeId × PortIdx) : Option AudioFrame :=
  table[slot.1]?.bind (·[slot.2]?)

-- The scan over the edges stops at the first one into the slot, whether or not its source exists.
def fillSlot (edges : List Edge) (source : NodeId × PortIdx → Option AudioFrame)
    (target : NodeId × PortIdx) (slot : AudioFrame) : AudioFrame :=
  match edges.find? (fun edge => edge.dst = target) with
  | some edge =>
    match source edge.src with
    | some srcFrame => slot.copyFrom srcFrame
    | none => slot
  | none => slot.silenced

def fillSlots (edges : List Edge) (source : NodeId × PortIdx → Option AudioFrame) (n : NodeId)
    (slots : List AudioFrame) : List AudioFrame :=
  slots.mapIdx (fun pi slot => fillSlot edges source (n, pi) slot)

variable [AudioCore] {P S : Type} [AudioNode P] [SinkNode S]

def nodeSnapshot (id : NodeId) (n : NodeSlot P S) : NodeSnapshot where
  id := id
  inputs := (AudioNode.inputs n).map PortMeta.fromDescriptor
  outputs := (AudioNode.outputs n).map PortMeta.fromDescriptor

def checkLink (nodes : List (NodeSlot P S)) (src dst : NodeId × PortIdx) :
    Except GraphError Unit :=
  match nodes[src.1]? with
  | none => .error (.nodeNotFound src.1)
  | some fromNode =>
    match nodes[dst.1]? with
    | none => .error (.nodeNotFound dst.1)
    | some toNode =>
      match (AudioNode.outputs fromNode)[src.2]? with
      | none => .error (.portNotFound src.1 src.2)
      | some fromDesc =>
        match (AudioNode.inputs toNode)[dst.2]? with
        | none => .error (.portNotFound dst.1 dst.2)
        | some toDesc =>
          if fromDesc.direction ≠ .output ∨ toDesc.direction ≠ .input then
            .error (.portDirectionMismatch src dst)
          else if fromDesc.channels ≠ toDesc.channels ∨
              fromDesc.sampleFormat ≠ toDesc.sampleFormat then
            .error (.portIncompatible src dst)
          else .ok ()

def visit (edges : List Edge) (st : GraphScratch P S × ProcessContext) (n : NodeId) :
    GraphScratch P S × ProcessContext :=
  match st.1.inputScratch[n]? with
  | none => st
  | some slots =>
    let inSlots := fillSlots edges (frameAt st.1.outputScratch) n slots
    let scratch := { st.1 with inputScratch := st.1.inputScratch.set n inSlots }
    match scratch.outputScratch[n]? with
    | none => (scratch, st.2)
    | some outSlots =>
      match scratch.nodes[n]? with
      | none => (scratch, st.2)
      | some node =>
        let r := process node st.2 inSlots outSlots
        ({ scratch with
            nodes := scratch.nodes.set n r.node
            outputScratch := scratch.outputScratch.set n r.outputs }, r.ctx)

section Visit

variable {edges : List Edge} {s : GraphScratch P S} {ctx : ProcessContext} {n : NodeId}
  {slots outSlots : List AudioFrame} {node : NodeSlot P S}

theorem visit_absent (hin : s.inputScratch[n]? = none) : visit edges (s, ctx) n = (s, ctx) := by
  simp [visit, hin]

theorem visit_uncalled (hin : s.inputScratch[n]? = some slots)
    (h : s.outputScratch[n]? = none ∨ s.nodes[n]? = none) :
    visit edges (s, ctx) n =
      ({ s with
          inputScratch :=
            s.inputScratch.set n (fillSlots edges (frameAt s.outputScratch) n slots) }, ctx) := by
  cases hout : s.outputScratch[n]? with
  | none => simp [visit, hin, hout]
  | some outSlots =>
    have hnode : s.nodes[n]? = none := h.resolve_left (by simp [hout])
    simp [visit, hin, hout, hnode]

theorem visit_called (hin : s.inputScratch[n]? = some slots)
    (hout : s.outputScratch[n]? = some outSlots) (hnode : s.nodes[n]? = some node) :
    visit edges (s, ctx) n =
      let inSlots := fillSlots edges (frameAt s.outputScratch) n slots
      let r := process node ctx inSlots outSlots
      (⟨s.nodes.set n r.node, s.inputScratch.set n inSlots, s.outputScratch.set n r.outputs⟩,
        r.ctx) := by
  simp [visit, hin, hout, hnode]

theorem visit_cases (edges : List Edge) (s : GraphScratch P S) (ctx : ProcessContext)
    (n : NodeId) :
    (s.inputScratch[n]? = none ∧ visit edges (s, ctx) n = (s, ctx)) ∨
    (∃ slots, s.inputScratch[n]? = some slots ∧
      (s.outputScratch[n]? = none ∨ s.nodes[n]? = none) ∧
      visit edges (s, ctx) n =
        ({ s with
            inputScratch :=
              s.inputScratch.set n (fillSlots edges (frameAt s.outputScratch) n slots) }, ctx)) ∨
    ∃ slots outSlots node, s.inputScratch[n]? = some slots ∧
      s.outputScratch[n]? = some outSlots ∧ s.nodes[n]? = some node ∧
      visit edges (s, ctx) n =
        let inSlots := fillSlots edges (frameAt s.outputScratch) n slots
        let r := process node ctx inSlots outSlots
        (⟨s.nodes.set n r.node, s.inputScratch.set n inSlots, s.outputScratch.set n r.outputs⟩,
          r.ctx) := by
  cases hin : s.inputScratch[n]? with
  | none => exact .inl ⟨rfl, visit_absent hin⟩
  | some slots =>
    refine .inr ?_
    cases hout : s.outputScratch[n]? with
    | none => exact .inl ⟨slots, rfl, .inl rfl, visit_uncalled hin (.inl hout)⟩
    | some outSlots =>
      cases hnode : s.nodes[n]? with
      | none => exact .inl ⟨slots, rfl, .inr rfl, visit_uncalled hin (.inr hnode)⟩
      | some node =>
        exact .inr ⟨slots, outSlots, node, rfl, rfl, rfl, visit_called hin hout hnode⟩

end Visit

def cycle (edges : List Edge) (order : List NodeId) (st : GraphScratch P S × ProcessContext) :
    GraphScratch P S × ProcessContext :=
  order.foldl (visit edges) st

def portFrames (config : GraphConfig) (ports : List PortDescriptor) : List AudioFrame :=
  ports.map fun _ => silence config.channels config.numFrames config.sampleRate

def flushNodes : List (NodeSlot P S) → Nat → Option FlushError →
    List (NodeSlot P S) × Nat × Option FlushError
  | [], count, firstErr => ([], count, firstErr)
  | .plain n :: rest, count, firstErr =>
    let r := flushNodes rest count firstErr
    (.plain n :: r.1, r.2)
  | .sink n :: rest, count, firstErr =>
    let flushed := flush n
    let firstErr := match flushed.2 with
      | .error e => if firstErr.isNone then some e else firstErr
      | .ok () => firstErr
    let r := flushNodes rest (count + 1) firstErr
    (.sink flushed.1 :: r.1, r.2)

namespace Graph

def new : Graph P S where
  edges := []
  executionOrder := []
  config := ⟨0, 0, 0⟩
  compiled := false
  scratch := ⟨[], [], []⟩
  subscribers := []

def nodeCount (g : Graph P S) : Nat := g.scratch.nodes.length

def linkCount (g : Graph P S) : Nat := g.edges.length

def readOutput (g : Graph P S) (node : NodeId) (port : PortIdx) : Option AudioFrame :=
  frameAt g.scratch.outputScratch (node, port)

def readInput (g : Graph P S) (node : NodeId) (port : PortIdx) : Option AudioFrame :=
  frameAt g.scratch.inputScratch (node, port)

def emitEvent (g : Graph P S) (event : TopologyEvent) : Graph P S :=
  { g with subscribers := g.subscribers.filterMap (·.send event) }

def emitNodeAdded (g : Graph P S) (id : NodeId) : Graph P S :=
  match g.scratch.nodes[id]? with
  | some n => g.emitEvent (.nodeAdded (nodeSnapshot id n))
  | none => g

def addSlot (g : Graph P S) (slot : NodeSlot P S) : Graph P S × NodeId :=
  let id := g.scratch.nodes.length
  let scratch : GraphScratch P S :=
    { nodes := g.scratch.nodes ++ [slot]
      inputScratch := g.scratch.inputScratch ++ [[]]
      outputScratch := g.scratch.outputScratch ++ [[]] }
  (emitNodeAdded { g with scratch := scratch } id, id)

def addNode (g : Graph P S) (node : P) : Graph P S × NodeId := g.addSlot (.plain node)

def addSink (g : Graph P S) (sink : S) : Graph P S × NodeId := g.addSlot (.sink sink)

def link (g : Graph P S) (src dst : NodeId × PortIdx) : Graph P S × Except GraphError LinkId :=
  match checkLink g.scratch.nodes src dst with
  | .error e => (g, .error e)
  | .ok () =>
    let linkId := g.edges.length
    let linked : Graph P S := { g with edges := g.edges ++ [⟨src, dst⟩] }
    (linked.emitEvent (.linkAdded ⟨src, dst⟩), .ok linkId)

def compile (g : Graph P S) (config : GraphConfig) : Graph P S × Except GraphError Unit :=
  if g.compiled then (g, .error .alreadyCompiled)
  else
    match topologicalSort g.scratch.nodes.length g.edges with
    | .error remaining => (g, .error (.cycleDetected remaining))
    | .ok order =>
      let scratch : GraphScratch P S :=
        { nodes := g.scratch.nodes
          inputScratch := g.scratch.nodes.map fun n => portFrames config (AudioNode.inputs n)
          outputScratch := g.scratch.nodes.map fun n => portFrames config (AudioNode.outputs n) }
      let ready : Graph P S :=
        { g with executionOrder := order, config := config, scratch := scratch, compiled := true }
      (ready.emitEvent .graphCompiled, .ok ())

def processCycle (g : Graph P S) (ctx : ProcessContext) :
    Graph P S × ProcessContext × Except GraphError Unit :=
  if g.compiled then
    let st := cycle g.edges g.executionOrder (g.scratch, ctx)
    ({ g with scratch := st.1 }, st.2, .ok ())
  else (g, ctx, .error .notCompiled)

def feed (g : Graph P S) (node : NodeId) (port : PortIdx) (src : AudioFrame) : Graph P S :=
  match g.scratch.outputScratch[node]? with
  | none => g
  | some slots =>
    match slots[port]? with
    | none => g
    | some dst =>
      { g with
        scratch.outputScratch :=
          g.scratch.outputScratch.set node (slots.set port (dst.copyFrom src)) }

def flushSinks (g : Graph P S) : Graph P S × Nat × Option FlushError :=
  let r := flushNodes g.scratch.nodes 0 none
  ({ g with scratch.nodes := r.1 }, r.2)

def flushSink (g : Graph P S) (node : NodeId) : Graph P S × Except FlushError Unit :=
  match g.scratch.nodes[node]? with
  | some (.sink n) =>
    let r := flush n
    ({ g with scratch.nodes := g.scratch.nodes.set node (.sink r.1) }, r.2)
  | some (.plain _) => (g, .error (.notFlushable node))
  | none => (g, .error (.nodeNotFound node))

def topologySnapshot (g : Graph P S) : TopologySnapshot where
  nodes := g.scratch.nodes.mapIdx nodeSnapshot
  edges := g.edges.map fun e => ⟨e.src, e.dst⟩

-- A name no channel of this graph uses stands for the channel that `subscribe` opens.
def freshReceiver (g : Graph P S) : ReceiverId :=
  (g.subscribers.map fun tx => tx.receiver + 1).foldr max 0

def subscribeTopology (g : Graph P S) : Graph P S × ReceiverId :=
  let rx := g.freshReceiver
  ({ g with subscribers := g.subscribers ++ [⟨rx, [], true⟩] }, rx)

def dropReceiver (g : Graph P S) (rx : ReceiverId) : Graph P S :=
  { g with subscribers :=
      g.subscribers.map fun tx => if tx.receiver = rx then { tx with connected := false } else tx }

variable {Φ : Type}

def rebuildNodes (factory : Φ → NodeId → Option P × Φ) :
    List NodeSnapshot → Φ → Graph P S → (NodeId → Option NodeId) →
      Φ × Except GraphError (Graph P S × (NodeId → Option NodeId))
  | [], φ, g, idMap => (φ, .ok (g, idMap))
  | ns :: rest, φ, g, idMap =>
    match factory φ ns.id with
    | (none, φ) => (φ, .error (.nodeNotFound ns.id))
    | (some node, φ) =>
      let added := g.addNode node
      rebuildNodes factory rest φ added.1
        (fun id => if id = ns.id then some added.2 else idMap id)

def rebuildEdges (idMap : NodeId → Option NodeId) :
    List SnapshotEdge → Graph P S → Except GraphError (Graph P S)
  | [], g => .ok g
  | se :: rest, g =>
    match idMap se.src.1 with
    | none => .error (.nodeNotFound se.src.1)
    | some newFrom =>
      match idMap se.dst.1 with
      | none => .error (.nodeNotFound se.dst.1)
      | some newTo =>
        match g.link (newFrom, se.src.2) (newTo, se.dst.2) with
        | (_, .error e) => .error e
        | (g, .ok _) => rebuildEdges idMap rest g

def fromSnapshot (snapshot : TopologySnapshot) (factory : Φ → NodeId → Option P × Φ) (φ : Φ) :
    Φ × Except GraphError (Graph P S) :=
  match rebuildNodes factory snapshot.nodes φ new (fun _ => none) with
  | (φ, .error e) => (φ, .error e)
  | (φ, .ok (g, idMap)) => (φ, rebuildEdges idMap snapshot.edges g)

end Graph

end AudioGraph
