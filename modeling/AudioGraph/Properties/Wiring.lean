import AudioGraph.Properties.Shape
import AudioGraph.Properties.Sorting

namespace AudioGraph

open Dependency

variable [AudioCore]

def NodeSlot.ports {P S : Type} [AudioNode P] [SinkNode S] (n : NodeSlot P S) :
    List PortDescriptor × List PortDescriptor :=
  (AudioNode.inputs n, AudioNode.outputs n)

variable {P S : Type} [AudioNode P] [SinkNode S]

structure Accepts (nodes : List (NodeSlot P S)) (src dst : NodeId × PortIdx)
    (fromNode toNode : NodeSlot P S) (fromDesc toDesc : PortDescriptor) : Prop where
  fromNode_at : nodes[src.1]? = some fromNode
  toNode_at : nodes[dst.1]? = some toNode
  fromDesc_at : (AudioNode.outputs fromNode)[src.2]? = some fromDesc
  toDesc_at : (AudioNode.inputs toNode)[dst.2]? = some toDesc
  from_output : fromDesc.direction = .output
  to_input : toDesc.direction = .input
  channels : fromDesc.channels = toDesc.channels
  format : fromDesc.sampleFormat = toDesc.sampleFormat

theorem checkLink_ok_iff {nodes : List (NodeSlot P S)} {src dst : NodeId × PortIdx} :
    checkLink nodes src dst = .ok () ↔
      ∃ fromNode toNode fromDesc toDesc,
        Accepts nodes src dst fromNode toNode fromDesc toDesc := by
  constructor
  · intro h
    unfold checkLink at h
    split at h
    · cases h
    · rename_i fromNode hfrom
      split at h
      · cases h
      · rename_i toNode hto
        split at h
        · cases h
        · rename_i fromDesc hfromDesc
          split at h
          · cases h
          · rename_i toDesc htoDesc
            split at h
            · cases h
            · rename_i hdir
              split at h
              · cases h
              · rename_i hcompat
                simp only [not_or, not_not] at hdir hcompat
                exact ⟨fromNode, toNode, fromDesc, toDesc, hfrom, hto, hfromDesc, htoDesc,
                  hdir.1, hdir.2, hcompat.1, hcompat.2⟩
  · rintro ⟨fromNode, toNode, fromDesc, toDesc, h⟩
    simp [checkLink, h.fromNode_at, h.toNode_at, h.fromDesc_at, h.toDesc_at, h.from_output,
      h.to_input, h.channels, h.format]

theorem checkLink_congr {P' S' : Type} [AudioNode P'] [SinkNode S'] {nodes : List (NodeSlot P S)}
    {nodes' : List (NodeSlot P' S')}
    (h : nodes'.map NodeSlot.ports = nodes.map NodeSlot.ports) (src dst : NodeId × PortIdx) :
    checkLink nodes' src dst = checkLink nodes src dst := by
  have hat : ∀ n : NodeId, nodes'[n]?.map NodeSlot.ports = nodes[n]?.map NodeSlot.ports := by
    intro n
    rw [← List.getElem?_map, ← List.getElem?_map, h]
  unfold checkLink
  have hfrom := hat src.1
  have hto := hat dst.1
  cases hsrc : nodes[src.1]? with
  | none =>
    rw [hsrc, Option.map_none, Option.map_eq_none_iff] at hfrom
    simp only [hfrom]
  | some fromNode =>
    rw [hsrc, Option.map_some, Option.map_eq_some_iff] at hfrom
    obtain ⟨fromNode', hsrc', hportsFrom⟩ := hfrom
    cases hdst : nodes[dst.1]? with
    | none =>
      rw [hdst, Option.map_none, Option.map_eq_none_iff] at hto
      simp only [hsrc', hto]
    | some toNode =>
      rw [hdst, Option.map_some, Option.map_eq_some_iff] at hto
      obtain ⟨toNode', hdst', hportsTo⟩ := hto
      have houts : AudioNode.outputs fromNode' = AudioNode.outputs fromNode :=
        congrArg Prod.snd hportsFrom
      have hins : AudioNode.inputs toNode' = AudioNode.inputs toNode :=
        congrArg Prod.fst hportsTo
      simp only [hsrc', hdst', houts, hins]

theorem checkLink_append {nodes : List (NodeSlot P S)} {src dst : NodeId × PortIdx}
    (h : checkLink nodes src dst = .ok ()) (more : List (NodeSlot P S)) :
    checkLink (nodes ++ more) src dst = .ok () := by
  obtain ⟨fromNode, toNode, fromDesc, toDesc, ha⟩ := checkLink_ok_iff.mp h
  have hat : ∀ {n : NodeId} {x : NodeSlot P S}, nodes[n]? = some x →
      (nodes ++ more)[n]? = some x := by
    intro n x hx
    rw [List.getElem?_append_left (List.getElem?_eq_some_iff.mp hx).1, hx]
  exact checkLink_ok_iff.mpr ⟨fromNode, toNode, fromDesc, toDesc,
    { ha with fromNode_at := hat ha.fromNode_at, toNode_at := hat ha.toNode_at }⟩

theorem checkLink_range {nodes : List (NodeSlot P S)} {src dst : NodeId × PortIdx}
    (h : checkLink nodes src dst = .ok ()) : src.1 < nodes.length ∧ dst.1 < nodes.length := by
  obtain ⟨_, _, _, _, ha⟩ := checkLink_ok_iff.mp h
  exact ⟨(List.getElem?_eq_some_iff.mp ha.fromNode_at).1,
    (List.getElem?_eq_some_iff.mp ha.toNode_at).1⟩

namespace Graph

section Ports

variable [FixedPorts P] [FixedSinkPorts S]

theorem process_ports (n : NodeSlot P S) (ctx : ProcessContext) (i o : List AudioFrame) :
    (process n ctx i o).node.ports = n.ports :=
  Prod.ext (FixedPorts.process_inputs n ctx i o) (FixedPorts.process_outputs n ctx i o)

omit [FixedPorts P] in
theorem flushed_ports (n : NodeSlot P S) : n.flushed.ports = n.ports := by
  cases n with
  | plain n => rfl
  | sink n => exact Prod.ext (FixedSinkPorts.flush_inputs n) (FixedSinkPorts.flush_outputs n)

theorem step_runs_ports (g : Graph P S) {op : Op P S} (hop : op.runs) :
    (g.step op).1.scratch.nodes.map NodeSlot.ports = g.scratch.nodes.map NodeSlot.ports :=
  step_runs_reads process_ports flushed_ports g hop

end Ports

def pushed (s : GraphScratch P S) (slot : NodeSlot P S) : GraphScratch P S where
  nodes := s.nodes ++ [slot]
  inputScratch := s.inputScratch ++ [[]]
  outputScratch := s.outputScratch ++ [[]]

theorem addSlot_eq (g : Graph P S) (slot : NodeSlot P S) :
    g.addSlot slot =
      (emitEvent { g with scratch := pushed g.scratch slot }
        (.nodeAdded (nodeSnapshot g.nodeCount slot)), g.nodeCount) := by
  have hat : (pushed g.scratch slot).nodes[g.scratch.nodes.length]? = some slot := by
    simp [pushed]
  unfold addSlot emitNodeAdded
  simp only [pushed] at hat
  simp only [hat, nodeCount, pushed]

theorem link_cases (g : Graph P S) (src dst : NodeId × PortIdx) :
    (∃ e, checkLink g.scratch.nodes src dst = .error e ∧ g.link src dst = (g, .error e)) ∨
      checkLink g.scratch.nodes src dst = .ok () ∧
        g.link src dst =
          (emitEvent { g with edges := g.edges ++ [⟨src, dst⟩] } (.linkAdded ⟨src, dst⟩),
            .ok g.edges.length) := by
  cases h : checkLink g.scratch.nodes src dst with
  | error e => exact Or.inl ⟨e, rfl, by simp [link, h]⟩
  | ok u => exact Or.inr ⟨rfl, by simp [link, h]⟩

def Linked (g : Graph P S) : Prop :=
  ∀ e ∈ g.edges, checkLink g.scratch.nodes e.src e.dst = .ok ()

theorem Linked.addSlot {g : Graph P S} (h : Linked g) (slot : NodeSlot P S) :
    Linked (g.addSlot slot).1 := by
  rw [addSlot_eq]
  exact fun e he => checkLink_append (h e he) [slot]

theorem Linked.append {g g' : Graph P S} (h : Linked g) {e : Edge}
    (hcheck : checkLink g.scratch.nodes e.src e.dst = .ok ()) (hedges : g'.edges = g.edges ++ [e])
    (hnodes : g'.scratch.nodes = g.scratch.nodes) : Linked g' := by
  intro e' he'
  rw [hedges] at he'
  rw [hnodes]
  rcases List.mem_append.mp he' with he' | he'
  · exact h e' he'
  · rw [List.mem_singleton.mp he']
    exact hcheck

structure Wired (g : Graph P S) : Prop where
  compiled : g.compiled = false
  links : Linked g

theorem Wired.addSlot {g : Graph P S} (h : Wired g) (slot : NodeSlot P S) :
    Wired (g.addSlot slot).1 := by
  refine ⟨?_, h.links.addSlot slot⟩
  rw [addSlot_eq]
  exact h.compiled

theorem Wired.link {g : Graph P S} (h : Wired g) (src dst : NodeId × PortIdx) :
    Wired (g.link src dst).1 := by
  rcases link_cases g src dst with ⟨e, -, heq⟩ | ⟨hcheck, heq⟩
  · rw [heq]
    exact h
  · rw [heq]
    exact ⟨h.compiled, h.links.append hcheck rfl rfl⟩

theorem Wired.step {g : Graph P S} (h : Wired g) {op : Op P S} (hop : op.builds) :
    Wired (g.step op).1 := by
  cases op with
  | addNode node => exact h.addSlot (.plain node)
  | addSink sink => exact h.addSlot (.sink sink)
  | link src dst => exact h.link src dst
  | _ => cases hop

theorem Built.wired {g : Graph P S} (h : Built g) : Wired g := by
  obtain ⟨ops, hops, rfl⟩ := h
  have hnew : Wired (new : Graph P S) := ⟨rfl, fun _ he => absurd he List.not_mem_nil⟩
  exact Transition.run_invariant (fun _ _ hop h => h.step hop) hops hnew

theorem compile_ok {g ready : Graph P S} {config : GraphConfig}
    (h : g.compile config = (ready, .ok ())) :
    g.compiled = false ∧ ∃ order, topologicalSort g.scratch.nodes.length g.edges = .ok order ∧
      ready = emitEvent { g with
        executionOrder := order
        config := config
        compiled := true
        scratch :=
          { nodes := g.scratch.nodes
            inputScratch := g.scratch.nodes.map fun n => portFrames config (AudioNode.inputs n)
            outputScratch :=
              g.scratch.nodes.map fun n => portFrames config (AudioNode.outputs n) } }
        .graphCompiled := by
  unfold compile at h
  split at h
  · cases h
  · rename_i hc
    split at h
    · cases h
    · rename_i order hsort
      cases h
      exact ⟨Bool.eq_false_iff.mpr hc, order, hsort, rfl⟩

structure Compiled (config : GraphConfig) (built ready : Graph P S) : Prop where
  compiled : ready.compiled = true
  config_eq : ready.config = config
  edges : ready.edges = built.edges
  nodes : ready.scratch.nodes = built.scratch.nodes
  inputs : ready.scratch.inputScratch =
    built.scratch.nodes.map fun n => portFrames config (AudioNode.inputs n)
  outputs : ready.scratch.outputScratch =
    built.scratch.nodes.map fun n => portFrames config (AudioNode.outputs n)
  subscribers : ready.subscribers = (built.emitEvent .graphCompiled).subscribers
  order_perm : ready.executionOrder.Perm (List.range built.nodeCount)
  order_before : ∀ e ∈ built.edges, e.dst.1 < built.nodeCount →
    ready.executionOrder.idxOf e.src.1 < ready.executionOrder.idxOf e.dst.1

theorem compiled_of_compile {built ready : Graph P S} {config : GraphConfig}
    (h : built.compile config = (ready, .ok ())) : Compiled config built ready := by
  obtain ⟨-, order, hsort, heq⟩ := compile_ok h
  obtain ⟨hperm, hbefore⟩ := topologicalSort_ok hsort
  rw [heq]
  exact ⟨rfl, rfl, rfl, rfl, rfl, rfl, rfl, hperm, hbefore⟩

theorem compile_cases (g : Graph P S) (config : GraphConfig) :
    (∃ e, g.compile config = (g, .error e)) ∨
      ∃ ready, g.compile config = (ready, .ok ()) ∧ g.compiled = false ∧
        Compiled config g ready := by
  cases h : g.compile config with
  | mk ready result =>
    cases result with
    | ok u => exact Or.inr ⟨ready, rfl, (compile_ok h).1, compiled_of_compile h⟩
    | error e =>
      refine Or.inl ⟨e, ?_⟩
      unfold compile at h
      split at h
      · cases h
        rfl
      · split at h <;> cases h
        rfl

inductive Performs (g : Graph P S) : Op P S → Outcome → Graph P S → Prop
  | run {op : Op P S} (hop : op.runs) : Performs g op (g.step op).2 (g.step op).1
  | addNode (node : P) : Performs g (.addNode node) (.added g.nodeCount) (g.addSlot (.plain node)).1
  | addSink (sink : S) : Performs g (.addSink sink) (.added g.nodeCount) (g.addSlot (.sink sink)).1
  | link {src dst : NodeId × PortIdx} (hcheck : checkLink g.scratch.nodes src dst = .ok ()) :
      Performs g (.link src dst) (.linked (.ok g.edges.length))
        (emitEvent { g with edges := g.edges ++ [⟨src, dst⟩] } (.linkAdded ⟨src, dst⟩))
  | linkError (src dst : NodeId × PortIdx) (e : GraphError) :
      Performs g (.link src dst) (.linked (.error e)) g
  | compile {config : GraphConfig} {ready : Graph P S} (hc : g.compiled = false)
      (h : Compiled config g ready) : Performs g (.compile config) (.compiled (.ok ())) ready
  | compileError (config : GraphConfig) (e : GraphError) :
      Performs g (.compile config) (.compiled (.error e)) g
  | subscribe : Performs g .subscribeTopology (.subscribed g.subscribeTopology.2)
      g.subscribeTopology.1
  | drop (rx : ReceiverId) : Performs g (.dropReceiver rx) .dropped (g.dropReceiver rx)

theorem step_performs (g : Graph P S) (op : Op P S) :
    Performs g op (g.step op).2 (g.step op).1 := by
  cases op with
  | addNode node =>
    simp only [step, Graph.addNode, addSlot_eq]
    have hadd := Performs.addNode (g := g) node
    rwa [addSlot_eq] at hadd
  | addSink sink =>
    simp only [step, Graph.addSink, addSlot_eq]
    have hadd := Performs.addSink (g := g) sink
    rwa [addSlot_eq] at hadd
  | link src dst =>
    simp only [step]
    rcases link_cases g src dst with ⟨e, -, heq⟩ | ⟨hcheck, heq⟩
    · rw [heq]
      exact .linkError src dst e
    · rw [heq]
      exact .link hcheck
  | compile config =>
    simp only [step]
    rcases compile_cases g config with ⟨e, heq⟩ | ⟨ready, heq, hc, h⟩
    · rw [heq]
      exact .compileError config e
    · rw [heq]
      exact .compile hc h
  | subscribeTopology => exact .subscribe
  | dropReceiver rx => exact .drop rx
  | feed node port src => exact .run trivial
  | flushSinks => exact .run trivial
  | flushSink node => exact .run trivial
  | processCycle ctx => exact .run trivial

inductive Change (g : Graph P S) : Op P S → Graph P S → Prop
  | run {op : Op P S} (hop : op.runs) : Change g op (g.step op).1
  | add {op : Op P S} (hop : op.builds) (slot : NodeSlot P S) : Change g op (g.addSlot slot).1
  | link {op : Op P S} (hop : op.builds) (src dst : NodeId × PortIdx)
      (hcheck : checkLink g.scratch.nodes src dst = .ok ()) :
      Change g op (emitEvent { g with edges := g.edges ++ [⟨src, dst⟩] } (.linkAdded ⟨src, dst⟩))
  | compile {config : GraphConfig} {ready : Graph P S} (hc : g.compiled = false)
      (h : Compiled config g ready) : Change g (.compile config) ready
  | listen {op : Op P S} (subscribers : List Sender) :
      Change g op { g with subscribers := subscribers }

theorem Performs.change {g g' : Graph P S} {op : Op P S} {outcome : Outcome}
    (h : Performs g op outcome g') : Change g op g' := by
  cases h with
  | run hop => exact .run hop
  | addNode node =>
    have hop : (Op.addNode node : Op P S).builds := trivial
    exact .add hop (.plain node)
  | addSink sink =>
    have hop : (Op.addSink sink : Op P S).builds := trivial
    exact .add hop (.sink sink)
  | @link src dst hcheck =>
    have hop : (Op.link src dst : Op P S).builds := trivial
    exact .link hop src dst hcheck
  | linkError src dst e => exact .listen g.subscribers
  | compile hc h => exact .compile hc h
  | compileError config e => exact .listen g.subscribers
  | subscribe => exact .listen _
  | drop rx => exact .listen _

theorem step_change (g : Graph P S) (op : Op P S) : Change g op (g.step op).1 :=
  (step_performs g op).change

theorem Compiled.linearizes {built ready : Graph P S} {config : GraphConfig}
    (h : Compiled config built ready) (hw : ∀ e ∈ built.edges, e.dst.1 < built.nodeCount) :
    Linearizes (List.range ready.nodeCount) (Feeds ready.edges) ready.executionOrder where
  perm := by
    rw [nodeCount, h.nodes]
    exact h.order_perm
  before := by
    rintro a b ⟨e, he, rfl, rfl⟩
    rw [h.edges] at he
    exact h.order_before e he (hw e he)

theorem portFrames_len (config : GraphConfig) (ports : List PortDescriptor) :
    (portFrames config ports).map (·.len) =
      ports.map fun _ => config.channels.toNat * config.numFrames := by
  simp [portFrames, silence_len]

end Graph

end AudioGraph
