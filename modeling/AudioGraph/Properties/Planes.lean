import AudioGraph.Properties.Buffers
import AudioGraph.Properties.Events

namespace AudioGraph

open BoundedFifo Pointwise

section

variable [AudioCore] {P S : Type}

def Op.listens : Op P S → Bool
  | .subscribeTopology | .dropReceiver _ => true
  | _ => false

def Op.sounds : Op P S → Bool
  | .feed _ _ _ | .flushSinks | .flushSink _ | .processCycle _ => true
  | _ => false

theorem Op.sounds_iff {op : Op P S} : op.sounds = true ↔ op.runs := by
  cases op <;> simp [Op.sounds, Op.runs]

variable [AudioNode P] [SinkNode S]

namespace Graph

structure SameButSubscribers (g t : Graph P S) : Prop where
  eq : t = { g with subscribers := t.subscribers }

structure SameControl (g t : Graph P S) : Prop where
  edges : t.edges = g.edges
  order : t.executionOrder = g.executionOrder
  config : t.config = g.config
  compiled : t.compiled = g.compiled
  subscribers : t.subscribers = g.subscribers
  ports : t.scratch.nodes.map NodeSlot.ports = g.scratch.nodes.map NodeSlot.ports

variable {g t : Graph P S} {op : Op P S}

omit [AudioCore] [AudioNode P] [SinkNode S] in
theorem SameButSubscribers.refl (g : Graph P S) : SameButSubscribers g g := ⟨rfl⟩

omit [AudioCore] [AudioNode P] [SinkNode S] in
theorem SameButSubscribers.emit (h : SameButSubscribers g t) (event : TopologyEvent) :
    SameButSubscribers (g.emitEvent event) (t.emitEvent event) :=
  ⟨by rw [emitEvent, emitEvent, h.eq]⟩

theorem SameButSubscribers.addSlot (h : SameButSubscribers g t) (slot : NodeSlot P S) :
    SameButSubscribers (g.addSlot slot).1 (t.addSlot slot).1 ∧
      (t.addSlot slot).2 = (g.addSlot slot).2 := by
  have hscratch : t.scratch = g.scratch := by rw [h.eq]
  have hcount : t.nodeCount = g.nodeCount := by rw [nodeCount, nodeCount, hscratch]
  rw [addSlot_eq, addSlot_eq, hcount, hscratch]
  refine ⟨SameButSubscribers.emit ⟨?_⟩ _, rfl⟩
  rw [h.eq]

theorem SameButSubscribers.link (h : SameButSubscribers g t) (src dst : NodeId × PortIdx) :
    SameButSubscribers (g.link src dst).1 (t.link src dst).1 ∧
      (t.link src dst).2 = (g.link src dst).2 := by
  have hscratch : t.scratch = g.scratch := by rw [h.eq]
  have hedges : t.edges = g.edges := by rw [h.eq]
  simp only [Graph.link, hscratch, hedges]
  cases checkLink g.scratch.nodes src dst with
  | error e => exact ⟨h, rfl⟩
  | ok _ =>
    refine ⟨SameButSubscribers.emit ⟨?_⟩ _, rfl⟩
    rw [h.eq]

theorem SameButSubscribers.compile (h : SameButSubscribers g t) (config : GraphConfig) :
    SameButSubscribers (g.compile config).1 (t.compile config).1 ∧
      (t.compile config).2 = (g.compile config).2 := by
  have hscratch : t.scratch = g.scratch := by rw [h.eq]
  have hedges : t.edges = g.edges := by rw [h.eq]
  have hcompiled : t.compiled = g.compiled := by rw [h.eq]
  simp only [Graph.compile, hscratch, hedges, hcompiled]
  cases g.compiled with
  | true => exact ⟨h, rfl⟩
  | false =>
    cases topologicalSort g.scratch.nodes.length g.edges with
    | error remaining => exact ⟨h, rfl⟩
    | ok order =>
      refine ⟨SameButSubscribers.emit ⟨?_⟩ _, rfl⟩
      rw [h.eq]

theorem SameButSubscribers.sound (h : SameButSubscribers g t) (hop : op.sounds = true) :
    SameButSubscribers (g.step op).1 (t.step op).1 ∧ (t.step op).2 = (g.step op).2 := by
  rw [h.eq]
  cases op with
  | feed node port src =>
    refine ⟨⟨?_⟩, rfl⟩
    simp only [Graph.step, Graph.feed]
    cases g.scratch.outputScratch[node]? with
    | none => rfl
    | some slots =>
      dsimp only
      cases slots[port]? <;> rfl
  | flushSinks => exact ⟨⟨rfl⟩, rfl⟩
  | flushSink node =>
    simp only [Graph.step, Graph.flushSink]
    cases g.scratch.nodes[node]? with
    | none => exact ⟨⟨rfl⟩, rfl⟩
    | some slot => cases slot <;> exact ⟨⟨rfl⟩, rfl⟩
  | processCycle ctx =>
    simp only [Graph.step, Graph.processCycle]
    split
    · exact ⟨⟨rfl⟩, rfl⟩
    · exact ⟨⟨rfl⟩, rfl⟩
  | _ => cases hop

theorem SameButSubscribers.step (h : SameButSubscribers g t) (hop : op.listens = false) :
    SameButSubscribers (g.step op).1 (t.step op).1 ∧ (t.step op).2 = (g.step op).2 := by
  cases op with
  | addNode node =>
    obtain ⟨hgraph, hid⟩ := h.addSlot (.plain node)
    exact ⟨hgraph, congrArg Outcome.added hid⟩
  | addSink sink =>
    obtain ⟨hgraph, hid⟩ := h.addSlot (.sink sink)
    exact ⟨hgraph, congrArg Outcome.added hid⟩
  | link src dst =>
    obtain ⟨hgraph, hresult⟩ := h.link src dst
    exact ⟨hgraph, congrArg Outcome.linked hresult⟩
  | compile config =>
    obtain ⟨hgraph, hresult⟩ := h.compile config
    exact ⟨hgraph, congrArg Outcome.compiled hresult⟩
  | subscribeTopology => cases hop
  | dropReceiver rx => cases hop
  | _ => exact h.sound rfl

theorem SameButSubscribers.step_hidden (h : SameButSubscribers g t) (hop : op.listens = true) :
    SameButSubscribers (g.step op).1 t := by
  cases op with
  | subscribeTopology => exact ⟨h.eq⟩
  | dropReceiver rx => exact ⟨h.eq⟩
  | _ => cases hop

theorem SameControl.refl (g : Graph P S) : SameControl g g := ⟨rfl, rfl, rfl, rfl, rfl, rfl⟩

theorem SameControl.emit (h : SameControl g t) (event : TopologyEvent) :
    SameControl (g.emitEvent event) (t.emitEvent event) :=
  { h with subscribers := by rw [emitEvent, emitEvent, h.subscribers] }

theorem SameControl.count (h : SameControl g t) :
    t.scratch.nodes.length = g.scratch.nodes.length := by
  simpa using congrArg List.length h.ports

theorem SameControl.addSlot (h : SameControl g t) (slot : NodeSlot P S) :
    SameControl (g.addSlot slot).1 (t.addSlot slot).1 ∧
      (t.addSlot slot).2 = (g.addSlot slot).2 := by
  have hcount : t.nodeCount = g.nodeCount := h.count
  rw [addSlot_eq, addSlot_eq, hcount]
  have hports : (pushed t.scratch slot).nodes.map NodeSlot.ports =
      (pushed g.scratch slot).nodes.map NodeSlot.ports := by
    simp only [pushed, List.map_append, h.ports]
  have hgrown : SameControl { g with scratch := pushed g.scratch slot }
      { t with scratch := pushed t.scratch slot } := { h with ports := hports }
  exact ⟨hgrown.emit _, rfl⟩

theorem SameControl.link (h : SameControl g t) (src dst : NodeId × PortIdx) :
    SameControl (g.link src dst).1 (t.link src dst).1 ∧
      (t.link src dst).2 = (g.link src dst).2 := by
  simp only [Graph.link, checkLink_congr h.ports, h.edges]
  cases checkLink g.scratch.nodes src dst with
  | error e => exact ⟨h, rfl⟩
  | ok _ =>
    have hlinked : SameControl { g with edges := g.edges ++ [⟨src, dst⟩] }
        { t with edges := g.edges ++ [⟨src, dst⟩] } := { h with edges := rfl }
    exact ⟨hlinked.emit _, rfl⟩

theorem SameControl.compile (h : SameControl g t) (config : GraphConfig) :
    SameControl (g.compile config).1 (t.compile config).1 ∧
      (t.compile config).2 = (g.compile config).2 := by
  simp only [Graph.compile, h.compiled, h.count, h.edges]
  cases g.compiled with
  | true => exact ⟨h, rfl⟩
  | false =>
    cases topologicalSort g.scratch.nodes.length g.edges with
    | error remaining => exact ⟨h, rfl⟩
    | ok order =>
      refine ⟨SameControl.emit ?_ _, rfl⟩
      exact ⟨rfl, rfl, rfl, rfl, h.subscribers, h.ports⟩

theorem SameControl.step (h : SameControl g t) (hop : op.sounds = false) :
    SameControl (g.step op).1 (t.step op).1 ∧ (t.step op).2 = (g.step op).2 := by
  cases op with
  | addNode node =>
    obtain ⟨hgraph, hid⟩ := h.addSlot (.plain node)
    exact ⟨hgraph, congrArg Outcome.added hid⟩
  | addSink sink =>
    obtain ⟨hgraph, hid⟩ := h.addSlot (.sink sink)
    exact ⟨hgraph, congrArg Outcome.added hid⟩
  | link src dst =>
    obtain ⟨hgraph, hresult⟩ := h.link src dst
    exact ⟨hgraph, congrArg Outcome.linked hresult⟩
  | compile config =>
    obtain ⟨hgraph, hresult⟩ := h.compile config
    exact ⟨hgraph, congrArg Outcome.compiled hresult⟩
  | subscribeTopology =>
    have hfresh : t.freshReceiver = g.freshReceiver := by
      rw [freshReceiver, freshReceiver, h.subscribers]
    refine ⟨{ h with subscribers := ?_ }, congrArg Outcome.subscribed hfresh⟩
    simp only [Graph.step, subscribeTopology, hfresh, h.subscribers]
  | dropReceiver rx =>
    refine ⟨{ h with subscribers := ?_ }, rfl⟩
    simp only [Graph.step, dropReceiver, h.subscribers]
  | _ => cases hop

theorem SameControl.step_hidden [FixedPorts P] [FixedSinkPorts S] (h : SameControl g t)
    (hop : op.sounds = true) : SameControl (g.step op).1 t := by
  have hruns := Op.sounds_iff.mp hop
  have hports := step_runs_ports g hruns
  rw [step_runs_eq g hruns]
  exact { h with ports := h.ports.trans hports.symm }

end Graph

end

section

variable [AudioCore] {Q R : Type}

def Act.listens : Act Q R → Bool
  | .call op => op.listens
  | _ => false

def Act.sounds : Act Q R → Bool
  | .call op => op.sounds
  | _ => true

variable [AudioNode Q] [SinkNode R]

namespace Graph

variable {g t : Graph (DynNode Q) (DynSink R)} {a : Act Q R}

omit [AudioCore] [AudioNode Q] [SinkNode R] in
theorem SameButSubscribers.pushSource (h : SameButSubscribers g t) (source : NodeId)
    (frame : AudioFrame) :
    SameButSubscribers (g.pushSource source frame).1 (t.pushSource source frame).1 ∧
      (t.pushSource source frame).2 = (g.pushSource source frame).2 := by
  have hat : t.sourceAt source = g.sourceAt source := by
    rw [h.eq]
    rfl
  simp only [Graph.pushSource, hat]
  cases (g.sourceAt source).bind (·.consumer.push frame) with
  | none => exact ⟨h, rfl⟩
  | some ring =>
    rw [h.eq]
    exact ⟨⟨rfl⟩, rfl⟩

omit [AudioCore] [AudioNode Q] [SinkNode R] in
theorem SameButSubscribers.popSink (h : SameButSubscribers g t) (sink : NodeId) :
    SameButSubscribers (g.popSink sink).1 (t.popSink sink).1 ∧
      (t.popSink sink).2 = (g.popSink sink).2 := by
  have hat : t.sinkAt sink = g.sinkAt sink := by
    rw [h.eq]
    rfl
  simp only [Graph.popSink, hat]
  cases (g.sinkAt sink).bind (·.producer.pop) with
  | none => exact ⟨h, rfl⟩
  | some taken =>
    rw [h.eq]
    exact ⟨⟨rfl⟩, rfl⟩

theorem SameButSubscribers.act (h : SameButSubscribers g t) (ha : a.listens = false) :
    SameButSubscribers (g.act a).1 (t.act a).1 ∧ (t.act a).2 = (g.act a).2 := by
  cases a with
  | call op =>
    obtain ⟨hgraph, houtcome⟩ := h.step ha
    exact ⟨hgraph, congrArg Seen.called houtcome⟩
  | push source frame =>
    obtain ⟨hgraph, haccepted⟩ := h.pushSource source frame
    exact ⟨hgraph, congrArg Seen.pushed haccepted⟩
  | pop sink =>
    obtain ⟨hgraph, hframe⟩ := h.popSink sink
    exact ⟨hgraph, congrArg Seen.popped hframe⟩
  | readInput node port =>
    rw [h.eq]
    exact ⟨⟨rfl⟩, rfl⟩
  | readOutput node port =>
    rw [h.eq]
    exact ⟨⟨rfl⟩, rfl⟩

theorem SameButSubscribers.act_hidden (h : SameButSubscribers g t) (ha : a.listens = true) :
    SameButSubscribers (g.act a).1 t := by
  cases a with
  | call op => exact h.step_hidden ha
  | _ => cases ha

theorem SameButSubscribers.play (h : SameButSubscribers g t) (acts : List (Act Q R)) :
    SameButSubscribers (g.play acts).1 (t.play (acts.filter fun a => !a.listens)).1 ∧
      Transition.log (Transition.visible Act.listens) Graph.act g acts =
        (t.play (acts.filter fun a => !a.listens)).2 := by
  have hvisible : ∀ (s t : Graph (DynNode Q) (DynSink R)) (a : Act Q R), True →
      a.listens = false → SameButSubscribers s t →
      SameButSubscribers (s.act a).1 (t.act a).1 ∧ (s.act a).2 = (t.act a).2 :=
    fun _ _ _ _ ha hs => (hs.act ha).imp_right Eq.symm
  obtain ⟨hend, hsame⟩ := Transition.run_erase (fun _ _ _ _ ha hs => hs.act_hidden ha)
    hvisible (fun _ _ => trivial) h
  rw [List.forall₂_eq_eq_eq] at hsame
  exact ⟨hend, hsame⟩

theorem setConsumer_ports (g : Graph (DynNode Q) (DynSink R)) (id : NodeId)
    (ring : RingBuffer AudioFrame) :
    (g.setConsumer id ring).scratch.nodes.map NodeSlot.ports =
      g.scratch.nodes.map NodeSlot.ports := by
  refine map_eq_of_forall₂ (forall₂_modify
    (R := fun n n' => NodeSlot.ports n' = n.ports) (fun _ => rfl) (fun slot => ?_) _ id)
  cases slot with
  | plain n => cases n <;> rfl
  | sink n => rfl

theorem setProducer_ports (g : Graph (DynNode Q) (DynSink R)) (id : NodeId)
    (ring : RingBuffer AudioFrame) :
    (g.setProducer id ring).scratch.nodes.map NodeSlot.ports =
      g.scratch.nodes.map NodeSlot.ports := by
  refine map_eq_of_forall₂ (forall₂_modify
    (R := fun n n' => NodeSlot.ports n' = n.ports) (fun _ => rfl) (fun slot => ?_) _ id)
  cases slot with
  | plain n => rfl
  | sink n => cases n <;> rfl

theorem SameControl.act (h : SameControl g t) (ha : a.sounds = false) :
    SameControl (g.act a).1 (t.act a).1 ∧ (t.act a).2 = (g.act a).2 := by
  cases a with
  | call op =>
    obtain ⟨hgraph, houtcome⟩ := h.step ha
    exact ⟨hgraph, congrArg Seen.called houtcome⟩
  | _ => cases ha

section Fixed

variable [FixedPorts Q] [FixedSinkPorts R]

theorem SameControl.act_hidden (h : SameControl g t) (ha : a.sounds = true) :
    SameControl (g.act a).1 t := by
  cases a with
  | call op => exact h.step_hidden ha
  | push source frame =>
    rcases pushSource_cases g source frame with heq | ⟨n, ring, -, -, heq⟩
    · simpa only [Graph.act, heq] using h
    · simp only [Graph.act, heq]
      exact { h with ports := h.ports.trans (setConsumer_ports g source ring).symm }
  | pop sink =>
    rcases popSink_cases g sink with heq | ⟨n, frame, ring, -, -, heq⟩
    · simpa only [Graph.act, heq] using h
    · simp only [Graph.act, heq]
      exact { h with ports := h.ports.trans (setProducer_ports g sink ring).symm }
  | readInput node port => exact h
  | readOutput node port => exact h

theorem SameControl.play (h : SameControl g t) (acts : List (Act Q R)) :
    SameControl (g.play acts).1 (t.play (acts.filter fun a => !a.sounds)).1 ∧
      Transition.log (Transition.visible Act.sounds) Graph.act g acts =
        (t.play (acts.filter fun a => !a.sounds)).2 := by
  have hvisible : ∀ (s t : Graph (DynNode Q) (DynSink R)) (a : Act Q R), True →
      a.sounds = false → SameControl s t →
      SameControl (s.act a).1 (t.act a).1 ∧ (s.act a).2 = (t.act a).2 :=
    fun _ _ _ _ ha hs => (hs.act ha).imp_right Eq.symm
  obtain ⟨hend, hsame⟩ := Transition.run_erase (fun _ _ _ _ ha hs => hs.act_hidden ha)
    hvisible (fun _ _ => trivial) h
  rw [List.forall₂_eq_eq_eq] at hsame
  exact ⟨hend, hsame⟩

theorem planes_apart (g : Graph (DynNode Q) (DynSink R)) (acts : List (Act Q R)) :
    let full := g.play acts
    let unheard := g.play (acts.filter fun a => !a.listens)
    let unplayed := g.play (acts.filter fun a => !a.sounds)
    full.1 = { unheard.1 with subscribers := unplayed.1.subscribers } ∧
      SameControl full.1 unplayed.1 ∧
      unplayed.1.topologySnapshot = full.1.topologySnapshot ∧
      Transition.log (Transition.visible Act.listens) act g acts = unheard.2 ∧
      Transition.log (Transition.visible Act.sounds) act g acts = unplayed.2 := by
  obtain ⟨hheard, hanswers⟩ := (SameButSubscribers.refl g).play acts
  obtain ⟨hplanned, hreplies⟩ := (SameControl.refl g).play acts
  refine ⟨?_, hplanned, snapshot_of_ports hplanned.edges hplanned.ports, hanswers, hreplies⟩
  rw [hheard.eq, hplanned.subscribers]

end Fixed

end Graph

end

namespace Sample

open PlainCore

def subscribedRun : List (Act RingSource RingSink) :=
  .call .subscribeTopology :: boxedBuild ++ .call (.compile config) :: wideFrames ++
    [.call (.dropReceiver 0), .readInput 1 0]

end Sample

open PlainCore Sample in
theorem planes_apart_sample :
    (Graph.new.play subscribedRun).1.readInput 1 0 =
        (Graph.new.play (subscribedRun.filter fun a => !a.listens)).1.readInput 1 0 ∧
      (Graph.new.play subscribedRun).1.subscribers =
        (Graph.new.play (subscribedRun.filter fun a => !a.sounds)).1.subscribers := by
  obtain ⟨hheard, hplanned, -⟩ := Graph.planes_apart Graph.new subscribedRun
  refine ⟨?_, hplanned.subscribers.symm⟩
  rw [hheard]
  rfl

end AudioGraph
