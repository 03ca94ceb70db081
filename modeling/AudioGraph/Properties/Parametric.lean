import AudioGraph.Foundation.Relating
import AudioGraph.Properties.Metadata

namespace AudioGraph

open BoundedFifo Pointwise

section

variable {r : F32 → F32 → Prop}

structure AudioFrame.Related (r : F32 → F32 → Prop) (f f' : AudioFrame) : Prop where
  channels : f.channels = f'.channels
  sampleRate : f.sampleRate = f'.sampleRate
  samples : List.Forall₂ r f.samples f'.samples

abbrev RelatedRow (r : F32 → F32 → Prop) : List AudioFrame → List AudioFrame → Prop :=
  List.Forall₂ (AudioFrame.Related r)

abbrev RelatedTable (r : F32 → F32 → Prop) :
    List (List AudioFrame) → List (List AudioFrame) → Prop :=
  List.Forall₂ (RelatedRow r)

namespace AudioFrame

variable {dst dst' src src' f f' : AudioFrame}

theorem Related.copyFrom (hdst : Related r dst dst') (hsrc : Related r src src') :
    Related r (dst.copyFrom src) (dst'.copyFrom src') where
  channels := hsrc.channels
  sampleRate := hsrc.sampleRate
  samples := by
    have hlen : min src.samples.length dst.samples.length =
        min src'.samples.length dst'.samples.length := by
      rw [hsrc.samples.length_eq, hdst.samples.length_eq]
    change List.Forall₂ r (src.samples.take _ ++ dst.samples.drop _)
      (src'.samples.take _ ++ dst'.samples.drop _)
    rw [hlen]
    exact List.rel_append (List.forall₂_take _ hsrc.samples) (List.forall₂_drop _ hdst.samples)

theorem Related.silenced (hr : r 0 0) (h : Related r f f') : Related r f.silenced f'.silenced :=
  ⟨h.channels, h.sampleRate, forall₂_map h.samples fun _ _ _ => hr⟩

theorem related_silence [AudioCore] (hr : r 0 0) (channels : UInt16) (numFrames : Nat)
    (sampleRate : UInt32) :
    Related r (silence channels numFrames sampleRate) (silence channels numFrames sampleRate) := by
  refine ⟨rfl, rfl, List.forall₂_same.mpr fun x hx => ?_⟩
  rw [AudioCore.silence_samples] at hx
  rw [List.eq_of_mem_replicate hx]
  exact hr

end AudioFrame

theorem frameAt_related {table table' : List (List AudioFrame)} (h : RelatedTable r table table')
    (slot : NodeId × PortIdx) :
    Option.Rel (AudioFrame.Related r) (frameAt table slot) (frameAt table' slot) :=
  rel_bind (rel_getElem? h slot.1) fun _ _ hrow => rel_getElem? hrow slot.2

theorem fillSlots_related (hr : r 0 0) (edges : List Edge) {table table' : List (List AudioFrame)}
    (h : RelatedTable r table table') (n : NodeId) {slots slots' : List AudioFrame}
    (hslots : RelatedRow r slots slots') :
    RelatedRow r (fillSlots edges (frameAt table) n slots)
      (fillSlots edges (frameAt table') n slots') := by
  refine forall₂_mapIdx hslots fun pi slot slot' hslot => ?_
  unfold fillSlot
  split
  · rename_i edge _
    have hsource := frameAt_related h edge.src
    generalize frameAt table edge.src = source, frameAt table' edge.src = source' at hsource
    cases hsource with
    | none => exact hslot
    | some hsrc => exact hslot.copyFrom hsrc
  · exact hslot.silenced hr

variable [AudioCore]

structure Respects (r : F32 → F32 → Prop) {N M : Type} [AudioNode N] [AudioNode M]
    (same : N → M → Prop) : Prop where
  inputs : ∀ {n m}, same n m → AudioNode.inputs n = AudioNode.inputs m
  outputs : ∀ {n m}, same n m → AudioNode.outputs n = AudioNode.outputs m
  process : ∀ {n m}, same n m → ∀ ctx {i i' o o'}, RelatedRow r i i' → RelatedRow r o o' →
    same (process n ctx i o).node (process m ctx i' o').node ∧
      (process n ctx i o).ctx = (process m ctx i' o').ctx ∧
      RelatedRow r (process n ctx i o).outputs (process m ctx i' o').outputs

structure RespectsSink (r : F32 → F32 → Prop) {N M : Type} [SinkNode N] [SinkNode M]
    (same : N → M → Prop) : Prop extends Respects r same where
  flush : ∀ {n m}, same n m → same (flush n).1 (flush m).1 ∧ (flush n).2 = (flush m).2

structure RingSource.Related (r : F32 → F32 → Prop) (n m : RingSource) : Prop where
  consumer : n.consumer.Related (AudioFrame.Related r) m.consumer
  outPort : n.outPort = m.outPort
  last : AudioFrame.Related r n.last m.last

structure RingSink.Related (r : F32 → F32 → Prop) (n m : RingSink) : Prop where
  producer : n.producer.Related (AudioFrame.Related r) m.producer
  inPort : n.inPort = m.inPort
  stash : AudioFrame.Related r n.stash m.stash

theorem RingSource.related_respects : Respects r (RingSource.Related r) where
  inputs _ := rfl
  outputs h := congrArg (fun port => [port]) h.outPort
  process {n m} h ctx {i i' o o'} hi ho := by
    cases ho with
    | nil => exact ⟨h, rfl, .nil⟩
    | @cons out out' rest rest' hout hrest =>
      change RingSource.Related r (n.process ctx i (out :: rest)).node
          (m.process ctx i' (out' :: rest')).node ∧
        (n.process ctx i (out :: rest)).ctx = (m.process ctx i' (out' :: rest')).ctx ∧
        RelatedRow r (n.process ctx i (out :: rest)).outputs
          (m.process ctx i' (out' :: rest')).outputs
      have hrel := h.consumer.pop
      cases hpop : n.consumer.pop with
      | none =>
        rw [hpop] at hrel
        cases hpop' : m.consumer.pop with
        | none =>
          rw [process_of_empty hpop, process_of_empty hpop']
          exact ⟨h, rfl, .cons (hout.copyFrom h.last) hrest⟩
        | some popped' =>
          rw [hpop'] at hrel
          cases hrel
      | some popped =>
        rw [hpop] at hrel
        cases hpop' : m.consumer.pop with
        | none =>
          rw [hpop'] at hrel
          cases hrel
        | some popped' =>
          rw [hpop', Option.rel_some_some] at hrel
          obtain ⟨hframe, hring⟩ := hrel
          rw [process_of_pop hpop, process_of_pop hpop']
          exact ⟨⟨hring, h.outPort, h.last.copyFrom hframe⟩, rfl,
            .cons (hout.copyFrom hframe) hrest⟩

theorem RingSink.related_respects : RespectsSink r (RingSink.Related r) where
  inputs h := congrArg (fun port => [port]) h.inPort
  outputs _ := rfl
  process {n m} h ctx {i i' o o'} hi ho := by
    cases hi with
    | nil => exact ⟨h, rfl, ho⟩
    | cons hinp _ => exact ⟨⟨h.producer, h.inPort, h.stash.copyFrom hinp⟩, rfl, ho⟩
  flush {n m} h := by
    change RingSink.Related r n.flush.1 m.flush.1 ∧ n.flush.2 = m.flush.2
    have hrel := h.producer.push h.stash
    rcases n.flush_cases with ⟨ring, hpush, heq⟩ | ⟨hpush, heq⟩
    · rcases m.flush_cases with ⟨ring', hpush', heq'⟩ | ⟨hpush', heq'⟩
      · rw [hpush, hpush', Option.rel_some_some] at hrel
        rw [heq, heq']
        exact ⟨⟨hrel, h.inPort, h.stash⟩, rfl⟩
      · rw [hpush, hpush'] at hrel
        cases hrel
    · rcases m.flush_cases with ⟨ring', hpush', heq'⟩ | ⟨hpush', heq'⟩
      · rw [hpush, hpush'] at hrel
        cases hrel
      · rw [heq, heq']
        exact ⟨h, rfl⟩

section

variable {P P' S S' : Type} {plain : P → P' → Prop} {sink : S → S' → Prop}

inductive NodeSlot.Related (plain : P → P' → Prop) (sink : S → S' → Prop) :
    NodeSlot P S → NodeSlot P' S' → Prop
  | plain {n : P} {m : P'} (h : plain n m) : Related plain sink (.plain n) (.plain m)
  | sink {n : S} {m : S'} (h : sink n m) : Related plain sink (.sink n) (.sink m)

structure GraphScratch.Related (r : F32 → F32 → Prop) (plain : P → P' → Prop) (sink : S → S' → Prop)
    (s : GraphScratch P S) (s' : GraphScratch P' S') : Prop where
  nodes : List.Forall₂ (NodeSlot.Related plain sink) s.nodes s'.nodes
  inputs : RelatedTable r s.inputScratch s'.inputScratch
  outputs : RelatedTable r s.outputScratch s'.outputScratch

structure Graph.Related (r : F32 → F32 → Prop) (plain : P → P' → Prop) (sink : S → S' → Prop)
    (g : Graph P S) (g' : Graph P' S') : Prop where
  edges : g.edges = g'.edges
  executionOrder : g.executionOrder = g'.executionOrder
  config : g.config = g'.config
  compiled : g.compiled = g'.compiled
  subscribers : g.subscribers = g'.subscribers
  scratch : g.scratch.Related r plain sink g'.scratch

inductive Op.Related (r : F32 → F32 → Prop) (plain : P → P' → Prop) (sink : S → S' → Prop) :
    Op P S → Op P' S' → Prop
  | addNode {n : P} {m : P'} (h : plain n m) : Related r plain sink (.addNode n) (.addNode m)
  | addSink {n : S} {m : S'} (h : sink n m) : Related r plain sink (.addSink n) (.addSink m)
  | link (src dst : NodeId × PortIdx) : Related r plain sink (.link src dst) (.link src dst)
  | compile (config : GraphConfig) : Related r plain sink (.compile config) (.compile config)
  | feed (node : NodeId) (port : PortIdx) {f f' : AudioFrame} (h : AudioFrame.Related r f f') :
      Related r plain sink (.feed node port f) (.feed node port f')
  | flushSinks : Related r plain sink .flushSinks .flushSinks
  | flushSink (node : NodeId) : Related r plain sink (.flushSink node) (.flushSink node)
  | processCycle (ctx : ProcessContext) :
      Related r plain sink (.processCycle ctx) (.processCycle ctx)
  | subscribeTopology : Related r plain sink .subscribeTopology .subscribeTopology
  | dropReceiver (rx : ReceiverId) : Related r plain sink (.dropReceiver rx) (.dropReceiver rx)

variable [AudioNode P] [AudioNode P'] [SinkNode S] [SinkNode S']

theorem NodeSlot.related_respects (hplain : Respects r plain) (hsink : RespectsSink r sink) :
    Respects r (NodeSlot.Related plain sink) where
  inputs h := by
    cases h with
    | plain h => exact hplain.inputs h
    | sink h => exact hsink.inputs h
  outputs h := by
    cases h with
    | plain h => exact hplain.outputs h
    | sink h => exact hsink.outputs h
  process h ctx _ _ _ _ hi ho := by
    cases h with
    | plain h =>
      obtain ⟨hnode, hctx, houts⟩ := hplain.process h ctx hi ho
      exact ⟨.plain hnode, hctx, houts⟩
    | sink h =>
      obtain ⟨hnode, hctx, houts⟩ := hsink.process h ctx hi ho
      exact ⟨.sink hnode, hctx, houts⟩

omit [AudioNode P] [AudioNode P'] in
theorem NodeSlot.Related.flushed (hsink : RespectsSink r sink) {n : NodeSlot P S}
    {m : NodeSlot P' S'} (h : NodeSlot.Related plain sink n m) :
    NodeSlot.Related plain sink n.flushed m.flushed := by
  cases h with
  | plain h => exact .plain h
  | sink h => exact .sink (hsink.flush h).1

omit [AudioNode P] [AudioNode P'] in
theorem NodeSlot.Related.flushError (hsink : RespectsSink r sink) {n : NodeSlot P S}
    {m : NodeSlot P' S'} (h : NodeSlot.Related plain sink n m) : n.flushError = m.flushError := by
  cases h with
  | plain h => rfl
  | sink h => simp [NodeSlot.flushError, (hsink.flush h).2]

namespace GraphScratch

variable {s : GraphScratch P S} {s' : GraphScratch P' S'}

theorem Related.visit (hr : r 0 0) (hn : Respects r (NodeSlot.Related plain sink))
    (h : Related r plain sink s s') (edges : List Edge) (ctx : ProcessContext) (n : NodeId) :
    Related r plain sink (AudioGraph.visit edges (s, ctx) n).1
        (AudioGraph.visit edges (s', ctx) n).1 ∧
      (AudioGraph.visit edges (s, ctx) n).2 = (AudioGraph.visit edges (s', ctx) n).2 := by
  rcases forall₂_getElem? h.inputs n with ⟨hin, hin'⟩ | ⟨slots, slots', hin, hin', hslots⟩
  · rw [visit_absent hin, visit_absent hin']
    exact ⟨h, rfl⟩
  · have hfill := fillSlots_related hr edges h.outputs n hslots
    have hins := forall₂_set h.inputs hfill n
    rcases forall₂_getElem? h.outputs n with ⟨hout, hout'⟩ | ⟨outSlots, outSlots', hout, hout', ho⟩
    · rw [visit_uncalled hin (.inl hout), visit_uncalled hin' (.inl hout')]
      exact ⟨⟨h.nodes, hins, h.outputs⟩, rfl⟩
    · rcases forall₂_getElem? h.nodes n with ⟨hnode, hnode'⟩ | ⟨node, node', hnode, hnode', hsame⟩
      · rw [visit_uncalled hin (.inr hnode), visit_uncalled hin' (.inr hnode')]
        exact ⟨⟨h.nodes, hins, h.outputs⟩, rfl⟩
      · rw [visit_called hin hout hnode, visit_called hin' hout' hnode']
        obtain ⟨hnext, hctx, houts⟩ := hn.process hsame ctx hfill ho
        exact ⟨⟨forall₂_set h.nodes hnext n, hins, forall₂_set h.outputs houts n⟩, hctx⟩

theorem Related.cycle (hr : r 0 0) (hn : Respects r (NodeSlot.Related plain sink))
    (h : Related r plain sink s s') (edges : List Edge) (order : List NodeId)
    (ctx : ProcessContext) :
    Related r plain sink (AudioGraph.cycle edges order (s, ctx)).1
        (AudioGraph.cycle edges order (s', ctx)).1 ∧
      (AudioGraph.cycle edges order (s, ctx)).2 =
        (AudioGraph.cycle edges order (s', ctx)).2 := by
  induction order generalizing s s' ctx with
  | nil => exact ⟨h, rfl⟩
  | cons n order ih =>
    obtain ⟨hvisit, hctx⟩ := h.visit hr hn edges ctx n
    have hrest := ih hvisit (AudioGraph.visit edges (s, ctx) n).2
    have hsplit : AudioGraph.visit edges (s', ctx) n =
        ((AudioGraph.visit edges (s', ctx) n).1, (AudioGraph.visit edges (s, ctx) n).2) :=
      Prod.ext rfl hctx.symm
    rw [AudioGraph.cycle, List.foldl_cons, AudioGraph.cycle, List.foldl_cons, hsplit]
    exact hrest

end GraphScratch

omit [AudioNode P] [AudioNode P'] in
theorem flushNodes_related (hsink : RespectsSink r sink) {nodes : List (NodeSlot P S)}
    {nodes' : List (NodeSlot P' S')} (h : List.Forall₂ (NodeSlot.Related plain sink) nodes nodes')
    (count : Nat) (firstErr : Option FlushError) :
    List.Forall₂ (NodeSlot.Related plain sink) (flushNodes nodes count firstErr).1
        (flushNodes nodes' count firstErr).1 ∧
      (flushNodes nodes count firstErr).2 = (flushNodes nodes' count firstErr).2 := by
  induction h generalizing count firstErr with
  | nil => exact ⟨.nil, rfl⟩
  | cons hslot _ ih =>
    cases hslot with
    | plain hn =>
      obtain ⟨hrest, hanswer⟩ := ih count firstErr
      exact ⟨.cons (.plain hn) hrest, hanswer⟩
    | sink hn =>
      obtain ⟨hnext, hresult⟩ := hsink.flush hn
      simp only [flushNodes, hresult]
      obtain ⟨hrest, hanswer⟩ := ih (count + 1) _
      exact ⟨.cons (.sink hnext) hrest, hanswer⟩

theorem portFrames_related (hr : r 0 0) (hn : Respects r (NodeSlot.Related plain sink))
    (config : GraphConfig) {nodes : List (NodeSlot P S)} {nodes' : List (NodeSlot P' S')}
    (h : List.Forall₂ (NodeSlot.Related plain sink) nodes nodes') :
    RelatedTable r (nodes.map fun n => portFrames config (AudioNode.inputs n))
        (nodes'.map fun n => portFrames config (AudioNode.inputs n)) ∧
      RelatedTable r (nodes.map fun n => portFrames config (AudioNode.outputs n))
        (nodes'.map fun n => portFrames config (AudioNode.outputs n)) := by
  have hrow : ∀ ports : List PortDescriptor,
      RelatedRow r (portFrames config ports) (portFrames config ports) := by
    intro ports
    refine List.forall₂_same.mpr fun f hf => ?_
    obtain ⟨port, -, rfl⟩ := List.mem_map.mp hf
    exact AudioFrame.related_silence hr _ _ _
  refine ⟨forall₂_map h fun n m hnm => ?_, forall₂_map h fun n m hnm => ?_⟩
  · rw [hn.inputs hnm]
    exact hrow _
  · rw [hn.outputs hnm]
    exact hrow _

namespace Graph

variable {g : Graph P S} {g' : Graph P' S'}

omit [AudioCore] [AudioNode P] [AudioNode P'] [SinkNode S] [SinkNode S'] in
theorem Related.emitEvent (h : Related r plain sink g g') (event : TopologyEvent) :
    Related r plain sink (g.emitEvent event) (g'.emitEvent event) :=
  { h with subscribers := by rw [Graph.emitEvent, Graph.emitEvent, h.subscribers] }

theorem Related.addSlot (hn : Respects r (NodeSlot.Related plain sink))
    (h : Related r plain sink g g') {n : NodeSlot P S} {m : NodeSlot P' S'}
    (hnm : NodeSlot.Related plain sink n m) :
    Related r plain sink (g.addSlot n).1 (g'.addSlot m).1 ∧
      (g.addSlot n).2 = (g'.addSlot m).2 := by
  have hcount : g.nodeCount = g'.nodeCount := h.scratch.nodes.length_eq
  have hsnapshot : nodeSnapshot g.nodeCount n = nodeSnapshot g'.nodeCount m := by
    simp only [nodeSnapshot, hcount, hn.inputs hnm, hn.outputs hnm]
  rw [addSlot_eq, addSlot_eq, hsnapshot]
  have hpushed : (pushed g.scratch n).Related r plain sink (pushed g'.scratch m) :=
    ⟨List.rel_append h.scratch.nodes (.cons hnm .nil),
      List.rel_append h.scratch.inputs (.cons .nil .nil),
      List.rel_append h.scratch.outputs (.cons .nil .nil)⟩
  have hgrown : Related r plain sink { g with scratch := pushed g.scratch n }
      { g' with scratch := pushed g'.scratch m } := { h with scratch := hpushed }
  exact ⟨hgrown.emitEvent _, hcount⟩

theorem Related.link (hn : Respects r (NodeSlot.Related plain sink))
    (h : Related r plain sink g g') (src dst : NodeId × PortIdx) :
    Related r plain sink (g.link src dst).1 (g'.link src dst).1 ∧
      (g.link src dst).2 = (g'.link src dst).2 := by
  have hports : g.scratch.nodes.map NodeSlot.ports = g'.scratch.nodes.map NodeSlot.ports :=
    map_eq_of_related h.scratch.nodes fun _ _ hnm => Prod.ext (hn.inputs hnm) (hn.outputs hnm)
  have hcheck := checkLink_congr hports src dst
  rcases link_cases g src dst with ⟨e, he, heq⟩ | ⟨hok, heq⟩
  · rcases link_cases g' src dst with ⟨e', he', heq'⟩ | ⟨hok', heq'⟩
    · rw [he, he'] at hcheck
      cases hcheck
      rw [heq, heq']
      exact ⟨h, rfl⟩
    · rw [he, hok'] at hcheck
      cases hcheck
  · rcases link_cases g' src dst with ⟨e', he', heq'⟩ | ⟨hok', heq'⟩
    · rw [hok, he'] at hcheck
      cases hcheck
    · rw [heq, heq']
      have hlinked : Related r plain sink { g with edges := g.edges ++ [⟨src, dst⟩] }
          { g' with edges := g'.edges ++ [⟨src, dst⟩] } :=
        { h with edges := congrArg (· ++ [⟨src, dst⟩]) h.edges }
      exact ⟨hlinked.emitEvent _, by rw [h.edges]⟩

theorem Related.compile (hr : r 0 0) (hn : Respects r (NodeSlot.Related plain sink))
    (h : Related r plain sink g g') (config : GraphConfig) :
    Related r plain sink (g.compile config).1 (g'.compile config).1 ∧
      (g.compile config).2 = (g'.compile config).2 := by
  have hcount : g.scratch.nodes.length = g'.scratch.nodes.length := h.scratch.nodes.length_eq
  obtain ⟨hins, houts⟩ := portFrames_related hr hn config h.scratch.nodes
  unfold Graph.compile
  rw [h.compiled, hcount, h.edges]
  cases g'.compiled with
  | true => exact ⟨h, rfl⟩
  | false =>
    cases topologicalSort g'.scratch.nodes.length g'.edges with
    | error remaining => exact ⟨h, rfl⟩
    | ok order =>
      refine ⟨Related.emitEvent ?_ _, rfl⟩
      exact ⟨rfl, rfl, rfl, rfl, h.subscribers, h.scratch.nodes, hins, houts⟩

omit [AudioCore] [AudioNode P] [AudioNode P'] [SinkNode S] [SinkNode S'] in
theorem Related.feed (h : Related r plain sink g g') (node : NodeId) (port : PortIdx)
    {f f' : AudioFrame} (hf : AudioFrame.Related r f f') :
    Related r plain sink (g.feed node port f) (g'.feed node port f') := by
  unfold Graph.feed
  rcases forall₂_getElem? h.scratch.outputs node with ⟨hout, hout'⟩ |
    ⟨slots, slots', hout, hout', hslots⟩
  · rw [hout, hout']
    exact h
  · rw [hout, hout']
    rcases forall₂_getElem? hslots port with ⟨hdst, hdst'⟩ | ⟨dst, dst', hdst, hdst', hd⟩
    · simp only [hdst, hdst']
      exact h
    · simp only [hdst, hdst']
      have hrow := forall₂_set hslots (hd.copyFrom hf) port
      exact { h with scratch := ⟨h.scratch.nodes, h.scratch.inputs,
        forall₂_set h.scratch.outputs hrow node⟩ }

omit [AudioNode P] [AudioNode P'] in
theorem Related.flushSink (hsink : RespectsSink r sink) (h : Related r plain sink g g')
    (node : NodeId) :
    Related r plain sink (g.flushSink node).1 (g'.flushSink node).1 ∧
      (g.flushSink node).2 = (g'.flushSink node).2 := by
  unfold Graph.flushSink
  rcases forall₂_getElem? h.scratch.nodes node with ⟨hn, hn'⟩ | ⟨n, n', hn, hn', hslot⟩
  · rw [hn, hn']
    exact ⟨h, rfl⟩
  · rw [hn, hn']
    cases hslot with
    | plain _ => exact ⟨h, rfl⟩
    | sink hs =>
      obtain ⟨hnext, hresult⟩ := hsink.flush hs
      exact ⟨{ h with scratch := ⟨forall₂_set h.scratch.nodes (.sink hnext) node,
        h.scratch.inputs, h.scratch.outputs⟩ }, hresult⟩

theorem Related.processCycle (hr : r 0 0) (hn : Respects r (NodeSlot.Related plain sink))
    (h : Related r plain sink g g') (ctx : ProcessContext) :
    Related r plain sink (g.processCycle ctx).1 (g'.processCycle ctx).1 ∧
      (g.processCycle ctx).2 = (g'.processCycle ctx).2 := by
  unfold Graph.processCycle
  rw [h.compiled, h.edges, h.executionOrder]
  cases hc : g'.compiled with
  | false => exact ⟨h, rfl⟩
  | true =>
    obtain ⟨hscratch, hctx⟩ := h.scratch.cycle hr hn g'.edges g'.executionOrder ctx
    refine ⟨⟨rfl, rfl, h.config, rfl, h.subscribers, hscratch⟩, ?_⟩
    exact congrArg (fun ctx => (ctx, Except.ok ())) hctx

theorem Related.step (hr : r 0 0) (hplain : Respects r plain) (hsink : RespectsSink r sink)
    (h : Related r plain sink g g') {op : Op P S} {op' : Op P' S'}
    (hop : Op.Related r plain sink op op') :
    Related r plain sink (g.step op).1 (g'.step op').1 ∧ (g.step op).2 = (g'.step op').2 := by
  have hn := NodeSlot.related_respects hplain hsink
  cases hop with
  | addNode hnm =>
    obtain ⟨hrel, hid⟩ := h.addSlot hn (.plain hnm)
    exact ⟨hrel, congrArg Outcome.added hid⟩
  | addSink hnm =>
    obtain ⟨hrel, hid⟩ := h.addSlot hn (.sink hnm)
    exact ⟨hrel, congrArg Outcome.added hid⟩
  | link src dst =>
    obtain ⟨hrel, hresult⟩ := h.link hn src dst
    exact ⟨hrel, congrArg Outcome.linked hresult⟩
  | compile config =>
    obtain ⟨hrel, hresult⟩ := h.compile hr hn config
    exact ⟨hrel, congrArg Outcome.compiled hresult⟩
  | feed node port hf => exact ⟨h.feed node port hf, rfl⟩
  | flushSinks =>
    obtain ⟨hnodes, hanswer⟩ := flushNodes_related hsink h.scratch.nodes 0 none
    refine ⟨{ h with scratch := ⟨hnodes, h.scratch.inputs, h.scratch.outputs⟩ }, ?_⟩
    exact congrArg (fun answer => Outcome.flushedAll answer.1 answer.2) hanswer
  | flushSink node =>
    obtain ⟨hrel, hresult⟩ := h.flushSink hsink node
    exact ⟨hrel, congrArg Outcome.flushed hresult⟩
  | processCycle ctx =>
    obtain ⟨hrel, hanswer⟩ := h.processCycle hr hn ctx
    refine ⟨hrel, ?_⟩
    change Outcome.cycled (g.processCycle ctx).2.1 (g.processCycle ctx).2.2 =
      Outcome.cycled (g'.processCycle ctx).2.1 (g'.processCycle ctx).2.2
    rw [hanswer]
  | subscribeTopology =>
    have hfresh : g.freshReceiver = g'.freshReceiver := by
      rw [freshReceiver, freshReceiver, h.subscribers]
    refine ⟨{ h with subscribers := ?_ }, congrArg Outcome.subscribed hfresh⟩
    change g.subscribers ++ [⟨g.freshReceiver, [], true⟩] =
      g'.subscribers ++ [⟨g'.freshReceiver, [], true⟩]
    rw [h.subscribers, hfresh]
  | dropReceiver rx =>
    refine ⟨{ h with subscribers := ?_ }, rfl⟩
    exact congrArg (List.map _) h.subscribers

end Graph

end

section

variable {Q Q' R R' : Type} {plain : Q → Q' → Prop} {sink : R → R' → Prop}

inductive DynNode.Related (r : F32 → F32 → Prop) (plain : Q → Q' → Prop) :
    DynNode Q → DynNode Q' → Prop
  | ringSource {n m : RingSource} (h : RingSource.Related r n m) :
      Related r plain (.ringSource n) (.ringSource m)
  | ringSink {n m : RingSink} (h : RingSink.Related r n m) :
      Related r plain (.ringSink n) (.ringSink m)
  | other {n : Q} {m : Q'} (h : plain n m) : Related r plain (.other n) (.other m)

inductive DynSink.Related (r : F32 → F32 → Prop) (sink : R → R' → Prop) :
    DynSink R → DynSink R' → Prop
  | ringSink {n m : RingSink} (h : RingSink.Related r n m) :
      Related r sink (.ringSink n) (.ringSink m)
  | other {n : R} {m : R'} (h : sink n m) : Related r sink (.other n) (.other m)

inductive Act.Related (r : F32 → F32 → Prop) (plain : Q → Q' → Prop) (sink : R → R' → Prop) :
    Act Q R → Act Q' R' → Prop
  | call {op : Op (DynNode Q) (DynSink R)} {op' : Op (DynNode Q') (DynSink R')}
      (h : Op.Related r (DynNode.Related r plain) (DynSink.Related r sink) op op') :
      Related r plain sink (.call op) (.call op')
  | push (source : NodeId) {f f' : AudioFrame} (h : AudioFrame.Related r f f') :
      Related r plain sink (.push source f) (.push source f')
  | pop (id : NodeId) : Related r plain sink (.pop id) (.pop id)
  | readInput (node : NodeId) (port : PortIdx) :
      Related r plain sink (.readInput node port) (.readInput node port)
  | readOutput (node : NodeId) (port : PortIdx) :
      Related r plain sink (.readOutput node port) (.readOutput node port)

inductive Seen.Related (r : F32 → F32 → Prop) : Seen → Seen → Prop
  | called (outcome : Outcome) : Related r (.called outcome) (.called outcome)
  | pushed (accepted : Bool) : Related r (.pushed accepted) (.pushed accepted)
  | popped {f f' : Option AudioFrame} (h : Option.Rel (AudioFrame.Related r) f f') :
      Related r (.popped f) (.popped f')
  | read {f f' : Option AudioFrame} (h : Option.Rel (AudioFrame.Related r) f f') :
      Related r (.read f) (.read f')

theorem DynNode.related_respects [AudioNode Q] [AudioNode Q'] (hplain : Respects r plain) :
    Respects r (DynNode.Related r plain) where
  inputs h := by
    cases h with
    | ringSource h => exact RingSource.related_respects.inputs h
    | ringSink h => exact RingSink.related_respects.inputs h
    | other h => exact hplain.inputs h
  outputs h := by
    cases h with
    | ringSource h => exact RingSource.related_respects.outputs h
    | ringSink h => exact RingSink.related_respects.outputs h
    | other h => exact hplain.outputs h
  process h ctx _ _ _ _ hi ho := by
    cases h with
    | ringSource h =>
      obtain ⟨hnode, hctx, houts⟩ := RingSource.related_respects.process h ctx hi ho
      exact ⟨.ringSource hnode, hctx, houts⟩
    | ringSink h =>
      obtain ⟨hnode, hctx, houts⟩ := RingSink.related_respects.process h ctx hi ho
      exact ⟨.ringSink hnode, hctx, houts⟩
    | other h =>
      obtain ⟨hnode, hctx, houts⟩ := hplain.process h ctx hi ho
      exact ⟨.other hnode, hctx, houts⟩

theorem DynSink.related_respects [SinkNode R] [SinkNode R'] (hsink : RespectsSink r sink) :
    RespectsSink r (DynSink.Related r sink) where
  inputs h := by
    cases h with
    | ringSink h => exact RingSink.related_respects.inputs h
    | other h => exact hsink.inputs h
  outputs h := by
    cases h with
    | ringSink h => exact RingSink.related_respects.outputs h
    | other h => exact hsink.outputs h
  process h ctx _ _ _ _ hi ho := by
    cases h with
    | ringSink h =>
      obtain ⟨hnode, hctx, houts⟩ := RingSink.related_respects.process h ctx hi ho
      exact ⟨.ringSink hnode, hctx, houts⟩
    | other h =>
      obtain ⟨hnode, hctx, houts⟩ := hsink.process h ctx hi ho
      exact ⟨.other hnode, hctx, houts⟩
  flush h := by
    cases h with
    | ringSink h =>
      obtain ⟨hnode, hresult⟩ := RingSink.related_respects.flush h
      exact ⟨.ringSink hnode, hresult⟩
    | other h =>
      obtain ⟨hnode, hresult⟩ := hsink.flush h
      exact ⟨.other hnode, hresult⟩

namespace Graph

variable {g : Graph (DynNode Q) (DynSink R)} {g' : Graph (DynNode Q') (DynSink R')}

omit [AudioCore] in
theorem Related.sourceAt
    (h : Related r (DynNode.Related r plain) (DynSink.Related r sink) g g') (id : NodeId) :
    Option.Rel (RingSource.Related r) (g.sourceAt id) (g'.sourceAt id) := by
  unfold Graph.sourceAt
  rcases forall₂_getElem? h.scratch.nodes id with ⟨hn, hn'⟩ | ⟨n, n', hn, hn', hslot⟩
  · rw [hn, hn']
    exact .none
  · rw [hn, hn']
    cases hslot with
    | plain hdyn =>
      cases hdyn with
      | ringSource hsource => exact .some hsource
      | ringSink _ => exact .none
      | other _ => exact .none
    | sink _ => exact .none

omit [AudioCore] in
theorem Related.sinkAt
    (h : Related r (DynNode.Related r plain) (DynSink.Related r sink) g g') (id : NodeId) :
    Option.Rel (RingSink.Related r) (g.sinkAt id) (g'.sinkAt id) := by
  unfold Graph.sinkAt
  rcases forall₂_getElem? h.scratch.nodes id with ⟨hn, hn'⟩ | ⟨n, n', hn, hn', hslot⟩
  · rw [hn, hn']
    exact .none
  · rw [hn, hn']
    cases hslot with
    | plain _ => exact .none
    | sink hdyn =>
      cases hdyn with
      | ringSink hsink => exact .some hsink
      | other _ => exact .none

omit [AudioCore] in
theorem Related.setConsumer
    (h : Related r (DynNode.Related r plain) (DynSink.Related r sink) g g') (id : NodeId)
    {ring ring' : RingBuffer AudioFrame} (hring : ring.Related (AudioFrame.Related r) ring') :
    Related r (DynNode.Related r plain) (DynSink.Related r sink) (g.setConsumer id ring)
      (g'.setConsumer id ring') := by
  refine { h with scratch := ⟨?_, h.scratch.inputs, h.scratch.outputs⟩ }
  refine forall₂_modify_both h.scratch.nodes fun n m _ hslot => ?_
  cases hslot with
  | plain hdyn =>
    cases hdyn with
    | ringSource hsource => exact .plain (.ringSource { hsource with consumer := hring })
    | ringSink hsink => exact .plain (.ringSink hsink)
    | other hother => exact .plain (.other hother)
  | sink hdyn => exact .sink hdyn

omit [AudioCore] in
theorem Related.setProducer
    (h : Related r (DynNode.Related r plain) (DynSink.Related r sink) g g') (id : NodeId)
    {ring ring' : RingBuffer AudioFrame} (hring : ring.Related (AudioFrame.Related r) ring') :
    Related r (DynNode.Related r plain) (DynSink.Related r sink) (g.setProducer id ring)
      (g'.setProducer id ring') := by
  refine { h with scratch := ⟨?_, h.scratch.inputs, h.scratch.outputs⟩ }
  refine forall₂_modify_both h.scratch.nodes fun n m _ hslot => ?_
  cases hslot with
  | plain hdyn => exact .plain hdyn
  | sink hdyn =>
    cases hdyn with
    | ringSink hsink => exact .sink (.ringSink { hsink with producer := hring })
    | other hother => exact .sink (.other hother)

omit [AudioCore] in
theorem Related.pushSource
    (h : Related r (DynNode.Related r plain) (DynSink.Related r sink) g g') (id : NodeId)
    {f f' : AudioFrame} (hf : AudioFrame.Related r f f') :
    Related r (DynNode.Related r plain) (DynSink.Related r sink) (g.pushSource id f).1
        (g'.pushSource id f').1 ∧ (g.pushSource id f).2 = (g'.pushSource id f').2 := by
  have hring := rel_bind (h.sourceAt id) fun _ _ hsource => hsource.consumer.push hf
  unfold Graph.pushSource
  generalize (g.sourceAt id).bind (·.consumer.push f) = ring,
    (g'.sourceAt id).bind (·.consumer.push f') = ring' at hring
  cases hring with
  | none => exact ⟨h, rfl⟩
  | some hring => exact ⟨h.setConsumer id hring, rfl⟩

omit [AudioCore] in
theorem Related.popSink
    (h : Related r (DynNode.Related r plain) (DynSink.Related r sink) g g') (id : NodeId) :
    Related r (DynNode.Related r plain) (DynSink.Related r sink) (g.popSink id).1
        (g'.popSink id).1 ∧
      Option.Rel (AudioFrame.Related r) (g.popSink id).2 (g'.popSink id).2 := by
  have hring := rel_bind (h.sinkAt id) fun _ _ hsink => hsink.producer.pop
  unfold Graph.popSink
  generalize (g.sinkAt id).bind (·.producer.pop) = popped,
    (g'.sinkAt id).bind (·.producer.pop) = popped' at hring
  cases hring with
  | none => exact ⟨h, .none⟩
  | some hpopped => exact ⟨h.setProducer id hpopped.2, .some hpopped.1⟩

variable [AudioNode Q] [AudioNode Q'] [SinkNode R] [SinkNode R']

theorem Related.act (hr : r 0 0) (hplain : Respects r plain) (hsink : RespectsSink r sink)
    (h : Related r (DynNode.Related r plain) (DynSink.Related r sink) g g') {a : Act Q R}
    {a' : Act Q' R'} (ha : Act.Related r plain sink a a') :
    Related r (DynNode.Related r plain) (DynSink.Related r sink) (g.act a).1 (g'.act a').1 ∧
      Seen.Related r (g.act a).2 (g'.act a').2 := by
  cases ha with
  | @call op op' hop =>
    obtain ⟨hrel, houtcome⟩ :=
      h.step hr (DynNode.related_respects hplain) (DynSink.related_respects hsink) hop
    refine ⟨hrel, ?_⟩
    change Seen.Related r (.called (g.step op).2) (.called (g'.step op').2)
    rw [houtcome]
    exact .called _
  | @push source f f' hf =>
    obtain ⟨hrel, haccepted⟩ := h.pushSource source hf
    refine ⟨hrel, ?_⟩
    change Seen.Related r (.pushed (g.pushSource source f).2) (.pushed (g'.pushSource source f').2)
    rw [haccepted]
    exact .pushed _
  | pop id =>
    obtain ⟨hrel, hpopped⟩ := h.popSink id
    exact ⟨hrel, .popped hpopped⟩
  | readInput node port => exact ⟨h, .read (frameAt_related h.scratch.inputs (node, port))⟩
  | readOutput node port => exact ⟨h, .read (frameAt_related h.scratch.outputs (node, port))⟩

theorem Related.play {g : Graph (DynNode Q) (DynSink R)} {g' : Graph (DynNode Q') (DynSink R')}
    (h : Related r (DynNode.Related r plain) (DynSink.Related r sink) g g') (hr : r 0 0)
    (hplain : Respects r plain) (hsink : RespectsSink r sink) {acts : List (Act Q R)}
    {acts' : List (Act Q' R')} (hacts : List.Forall₂ (Act.Related r plain sink) acts acts') :
    Related r (DynNode.Related r plain) (DynSink.Related r sink) (g.play acts).1
        (g'.play acts').1 ∧
      List.Forall₂ (Seen.Related r) (g.play acts).2 (g'.play acts').2 :=
  Transition.run_related (fun _ _ _ _ ha h => h.act hr hplain hsink ha) hacts h

end Graph

end

section Provenance

variable {p : F32 → Prop}

def AudioFrame.Of (p : F32 → Prop) (f : AudioFrame) : Prop := ∀ x ∈ f.samples, p x

def RingSource.Of (p : F32 → Prop) (n : RingSource) : Prop :=
  (∀ f ∈ n.consumer.frames, f.Of p) ∧ n.last.Of p

def RingSink.Of (p : F32 → Prop) (n : RingSink) : Prop :=
  (∀ f ∈ n.producer.frames, f.Of p) ∧ n.stash.Of p

def Act.Of {Q R : Type} (p : F32 → Prop) (plain : Q → Prop) (sink : R → Prop) : Act Q R → Prop
  | .call (.addNode (.ringSource n)) => n.Of p
  | .call (.addNode (.ringSink n)) => n.Of p
  | .call (.addNode (.other n)) => plain n
  | .call (.addSink (.ringSink n)) => n.Of p
  | .call (.addSink (.other n)) => sink n
  | .call (.feed _ _ src) => src.Of p
  | .push _ frame => frame.Of p
  | _ => True

def Seen.Of (p : F32 → Prop) : Seen → Prop
  | .popped frame => ∀ f, frame = some f → f.Of p
  | .read frame => ∀ f, frame = some f → f.Of p
  | _ => True

variable {Q R : Type} {plain : Q → Prop} {sink : R → Prop}

namespace Graph

variable [AudioNode Q] [SinkNode R]

end Graph

end Provenance

end

namespace Sample

open PlainCore

end Sample

end AudioGraph
