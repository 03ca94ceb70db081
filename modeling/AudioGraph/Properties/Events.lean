import AudioGraph.Properties.Running

namespace AudioGraph

theorem Sender.send_receiver {tx tx' : Sender} {event : TopologyEvent}
    (h : tx.send event = some tx') :
    tx'.receiver = tx.receiver := by
  unfold send at h
  split at h
  · cases h
    rfl
  · cases h

theorem Sender.filter_send (senders : List Sender) (event : TopologyEvent) (rx : ReceiverId) :
    (senders.filterMap (·.send event)).filter (fun tx => tx.receiver = rx) =
      (senders.filter fun tx => tx.receiver = rx).filterMap (·.send event) := by
  induction senders with
  | nil => rfl
  | cons tx senders ih =>
    cases hsend : tx.send event with
    | none =>
      by_cases hrx : tx.receiver = rx <;> simp [hsend, hrx, ih]
    | some tx' =>
      have hsame := send_receiver hsend
      by_cases hrx : tx.receiver = rx <;>
        simp [hsend, hsame, hrx, ih]

namespace Graph

def channel {P S : Type} (g : Graph P S) (rx : ReceiverId) : List Sender :=
  g.subscribers.filter fun tx => tx.receiver = rx

theorem lt_freshReceiver {P S : Type} {g : Graph P S} {tx : Sender} (h : tx ∈ g.subscribers) :
    tx.receiver < g.freshReceiver := by
  have hle : ∀ l : List Sender, tx ∈ l →
      tx.receiver + 1 ≤ (l.map fun t => t.receiver + 1).foldr max 0 := by
    intro l
    induction l with
    | nil => exact fun hm => absurd hm List.not_mem_nil
    | cons t l ih =>
      intro hm
      simp only [List.map_cons, List.foldr_cons]
      rcases List.mem_cons.mp hm with rfl | hm
      · exact le_max_left _ _
      · exact (ih hm).trans (le_max_right _ _)
  exact hle g.subscribers h

theorem channel_fresh {P S : Type} (g : Graph P S) : g.channel g.freshReceiver = [] := by
  refine List.filter_eq_nil_iff.mpr fun tx htx => ?_
  have hlt := lt_freshReceiver htx
  simp [Nat.ne_of_lt hlt]

theorem channel_subscribe {P S : Type} (g : Graph P S) :
    g.subscribeTopology.1.channel g.subscribeTopology.2 =
      [⟨g.subscribeTopology.2, [], true⟩] := by
  have hfresh : g.subscribers.filter (fun tx => tx.receiver = g.freshReceiver) = [] :=
    channel_fresh g
  change (g.subscribers ++ [(⟨g.freshReceiver, [], true⟩ : Sender)]).filter
    (fun tx => tx.receiver = g.freshReceiver) = _
  rw [List.filter_append, hfresh]
  simp [subscribeTopology]

theorem receiver_lt_fresh {P S : Type} {g : Graph P S} {tx : Sender} {rx : ReceiverId}
    (h : g.channel rx = [tx]) : rx < g.freshReceiver := by
  have hmem : tx ∈ g.channel rx := by simp [h]
  obtain ⟨hsub, hrx⟩ := List.mem_filter.mp hmem
  have hsame : tx.receiver = rx := by simpa using hrx
  exact hsame ▸ lt_freshReceiver hsub

theorem channel_subscribe_other {P S : Type} {g : Graph P S} {tx : Sender} {rx : ReceiverId}
    (h : g.channel rx = [tx]) : g.subscribeTopology.1.channel rx = [tx] := by
  have hne : g.freshReceiver ≠ rx := (Nat.ne_of_lt (receiver_lt_fresh h)).symm
  change (g.subscribers ++ [(⟨g.freshReceiver, [], true⟩ : Sender)]).filter
    (fun tx => tx.receiver = rx) = _
  rw [List.filter_append]
  simp only [channel] at h
  simp [h, hne]

theorem channel_drop_other {P S : Type} {g : Graph P S} {queue : List TopologyEvent}
    {rx rx' : ReceiverId} (hne : rx' ≠ rx) (h : g.channel rx = [⟨rx, queue, true⟩]) :
    (g.dropReceiver rx').channel rx = [⟨rx, queue, true⟩] := by
  let drop : Sender → Sender := fun tx =>
    if tx.receiver = rx' then { tx with connected := false } else tx
  have hkeep : ∀ tx, (drop tx).receiver = tx.receiver := by
    intro tx
    by_cases hrx : tx.receiver = rx' <;> simp [drop, hrx]
  have hfilter : (g.subscribers.map drop).filter (fun tx => tx.receiver = rx) =
      (g.subscribers.filter fun tx => tx.receiver = rx).map drop := by
    rw [List.filter_map]
    simp only [Function.comp_def, hkeep]
  simp only [channel] at h
  change (g.subscribers.map drop).filter (fun tx => tx.receiver = rx) = _
  rw [hfilter, h]
  simp [drop, hne.symm]

end Graph

section

variable [AudioCore] {P S : Type}

omit [AudioCore] in
theorem Graph.channel_emitEvent {g : Graph P S} {rx : ReceiverId} {queue : List TopologyEvent}
    (h : g.channel rx = [⟨rx, queue, true⟩]) (event : TopologyEvent) :
    (g.emitEvent event).channel rx = [⟨rx, queue ++ [event], true⟩] := by
  simp only [channel] at h ⊢
  simp only [emitEvent, Sender.filter_send, h]
  simp [Sender.send]

variable [AudioNode P] [SinkNode S]

def Op.events (op : Op P S) (outcome : Outcome) : List TopologyEvent :=
  match op, outcome with
  | .addNode node, .added id => [.nodeAdded (nodeSnapshot id (.plain node : NodeSlot P S))]
  | .addSink sink, .added id => [.nodeAdded (nodeSnapshot id (.sink sink : NodeSlot P S))]
  | .link src dst, .linked (.ok _) => [.linkAdded ⟨src, dst⟩]
  | .compile _, .compiled (.ok _) => [.graphCompiled]
  | _, _ => []

def TopologySnapshot.replay (s : TopologySnapshot) : TopologyEvent → TopologySnapshot
  | .nodeAdded ns => s.apply (.addNode ns)
  | .linkAdded edge => s.apply (.addLink edge)
  | _ => s

namespace Graph

def events (g : Graph P S) (ops : List (Op P S)) : List TopologyEvent :=
  (ops.zip (g.run ops).2).flatMap fun call => call.1.events call.2

theorem events_cons (g : Graph P S) (op : Op P S) (ops : List (Op P S)) :
    g.events (op :: ops) = op.events (g.step op).2 ++ (g.step op).1.events ops := rfl

theorem snapshot_of_ports {P' S' : Type} [AudioNode P'] [SinkNode S'] {g : Graph P S}
    {g' : Graph P' S'} (hedges : g'.edges = g.edges)
    (hports : g'.scratch.nodes.map NodeSlot.ports = g.scratch.nodes.map NodeSlot.ports) :
    g'.topologySnapshot = g.topologySnapshot := by
  have hat : ∀ id (n : NodeSlot P S) (n' : NodeSlot P' S'), n'.ports = n.ports →
      nodeSnapshot id n' = nodeSnapshot id n := by
    intro id n n' h
    simp only [NodeSlot.ports, Prod.mk.injEq] at h
    simp only [nodeSnapshot, h]
  have hnodes : g'.scratch.nodes.mapIdx nodeSnapshot = g.scratch.nodes.mapIdx nodeSnapshot := by
    refine List.ext_getElem? fun n => ?_
    have hn := congrArg (fun l => l[n]?) hports
    simp only [List.getElem?_map] at hn
    rw [List.getElem?_mapIdx, List.getElem?_mapIdx]
    cases hg : g.scratch.nodes[n]? with
    | none =>
      rw [hg, Option.map_none, Option.map_eq_none_iff] at hn
      rw [hn]
      rfl
    | some node =>
      rw [hg, Option.map_some, Option.map_eq_some_iff] at hn
      obtain ⟨node', hg', heq⟩ := hn
      rw [hg', Option.map_some, Option.map_some, hat n node node' heq]
  simp only [topologySnapshot, hnodes, hedges]

theorem snapshot_addSlot (g : Graph P S) (slot : NodeSlot P S) :
    (g.addSlot slot).1.topologySnapshot =
      g.topologySnapshot.replay (.nodeAdded (nodeSnapshot g.nodeCount slot)) := by
  have hfresh : (nodeSnapshot g.nodeCount slot).id ∉ g.topologySnapshot.nodes.map (·.id) := by
    intro hmem
    obtain ⟨ns, hns, heq⟩ := List.mem_map.mp hmem
    simp only [topologySnapshot, List.mem_mapIdx] at hns
    obtain ⟨n, hlt, rfl⟩ := hns
    exact hlt.ne heq
  rw [addSlot_eq, TopologySnapshot.replay, TopologySnapshot.apply_addNode_fresh hfresh]
  simp [topologySnapshot, emitEvent, pushed, List.mapIdx_append, nodeCount]

structure Informed (base : TopologySnapshot) (rx : ReceiverId) (queue : List TopologyEvent)
    (g : Graph P S) : Prop where
  channel : g.channel rx = [⟨rx, queue, true⟩]
  replays : queue.foldl TopologySnapshot.replay base = g.topologySnapshot

theorem Informed.emit {base : TopologySnapshot} {rx : ReceiverId} {queue : List TopologyEvent}
    {g g' : Graph P S} (h : Informed base rx queue g) {event : TopologyEvent}
    (hsub : g'.subscribers = (g.emitEvent event).subscribers)
    (hsnap : g'.topologySnapshot = g.topologySnapshot.replay event) :
    Informed base rx (queue ++ [event]) g' where
  channel := by
    have hchannel := channel_emitEvent h.channel event
    simpa only [Graph.channel, hsub] using hchannel
  replays := by rw [List.foldl_append, h.replays, hsnap]; rfl

theorem Informed.addSlot {base : TopologySnapshot} {rx : ReceiverId} {queue : List TopologyEvent}
    {g : Graph P S} (h : Informed base rx queue g) (slot : NodeSlot P S) :
    Informed base rx (queue ++ [.nodeAdded (nodeSnapshot (g.addSlot slot).2 slot)])
      (g.addSlot slot).1 := by
  have hid : (g.addSlot slot).2 = g.nodeCount := by rw [addSlot_eq]
  rw [hid]
  exact h.emit (by rw [addSlot_eq]; rfl) (snapshot_addSlot g slot)

theorem Informed.performs [FixedPorts P] [FixedSinkPorts S] {base : TopologySnapshot}
    {rx : ReceiverId} {queue : List TopologyEvent} {g g' : Graph P S}
    (h : Informed base rx queue g) {op : Op P S} {outcome : Outcome}
    (hstep : Performs g op outcome g') (hop : op ≠ .dropReceiver rx) :
    Informed base rx (queue ++ op.events outcome) g' := by
  have hquiet : ∀ g' : Graph P S, g'.channel rx = [⟨rx, queue, true⟩] →
      g'.topologySnapshot = g.topologySnapshot → Informed base rx (queue ++ []) g' := by
    intro g' hchannel hsnap
    rw [List.append_nil]
    exact ⟨hchannel, h.replays.trans hsnap.symm⟩
  cases hstep with
  | run hr =>
    have heq := step_runs_eq g hr
    have hsilent : op.events (g.step op).2 = [] := by cases op <;> trivial
    rw [hsilent]
    refine hquiet _ ?_ (snapshot_of_ports (by rw [heq]) (step_runs_ports g hr))
    rw [heq]
    exact h.channel
  | addNode node => exact h.addSlot (.plain node)
  | addSink sink => exact h.addSlot (.sink sink)
  | link hcheck =>
    refine h.emit rfl ?_
    simp [topologySnapshot, emitEvent, TopologySnapshot.replay, TopologySnapshot.apply]
  | linkError src dst e => exact hquiet g h.channel rfl
  | compile _ hc =>
    refine h.emit hc.subscribers ?_
    simp only [topologySnapshot, hc.nodes, hc.edges]
    rfl
  | compileError config e => exact hquiet g h.channel rfl
  | subscribe => exact hquiet _ (channel_subscribe_other h.channel) rfl
  | drop rx' =>
    have hne : rx' ≠ rx := fun heq => hop (heq ▸ rfl)
    exact hquiet _ (channel_drop_other hne h.channel) rfl

theorem Informed.run [FixedPorts P] [FixedSinkPorts S] {base : TopologySnapshot}
    {rx : ReceiverId} {queue : List TopologyEvent} {g : Graph P S} (h : Informed base rx queue g)
    {ops : List (Op P S)} (hops : .dropReceiver rx ∉ ops) :
    Informed base rx (queue ++ g.events ops) (g.run ops).1 := by
  induction ops generalizing g queue with
  | nil =>
    have hnone : g.events [] = [] := rfl
    rw [hnone, List.append_nil]
    exact h
  | cons op ops ih =>
    simp only [List.mem_cons, not_or] at hops
    rw [events_cons, ← List.append_assoc]
    exact ih (h.performs (step_performs g op) (Ne.symm hops.1)) hops.2

theorem subscriber_follows [FixedPorts P] [FixedSinkPorts S] (g₀ g₁ : Graph P S)
    (rx : ReceiverId) (ops : List (Op P S)) (hsubscribe : g₀.subscribeTopology = (g₁, rx))
    (hlive : .dropReceiver rx ∉ ops) :
    (g₁.run ops).1.subscribers.filter (fun tx => tx.receiver = rx) =
        [⟨rx, g₁.events ops, true⟩] ∧
      (g₁.events ops).foldl TopologySnapshot.replay g₀.topologySnapshot =
        (g₁.run ops).1.topologySnapshot := by
  have hg : g₁ = g₀.subscribeTopology.1 := by rw [hsubscribe]
  have hrx : rx = g₀.subscribeTopology.2 := by rw [hsubscribe]
  have hstart : Informed g₀.topologySnapshot rx [] g₁ := by
    refine ⟨?_, ?_⟩
    · rw [hg, hrx]
      exact channel_subscribe g₀
    · rw [hg]
      rfl
  have hend := hstart.run hlive
  rw [List.nil_append] at hend
  exact ⟨hend.channel, hend.replays⟩

end Graph

end

open PlainCore Sample in
theorem subscriber_follows_sample :
    (empty.subscribeTopology.1.events session).foldl TopologySnapshot.replay
        empty.topologySnapshot =
      (empty.subscribeTopology.1.run session).1.topologySnapshot :=
  (Graph.subscriber_follows empty empty.subscribeTopology.1 0 session rfl
    (by simp [session, build])).2

end AudioGraph
