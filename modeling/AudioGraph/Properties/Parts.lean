import AudioGraph.Foundation.Footprint
import AudioGraph.Properties.Cells
import AudioGraph.Properties.Flushing
import AudioGraph.Properties.Planes
import AudioGraph.Properties.Serial

namespace AudioGraph

open Footprint

theorem filterMap_congr_at {α β : Type} {f : α → Option β} {l l' : List α}
    (h : ∀ i : Nat, l'[i]?.bind f = l[i]?.bind f) : l'.filterMap f = l.filterMap f := by
  induction l generalizing l' with
  | nil =>
    refine List.filterMap_eq_nil_iff.mpr fun x hx => ?_
    obtain ⟨i, hi⟩ := List.mem_iff_getElem?.mp hx
    simpa [hi] using h i
  | cons x l ih =>
    cases l' with
    | nil =>
      refine (List.filterMap_eq_nil_iff.mpr fun y hy => ?_).symm
      obtain ⟨i, hi⟩ := List.mem_iff_getElem?.mp hy
      simpa [hi] using (h i).symm
    | cons y l' =>
      have hhead : f y = f x := by simpa using h 0
      have htail := ih fun i => by simpa using h (i + 1)
      rw [List.filterMap_cons, List.filterMap_cons, hhead, htail]

-- The pieces of a graph that a call can be about. A slot holds a plain node or a sink, for good,
-- and what is done to the one kind is not done to the other.
inductive Part where
  | plain (id : NodeId)
  | sink (id : NodeId)
  | inputs (id : NodeId)
  | outputs (id : NodeId)
  | plan
  | audience
deriving DecidableEq

def Part.ofSink : Part → Bool
  | .sink _ => true
  | _ => false

inductive Holding (P S : Type) where
  | plain (n : Option P)
  | sink (n : Option S)
  | frames (row : Option (List AudioFrame))
  | plan (edges : List Edge) (order : List NodeId) (config : GraphConfig) (compiled : Bool)
  | audience (subscribers : List Sender)

section

variable {P S : Type}

def NodeSlot.plainPart : NodeSlot P S → Option P
  | .plain n => some n
  | .sink _ => none

def NodeSlot.sinkPart : NodeSlot P S → Option S
  | .plain _ => none
  | .sink n => some n

theorem slot_ext {x y : Option (NodeSlot P S)}
    (hplain : x.bind NodeSlot.plainPart = y.bind NodeSlot.plainPart)
    (hsink : x.bind NodeSlot.sinkPart = y.bind NodeSlot.sinkPart) : x = y := by
  rcases x with _ | (n | n) <;> rcases y with _ | (m | m) <;>
    simp_all [NodeSlot.plainPart, NodeSlot.sinkPart]

namespace Graph

def look (g : Graph P S) : Part → Holding P S
  | .plain id => .plain (g.scratch.nodes[id]?.bind NodeSlot.plainPart)
  | .sink id => .sink (g.scratch.nodes[id]?.bind NodeSlot.sinkPart)
  | .inputs id => .frames g.scratch.inputScratch[id]?
  | .outputs id => .frames g.scratch.outputScratch[id]?
  | .plan => .plan g.edges g.executionOrder g.config g.compiled
  | .audience => .audience g.subscribers

variable {g t : Graph P S}

theorem node_of_look {id : NodeId} (hplain : t.look (.plain id) = g.look (.plain id))
    (hsink : t.look (.sink id) = g.look (.sink id)) :
    t.scratch.nodes[id]? = g.scratch.nodes[id]? :=
  slot_ext (Holding.plain.inj hplain) (Holding.sink.inj hsink)

theorem sameButSubscribers_of_look (h : ∀ p, p ≠ .audience → t.look p = g.look p) :
    SameButSubscribers g t := by
  have hnodes : t.scratch.nodes = g.scratch.nodes := List.ext_getElem? fun id =>
    node_of_look (h (.plain id) (by simp)) (h (.sink id) (by simp))
  have hins : t.scratch.inputScratch = g.scratch.inputScratch :=
    List.ext_getElem? fun id => Holding.frames.inj (h (.inputs id) (by simp))
  have houts : t.scratch.outputScratch = g.scratch.outputScratch :=
    List.ext_getElem? fun id => Holding.frames.inj (h (.outputs id) (by simp))
  obtain ⟨hedges, horder, hconfig, hcompiled⟩ := Holding.plan.inj (h .plan (by simp))
  refine ⟨?_⟩
  obtain ⟨edges, order, config, compiled, ⟨nodes, ins, outs⟩, subscribers⟩ := t
  simp only at hnodes hins houts hedges horder hconfig hcompiled
  subst hnodes hins houts hedges horder hconfig hcompiled
  rfl

theorem SameButSubscribers.look (h : SameButSubscribers g t) {p : Part} (hp : p ≠ .audience) :
    t.look p = g.look p := by
  rw [h.eq]
  cases p <;> first | rfl | exact absurd rfl hp

theorem look_injective : Function.Injective (look (P := P) (S := S)) := by
  intro g t h
  have hsame := sameButSubscribers_of_look fun p _ => (congrFun h p).symm
  have hsubscribers := Holding.audience.inj (congrFun h .audience)
  rw [hsame.eq, ← hsubscribers]

end Graph

variable [AudioCore]

def Op.touches (op : Op P S) (p : Part) : Bool :=
  match op with
  | .addNode _ | .addSink _ | .link _ _ | .compile _ => true
  | .feed node _ _ => p = .outputs node
  | .flushSinks => p.ofSink
  | .flushSink node => p = .plain node ∨ p = .sink node
  | .processCycle _ => p ≠ .audience
  | .subscribeTopology | .dropReceiver _ => p = .audience

variable [SinkNode S]

theorem sinkPart_flushed (x : Option (NodeSlot P S)) :
    (x.map NodeSlot.flushed).bind NodeSlot.sinkPart =
      (x.bind NodeSlot.sinkPart).map fun n => (flush n).1 := by
  rcases x with _ | (n | n) <;> rfl

theorem plainPart_flushed (x : Option (NodeSlot P S)) :
    (x.map NodeSlot.flushed).bind NodeSlot.plainPart = x.bind NodeSlot.plainPart := by
  rcases x with _ | (n | n) <;> rfl

theorem flush_report (nodes : List (NodeSlot P S)) :
    nodes.countP NodeSlot.isSink = (nodes.filterMap NodeSlot.sinkPart).length ∧
      nodes.findSome? NodeSlot.flushError =
        (nodes.filterMap NodeSlot.sinkPart).findSome? fun n =>
          (NodeSlot.sink n : NodeSlot P S).flushError := by
  induction nodes with
  | nil => exact ⟨rfl, rfl⟩
  | cons n nodes ih =>
    cases n with
    | plain n => exact ih
    | sink n =>
      obtain ⟨hcount, herror⟩ := ih
      constructor
      · simp [NodeSlot.sinkPart, List.countP_cons, hcount]
      · simp [NodeSlot.sinkPart, List.findSome?_cons, herror]

namespace Graph

variable {g t : Graph P S} {op : Op P S} {p : Part}

omit [AudioCore] [SinkNode S] in
theorem feed_look (node : NodeId) (port : PortIdx) (src : AudioFrame) (hp : p ≠ .outputs node) :
    (g.feed node port src).look p = g.look p := by
  unfold Graph.feed
  split
  · rfl
  · split
    · rfl
    · cases p with
      | outputs id =>
        have hne : node ≠ id := fun heq => hp (by rw [heq])
        simp [look, hne]
      | _ => rfl

theorem flushSinks_look (hp : p.ofSink = false) : g.flushSinks.1.look p = g.look p := by
  rw [flushSinks_eq]
  cases p with
  | sink id => cases hp
  | plain id => simp only [look, List.getElem?_map, plainPart_flushed]
  | _ => rfl

omit [AudioCore] [SinkNode S] in
theorem onNode_look {id : NodeId} {f : NodeSlot P S → NodeSlot P S}
    (hplain : p = .plain id → ∀ slot, (f slot).plainPart = slot.plainPart)
    (hsink : p = .sink id → ∀ slot, (f slot).sinkPart = slot.sinkPart) :
    (g.onNode id f).look p = g.look p := by
  cases p with
  | plain m =>
    simp only [look]
    by_cases hm : id = m
    · subst hm
      rcases hx : g.scratch.nodes[id]? with _ | slot <;> simp [onNode, hx, hplain]
    · rw [onNode_other hm]
  | sink m =>
    simp only [look]
    by_cases hm : id = m
    · subst hm
      rcases hx : g.scratch.nodes[id]? with _ | slot <;> simp [onNode, hx, hsink]
    · rw [onNode_other hm]
  | _ => rfl

theorem flushSink_look {node : NodeId} (hp : ¬ (p = .plain node ∨ p = .sink node)) :
    (g.flushSink node).1.look p = g.look p := by
  rw [flushSink_eq]
  exact onNode_look (fun heq => absurd (.inl heq) hp) fun heq => absurd (.inr heq) hp

variable [AudioNode P]

theorem step_frame (hp : op.touches p = false) : (g.step op).1.look p = g.look p := by
  cases op with
  | feed node port src => exact feed_look node port src (by simpa [Op.touches] using hp)
  | flushSinks => exact flushSinks_look hp
  | flushSink node => exact flushSink_look (by simpa [Op.touches] using hp)
  | processCycle ctx =>
    have haudience : p = .audience := by simpa [Op.touches] using hp
    simp only [step, haudience]
    rw [processCycle_eq]
    rfl
  | subscribeTopology =>
    cases p with
    | audience => cases hp
    | _ => rfl
  | dropReceiver rx =>
    cases p with
    | audience => cases hp
    | _ => rfl
  | _ => cases hp

omit [AudioCore] [SinkNode S] [AudioNode P] in
theorem feed_row (g : Graph P S) (node : NodeId) (port : PortIdx) (src : AudioFrame) :
    (g.feed node port src).scratch.outputScratch[node]? =
      g.scratch.outputScratch[node]?.map fun slots => slots.modify port (·.copyFrom src) := by
  have hcell := congrArg Cell.outFrames (feed_cells g node port src node)
  rw [if_pos rfl] at hcell
  exact hcell

omit [AudioNode P] in
theorem flushSinks_confined (h : ∀ id, t.look (.sink id) = g.look (.sink id)) :
    t.flushSinks.2 = g.flushSinks.2 ∧
      ∀ id, t.flushSinks.1.look (.sink id) = g.flushSinks.1.look (.sink id) := by
  have hsinks : t.scratch.nodes.filterMap NodeSlot.sinkPart =
      g.scratch.nodes.filterMap NodeSlot.sinkPart :=
    filterMap_congr_at fun id => Holding.sink.inj (h id)
  obtain ⟨hcount, herror⟩ := flush_report g.scratch.nodes
  obtain ⟨hcount', herror'⟩ := flush_report t.scratch.nodes
  constructor
  · rw [flushSinks_eq, flushSinks_eq, hcount, herror, hcount', herror', hsinks]
  · intro id
    have hat := Holding.sink.inj (h id)
    simp only [flushSinks_eq, look, List.getElem?_map, sinkPart_flushed, hat]

omit [AudioNode P] in
theorem flushSink_confined {node : NodeId} (hplain : t.look (.plain node) = g.look (.plain node))
    (hsink : t.look (.sink node) = g.look (.sink node)) :
    (t.flushSink node).2 = (g.flushSink node).2 ∧
      (t.flushSink node).1.scratch.nodes[node]? = (g.flushSink node).1.scratch.nodes[node]? := by
  have hat := node_of_look hplain hsink
  refine ⟨by rw [flushSink_result, flushSink_result, hat], ?_⟩
  rw [flushSink_nodes, flushSink_nodes, List.getElem?_modify, List.getElem?_modify, hat]

theorem step_confined (h : ∀ p, op.touches p = true → t.look p = g.look p) :
    (t.step op).2 = (g.step op).2 ∧
      ∀ p, op.touches p = true → (t.step op).1.look p = (g.step op).1.look p := by
  cases op with
  | feed node port src =>
    have hrow := Holding.frames.inj (h (.outputs node) (by simp [Op.touches]))
    refine ⟨rfl, fun p hp => ?_⟩
    have hpart : p = .outputs node := by simpa [Op.touches] using hp
    simp only [step, hpart, look, feed_row, hrow]
  | flushSinks =>
    obtain ⟨hreport, hsinks⟩ := flushSinks_confined fun id => h (.sink id) rfl
    refine ⟨by simp only [step, hreport], fun p hp => ?_⟩
    cases p with
    | sink id => exact hsinks id
    | _ => cases hp
  | flushSink node =>
    obtain ⟨hresult, hnode⟩ := flushSink_confined (h (.plain node) (by simp [Op.touches]))
      (h (.sink node) (by simp [Op.touches]))
    refine ⟨congrArg Outcome.flushed hresult, fun p hp => ?_⟩
    have hpart : p = .plain node ∨ p = .sink node := by simpa [Op.touches] using hp
    rcases hpart with rfl | rfl
    · simp only [step, look, hnode]
    · simp only [step, look, hnode]
  | processCycle ctx =>
    have hsame : SameButSubscribers g t :=
      sameButSubscribers_of_look fun p hp => h p (by simp [Op.touches, hp])
    have hsounds : (Op.processCycle ctx : Op P S).sounds = true := rfl
    obtain ⟨hnext, hanswer⟩ := hsame.sound hsounds
    exact ⟨hanswer, fun p hp => hnext.look (by simpa [Op.touches] using hp)⟩
  | subscribeTopology =>
    have hsubscribers := Holding.audience.inj (h .audience rfl)
    have hfresh : t.freshReceiver = g.freshReceiver := by
      rw [freshReceiver, freshReceiver, hsubscribers]
    refine ⟨congrArg Outcome.subscribed hfresh, fun p hp => ?_⟩
    have hpart : p = .audience := by simpa [Op.touches] using hp
    simp only [step, subscribeTopology, hpart, look, hfresh, hsubscribers]
  | dropReceiver rx =>
    have hsubscribers := Holding.audience.inj (h .audience rfl)
    refine ⟨rfl, fun p hp => ?_⟩
    have hpart : p = .audience := by simpa [Op.touches] using hp
    simp only [step, dropReceiver, hpart, look, hsubscribers]
  | _ =>
    have heq : t = g := look_injective (funext fun p => h p rfl)
    rw [heq]
    exact ⟨rfl, fun _ _ => rfl⟩

end Graph

end

section

variable [AudioCore] {Q R : Type}

def Act.touches (a : Act Q R) (p : Part) : Bool :=
  match a with
  | .call op => op.touches p
  | .push source _ => p = .plain source
  | .pop sink => p = .sink sink
  | .readInput node _ => p = .inputs node
  | .readOutput node _ => p = .outputs node

theorem Act.touches_some (a : Act Q R) : ∃ p, a.touches p = true := by
  cases a with
  | call op =>
    cases op with
    | feed node _ _ => exact ⟨.outputs node, by simp [Act.touches, Op.touches]⟩
    | flushSinks => exact ⟨.sink 0, rfl⟩
    | flushSink node => exact ⟨.sink node, by simp [Act.touches, Op.touches]⟩
    | processCycle _ => exact ⟨.plan, rfl⟩
    | _ => exact ⟨.audience, rfl⟩
  | push source _ => exact ⟨.plain source, by simp [Act.touches]⟩
  | pop sink => exact ⟨.sink sink, by simp [Act.touches]⟩
  | readInput node _ => exact ⟨.inputs node, by simp [Act.touches]⟩
  | readOutput node _ => exact ⟨.outputs node, by simp [Act.touches]⟩

def WorkerAct.part : WorkerAct → Part
  | .push source _ => .plain source
  | .pop sink => .sink sink

variable {x y : Option (NodeSlot (DynNode Q) (DynSink R))}

theorem push_sinkPart (source : NodeId) (frame : AudioFrame)
    (slot : NodeSlot (DynNode Q) (DynSink R)) :
    ((WorkerAct.push source frame).serve slot).1.sinkPart = slot.sinkPart := by
  rcases slot with (n | n | n) | n
  · simp only [WorkerAct.serve]
    cases n.consumer.push frame <;> rfl
  all_goals rfl

theorem pop_plainPart (sink : NodeId) (slot : NodeSlot (DynNode Q) (DynSink R)) :
    ((WorkerAct.pop sink).serve slot).1.plainPart = slot.plainPart := by
  rcases slot with n | (n | n)
  · rfl
  · simp only [WorkerAct.serve]
    cases n.producer.pop <;> rfl
  · rfl

theorem push_confined (source : NodeId) (frame : AudioFrame)
    (h : y.bind NodeSlot.plainPart = x.bind NodeSlot.plainPart) :
    (WorkerAct.push source frame).answer y = (WorkerAct.push source frame).answer x ∧
      (y.map fun slot => ((WorkerAct.push source frame).serve slot).1).bind NodeSlot.plainPart =
        (x.map fun slot => ((WorkerAct.push source frame).serve slot).1).bind
          NodeSlot.plainPart := by
  rcases x with _ | (n | n) <;> rcases y with _ | (m | m) <;>
    simp_all [NodeSlot.plainPart, WorkerAct.answer, WorkerAct.serve, WorkerAct.refused]

theorem pop_confined (sink : NodeId) (h : y.bind NodeSlot.sinkPart = x.bind NodeSlot.sinkPart) :
    (WorkerAct.pop sink).answer y = (WorkerAct.pop sink).answer x ∧
      (y.map fun slot => ((WorkerAct.pop sink).serve slot).1).bind NodeSlot.sinkPart =
        (x.map fun slot => ((WorkerAct.pop sink).serve slot).1).bind NodeSlot.sinkPart := by
  rcases x with _ | (n | n) <;> rcases y with _ | (m | m) <;>
    simp_all [NodeSlot.sinkPart, WorkerAct.answer, WorkerAct.serve, WorkerAct.refused]

variable [AudioNode Q] [SinkNode R]

namespace Graph

variable {g t : Graph (DynNode Q) (DynSink R)} {a : Act Q R} {p : Part}

theorem worker_frame (g : Graph (DynNode Q) (DynSink R)) {a : WorkerAct} (hp : p ≠ a.part) :
    (g.act a.act).1.look p = g.look p := by
  rw [act_eq]
  cases a with
  | push source frame =>
    exact onNode_look (fun heq => absurd heq hp) fun _ => push_sinkPart source frame
  | pop sink => exact onNode_look (fun _ => pop_plainPart sink) fun heq => absurd heq hp

theorem worker_confined {a : WorkerAct} (h : t.look a.part = g.look a.part) :
    (t.act a.act).2 = (g.act a.act).2 ∧
      (t.act a.act).1.look a.part = (g.act a.act).1.look a.part := by
  have hat : ∀ s : Graph (DynNode Q) (DynSink R), (s.act a.act).1.scratch.nodes[a.node]? =
      s.scratch.nodes[a.node]?.map fun slot => (a.serve slot).1 := by
    intro s
    rw [act_eq]
    simp [onNode]
  have hg := hat g
  have ht := hat t
  have hseen := congrArg Prod.snd (act_eq g a)
  have hseen' := congrArg Prod.snd (act_eq t a)
  cases a with
  | push source frame =>
    obtain ⟨hanswer, hnode⟩ := push_confined source frame (Holding.plain.inj h)
    have hbefore := congrArg (·.bind NodeSlot.plainPart) hg
    have hafter := congrArg (·.bind NodeSlot.plainPart) ht
    exact ⟨hseen'.trans (hanswer.trans hseen.symm),
      congrArg Holding.plain (hafter.trans (hnode.trans hbefore.symm))⟩
  | pop sink =>
    obtain ⟨hanswer, hnode⟩ := pop_confined sink (Holding.sink.inj h)
    have hbefore := congrArg (·.bind NodeSlot.sinkPart) hg
    have hafter := congrArg (·.bind NodeSlot.sinkPart) ht
    exact ⟨hseen'.trans (hanswer.trans hseen.symm),
      congrArg Holding.sink (hafter.trans (hnode.trans hbefore.symm))⟩

theorem act_frame (hp : a.touches p = false) : (g.act a).1.look p = g.look p := by
  cases a with
  | call op => exact step_frame hp
  | push source frame =>
    have hne : p ≠ .plain source := by simpa [Act.touches] using hp
    exact worker_frame (a := .push source frame) g hne
  | pop sink =>
    have hne : p ≠ .sink sink := by simpa [Act.touches] using hp
    exact worker_frame (a := .pop sink) g hne
  | readInput node port => rfl
  | readOutput node port => rfl

theorem act_confined (h : ∀ p, a.touches p = true → t.look p = g.look p) :
    (t.act a).2 = (g.act a).2 ∧
      ∀ p, a.touches p = true → (t.act a).1.look p = (g.act a).1.look p := by
  have hone : ∀ q, (∀ p, a.touches p = true → p = q) → (t.act a).1.look q = (g.act a).1.look q →
      ∀ p, a.touches p = true → (t.act a).1.look p = (g.act a).1.look p := by
    intro q hq hlook p hp
    rw [hq p hp, hlook]
  cases a with
  | call op =>
    obtain ⟨houtcome, hparts⟩ := step_confined h
    exact ⟨congrArg Seen.called houtcome, hparts⟩
  | push source frame =>
    obtain ⟨hseen, hlook⟩ := worker_confined (a := .push source frame)
      (h (.plain source) (by simp [Act.touches]))
    exact ⟨hseen, hone (.plain source) (fun _ hp => by simpa [Act.touches] using hp) hlook⟩
  | pop sink =>
    obtain ⟨hseen, hlook⟩ := worker_confined (a := .pop sink)
      (h (.sink sink) (by simp [Act.touches]))
    exact ⟨hseen, hone (.sink sink) (fun _ hp => by simpa [Act.touches] using hp) hlook⟩
  | readInput node port =>
    have hrow := Holding.frames.inj (h (.inputs node) (by simp [Act.touches]))
    exact ⟨by simp only [act, readInput, frameAt, hrow], h⟩
  | readOutput node port =>
    have hrow := Holding.frames.inj (h (.outputs node) (by simp [Act.touches]))
    exact ⟨by simp only [act, readOutput, frameAt, hrow], h⟩

theorem act_bounded :
    Bounded (look (P := DynNode Q) (S := DynSink R)) Graph.act Act.touches where
  determined := look_injective
  frame _ _ _ hp := act_frame hp
  confined _ _ _ h := act_confined h

theorem play_equivalent (g : Graph (DynNode Q) (DynSink R)) {acts acts' : List (Act Q R)}
    (h : ∀ p, acts'.filter (·.touches p) = acts.filter (·.touches p)) :
    (g.play acts').1 = (g.play acts).1 ∧
      ∀ p, history Act.touches act p g acts' = history Act.touches act p g acts := by
  obtain ⟨hends, hhistories⟩ := act_bounded.equivalent Act.touches_some h g
  exact ⟨hends, hhistories⟩

end Graph

end

namespace Sample

open PlainCore

def threadCalls : List (Act RingSource RingSink) :=
  [.push 0 Sample.frame, .call .flushSinks, .pop 1, .call (.feed 0 0 Sample.frame),
    .call (.processCycle ()), .readInput 1 0]

def threadCallsReordered : List (Act RingSource RingSink) :=
  [.call (.feed 0 0 Sample.frame), .call .flushSinks, .push 0 Sample.frame, .pop 1,
    .call (.processCycle ()), .readInput 1 0]

end Sample

open PlainCore Sample in
theorem play_equivalent_sample :
    (piped.play threadCallsReordered).1 = (piped.play threadCalls).1 := by
  refine (Graph.play_equivalent piped fun p => ?_).1
  cases p with
  | plain id => by_cases h : id = 0 <;>
      simp [threadCalls, threadCallsReordered, Act.touches, Op.touches, Part.ofSink, h]
  | sink id => by_cases h : id = 1 <;>
      simp [threadCalls, threadCallsReordered, Act.touches, Op.touches, Part.ofSink, h]
  | outputs id => by_cases h : id = 0 <;>
      simp [threadCalls, threadCallsReordered, Act.touches, Op.touches, Part.ofSink, h]
  | _ =>
    simp [threadCalls, threadCallsReordered, List.filter_cons, Act.touches, Op.touches,
      Part.ofSink]

end AudioGraph
