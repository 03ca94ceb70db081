import AudioGraph.Engine.Ring
import AudioGraph.Properties.Rebuild

namespace AudioGraph

open Pointwise Relation

-- The checks of `link` in the order it makes them.
inductive LinkCheck where
  | sourceNode
  | targetNode
  | sourcePort
  | targetPort
  | direction
  | compatibility
deriving DecidableEq

namespace LinkCheck

def rank : LinkCheck → Nat
  | sourceNode => 0
  | targetNode => 1
  | sourcePort => 2
  | targetPort => 3
  | direction => 4
  | compatibility => 5

def error (src dst : NodeId × PortIdx) : LinkCheck → GraphError
  | sourceNode => .nodeNotFound src.1
  | targetNode => .nodeNotFound dst.1
  | sourcePort => .portNotFound src.1 src.2
  | targetPort => .portNotFound dst.1 dst.2
  | direction => .portDirectionMismatch src dst
  | compatibility => .portIncompatible src dst

end LinkCheck

section

variable [AudioCore] {P S : Type} [AudioNode P] [SinkNode S]

def outputAt (nodes : List (NodeSlot P S)) (src : NodeId × PortIdx) : Option PortDescriptor :=
  nodes[src.1]?.bind fun n => (AudioNode.outputs n)[src.2]?

def inputAt (nodes : List (NodeSlot P S)) (dst : NodeId × PortIdx) : Option PortDescriptor :=
  nodes[dst.1]?.bind fun n => (AudioNode.inputs n)[dst.2]?

namespace LinkCheck

def Passes (nodes : List (NodeSlot P S)) (src dst : NodeId × PortIdx) : LinkCheck → Prop
  | sourceNode => src.1 < nodes.length
  | targetNode => dst.1 < nodes.length
  | sourcePort => ∃ fromDesc, outputAt nodes src = some fromDesc
  | targetPort => ∃ toDesc, inputAt nodes dst = some toDesc
  | direction => ∃ fromDesc toDesc, outputAt nodes src = some fromDesc ∧
      inputAt nodes dst = some toDesc ∧ fromDesc.direction = .output ∧ toDesc.direction = .input
  | compatibility => ∃ fromDesc toDesc, outputAt nodes src = some fromDesc ∧
      inputAt nodes dst = some toDesc ∧ fromDesc.channels = toDesc.channels ∧
      fromDesc.sampleFormat = toDesc.sampleFormat

end LinkCheck

variable {nodes : List (NodeSlot P S)} {src dst : NodeId × PortIdx}

theorem Accepts.passes {fromNode toNode : NodeSlot P S} {fromDesc toDesc : PortDescriptor}
    (h : Accepts nodes src dst fromNode toNode fromDesc toDesc) (c : LinkCheck) :
    c.Passes nodes src dst := by
  have hout : outputAt nodes src = some fromDesc := by
    rw [outputAt, h.fromNode_at, Option.bind_some, h.fromDesc_at]
  have hin : inputAt nodes dst = some toDesc := by
    rw [inputAt, h.toNode_at, Option.bind_some, h.toDesc_at]
  cases c with
  | sourceNode => exact (List.getElem?_eq_some_iff.mp h.fromNode_at).1
  | targetNode => exact (List.getElem?_eq_some_iff.mp h.toNode_at).1
  | sourcePort => exact ⟨fromDesc, hout⟩
  | targetPort => exact ⟨toDesc, hin⟩
  | direction => exact ⟨fromDesc, toDesc, hout, hin, h.from_output, h.to_input⟩
  | compatibility => exact ⟨fromDesc, toDesc, hout, hin, h.channels, h.format⟩

theorem accepts_of_passes (h : ∀ c : LinkCheck, c.Passes nodes src dst) :
    ∃ fromNode toNode fromDesc toDesc, Accepts nodes src dst fromNode toNode fromDesc toDesc := by
  obtain ⟨fromDesc, toDesc, hout, hin, hfrom, hto⟩ := h .direction
  obtain ⟨fromDesc', toDesc', hout', hin', hchannels, hformat⟩ := h .compatibility
  rw [hout, Option.some.injEq] at hout'
  rw [hin, Option.some.injEq] at hin'
  subst hout' hin'
  obtain ⟨fromNode, hfromNode, hfromDesc⟩ := Option.bind_eq_some_iff.mp hout
  obtain ⟨toNode, htoNode, htoDesc⟩ := Option.bind_eq_some_iff.mp hin
  exact ⟨fromNode, toNode, fromDesc, toDesc, hfromNode, htoNode, hfromDesc, htoDesc, hfrom, hto,
    hchannels, hformat⟩

theorem checkLink_passes :
    checkLink nodes src dst = .ok () ↔ ∀ c : LinkCheck, c.Passes nodes src dst := by
  rw [checkLink_ok_iff]
  constructor
  · rintro ⟨fromNode, toNode, fromDesc, toDesc, h⟩
    exact h.passes
  · exact accepts_of_passes

theorem checkLink_ports (hsrc : src.1 < nodes.length) (hdst : dst.1 < nodes.length) :
    checkLink nodes src dst =
      match outputAt nodes src, inputAt nodes dst with
      | none, _ => .error (.portNotFound src.1 src.2)
      | some _, none => .error (.portNotFound dst.1 dst.2)
      | some fromDesc, some toDesc =>
        if fromDesc.direction ≠ .output ∨ toDesc.direction ≠ .input then
          .error (.portDirectionMismatch src dst)
        else if fromDesc.channels ≠ toDesc.channels ∨
            fromDesc.sampleFormat ≠ toDesc.sampleFormat then
          .error (.portIncompatible src dst)
        else .ok () := by
  simp only [checkLink, outputAt, inputAt, List.getElem?_eq_getElem hsrc,
    List.getElem?_eq_getElem hdst, Option.bind_some]
  cases (AudioNode.outputs nodes[src.1])[src.2]? with
  | none => rfl
  | some fromDesc => cases (AudioNode.inputs nodes[dst.1])[dst.2]? <;> rfl

theorem checkLink_fails {c : LinkCheck}
    (hbefore : ∀ c' : LinkCheck, c'.rank < c.rank → c'.Passes nodes src dst)
    (hc : ¬ c.Passes nodes src dst) : checkLink nodes src dst = .error (c.error src dst) := by
  cases c with
  | sourceNode =>
    have hnone : nodes[src.1]? = none := List.getElem?_eq_none_iff.mpr (Nat.not_lt.mp hc)
    simp [checkLink, hnone, LinkCheck.error]
  | targetNode =>
    have hsrc : src.1 < nodes.length := hbefore .sourceNode (by decide)
    have hnone : nodes[dst.1]? = none := List.getElem?_eq_none_iff.mpr (Nat.not_lt.mp hc)
    simp [checkLink, List.getElem?_eq_getElem hsrc, hnone, LinkCheck.error]
  | sourcePort =>
    have hnone : outputAt nodes src = none := Option.eq_none_iff_forall_ne_some.mpr
      fun fromDesc h => hc ⟨fromDesc, h⟩
    rw [checkLink_ports (hbefore .sourceNode (by decide)) (hbefore .targetNode (by decide)), hnone]
    rfl
  | targetPort =>
    have hnone : inputAt nodes dst = none := Option.eq_none_iff_forall_ne_some.mpr
      fun toDesc h => hc ⟨toDesc, h⟩
    obtain ⟨fromDesc, hout⟩ := hbefore .sourcePort (by decide)
    rw [checkLink_ports (hbefore .sourceNode (by decide)) (hbefore .targetNode (by decide)), hout,
      hnone]
    rfl
  | direction =>
    obtain ⟨fromDesc, hout⟩ := hbefore .sourcePort (by decide)
    obtain ⟨toDesc, hin⟩ := hbefore .targetPort (by decide)
    have hbad : fromDesc.direction ≠ .output ∨ toDesc.direction ≠ .input :=
      not_and_or.mp fun h => hc ⟨fromDesc, toDesc, hout, hin, h.1, h.2⟩
    rw [checkLink_ports (hbefore .sourceNode (by decide)) (hbefore .targetNode (by decide)), hout,
      hin]
    simp only [if_pos hbad, LinkCheck.error]
  | compatibility =>
    obtain ⟨fromDesc, toDesc, hout, hin, hfrom, hto⟩ := hbefore .direction (by decide)
    have hgood : ¬ (fromDesc.direction ≠ .output ∨ toDesc.direction ≠ .input) := by
      simp [hfrom, hto]
    have hbad : fromDesc.channels ≠ toDesc.channels ∨
        fromDesc.sampleFormat ≠ toDesc.sampleFormat :=
      not_and_or.mp fun h => hc ⟨fromDesc, toDesc, hout, hin, h.1, h.2⟩
    rw [checkLink_ports (hbefore .sourceNode (by decide)) (hbefore .targetNode (by decide)), hout,
      hin]
    simp only [if_neg hgood, if_pos hbad, LinkCheck.error]

inductive Served : NodeSlot P S → NodeSlot P S → Prop
  | process (n : NodeSlot P S) (ctx : ProcessContext) (i o : List AudioFrame) :
      Served n (process n ctx i o).node
  | flush (n : NodeSlot P S) : Served n n.flushed

theorem evolves_served : Evolves (ReflTransGen (Served (P := P) (S := S))) where
  refl _ := .refl
  trans _ _ _ hab hbc := hab.trans hbc
  process n ctx i o := .single (.process n ctx i o)

def Op.linkMade (op : Op P S) (outcome : Outcome) : List (LinkId × Edge) :=
  match op, outcome with
  | .link src dst, .linked (.ok id) => [(id, ⟨src, dst⟩)]
  | _, _ => []

def Op.nodeMade (op : Op P S) (outcome : Outcome) : List (NodeId × NodeSlot P S) :=
  match op, outcome with
  | .addNode node, .added id => [(id, .plain node)]
  | .addSink sink, .added id => [(id, .sink sink)]
  | _, _ => []

namespace Graph

def linksMade (g : Graph P S) (ops : List (Op P S)) : List (LinkId × Edge) :=
  Transition.log Op.linkMade step g ops

def nodesMade (g : Graph P S) (ops : List (Op P S)) : List (NodeId × NodeSlot P S) :=
  Transition.log Op.nodeMade step g ops

def numbered (g : Graph P S) : List (LinkId × Edge) := g.edges.mapIdx Prod.mk

theorem Performs.numbered {g g' : Graph P S} {op : Op P S} {outcome : Outcome}
    (h : Performs g op outcome g') : g'.numbered = g.numbered ++ op.linkMade outcome := by
  cases h with
  | run hop =>
    have hnone : op.linkMade (g.step op).2 = [] := by cases op <;> trivial
    rw [step_runs_eq g hop, hnone, List.append_nil]
    rfl
  | addNode node => simp [addSlot_eq, Graph.numbered, emitEvent, Op.linkMade]
  | addSink sink => simp [addSlot_eq, Graph.numbered, emitEvent, Op.linkMade]
  | link hcheck => simp [Op.linkMade, Graph.numbered, emitEvent, List.mapIdx_append]
  | linkError src dst e => simp [Op.linkMade]
  | compile _ hc => simp [Op.linkMade, Graph.numbered, hc.edges]
  | compileError config e => simp [Op.linkMade]
  | subscribe => simp [Graph.numbered, subscribeTopology, Op.linkMade]
  | drop rx => simp [Graph.numbered, dropReceiver, Op.linkMade]

theorem Performs.nodeMade {g g' : Graph P S} {op : Op P S} {outcome : Outcome}
    (h : Performs g op outcome g') :
    List.range g'.nodeCount =
        List.range g.nodeCount ++ (op.nodeMade outcome).map Prod.fst ∧
      List.Forall₂ (ReflTransGen Served)
        (g.scratch.nodes ++ (op.nodeMade outcome).map Prod.snd) g'.scratch.nodes := by
  have hself := forall₂_self (R := ReflTransGen (Served (P := P) (S := S))) fun _ => .refl
  have hadd : ∀ slot : NodeSlot P S, List.range (g.addSlot slot).1.nodeCount =
        List.range g.nodeCount ++ [g.nodeCount] ∧
      List.Forall₂ (ReflTransGen Served) (g.scratch.nodes ++ [slot])
        (g.addSlot slot).1.scratch.nodes := by
    intro slot
    rw [addSlot_eq]
    refine ⟨?_, hself _⟩
    simp [nodeCount, emitEvent, pushed, List.range_succ]
  have hnone : ∀ g' : Graph P S,
      List.Forall₂ (ReflTransGen Served) g.scratch.nodes g'.scratch.nodes →
      List.range g'.nodeCount = List.range g.nodeCount ++ ([] : List NodeId) ∧
        List.Forall₂ (ReflTransGen Served) (g.scratch.nodes ++ ([] : List (NodeSlot P S)))
          g'.scratch.nodes := by
    intro g' hserved
    rw [List.append_nil, List.append_nil, nodeCount, ← hserved.length_eq]
    exact ⟨rfl, hserved⟩
  cases h with
  | run hop =>
    have hmade : op.nodeMade (g.step op).2 = [] := by cases op <;> trivial
    rw [hmade]
    exact hnone _ (step_runs_evolves evolves_served (fun n => .single (.flush n)) g hop)
  | addNode node => exact hadd (.plain node)
  | addSink sink => exact hadd (.sink sink)
  | link hcheck => exact hnone _ (hself _)
  | linkError src dst e => exact hnone g (hself _)
  | compile _ hc => exact hnone g' (hc.nodes ▸ hself _)
  | compileError config e => exact hnone g (hself _)
  | subscribe => exact hnone _ (hself _)
  | drop rx => exact hnone _ (hself _)

theorem run_nodesMade (g : Graph P S) (ops : List (Op P S)) :
    List.range (g.run ops).1.nodeCount =
        List.range g.nodeCount ++ (g.nodesMade ops).map Prod.fst ∧
      List.Forall₂ (ReflTransGen Served) (g.scratch.nodes ++ (g.nodesMade ops).map Prod.snd)
        (g.run ops).1.scratch.nodes := by
  have hself := forall₂_self (R := ReflTransGen (Served (P := P) (S := S))) fun _ => .refl
  induction ops generalizing g with
  | nil =>
    have hnone : g.nodesMade [] = [] := rfl
    rw [hnone, List.map_nil, List.map_nil, List.append_nil, List.append_nil]
    exact ⟨rfl, hself _⟩
  | cons op ops ih =>
    obtain ⟨hids, hnodes⟩ := (step_performs g op).nodeMade
    obtain ⟨hrest, hserved⟩ := ih (g.step op).1
    have hcons : g.nodesMade (op :: ops) =
        op.nodeMade (g.step op).2 ++ (g.step op).1.nodesMade ops := rfl
    rw [hcons, List.map_append, List.map_append, ← List.append_assoc, ← List.append_assoc, ← hids]
    refine ⟨hrest, ?_⟩
    exact forall₂_trans evolves_served.trans (List.rel_append hnodes (hself _)) hserved

theorem link_soundness [FixedPorts P] [FixedSinkPorts S] (ops : List (Op P S)) :
    ∃ g : Graph P S, g = (new.run ops).1 ∧
      (∀ e ∈ g.edges, ∀ c : LinkCheck, c.Passes g.scratch.nodes e.src e.dst) ∧
      new.linksMade ops = g.edges.mapIdx Prod.mk ∧
      ((new.nodesMade ops).map Prod.fst = List.range g.nodeCount ∧
        List.Forall₂ (ReflTransGen Served) ((new.nodesMade ops).map Prod.snd) g.scratch.nodes) ∧
      ∀ src dst, ((∃ id, (g.link src dst).2 = .ok id) ↔
          ∀ c : LinkCheck, c.Passes g.scratch.nodes src dst) ∧
        ∀ c : LinkCheck, (∀ c' : LinkCheck, c'.rank < c.rank → c'.Passes g.scratch.nodes src dst) →
          ¬ c.Passes g.scratch.nodes src dst → (g.link src dst).2 = .error (c.error src dst) := by
  refine ⟨_, rfl, ?_, ?_, ?_, fun src dst => ⟨?_, ?_⟩⟩
  · have hlinked : Linked ((new : Graph P S).run ops).1 := Reachable.linked ⟨ops, rfl⟩
    exact fun e he => checkLink_passes.mp (hlinked e he)
  · exact (Transition.run_log (fun g op => (step_performs g op).numbered) new ops).symm
  · obtain ⟨hids, hnodes⟩ := run_nodesMade (new : Graph P S) ops
    exact ⟨hids.symm, hnodes⟩
  · rw [← checkLink_passes]
    rcases link_cases ((new : Graph P S).run ops).1 src dst with ⟨e, herr, heq⟩ | ⟨hok, heq⟩
    · simp [heq, herr]
    · simp [heq, hok]
  · intro c hbefore hc
    have herr := checkLink_fails hbefore hc
    rcases link_cases ((new : Graph P S).run ops).1 src dst with ⟨e, herr', heq⟩ | ⟨hok, -⟩
    · rw [heq]
      exact congrArg Except.error (Except.error.inj (herr'.symm.trans herr))
    · rw [hok] at herr
      cases herr

end Graph

end

open PlainCore Sample in
theorem link_soundness_sample :
    ∃ g : Graph RingSource RingSink, g = (Graph.new.run session).1 ∧
      (Graph.new : Graph RingSource RingSink).linksMade session = g.edges.mapIdx Prod.mk := by
  obtain ⟨g, hg, -, hlinks, -⟩ := Graph.link_soundness session
  exact ⟨g, hg, hlinks⟩

end AudioGraph
