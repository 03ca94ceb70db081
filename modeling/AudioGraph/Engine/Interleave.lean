import AudioGraph.Engine.Worker
import AudioGraph.Foundation.Weave

namespace AudioGraph

open Weave

inductive WorkerAct where
  | push (source : NodeId) (frame : AudioFrame)
  | pop (sink : NodeId)

def WorkerAct.node : WorkerAct → NodeId
  | .push source _ => source
  | .pop sink => sink

variable [AudioCore]

inductive Job where
  | cycle (ctx : ProcessContext)
  | flush (count : Nat) (firstErr : Option FlushError)

def Job.result : Job → Outcome
  | .cycle ctx => .cycled ctx (.ok ())
  | .flush count firstErr => .flushedAll count firstErr

structure Pending where
  rest : List NodeId
  job : Job

variable {Q R P S : Type}

def WorkerAct.act : WorkerAct → Act Q R
  | .push source frame => .push source frame
  | .pop sink => .pop sink

inductive Slice (Q R : Type) where
  | start (op : Op (DynNode Q) (DynSink R))
  | round
  | finish
  | worker (a : WorkerAct)
  | readInput (node : NodeId) (port : PortIdx)
  | readOutput (node : NodeId) (port : PortIdx)

inductive Sliced where
  | started
  | turned
  | returned (outcome : Outcome)
  | worked (seen : Seen)
  | read (seen : Seen)
  | idle

namespace Graph

variable [AudioNode P] [SinkNode S]

def flushAt (g : Graph P S) (count : Nat) (firstErr : Option FlushError) (id : NodeId) :
    Graph P S × Nat × Option FlushError :=
  match g.scratch.nodes[id]? with
  | some (.sink n) =>
    let flushed := flush n
    let firstErr := match flushed.2 with
      | .error e => if firstErr.isNone then some e else firstErr
      | .ok () => firstErr
    ({ g with scratch.nodes := g.scratch.nodes.set id (.sink flushed.1) }, count + 1, firstErr)
  | _ => (g, count, firstErr)

def task (s : Graph P S × Job) (id : NodeId) : Graph P S × Job :=
  match s.2 with
  | .cycle ctx =>
    let st := visit s.1.edges (s.1.scratch, ctx) id
    ({ s.1 with scratch := st.1 }, .cycle st.2)
  | .flush count firstErr =>
    let r := s.1.flushAt count firstErr id
    (r.1, .flush r.2.1 r.2.2)

-- The calls that hold the graph for longer than one node; the others touch no ring or one.
def opens (g : Graph P S) : Op P S → Option Pending
  | .processCycle ctx => if g.compiled then some ⟨g.executionOrder, .cycle ctx⟩ else none
  | .flushSinks => some ⟨List.range g.nodeCount, .flush 0 none⟩
  | _ => none

end Graph

structure Interleaved (Q R : Type) where
  graph : Graph (DynNode Q) (DynSink R)
  pending : Option Pending

namespace Interleaved

variable [AudioNode Q] [SinkNode R]

def slice (t : Interleaved Q R) : Slice Q R → Interleaved Q R × Sliced
  | .start op =>
    match t.pending with
    | some _ => (t, .idle)
    | none =>
      match t.graph.opens op with
      | some pending => (⟨t.graph, some pending⟩, .started)
      | none => let r := t.graph.step op; (⟨r.1, none⟩, .returned r.2)
  | .round =>
    match t.pending with
    | some ⟨id :: rest, job⟩ =>
      let s := Graph.task (t.graph, job) id
      (⟨s.1, some ⟨rest, s.2⟩⟩, .turned)
    | _ => (t, .idle)
  | .finish =>
    match t.pending with
    | some ⟨[], job⟩ => (⟨t.graph, none⟩, .returned job.result)
    | _ => (t, .idle)
  | .worker a => let r := t.graph.act a.act; (⟨r.1, t.pending⟩, .worked r.2)
  | .readInput node port =>
    match t.pending with
    | some _ => (t, .idle)
    | none => (t, .read (.read (t.graph.readInput node port)))
  | .readOutput node port =>
    match t.pending with
    | some _ => (t, .idle)
    | none => (t, .read (.read (t.graph.readOutput node port)))

def run (t : Interleaved Q R) (slices : List (Slice Q R)) : Interleaved Q R × List Sliced :=
  Transition.run slice t slices

end Interleaved

end AudioGraph
