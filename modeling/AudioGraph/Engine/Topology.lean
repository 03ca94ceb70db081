import AudioGraph.Engine.Error

namespace AudioGraph

structure Edge where
  src : NodeId × PortIdx
  dst : NodeId × PortIdx
deriving DecidableEq, Repr

namespace TopologicalSort

def degree (inDegree : List Nat) (n : NodeId) : Nat := inDegree.getD n 0

def countInDegree (numNodes : Nat) (edges : List Edge) : List Nat :=
  edges.foldl
    (fun inDegree edge =>
      if edge.dst.1 < numNodes then inDegree.set edge.dst.1 (degree inDegree edge.dst.1 + 1)
      else inDegree)
    (List.replicate numNodes 0)

def relax (numNodes : Nat) (n : NodeId) (s : List Nat × List NodeId) (edge : Edge) :
    List Nat × List NodeId :=
  if edge.src.1 = n ∧ edge.dst.1 < numNodes then
    let idx := edge.dst.1
    if 0 < degree s.1 idx then
      let inDegree := s.1.set idx (degree s.1 idx - 1)
      if degree inDegree idx = 0 then (inDegree, s.2 ++ [idx]) else (inDegree, s.2)
    else s
  else s

structure Kahn where
  inDegree : List Nat
  queue : List NodeId
  order : List NodeId
deriving DecidableEq

def pop (numNodes : Nat) (edges : List Edge) (s : Kahn) : Kahn :=
  match s.queue with
  | [] => s
  | n :: queue =>
    let r := edges.foldl (relax numNodes n) (s.inDegree, queue)
    { inDegree := r.1, queue := r.2, order := s.order ++ [n] }

-- `while let Some(n) = queue.pop_front()`, cut off after `fuel` pops.
def drain (numNodes : Nat) (edges : List Edge) : Nat → Kahn → Kahn
  | 0, s => s
  | fuel + 1, s => drain numNodes edges fuel (pop numNodes edges s)

def start (numNodes : Nat) (edges : List Edge) : Kahn :=
  let inDegree := countInDegree numNodes edges
  { inDegree := inDegree
    queue := (List.range numNodes).filter (fun n => degree inDegree n = 0)
    order := [] }

end TopologicalSort

open TopologicalSort in
def topologicalSort (numNodes : Nat) (edges : List Edge) : Except (List NodeId) (List NodeId) :=
  let s := drain numNodes edges numNodes (start numNodes edges)
  if s.order.length = numNodes then .ok s.order
  else .error ((List.range numNodes).filter (fun n => 0 < degree s.inDegree n))

end AudioGraph
