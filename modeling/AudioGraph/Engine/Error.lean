namespace AudioGraph

abbrev NodeId := Nat

abbrev PortIdx := Nat

abbrev LinkId := Nat

inductive GraphError where
  | cycleDetected (nodes : List NodeId)
  | portNotFound (node : NodeId) (port : PortIdx)
  | portDirectionMismatch (src dst : NodeId × PortIdx)
  | portIncompatible (src dst : NodeId × PortIdx)
  | notCompiled
  | alreadyCompiled
  | nodeNotFound (node : NodeId)
deriving DecidableEq, Repr

inductive FlushError where
  | ringFull (frames : Nat)
  | notFlushable (node : NodeId)
  | nodeNotFound (node : NodeId)
deriving DecidableEq, Repr

end AudioGraph
