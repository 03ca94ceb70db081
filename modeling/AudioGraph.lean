import AudioGraph.Foundation.BoundedFifo
import AudioGraph.Foundation.Dependency
import AudioGraph.Foundation.Transition
import AudioGraph.Foundation.Footprint
import AudioGraph.Foundation.Handoff
import AudioGraph.Foundation.KeyedLog
import AudioGraph.Foundation.Layering
import AudioGraph.Foundation.Occupancy
import AudioGraph.Foundation.Overlay
import AudioGraph.Foundation.Pointwise
import AudioGraph.Foundation.RefCount
import AudioGraph.Foundation.Relating
import AudioGraph.Foundation.Reorder
import AudioGraph.Foundation.Schedule
import AudioGraph.Foundation.Weave
import AudioGraph.Engine.Error
import AudioGraph.Engine.Frame
import AudioGraph.Engine.Node
import AudioGraph.Engine.Ring
import AudioGraph.Engine.Topology
import AudioGraph.Engine.Snapshot
import AudioGraph.Engine.Graph
import AudioGraph.Engine.Run
import AudioGraph.Engine.Bridge
import AudioGraph.Engine.Worker
import AudioGraph.Engine.Checked
import AudioGraph.Engine.Distributed
import AudioGraph.Engine.Interleave
import AudioGraph.Engine.Partition
import AudioGraph.Engine.Pipeline
import AudioGraph.Engine.Reload
import AudioGraph.Engine.Reclaim
import AudioGraph.Properties.Shape
import AudioGraph.Properties.Sorting
import AudioGraph.Properties.Cells
import AudioGraph.Properties.Wiring
import AudioGraph.Properties.Running
import AudioGraph.Properties.Dataflow
import AudioGraph.Properties.Bridge
import AudioGraph.Properties.Compilation
import AudioGraph.Properties.Events
import AudioGraph.Properties.Mirror
import AudioGraph.Properties.Rebuild
import AudioGraph.Properties.Links
import AudioGraph.Properties.Buffers
import AudioGraph.Properties.Confluence
import AudioGraph.Properties.Demotion
import AudioGraph.Properties.Diagnosis
import AudioGraph.Properties.Log
import AudioGraph.Properties.Replay
import AudioGraph.Properties.Restore
import AudioGraph.Properties.Edit
import AudioGraph.Properties.Failover
import AudioGraph.Properties.Failure
import AudioGraph.Properties.Reload
import AudioGraph.Properties.Fixpoint
import AudioGraph.Properties.Flushing
import AudioGraph.Properties.Hints
import AudioGraph.Properties.Rejection
import AudioGraph.Properties.Repair
import AudioGraph.Properties.Interchange
import AudioGraph.Properties.Isolation
import AudioGraph.Properties.Layers
import AudioGraph.Properties.Metadata
import AudioGraph.Properties.Parametric
import AudioGraph.Properties.Partition
import AudioGraph.Properties.Planes
import AudioGraph.Properties.Serial
import AudioGraph.Properties.Parts
import AudioGraph.Properties.Rounds
import AudioGraph.Properties.Pipeline
import AudioGraph.Properties.Reclaim
import AudioGraph.Properties.Renaming
import AudioGraph.Properties.Underrun
import AudioGraph.Properties.Xruns
