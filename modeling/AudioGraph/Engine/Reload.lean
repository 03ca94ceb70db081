import AudioGraph.Engine.Graph
import AudioGraph.Foundation.Transition

namespace AudioGraph

variable [AudioCore]

-- A call of `process_cycle` after its load; its guard keeps the loaded graph alive.
structure InFlight where
  graph : Nat
  rest : List NodeId
  ctx : ProcessContext

structure Return where
  graph : Nat
  ctx : ProcessContext
  result : Except GraphError Unit

-- Every graph that was ever installed, oldest first; `inner` points to the last one.
structure RtHandle (P S : Type) where
  graphs : List (Graph P S)
  cycle : Option InFlight

inductive Tick (P S : Type) where
  | install (graph : Graph P S)
  | load (ctx : ProcessContext)
  | visit
  | finish

inductive Ticked where
  | installed
  | loaded (graph : Nat)
  | visited
  | returned (r : Return)
  | idle

namespace RtHandle

variable {P S : Type}

def new (graph : Graph P S) : RtHandle P S := ⟨[graph], none⟩

def install (h : RtHandle P S) (graph : Graph P S) : RtHandle P S :=
  { h with graphs := h.graphs ++ [graph] }

def current (h : RtHandle P S) : Nat := h.graphs.length - 1

variable [AudioNode P] [SinkNode S]

-- The control thread installs, the other steps are those of the one real-time thread.
def tick (h : RtHandle P S) : Tick P S → RtHandle P S × Ticked
  | .install graph => (h.install graph, .installed)
  | .load ctx =>
    match h.cycle, h.graphs[h.current]? with
    | none, some g =>
      let order := if g.compiled then g.executionOrder else []
      ({ h with cycle := some ⟨h.current, order, ctx⟩ }, .loaded h.current)
    | _, _ => (h, .idle)
  | .visit =>
    match h.cycle with
    | some ⟨k, n :: rest, ctx⟩ =>
      match h.graphs[k]? with
      | some g =>
        let st := visit g.edges (g.scratch, ctx) n
        (⟨h.graphs.set k { g with scratch := st.1 }, some ⟨k, rest, st.2⟩⟩, .visited)
      | none => (h, .idle)
    | _ => (h, .idle)
  | .finish =>
    match h.cycle with
    | some ⟨k, [], ctx⟩ =>
      match h.graphs[k]? with
      | some g =>
        let result := if g.compiled then .ok () else .error .notCompiled
        ({ h with cycle := none }, .returned ⟨k, ctx, result⟩)
      | none => (h, .idle)
    | _ => (h, .idle)

def run (h : RtHandle P S) (ticks : List (Tick P S)) : RtHandle P S × List Ticked :=
  Transition.run tick h ticks

section Tick

variable {h : RtHandle P S} {g : Graph P S} {k : Nat} {n : NodeId} {rest : List NodeId}
  {ctx : ProcessContext}

theorem tick_load (hidle : h.cycle = none) (hat : h.graphs[h.current]? = some g) :
    h.tick (.load ctx) =
      ({ h with cycle := some ⟨h.current, if g.compiled then g.executionOrder else [], ctx⟩ },
        .loaded h.current) := by
  simp [tick, hidle, hat]

theorem tick_load_busy {c : InFlight} (hbusy : h.cycle = some c) :
    h.tick (.load ctx) = (h, .idle) := by
  simp [tick, hbusy]

theorem tick_visit (hcycle : h.cycle = some ⟨k, n :: rest, ctx⟩) (hat : h.graphs[k]? = some g) :
    h.tick .visit =
      (⟨h.graphs.set k { g with scratch := (visit g.edges (g.scratch, ctx) n).1 },
        some ⟨k, rest, (visit g.edges (g.scratch, ctx) n).2⟩⟩, .visited) := by
  simp [tick, hcycle, hat]

theorem tick_visit_done (hcycle : h.cycle = some ⟨k, [], ctx⟩) :
    h.tick .visit = (h, .idle) := by
  simp [tick, hcycle]

theorem tick_finish (hcycle : h.cycle = some ⟨k, [], ctx⟩) (hat : h.graphs[k]? = some g) :
    h.tick .finish =
      ({ h with cycle := none },
        .returned ⟨k, ctx, if g.compiled then .ok () else .error .notCompiled⟩) := by
  simp [tick, hcycle, hat]

end Tick

end RtHandle

end AudioGraph
