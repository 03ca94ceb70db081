import AudioGraph.Engine.Reload
import AudioGraph.Foundation.RefCount

namespace AudioGraph

open RefCount

variable [AudioCore]

-- The handle with the `Arc`s it holds: the swapped pointer, the cycle's guard, and the guards that
-- `graph` has given out.
structure ArcHandle (P S : Type) where
  heap : Heap (Graph P S)
  inner : Nat
  cycle : Option InFlight
  guards : List Nat

inductive Swap (P S : Type) where
  | tick (t : Tick P S)
  | graph
  | readOutput (guard : Nat) (node : NodeId) (port : PortIdx)
  | drop (guard : Nat)

inductive Swapped where
  | ticked (t : Ticked) (freed : Option Nat)
  | guarded (graph : Nat)
  | read (frame : Option AudioFrame)
  | dropped (freed : Option Nat)
  | idle
  | fault

namespace ArcHandle

variable {P S : Type}

def new (graph : Graph P S) : ArcHandle P S := ⟨alloc [] graph, 0, none, []⟩

def install (h : ArcHandle P S) (graph : Graph P S) : ArcHandle P S × Option Nat :=
  let stored := alloc h.heap graph
  let r := release stored h.inner
  ({ h with heap := r.1, inner := h.heap.length }, freedIf h.inner r.2)

variable [AudioNode P] [SinkNode S]

def tick (h : ArcHandle P S) : Tick P S → ArcHandle P S × Swapped
  | .install graph => let r := h.install graph; (r.1, .ticked .installed r.2)
  | .load ctx =>
    match h.cycle with
    | some _ => (h, .ticked .idle none)
    | none =>
      match cell h.heap h.inner with
      | none => (h, .fault)
      | some c =>
        let order := if c.value.compiled then c.value.executionOrder else []
        ({ h with heap := retain h.heap h.inner, cycle := some ⟨h.inner, order, ctx⟩ },
          .ticked (.loaded h.inner) none)
  | .visit =>
    match h.cycle with
    | some ⟨k, n :: rest, ctx⟩ =>
      match cell h.heap k with
      | none => (h, .fault)
      | some c =>
        let st := visit c.value.edges (c.value.scratch, ctx) n
        ({ h with
            heap := write h.heap k { c.value with scratch := st.1 }
            cycle := some ⟨k, rest, st.2⟩ }, .ticked .visited none)
    | _ => (h, .ticked .idle none)
  | .finish =>
    match h.cycle with
    | some ⟨k, [], ctx⟩ =>
      match cell h.heap k with
      | none => (h, .fault)
      | some c =>
        let result := if c.value.compiled then .ok () else .error .notCompiled
        let r := release h.heap k
        ({ h with heap := r.1, cycle := none },
          .ticked (.returned ⟨k, ctx, result⟩) (freedIf k r.2))
    | _ => (h, .ticked .idle none)

def step (h : ArcHandle P S) : Swap P S → ArcHandle P S × Swapped
  | .tick t => h.tick t
  | .graph =>
    match cell h.heap h.inner with
    | none => (h, .fault)
    | some _ =>
      ({ h with heap := retain h.heap h.inner, guards := h.guards ++ [h.inner] },
        .guarded h.inner)
  | .readOutput guard node port =>
    match h.guards[guard]? with
    | none => (h, .idle)
    | some k =>
      match cell h.heap k with
      | none => (h, .fault)
      | some c => (h, .read (c.value.readOutput node port))
  | .drop guard =>
    match h.guards[guard]? with
    | none => (h, .idle)
    | some k =>
      let r := release h.heap k
      ({ h with heap := r.1, guards := h.guards.eraseIdx guard }, .dropped (freedIf k r.2))

def run (h : ArcHandle P S) (swaps : List (Swap P S)) : ArcHandle P S × List Swapped :=
  Transition.run step h swaps

end ArcHandle

-- The same handle with a memory that never frees: what the references are there to look like.
structure LeakyHandle (P S : Type) where
  handle : RtHandle P S
  guards : List Nat

namespace LeakyHandle

variable {P S : Type}

def new (graph : Graph P S) : LeakyHandle P S := ⟨RtHandle.new graph, []⟩

variable [AudioNode P] [SinkNode S]

def step (h : LeakyHandle P S) : Swap P S → LeakyHandle P S × Swapped
  | .tick t => let r := h.handle.tick t; ({ h with handle := r.1 }, .ticked r.2 none)
  | .graph => ({ h with guards := h.guards ++ [h.handle.current] }, .guarded h.handle.current)
  | .readOutput guard node port =>
    match h.guards[guard]? with
    | none => (h, .idle)
    | some k => (h, .read ((h.handle.graphs[k]?).bind (·.readOutput node port)))
  | .drop guard =>
    match h.guards[guard]? with
    | none => (h, .idle)
    | some _ => ({ h with guards := h.guards.eraseIdx guard }, .dropped none)

def run (h : LeakyHandle P S) (swaps : List (Swap P S)) : LeakyHandle P S × List Swapped :=
  Transition.run step h swaps

end LeakyHandle

def Swapped.freed : Swapped → List Nat
  | .ticked _ freed => freed.toList
  | .dropped freed => freed.toList
  | _ => []

def Swapped.answer : Swapped → Swapped
  | .ticked t _ => .ticked t none
  | .dropped _ => .dropped none
  | s => s

end AudioGraph
