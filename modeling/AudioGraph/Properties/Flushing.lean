import AudioGraph.Engine.Worker
import AudioGraph.Properties.Mirror
import AudioGraph.Properties.Running

namespace AudioGraph

open BoundedFifo Pointwise

section

variable [AudioCore] {Q R : Type}

namespace Act

def drains : Act Q R → Bool
  | .call .flushSinks | .call (.flushSink _) | .pop _ => true
  | _ => false

end Act

structure RingSink.Enters (n n' : RingSink) (result : Except FlushError Unit) : Prop where
  inPort : n'.inPort = n.inPort
  stash : n'.stash = n.stash
  capacity : n'.producer.capacity = n.producer.capacity
  frames : n'.producer.frames =
    if n.producer.frames.length < n.producer.capacity then n.producer.frames ++ [n.stash]
    else n.producer.frames
  result : result =
    if n.producer.frames.length < n.producer.capacity then .ok () else .error (.ringFull 1)

omit [AudioCore] in
theorem RingSink.flush_enters (n : RingSink) : n.Enters n.flush.1 n.flush.2 := by
  rcases n.flush_cases with ⟨ring, hpush, heq⟩ | ⟨hfull, heq⟩
  · have hroom : n.producer.frames.length < n.producer.capacity := by
      by_contra hlt
      simp [RingBuffer.push, hlt] at hpush
    obtain ⟨hcap, hframes⟩ := RingBuffer.push_eq_some hpush
    rw [heq]
    exact ⟨rfl, rfl, hcap, by rw [if_pos hroom]; exact hframes, by rw [if_pos hroom]⟩
  · have hroom : ¬ n.producer.frames.length < n.producer.capacity := by
      rw [(RingBuffer.push_eq_none_iff _ _).mp hfull]
      exact Nat.lt_irrefl _
    rw [heq]
    exact ⟨rfl, rfl, rfl, by rw [if_neg hroom], by rw [if_neg hroom]⟩

inductive SameButRing : NodeSlot (DynNode Q) (DynSink R) → NodeSlot (DynNode Q) (DynSink R) → Prop
  | plain (n : DynNode Q) : SameButRing (.plain n) (.plain n)
  | sink {n n' : RingSink} (inPort : n'.inPort = n.inPort) (stash : n'.stash = n.stash)
      (capacity : n'.producer.capacity = n.producer.capacity) :
      SameButRing (.sink (.ringSink n)) (.sink (.ringSink n'))

variable [AudioNode Q] [SinkNode R]

theorem SameButRing.simulates : Simulates (SameButRing (Q := Q) (R := R)) where
  node n n' ctx i o h := by
    cases h with
    | plain n => exact .plain _
    | sink hport hstash hcap =>
      cases i with
      | nil => exact .sink hport hstash hcap
      | cons inp rest => exact .sink hport (congrArg (·.copyFrom inp) hstash) hcap
  outputs n n' ctx i o h := by
    cases h with
    | plain n => rfl
    | sink _ _ _ => cases i <;> rfl
  ctx n n' ctx i o h := by
    cases h with
    | plain n => rfl
    | sink _ _ _ => cases i <;> rfl

omit [AudioNode Q] in
theorem SameButRing.flushed {n n' : NodeSlot (DynNode Q) (DynSink R)} (h : SameButRing n n') :
    SameButRing n.flushed n' := by
  cases h with
  | plain n => exact .plain n
  | @sink n n' hport hstash hcap =>
    change SameButRing (.sink (.ringSink n.flush.1)) _
    unfold RingSink.flush
    split
    · rename_i producer hpush
      exact .sink hport hstash (hcap.trans (RingBuffer.push_eq_some hpush).1.symm)
    · exact .sink hport hstash hcap

namespace Graph

variable {g g' : Graph (DynNode Q) (DynSink R)}

omit [AudioCore] [AudioNode Q] [SinkNode R] in
theorem sinks_same (hsinks : ∀ s, .sink s ∈ g.scratch.nodes → ∃ n, s = .ringSink n) :
    Mirror SameButRing g g := by
  refine ⟨rfl, rfl, rfl, List.forall₂_same.mpr fun slot hslot => ?_, rfl, rfl⟩
  cases slot with
  | plain n => exact .plain n
  | sink s =>
    obtain ⟨n, rfl⟩ := hsinks s hslot
    exact .sink rfl rfl rfl

omit [AudioNode Q] in
theorem Mirror.flushSinks (h : Mirror SameButRing g g') :
    Mirror SameButRing g.flushSinks.1 g' := by
  rw [flushSinks_eq]
  exact h.setNodes (List.forall₂_map_left_iff.mpr (h.scratch.nodes.imp fun _ _ hab => hab.flushed))

omit [AudioNode Q] in
theorem Mirror.flushSink (h : Mirror SameButRing g g') (node : NodeId) :
    Mirror SameButRing (g.flushSink node).1 g' := by
  rw [flushSink_eq]
  exact h.setNodes (forall₂_modify_left h.scratch.nodes fun _ _ _ hab => hab.flushed)

omit [AudioCore] [AudioNode Q] [SinkNode R] in
theorem Mirror.popSink (h : Mirror SameButRing g g') (sink : NodeId) :
    Mirror SameButRing (g.popSink sink).1 g' := by
  rcases popSink_cases g sink with heq | ⟨n, frame, ring, hn, hpop, heq⟩
  · rw [heq]
    exact h
  · rw [heq]
    refine h.setNodes (forall₂_modify_left h.scratch.nodes fun a b ha hab => ?_)
    rw [hn, Option.some.injEq] at ha
    subst ha
    cases hab with
    | sink hport hstash hcap =>
      exact .sink hport hstash (hcap.trans (RingBuffer.pop_eq_some hpop).1.symm)

omit [AudioCore] [AudioNode Q] [SinkNode R] in
theorem Mirror.pushSource (h : Mirror SameButRing g g') (source : NodeId) (frame : AudioFrame) :
    Mirror SameButRing (g.pushSource source frame).1 (g'.pushSource source frame).1 ∧
      (g'.pushSource source frame).2 = (g.pushSource source frame).2 := by
  have hat : g'.sourceAt source = g.sourceAt source := by
    unfold sourceAt
    rcases forall₂_getElem? h.scratch.nodes source with ⟨hn, hn'⟩ | ⟨a, b, hn, hn', hab⟩
    · rw [hn, hn']
    · rw [hn, hn']
      cases hab <;> rfl
  unfold Graph.pushSource
  rw [hat]
  split
  · refine ⟨h.setNodes (forall₂_modify_both h.scratch.nodes fun a b _ hab => ?_), rfl⟩
    cases hab with
    | plain n => cases n <;> exact .plain _
    | sink hport hstash hcap => exact .sink hport hstash hcap
  · exact ⟨h, rfl⟩

structure Sight where
  seen : Seen
  inputs : List (List AudioFrame)
  outputs : List (List AudioFrame)

def watch (g : Graph (DynNode Q) (DynSink R)) (a : Act Q R) :
    Graph (DynNode Q) (DynSink R) × Sight :=
  let r := g.act a
  (r.1, ⟨r.2, r.1.scratch.inputScratch, r.1.scratch.outputScratch⟩)

theorem Mirror.watch_drain (h : Mirror SameButRing g g') {a : Act Q R} (ha : a.drains = true) :
    Mirror SameButRing (g.watch a).1 g' := by
  cases a with
  | call op =>
    cases op with
    | flushSinks => exact h.flushSinks
    | flushSink node => exact h.flushSink node
    | _ => cases ha
  | pop sink => exact h.popSink sink
  | _ => cases ha

theorem Mirror.act_same (h : Mirror SameButRing g g') {a : Act Q R} (hplays : a.plays)
    (ha : a.drains = false) :
    Mirror SameButRing (g.act a).1 (g'.act a).1 ∧ (g'.act a).2 = (g.act a).2 := by
  cases a with
  | call op =>
    cases op with
    | feed node port src => exact ⟨h.feed node port src, rfl⟩
    | processCycle ctx =>
      obtain ⟨hcycle, hout⟩ := h.processCycle SameButRing.simulates ctx
      exact ⟨hcycle, by simp only [act, Graph.step, hout]⟩
    | flushSinks => cases ha
    | flushSink node => cases ha
    | _ => cases hplays
  | push source frame =>
    obtain ⟨hpush, hout⟩ := h.pushSource source frame
    exact ⟨hpush, by simp only [act, hout]⟩
  | pop sink => cases ha
  | readInput node port => exact ⟨h, congrArg Seen.read (h.readInput node port)⟩
  | readOutput node port => exact ⟨h, congrArg Seen.read (h.readOutput node port)⟩

theorem Mirror.watch_same (h : Mirror SameButRing g g') {a : Act Q R} (hplays : a.plays)
    (ha : a.drains = false) :
    Mirror SameButRing (g.watch a).1 (g'.watch a).1 ∧ (g.watch a).2 = (g'.watch a).2 := by
  obtain ⟨hmirror, hseen⟩ := h.act_same hplays ha
  refine ⟨hmirror, ?_⟩
  simp only [watch, hseen, hmirror.scratch.inputs, hmirror.scratch.outputs]

theorem flushing_invisible (g : Graph (DynNode Q) (DynSink R))
    (hsinks : ∀ s, .sink s ∈ g.scratch.nodes → ∃ n, s = .ringSink n) (acts : List (Act Q R))
    (hacts : ∀ a ∈ acts, a.plays) :
    let full := Transition.run watch g acts
    let bare := Transition.run watch g (acts.filter fun a => !a.drains)
    List.Forall₂ SameButRing full.1.scratch.nodes bare.1.scratch.nodes ∧
      bare.1.scratch.inputScratch = full.1.scratch.inputScratch ∧
      bare.1.scratch.outputScratch = full.1.scratch.outputScratch ∧
      Transition.log (Transition.visible Act.drains) watch g acts = bare.2 := by
  have hvisible : ∀ (s t : Graph (DynNode Q) (DynSink R)) (a : Act Q R), a.plays →
      a.drains = false → Mirror SameButRing s t →
      Mirror SameButRing (s.watch a).1 (t.watch a).1 ∧ (s.watch a).2 = (t.watch a).2 :=
    fun _ _ _ hplays ha hs => hs.watch_same hplays ha
  obtain ⟨hend, hsame⟩ := Transition.run_erase (fun _ _ _ _ ha hs => Mirror.watch_drain hs ha)
    hvisible hacts (sinks_same hsinks)
  rw [List.forall₂_eq_eq_eq] at hsame
  exact ⟨hend.scratch.nodes, hend.scratch.inputs, hend.scratch.outputs, hsame⟩

end Graph

end

section

variable [AudioCore] {P S : Type} [SinkNode S]

def flushResult (id : NodeId) : Option (NodeSlot P S) → Except FlushError Unit
  | some (.sink n) => (flush n).2
  | some (.plain _) => .error (.notFlushable id)
  | none => .error (.nodeNotFound id)

namespace Graph

def isSink (g : Graph P S) (id : NodeId) : Bool := g.scratch.nodes[id]?.any NodeSlot.isSink

theorem flushSink_result (g : Graph P S) (id : NodeId) :
    (g.flushSink id).2 = flushResult id g.scratch.nodes[id]? := by
  unfold flushSink
  split <;> rename_i h <;> rw [h] <;> rfl

def sinkErrors (g : Graph P S) (ids : List NodeId) : List FlushError :=
  Transition.log
    (fun id result => match result with
      | .error e => if g.isSink id then [e] else []
      | .ok () => [])
    flushSink g ids

theorem run_flushSink {ids : List NodeId} (hd : ids.Nodup) (g : Graph P S) :
    (Transition.run flushSink g ids).2 =
        ids.map (fun id => flushResult id g.scratch.nodes[id]?) ∧
      ∀ n : NodeId, (Transition.run flushSink g ids).1.scratch.nodes[n]? =
        if n ∈ ids then g.scratch.nodes[n]?.map NodeSlot.flushed else g.scratch.nodes[n]? := by
  refine Transition.run_each (fun g n => g.scratch.nodes[n]?) (fun s id n => ?_)
    flushSink_result hd g
  rw [flushSink_nodes, List.getElem?_modify]
  by_cases hn : n = id
  · simp [hn]
  · simp [hn, Ne.symm hn]

theorem run_flushSink_frame (g : Graph P S) (ids : List NodeId) :
    (Transition.run flushSink g ids).1 =
      { g with scratch.nodes := (Transition.run flushSink g ids).1.scratch.nodes } := by
  have hstep : ∀ (s : Graph P S) (id : NodeId), s = { g with scratch.nodes := s.scratch.nodes } →
      (s.flushSink id).1 = { g with scratch.nodes := (s.flushSink id).1.scratch.nodes } := by
    intro s id hs
    rw [flushSink_eq, hs]
  exact Transition.run_always hstep rfl ids

theorem flushSinks_run (g : Graph P S) :
    g.flushSinks.1 = (Transition.run flushSink g (List.range g.nodeCount)).1 := by
  rw [run_flushSink_frame, flushSinks_eq]
  have hnodes : g.scratch.nodes.map NodeSlot.flushed =
      (Transition.run flushSink g (List.range g.nodeCount)).1.scratch.nodes := by
    refine List.ext_getElem? fun n => ?_
    rw [(run_flushSink List.nodup_range g).2, List.getElem?_map]
    by_cases hn : n ∈ List.range g.nodeCount
    · rw [if_pos hn]
    · have hnone : g.scratch.nodes[n]? = none := by simpa [nodeCount] using hn
      rw [if_neg hn, hnone, Option.map_none]
  rw [hnodes]

omit [AudioCore] [SinkNode S] in
theorem nodes_by_id (g : Graph P S) :
    (List.range g.nodeCount).map (fun id => g.scratch.nodes[id]?) = g.scratch.nodes.map some := by
  refine List.ext_getElem (by simp [nodeCount]) fun n _ _ => ?_
  simp

theorem flushSinks_count (g : Graph P S) :
    g.flushSinks.2.1 = (List.range g.nodeCount).countP g.isSink := by
  have hids : (List.range g.nodeCount).countP g.isSink =
      ((List.range g.nodeCount).map fun id => g.scratch.nodes[id]?).countP
        (·.any NodeSlot.isSink) := by
    rw [List.countP_map]
    rfl
  rw [flushSinks_eq, hids, nodes_by_id, List.countP_map]
  rfl

theorem sinkErrors_eq (g : Graph P S) {ids : List NodeId} (hd : ids.Nodup) :
    g.sinkErrors ids =
      ids.flatMap fun id => (g.scratch.nodes[id]?.bind NodeSlot.flushError).toList := by
  have hzip : ids.zip (ids.map fun id => flushResult id g.scratch.nodes[id]?) =
      ids.map fun id => (id, flushResult id g.scratch.nodes[id]?) := by
    rw [← List.zip_map', List.map_id']
  rw [sinkErrors, Transition.log, (run_flushSink hd g).1, hzip, List.flatMap_map]
  refine List.flatMap_congr fun id _ => ?_
  cases hn : g.scratch.nodes[id]? with
  | none => simp [flushResult, isSink, hn]
  | some slot =>
    cases slot with
    | plain n => simp [flushResult, isSink, hn]
    | sink n =>
      cases hf : (flush n).2 <;> simp [flushResult, isSink, hn, NodeSlot.flushError, hf]

theorem run_flushSink_at {g : Graph P S} {id : NodeId} {slot : NodeSlot P S}
    (h : g.scratch.nodes[id]? = some slot) :
    (Transition.run flushSink g (List.range g.nodeCount)).2[id]? =
        some (flushResult id (some slot)) ∧
      (Transition.run flushSink g (List.range g.nodeCount)).1.scratch.nodes[id]? =
        some slot.flushed := by
  have hid : id < g.nodeCount := (List.getElem?_eq_some_iff.mp h).1
  obtain ⟨houts, hnodes⟩ := run_flushSink List.nodup_range g
  constructor
  · rw [houts, List.getElem?_map, List.getElem?_range hid, Option.map_some, h]
  · rw [hnodes, if_pos (List.mem_range.mpr hid), h, Option.map_some]

theorem flushSinks_firstErr (g : Graph P S) :
    g.flushSinks.2.2 = (g.sinkErrors (List.range g.nodeCount)).head? := by
  have hids : ((List.range g.nodeCount).findSome? fun id =>
      g.scratch.nodes[id]?.bind NodeSlot.flushError) =
        ((List.range g.nodeCount).map fun id => g.scratch.nodes[id]?).findSome?
          (·.bind NodeSlot.flushError) := by
    rw [List.findSome?_map]
    rfl
  rw [flushSinks_eq, sinkErrors_eq g List.nodup_range, List.head?_flatMap]
  simp only [Option.head?_toList]
  rw [hids, nodes_by_id, List.findSome?_map]
  rfl

theorem flushSinks_each {R : Type} [SinkNode R] (g : Graph P (DynSink R)) :
    let each := Transition.run flushSink g (List.range g.nodeCount)
    g.flushSinks.1 = each.1 ∧
      g.flushSinks.2.1 = (List.range g.nodeCount).countP g.isSink ∧
      g.flushSinks.2.2 = (g.sinkErrors (List.range g.nodeCount)).head? ∧
      (∀ (id : NodeId) n, g.scratch.nodes[id]? = some (.sink n) →
        each.2[id]? = some (flush n).2 ∧
          each.1.scratch.nodes[id]? = some (.sink (flush n).1)) ∧
      (∀ (id : NodeId) n, g.scratch.nodes[id]? = some (.plain n) →
        each.1.scratch.nodes[id]? = some (.plain n)) ∧
      each.1 = { g with scratch.nodes := each.1.scratch.nodes } ∧
      ∀ (id : NodeId) n, g.scratch.nodes[id]? = some (.sink (.ringSink n)) →
        ∃ n' result, each.1.scratch.nodes[id]? = some (.sink (.ringSink n')) ∧
          each.2[id]? = some result ∧ n.Enters n' result := by
  refine ⟨g.flushSinks_run, g.flushSinks_count, g.flushSinks_firstErr, fun id n h => ?_,
    fun id n h => ?_, g.run_flushSink_frame _, fun id n h => ?_⟩
  · exact run_flushSink_at h
  · exact (run_flushSink_at h).2
  · obtain ⟨hresult, hnode⟩ := run_flushSink_at h
    exact ⟨n.flush.1, n.flush.2, hnode, hresult, n.flush_enters⟩

end Graph

end

namespace Sample

open PlainCore

def piped : Graph (DynNode RingSource) (DynSink RingSink) :=
  (Graph.new.run [.addNode (.ringSource source), .addSink (.ringSink sink), .link (0, 0) (1, 0),
    .compile config]).1

def drained : List (Act RingSource RingSink) :=
  [.call (.processCycle ()), .call .flushSinks, .call (.flushSink 1), .pop 1,
    .call (.processCycle ()), .readInput 1 0]

end Sample

open PlainCore Sample in
theorem flushing_invisible_piped :
    Transition.log (Transition.visible Act.drains) Graph.watch piped drained =
      (Transition.run Graph.watch piped (drained.filter fun a => !a.drains)).2 := by
  have hsinks : ∀ s, .sink s ∈ piped.scratch.nodes → ∃ n, s = .ringSink n := by
    intro s hs
    have hnodes : piped.scratch.nodes = [.plain (.ringSource source), .sink (.ringSink sink)] := rfl
    simp only [hnodes, List.mem_cons, List.not_mem_nil, or_false, reduceCtorEq, false_or,
      NodeSlot.sink.injEq] at hs
    exact ⟨sink, hs⟩
  exact (Graph.flushing_invisible piped hsinks drained
    (by simp [drained, Act.plays, Op.runs])).2.2.2

end AudioGraph
