import AudioGraph.Engine.Interleave
import AudioGraph.Properties.Compilation

namespace AudioGraph

open BoundedFifo Weave

namespace Graph

variable {P S : Type}

def onNode (g : Graph P S) (id : NodeId) (f : NodeSlot P S → NodeSlot P S) : Graph P S :=
  { g with scratch.nodes := g.scratch.nodes.modify id f }

theorem onNode_other {g : Graph P S} {id m : NodeId} (h : id ≠ m)
    (f : NodeSlot P S → NodeSlot P S) :
    (g.onNode id f).scratch.nodes[m]? = g.scratch.nodes[m]? := by
  simp [onNode, h]

theorem modify_comm {α : Type} {i j : Nat} (h : i ≠ j) (f g : α → α) (l : List α) :
    (l.modify i f).modify j g = (l.modify j g).modify i f := by
  refine List.ext_getElem? fun m => ?_
  by_cases hi : i = m
  · subst hi
    simp [Ne.symm h]
  · simp [List.getElem?_modify, hi]

theorem modify_set {α : Type} {i j : Nat} (h : i ≠ j) (f : α → α) (x : α) (l : List α) :
    (l.modify i f).set j x = (l.set j x).modify i f := by
  refine List.ext_getElem? fun m => ?_
  by_cases hj : j = m
  · subst hj
    simp [List.getElem?_set, h]
  · simp [List.getElem?_modify, hj]

theorem modify_congr {α : Type} {l : List α} {i : Nat} {f g : α → α}
    (h : ∀ x, l[i]? = some x → f x = g x) : l.modify i f = l.modify i g := by
  refine List.ext_getElem? fun m => ?_
  by_cases hm : i = m
  · subst hm
    cases hx : l[i]? with
    | none => simp [hx]
    | some x => simp [hx, h x hx]
  · simp [hm]

theorem onNode_congr {g : Graph P S} {id : NodeId} {f f' : NodeSlot P S → NodeSlot P S}
    (h : ∀ slot, g.scratch.nodes[id]? = some slot → f slot = f' slot) :
    g.onNode id f = g.onNode id f' := by
  simp only [onNode, modify_congr h]

theorem onNode_fixed {g : Graph P S} {m : NodeId} {f : NodeSlot P S → NodeSlot P S}
    (h : ∀ slot, g.scratch.nodes[m]? = some slot → f slot = slot) : g.onNode m f = g := by
  have hid : g.onNode m f = g.onNode m id := onNode_congr h
  rw [hid, onNode, List.modify_id]

theorem onNode_comm {g : Graph P S} {i j : NodeId} (h : i ≠ j)
    (f f' : NodeSlot P S → NodeSlot P S) :
    (g.onNode i f).onNode j f' = (g.onNode j f').onNode i f := by
  simp only [onNode, modify_comm h]

end Graph

section Worker

variable {Q R : Type} [AudioCore]

def WorkerAct.serve : WorkerAct → NodeSlot (DynNode Q) (DynSink R) →
    NodeSlot (DynNode Q) (DynSink R) × Seen
  | .push _ frame, .plain (.ringSource n) =>
    match n.consumer.push frame with
    | some ring => (.plain (.ringSource { n with consumer := ring }), .pushed true)
    | none => (.plain (.ringSource n), .pushed false)
  | .push _ _, slot => (slot, .pushed false)
  | .pop _, .sink (.ringSink n) =>
    match n.producer.pop with
    | some (frame, ring) => (.sink (.ringSink { n with producer := ring }), .popped (some frame))
    | none => (.sink (.ringSink n), .popped none)
  | .pop _, slot => (slot, .popped none)

def WorkerAct.refused : WorkerAct → Seen
  | .push _ _ => .pushed false
  | .pop _ => .popped none

def WorkerAct.answer (a : WorkerAct) (slot : Option (NodeSlot (DynNode Q) (DynSink R))) : Seen :=
  match slot with
  | some slot => (a.serve slot).2
  | none => a.refused

namespace Graph

structure Serves (g : Graph (DynNode Q) (DynSink R)) (a : WorkerAct)
    (r : Graph (DynNode Q) (DynSink R) × Seen) : Prop where
  graph : r.1 = g.onNode a.node fun slot => (a.serve slot).1
  seen : r.2 = a.answer g.scratch.nodes[a.node]?

variable {g : Graph (DynNode Q) (DynSink R)} {a : WorkerAct}

theorem Serves.refused (h : ∀ slot, g.scratch.nodes[a.node]? = some slot →
    a.serve slot = (slot, a.refused)) : Serves g a (g, a.refused) where
  graph := (onNode_fixed fun slot hslot => by rw [h slot hslot]).symm
  seen := by
    cases hslot : g.scratch.nodes[a.node]? with
    | none => rfl
    | some slot => exact (congrArg Prod.snd (h slot hslot)).symm

theorem Serves.replaced {slot slot' : NodeSlot (DynNode Q) (DynSink R)} {seen : Seen}
    {f : NodeSlot (DynNode Q) (DynSink R) → NodeSlot (DynNode Q) (DynSink R)}
    (hslot : g.scratch.nodes[a.node]? = some slot) (hf : f slot = slot')
    (h : a.serve slot = (slot', seen)) : Serves g a (g.onNode a.node f, seen) where
  graph := onNode_congr fun x hx => by
    rw [hslot, Option.some.injEq] at hx
    rw [← hx, hf, h]
  seen := by
    rw [hslot]
    exact (congrArg Prod.snd h).symm

theorem pushSource_serves (g : Graph (DynNode Q) (DynSink R)) (source : NodeId)
    (frame : AudioFrame) :
    Serves g (.push source frame)
      ((g.pushSource source frame).1, .pushed (g.pushSource source frame).2) := by
  cases hring : (g.sourceAt source).bind (·.consumer.push frame) with
  | some ring =>
    obtain ⟨n, hn, hpush⟩ := Option.bind_eq_some_iff.mp hring
    have heq : g.pushSource source frame = (g.setConsumer source ring, true) := by
      simp [pushSource, hring]
    rw [heq]
    exact .replaced (a := .push source frame) (sourceAt_eq_some.mp hn) rfl
      (by simp [WorkerAct.serve, hpush])
  | none =>
    have heq : g.pushSource source frame = (g, false) := by simp [pushSource, hring]
    rw [heq]
    refine .refused (a := .push source frame) fun slot hslot => ?_
    cases slot with
    | sink n => rfl
    | plain n =>
      cases n with
      | ringSink n => rfl
      | other n => rfl
      | ringSource n =>
        have hat : g.sourceAt source = some n := sourceAt_eq_some.mpr hslot
        simp only [hat, Option.bind_some] at hring
        simp [WorkerAct.serve, hring, WorkerAct.refused]

theorem popSink_serves (g : Graph (DynNode Q) (DynSink R)) (sink : NodeId) :
    Serves g (.pop sink) ((g.popSink sink).1, .popped (g.popSink sink).2) := by
  cases hring : (g.sinkAt sink).bind (·.producer.pop) with
  | some popped =>
    obtain ⟨frame, ring⟩ := popped
    obtain ⟨n, hn, hpop⟩ := Option.bind_eq_some_iff.mp hring
    have heq : g.popSink sink = (g.setProducer sink ring, some frame) := by
      simp [popSink, hring]
    rw [heq]
    exact .replaced (a := .pop sink) (sinkAt_eq_some.mp hn) rfl (by simp [WorkerAct.serve, hpop])
  | none =>
    have heq : g.popSink sink = (g, none) := by simp [popSink, hring]
    rw [heq]
    refine .refused (a := .pop sink) fun slot hslot => ?_
    cases slot with
    | plain n => rfl
    | sink n =>
      cases n with
      | other n => rfl
      | ringSink n =>
        have hat : g.sinkAt sink = some n := sinkAt_eq_some.mpr hslot
        simp only [hat, Option.bind_some] at hring
        simp [WorkerAct.serve, hring, WorkerAct.refused]

variable [AudioNode Q] [SinkNode R]

theorem act_serves (g : Graph (DynNode Q) (DynSink R)) (a : WorkerAct) :
    Serves g a (g.act a.act) := by
  cases a with
  | push source frame => exact pushSource_serves g source frame
  | pop sink => exact popSink_serves g sink

theorem act_eq (g : Graph (DynNode Q) (DynSink R)) (a : WorkerAct) :
    g.act a.act =
      (g.onNode a.node fun slot => (a.serve slot).1, a.answer g.scratch.nodes[a.node]?) :=
  Prod.ext (act_serves g a).graph (act_serves g a).seen

theorem visit_modify (edges : List Edge) (s : GraphScratch (DynNode Q) (DynSink R))
    (ctx : ProcessContext) {id m : NodeId} (h : id ≠ m)
    (f : NodeSlot (DynNode Q) (DynSink R) → NodeSlot (DynNode Q) (DynSink R)) :
    visit edges ({ s with nodes := s.nodes.modify id f }, ctx) m =
      ({ (visit edges (s, ctx) m).1 with
          nodes := (visit edges (s, ctx) m).1.nodes.modify id f }, (visit edges (s, ctx) m).2) := by
  have hat : (s.nodes.modify id f)[m]? = s.nodes[m]? := by simp [h]
  let t : GraphScratch (DynNode Q) (DynSink R) := { s with nodes := s.nodes.modify id f }
  rcases visit_cases edges s ctx m with ⟨hin, heq⟩ | ⟨slots, hin, hmissing, heq⟩ |
    ⟨slots, outSlots, node, hin, hout, hnode, heq⟩
  · rw [heq]
    exact visit_absent (s := t) hin
  · rw [heq]
    exact visit_uncalled (s := t) hin (hmissing.imp_right hat.trans)
  · rw [heq]
    have hcalled : visit edges (t, ctx) m = _ := visit_called hin hout (hat.trans hnode)
    simp only [t, modify_set h] at hcalled
    exact hcalled

theorem visit_other (edges : List Edge) (s : GraphScratch (DynNode Q) (DynSink R))
    (ctx : ProcessContext) {id m : NodeId} (h : id ≠ m) :
    (visit edges (s, ctx) m).1.nodes[id]? = s.nodes[id]? := by
  rcases visit_cases edges s ctx m with ⟨-, heq⟩ | ⟨slots, -, -, heq⟩ |
    ⟨slots, outSlots, node, -, -, -, heq⟩
  · rw [heq]
  · rw [heq]
  · rw [heq]
    exact List.getElem?_set_ne (Ne.symm h)

-- A round of a loop reads and writes its own node, and what no worker touches.
theorem task_onNode {g : Graph (DynNode Q) (DynSink R)} {id m : NodeId} (h : id ≠ m)
    (f : NodeSlot (DynNode Q) (DynSink R) → NodeSlot (DynNode Q) (DynSink R)) (job : Job) :
    task (g.onNode id f, job) m = ((task (g, job) m).1.onNode id f, (task (g, job) m).2) := by
  have hat := onNode_other (g := g) h f
  cases job with
  | cycle ctx =>
    have hvisit := visit_modify g.edges g.scratch ctx h f
    simp only [task, onNode, hvisit]
  | flush count firstErr =>
    simp only [task, flushAt, hat]
    split
    · simp [onNode, modify_set h]
    · rfl

theorem task_other {g : Graph (DynNode Q) (DynSink R)} {id m : NodeId} (h : id ≠ m) (job : Job) :
    (task (g, job) m).1.scratch.nodes[id]? = g.scratch.nodes[id]? := by
  cases job with
  | cycle ctx => exact visit_other g.edges g.scratch ctx h
  | flush count firstErr =>
    simp only [task, flushAt]
    split
    · simp [List.getElem?_set_ne (Ne.symm h)]
    · rfl

def serveTask (s : Graph (DynNode Q) (DynSink R) × Job) (a : WorkerAct) :
    (Graph (DynNode Q) (DynSink R) × Job) × Seen :=
  let r := s.1.act a.act
  ((r.1, s.2), r.2)

theorem independent : Independent (task (P := DynNode Q) (S := DynSink R)) serveTask
    WorkerAct.node where
  task_call s k a h := by
    obtain ⟨g, job⟩ := s
    simp only [serveTask, act_eq, task_onNode h, task_other h]
  call_call s a b h := by
    obtain ⟨g, job⟩ := s
    simp only [serveTask, act_eq, onNode_other h, onNode_comm h]

end Graph

end Worker

section Loops

variable [AudioCore] {P S : Type} [AudioNode P] [SinkNode S]

namespace Graph

theorem tasks_cycle (ids : List NodeId) (g : Graph P S) (ctx : ProcessContext) :
    ids.foldl task (g, .cycle ctx) =
      let st := cycle g.edges ids (g.scratch, ctx)
      ({ g with scratch := st.1 }, .cycle st.2) := by
  induction ids generalizing g ctx with
  | nil => rfl
  | cons id ids ih => exact ih _ _

-- By induction on the nodes that the loop over `nodes` has yet to reach.
theorem tasks_flush (rest pre : List (NodeSlot P S)) (g : Graph P S) (count : Nat)
    (firstErr : Option FlushError) :
    (List.range' pre.length rest.length).foldl task
        ({ g with scratch.nodes := pre ++ rest }, .flush count firstErr) =
      let r := flushNodes rest count firstErr
      ({ g with scratch.nodes := pre ++ r.1 }, .flush r.2.1 r.2.2) := by
  induction rest generalizing pre count firstErr with
  | nil => simp [flushNodes]
  | cons slot rest ih =>
    have hat : (pre ++ slot :: rest)[pre.length]? = some slot := by simp
    rw [List.length_cons, List.range'_succ, List.foldl_cons]
    cases slot with
    | plain n =>
      have hrest := ih (pre ++ [.plain n]) count firstErr
      simp only [List.append_assoc, List.singleton_append, List.length_append,
        List.length_singleton] at hrest
      have hround : task (P := P) (S := S)
          ({ g with scratch.nodes := pre ++ .plain n :: rest }, .flush count firstErr) pre.length =
          ({ g with scratch.nodes := pre ++ .plain n :: rest }, .flush count firstErr) := by
        simp only [task, flushAt, hat]
      rw [hround, hrest]
      rfl
    | sink n =>
      have hrest := fun err => ih (pre ++ [.sink (flush n).1]) (count + 1) err
      simp only [List.append_assoc, List.singleton_append, List.length_append,
        List.length_singleton] at hrest
      simp only [task, flushAt, hat, List.set_append_right _ _ (Nat.le_refl _), Nat.sub_self,
        List.set_cons_zero]
      rw [hrest]
      rfl

theorem step_of_opens {g : Graph P S} {op : Op P S} {pending : Pending}
    (h : g.opens op = some pending) :
    g.step op = ((pending.rest.foldl task (g, pending.job)).1,
      (pending.rest.foldl task (g, pending.job)).2.result) := by
  cases op with
  | processCycle ctx =>
    simp only [opens] at h
    split at h
    · rename_i hc
      cases h
      simp [step, processCycle, hc, tasks_cycle, Job.result]
    · cases h
  | flushSinks =>
    cases h
    have hall := tasks_flush g.scratch.nodes [] g 0 none
    simp only [List.nil_append, List.length_nil, ← List.range_eq_range'] at hall
    simp only [nodeCount, hall]
    rfl
  | _ => cases h

end Graph

end Loops

section Serial

variable [AudioCore] {Q R : Type}

def Slice.marks (ring : NodeId) :
    Slice Q R → Sliced → List (Mark (Op (DynNode Q) (DynSink R)) Outcome (Act Q R) Seen)
  | .start op, .started => [.opened op]
  | .start op, .returned outcome => [.opened op, .closed outcome]
  | .finish, .returned outcome => [.closed outcome]
  | .worker a, .worked seen => if a.node = ring then [.acted a.act seen] else []
  | .readInput node port, .read seen => [.acted (.readInput node port) seen]
  | .readOutput node port, .read seen => [.acted (.readOutput node port) seen]
  | _, _ => []

def Act.done (ring : NodeId) :
    Act Q R → Seen → List (Done (Op (DynNode Q) (DynSink R)) Outcome (Act Q R) Seen)
  | .call op, .called outcome => [.called op outcome]
  | .push source frame, seen => if source = ring then [.acted (.push source frame) seen] else []
  | .pop sink, seen => if sink = ring then [.acted (.pop sink) seen] else []
  | a, seen => [.acted a seen]

def shown (p : WorkerAct × Seen) : Act Q R × Seen := (p.1.act, p.2)

variable [AudioNode Q] [SinkNode R]

def Interleaved.history (ring : NodeId) (t : Interleaved Q R) (slices : List (Slice Q R)) :
    List (Mark (Op (DynNode Q) (DynSink R)) Outcome (Act Q R) Seen) :=
  Transition.log (Slice.marks ring) Interleaved.slice t slices

namespace Graph

def performed (ring : NodeId) (g : Graph (DynNode Q) (DynSink R)) (acts : List (Act Q R)) :
    List (Done (Op (DynNode Q) (DynSink R)) Outcome (Act Q R) Seen) :=
  Transition.log (Act.done ring) act g acts

theorem performed_append (ring : NodeId) (g : Graph (DynNode Q) (DynSink R))
    (acts acts' : List (Act Q R)) :
    g.performed ring (acts ++ acts') =
      g.performed ring acts ++ (g.play acts).1.performed ring acts' :=
  Transition.log_append _ _ g acts acts'

theorem performed_cons (ring : NodeId) (g : Graph (DynNode Q) (DynSink R)) (a : Act Q R)
    (acts : List (Act Q R)) :
    g.performed ring (a :: acts) = a.done ring (g.act a).2 ++ (g.act a).1.performed ring acts :=
  rfl

theorem play_cons (g : Graph (DynNode Q) (DynSink R)) (a : Act Q R) (acts : List (Act Q R)) :
    (g.play (a :: acts)).1 = ((g.act a).1.play acts).1 := rfl

theorem play_append (g : Graph (DynNode Q) (DynSink R)) (acts acts' : List (Act Q R)) :
    (g.play (acts ++ acts')).1 = ((g.play acts).1.play acts').1 := by
  rw [play, Transition.run_append]
  rfl

omit [AudioNode Q] [SinkNode R] in
theorem done_worker (ring : NodeId) (a : WorkerAct) (seen : Seen) :
    Act.done ring (a.act : Act Q R) seen =
      (answered WorkerAct.node ring a seen).map (done ∘ shown) := by
  cases a with
  | push source frame =>
    by_cases h : source = ring <;> simp [Act.done, WorkerAct.act, answered, WorkerAct.node, h,
      done, shown]
  | pop sink =>
    by_cases h : sink = ring <;> simp [Act.done, WorkerAct.act, answered, WorkerAct.node, h,
      done, shown]

omit [AudioNode Q] [SinkNode R] in
theorem marks_worker (ring : NodeId) (a : WorkerAct) (seen : Seen) :
    (Slice.worker a : Slice Q R).marks ring (.worked seen) =
      (answered WorkerAct.node ring a seen).map (marked ∘ shown) := by
  by_cases h : a.node = ring <;> simp [Slice.marks, answered, h, marked, shown]

theorem play_workers (g : Graph (DynNode Q) (DynSink R)) (job : Job) (as : List WorkerAct) :
    (Transition.run serveTask (g, job) as).1 = ((g.play (as.map WorkerAct.act)).1, job) ∧
      ∀ ring, g.performed ring (as.map WorkerAct.act) =
        (Transition.log (answered WorkerAct.node ring) serveTask (g, job) as).map
          (done ∘ shown) := by
  induction as generalizing g with
  | nil => exact ⟨rfl, fun _ => rfl⟩
  | cons a as ih =>
    obtain ⟨hend, hdone⟩ := ih (g.act a.act).1
    refine ⟨hend, fun ring => ?_⟩
    rw [List.map_cons, performed, Transition.log_cons, Transition.log_cons, List.map_append,
      done_worker]
    exact congrArg _ (hdone ring)

theorem opens_act (g : Graph (DynNode Q) (DynSink R)) (a : WorkerAct)
    (op : Op (DynNode Q) (DynSink R)) : (g.act a.act).1.opens op = g.opens op := by
  rw [act_eq]
  cases op with
  | flushSinks => simp [opens, onNode, nodeCount]
  | _ => rfl

theorem opens_workers (g : Graph (DynNode Q) (DynSink R)) (as : List WorkerAct)
    (op : Op (DynNode Q) (DynSink R)) :
    (g.play (as.map WorkerAct.act)).1.opens op = g.opens op := by
  induction as generalizing g with
  | nil => rfl
  | cons a as ih => exact (ih _).trans (opens_act g a op)

def Ordered (g : Graph (DynNode Q) (DynSink R)) : Prop := g.executionOrder.Nodup

theorem Ordered.worker {g : Graph (DynNode Q) (DynSink R)} (h : Ordered g) (a : WorkerAct) :
    Ordered (g.act a.act).1 := by
  rw [act_eq]
  exact h

theorem Ordered.act {g : Graph (DynNode Q) (DynSink R)} (h : Ordered g) (a : Act Q R) :
    Ordered (g.act a).1 := by
  cases a with
  | call op =>
    have hchange : Change g op (g.act (.call op)).1 := step_change g op
    generalize (g.act (.call op)).1 = g' at hchange ⊢
    cases hchange with
    | run hop =>
      rw [step_runs_eq g hop]
      exact h
    | add _ slot =>
      rw [addSlot_eq]
      exact h
    | link _ _ _ _ => exact h
    | compile _ hready => exact hready.order_perm.nodup_iff.mpr List.nodup_range
    | listen _ => exact h
  | push source frame => exact h.worker (.push source frame)
  | pop sink => exact h.worker (.pop sink)
  | readInput node port => exact h
  | readOutput node port => exact h

theorem Ordered.play {g : Graph (DynNode Q) (DynSink R)} (h : Ordered g) (acts : List (Act Q R)) :
    Ordered (g.play acts).1 :=
  Transition.run_always (fun _ a hg => hg.act a) h acts

omit [AudioNode Q] [SinkNode R] in
theorem Ordered.opens {g : Graph (DynNode Q) (DynSink R)} (h : Ordered g)
    {op : Op (DynNode Q) (DynSink R)} {pending : Pending} (hopens : g.opens op = some pending) :
    pending.rest.Nodup := by
  cases op with
  | processCycle ctx =>
    simp only [Graph.opens] at hopens
    split at hopens
    · cases hopens
      exact h
    · cases hopens
  | flushSinks =>
    cases hopens
    exact List.nodup_range
  | _ => cases hopens

end Graph

namespace Graph

-- A call woven with acts of workers is the acts it ran ahead of, the whole call, then the others.
theorem whole_call {g : Graph (DynNode Q) (DynSink R)} {op : Op (DynNode Q) (DynSink R)}
    {pending : Pending} {word : List (Item NodeId WorkerAct)}
    (hopens : g.opens op = some pending) (hids : tasks word = pending.rest)
    (hd : (tasks word).Nodup) :
    let r := (Weave.run task serveTask (g, pending.job) word).1
    ∃ acts : List (Act Q R), (g.play acts).1 = r.1 ∧ ∀ ring,
      Linear (.opened op :: (Transition.log (itemAnswered WorkerAct.node ring)
          (Weave.step task serveTask) (g, pending.job) word).map (marked ∘ shown) ++
          [.closed r.2.result])
        (g.performed ring acts) := by
  intro r
  let before := (early WorkerAct.node word).map (WorkerAct.act (Q := Q) (R := R))
  let after := (late WorkerAct.node word).map (WorkerAct.act (Q := Q) (R := R))
  let m := pending.rest.foldl task ((g.play before).1, pending.job)
  obtain ⟨hbefore, hearly⟩ := play_workers g pending.job (early WorkerAct.node word)
  obtain ⟨hafter, hlate⟩ := play_workers m.1 m.2 (late WorkerAct.node word)
  obtain ⟨hend, hlog⟩ := independent.serial hd (g, pending.job)
  have hstep : (g.play before).1.step op = (m.1, m.2.result) :=
    step_of_opens ((opens_workers g _ op).trans hopens)
  have hcall : (g.play before).1.act (.call op) = (m.1, .called m.2.result) := by
    simp only [act, hstep]
  rw [hbefore, hids] at hend hlog
  have hr : r = ((m.1.play after).1, m.2) := hend.trans hafter
  refine ⟨before ++ .call op :: after, ?_, fun ring => ?_⟩
  · rw [play_append, hr, play_cons, hcall]
  · have hwhole : g.performed ring (before ++ .call op :: after) =
        g.performed ring before ++ .called op m.2.result :: m.1.performed ring after := by
      rw [performed_append, performed_cons, hcall]
      rfl
    have hsingle := Linear.single op m.2.result
      ((Transition.log (answered WorkerAct.node ring) serveTask (g, pending.job)
        (early WorkerAct.node word)).map (shown (Q := Q) (R := R)))
      ((Transition.log (answered WorkerAct.node ring) serveTask m
        (late WorkerAct.node word)).map shown)
    rw [hwhole, hearly ring, hlate ring, hlog ring, hr]
    simpa only [List.map_append, List.map_map] using hsingle

end Graph

namespace Interleaved

open AudioGraph.Graph

inductive Explained (base : Graph (DynNode Q) (DynSink R)) (t : Interleaved Q R)
    (view : NodeId → List (Mark (Op (DynNode Q) (DynSink R)) Outcome (Act Q R) Seen)) : Prop
  | idle (acts : List (Act Q R)) (hgraph : (base.play acts).1 = t.graph)
      (hidle : t.pending = none)
      (hview : ∀ ring, Linear (view ring) (base.performed ring acts))
  | busy (acts : List (Act Q R)) (op : Op (DynNode Q) (DynSink R)) (pending : Pending)
      (word : List (Item NodeId WorkerAct)) (rest : List NodeId) (job : Job)
      (hopens : (base.play acts).1.opens op = some pending)
      (hids : tasks word ++ rest = pending.rest)
      (hrun : (Weave.run task serveTask ((base.play acts).1, pending.job) word).1 =
        (t.graph, job))
      (hbusy : t.pending = some ⟨rest, job⟩)
      (hview : ∀ ring, ∃ ms, Linear ms (base.performed ring acts) ∧
        view ring = ms ++ .opened op ::
          (Transition.log (itemAnswered WorkerAct.node ring) (Weave.step task serveTask)
            ((base.play acts).1, pending.job) word).map (marked ∘ shown))

variable {base : Graph (DynNode Q) (DynSink R)} {t : Interleaved Q R}
  {view : NodeId → List (Mark (Op (DynNode Q) (DynSink R)) Outcome (Act Q R) Seen)}

theorem Explained.start (h : Explained base t view) (op : Op (DynNode Q) (DynSink R)) :
    Explained base (slice t (.start op)).1 fun ring =>
      view ring ++ (Slice.start op).marks ring (slice t (.start op)).2 := by
  cases h with
  | busy acts op' pending word rest job hopens hids hrun hbusy hview =>
    simp only [slice, hbusy, Slice.marks, List.append_nil]
    exact .busy acts op' pending word rest job hopens hids hrun hbusy hview
  | idle acts hgraph hidle hview =>
    cases hopens : t.graph.opens op with
    | some pending =>
      simp only [slice, hidle, hopens, Slice.marks]
      refine .busy acts op pending [] pending.rest pending.job (by rw [hgraph, hopens]) rfl ?_ rfl
        fun ring => ⟨view ring, hview ring, rfl⟩
      rw [hgraph]
      rfl
    | none =>
      simp only [slice, hidle, hopens, Slice.marks]
      refine .idle (acts ++ [.call op]) ?_ rfl fun ring => ?_
      · rw [play_append, hgraph]
        rfl
      · rw [performed_append, hgraph]
        exact (hview ring).append (Linear.single op _ [] [])

theorem Explained.round (h : Explained base t view) :
    Explained base (slice t .round).1 fun ring =>
      view ring ++ Slice.round.marks ring (slice t .round).2 := by
  cases h with
  | idle acts hgraph hidle hview =>
    simp only [slice, hidle, Slice.marks, List.append_nil]
    exact .idle acts hgraph hidle hview
  | busy acts op pending word rest job hopens hids hrun hbusy hview =>
    cases rest with
    | nil =>
      simp only [slice, hbusy, Slice.marks, List.append_nil]
      exact .busy acts op pending word [] job hopens hids hrun hbusy hview
    | cons id rest =>
      simp only [slice, hbusy, Slice.marks, List.append_nil]
      refine .busy acts op pending (word ++ [.task id]) rest _ hopens ?_ (run_concat hrun _) rfl
        fun ring => ?_
      · rw [tasks_append, ← hids]
        simp
      · obtain ⟨ms, hms, heq⟩ := hview ring
        refine ⟨ms, hms, ?_⟩
        rw [log_concat hrun, heq]
        simp [itemAnswered]

theorem Explained.worker (h : Explained base t view) (a : WorkerAct) :
    Explained base (slice t (.worker a)).1 fun ring =>
      view ring ++ (Slice.worker a).marks ring (slice t (.worker a)).2 := by
  cases h with
  | idle acts hgraph hidle hview =>
    refine .idle (acts ++ [a.act]) ?_ hidle fun ring => ?_
    · rw [play_append, hgraph]
      rfl
    · rw [performed_append, hgraph]
      have hone : t.graph.performed ring [a.act] =
          (answered WorkerAct.node ring a (t.graph.act a.act).2).map (done ∘ shown) := by
        rw [← done_worker]
        exact List.append_nil _
      simp only [slice, hone, marks_worker, ← List.map_map]
      exact (hview ring).append (.acts _)
  | busy acts op pending word rest job hopens hids hrun hbusy hview =>
    refine .busy acts op pending (word ++ [.call a]) rest job hopens ?_ (run_concat hrun _) hbusy
      fun ring => ?_
    · rw [tasks_append, ← hids]
      simp
    · obtain ⟨ms, hms, heq⟩ := hview ring
      refine ⟨ms, hms, ?_⟩
      rw [log_concat hrun, heq]
      simp only [slice, marks_worker, itemAnswered, Weave.step, serveTask, List.map_append,
        List.append_assoc, List.cons_append]

theorem Explained.finish (hd : Ordered base) (h : Explained base t view) :
    Explained base (slice t .finish).1 fun ring =>
      view ring ++ Slice.finish.marks ring (slice t .finish).2 := by
  cases h with
  | idle acts hgraph hidle hview =>
    simp only [slice, hidle, Slice.marks, List.append_nil]
    exact .idle acts hgraph hidle hview
  | busy acts op pending word rest job hopens hids hrun hbusy hview =>
    cases rest with
    | cons id rest =>
      simp only [slice, hbusy, Slice.marks, List.append_nil]
      exact .busy acts op pending word (id :: rest) job hopens hids hrun hbusy hview
    | nil =>
      rw [List.append_nil] at hids
      have hnodup : (tasks word).Nodup := hids ▸ (hd.play acts).opens hopens
      obtain ⟨acts', hplayed, hlinear⟩ := whole_call hopens hids hnodup
      rw [hrun] at hplayed hlinear
      simp only [slice, hbusy, Slice.marks]
      refine .idle (acts ++ acts') ?_ rfl fun ring => ?_
      · rw [play_append, hplayed]
      · obtain ⟨ms, hms, heq⟩ := hview ring
        rw [performed_append, heq, List.append_assoc]
        exact hms.append (hlinear ring)

theorem Explained.read (h : Explained base t view) {s : Slice Q R} {a : Act Q R} {seen : Seen}
    (hs : slice t s = match t.pending with
      | some _ => (t, .idle)
      | none => (t, .read seen))
    (hmarks : ∀ ring, s.marks ring (.read seen) = [.acted a seen])
    (hnone : ∀ ring, s.marks ring .idle = [])
    (ha : t.graph.act a = (t.graph, seen)) (hdone : ∀ ring, a.done ring seen = [.acted a seen]) :
    Explained base (slice t s).1 fun ring => view ring ++ s.marks ring (slice t s).2 := by
  cases h with
  | busy acts op pending word rest job hopens hids hrun hbusy hview =>
    simp only [hbusy] at hs
    simp only [hs, hnone, List.append_nil]
    exact .busy acts op pending word rest job hopens hids hrun hbusy hview
  | idle acts hgraph hidle hview =>
    simp only [hidle] at hs
    simp only [hs, hmarks]
    refine .idle (acts ++ [a]) ?_ hidle fun ring => ?_
    · rw [play_append, play_cons, hgraph, ha]
      rfl
    · rw [performed_append, performed_cons, hgraph, ha, hdone]
      exact (hview ring).append (.acted (a, seen) .nil)

theorem Explained.slice (hd : Ordered base) (h : Explained base t view) (s : Slice Q R) :
    Explained base (slice t s).1 fun ring => view ring ++ s.marks ring (slice t s).2 := by
  cases s with
  | start op => exact h.start op
  | round => exact h.round
  | finish => exact h.finish hd
  | worker a => exact h.worker a
  | readInput node port =>
    exact h.read rfl (a := .readInput node port) (fun _ => rfl) (fun _ => rfl) rfl fun _ => rfl
  | readOutput node port =>
    exact h.read rfl (a := .readOutput node port) (fun _ => rfl) (fun _ => rfl) rfl fun _ => rfl

theorem explained (hd : Ordered base) (slices : List (Slice Q R)) :
    Explained base (run ⟨base, none⟩ slices).1 fun ring => history ring ⟨base, none⟩ slices := by
  induction slices using List.reverseRecOn with
  | nil => exact .idle [] rfl rfl fun _ => .nil
  | append_singleton slices s ih =>
    have hnext := ih.slice hd s
    have hlog : ∀ ring, history ring ⟨base, none⟩ (slices ++ [s]) =
        history ring ⟨base, none⟩ slices ++
          s.marks ring (Interleaved.slice (run ⟨base, none⟩ slices).1 s).2 := by
      intro ring
      rw [history, Transition.log_append, Transition.log_cons]
      exact congrArg _ (List.append_nil _)
    simp only [hlog, run, Transition.run_append]
    exact hnext

theorem linearizable (slices : List (Slice Q R))
    (hidle : (run ⟨Graph.new, none⟩ slices).1.pending = none) :
    ∃ acts : List (Act Q R),
      (Graph.new.play acts).1 = (run ⟨Graph.new, none⟩ slices).1.graph ∧
      ∀ ring, Linear (history ring ⟨Graph.new, none⟩ slices) (Graph.new.performed ring acts) := by
  have hd : Ordered (Graph.new : Graph (DynNode Q) (DynSink R)) := List.nodup_nil
  cases explained hd slices with
  | idle acts hgraph _ hview => exact ⟨acts, hgraph, hview⟩
  | busy acts op pending word rest job _ _ _ hbusy _ =>
    rw [hidle] at hbusy
    cases hbusy

end Interleaved

end Serial

namespace Sample

open PlainCore

def woven : List (Slice RingSource RingSink) :=
  [.start (.addNode (.ringSource source)), .start (.addSink (.ringSink sink)),
    .start (.link (0, 0) (1, 0)), .start (.compile config), .start (.processCycle ()),
    .worker (.push 0 frame), .round, .worker (.push 0 frame), .worker (.pop 1), .round, .finish,
    .start .flushSinks, .round, .worker (.pop 1), .round, .finish, .worker (.pop 1)]

end Sample

open PlainCore Sample in
theorem linearizable_woven :
    ∃ acts : List (Act RingSource RingSink),
      (Graph.new.play acts).1 = (Interleaved.run ⟨Graph.new, none⟩ woven).1.graph ∧
      ∀ ring, Weave.Linear (Interleaved.history ring ⟨Graph.new, none⟩ woven)
        (Graph.new.performed ring acts) :=
  Interleaved.linearizable woven rfl

end AudioGraph
