import AudioGraph.Properties.Compilation

namespace AudioGraph

section

variable [AudioCore] {P : Type}

omit [AudioCore] in
theorem RingSink.flush_error {n : RingSink} {e : FlushError} (h : n.flush.2 = .error e) :
    n.flush.1 = n := by
  unfold RingSink.flush at h ⊢
  split at h
  · cases h
  · rfl

namespace Graph

theorem flushSink_failed {g : Graph P RingSink} {node : NodeId} {e : FlushError}
    (h : (g.flushSink node).2 = .error e) : (g.flushSink node).1 = g := by
  unfold flushSink at h ⊢
  cases hn : g.scratch.nodes[node]? with
  | none => rfl
  | some slot =>
    cases slot with
    | plain n => rfl
    | sink n =>
      simp only [hn] at h
      have hsame : (Flushable.flush n).1 = n := RingSink.flush_error h
      obtain ⟨hlt, hat⟩ := List.getElem?_eq_some_iff.mp hn
      simp only [hsame, ← hat, List.set_getElem_self]

variable [AudioNode P]

theorem step_failed {g : Graph P RingSink} {op : Op P RingSink}
    (h : (g.step op).2.failed = true) : (g.step op).1 = g := by
  cases op with
  | addNode node => cases h
  | addSink sink => cases h
  | feed node port src => cases h
  | flushSinks => cases h
  | subscribeTopology => cases h
  | dropReceiver rx => cases h
  | link src dst =>
    simp only [step] at h ⊢
    rcases link_cases g src dst with ⟨e, -, heq⟩ | ⟨-, heq⟩
    · rw [heq]
    · rw [heq] at h
      cases h
  | compile config =>
    simp only [step] at h ⊢
    rcases compile_cases g config with ⟨e, heq⟩ | ⟨ready, heq, -, -⟩
    · rw [heq]
    · rw [heq] at h
      cases h
  | flushSink node =>
    simp only [step] at h ⊢
    cases hr : (g.flushSink node).2 with
    | ok u =>
      rw [hr] at h
      cases h
    | error e => exact flushSink_failed hr
  | processCycle ctx =>
    simp only [step, processCycle] at h ⊢
    split at h
    · cases h
    · rename_i hc
      simp only [hc, if_false, Bool.false_eq_true]

end Graph

variable [AudioNode P]

-- Between two calls the other ends of the rings may move, and so change what the nodes hold.
inductive Move (P S : Type) where
  | call (op : Op P S)
  | peer (act : List (NodeSlot P S) → List (NodeSlot P S))

def Graph.move {S : Type} [SinkNode S] (g : Graph P S) : Move P S → Graph P S × Option Outcome
  | .call op => ((g.step op).1, some (g.step op).2)
  | .peer act => ({ g with scratch.nodes := act g.scratch.nodes }, none)

def callFailed : Option Outcome → Bool
  | some o => o.failed
  | none => false

theorem move_failed {g : Graph P RingSink} {m : Move P RingSink}
    (h : callFailed (g.move m).2 = true) : (g.move m).1 = g := by
  cases m with
  | call op => exact Graph.step_failed h
  | peer act => cases h

theorem failed_calls_leave_no_trace :
    (∀ (g : Graph P RingSink) (op : Op P RingSink),
      (g.step op).2.failed = true → (g.step op).1 = g) ∧
    ∀ (g : Graph P RingSink) (moves : List (Move P RingSink)),
      Transition.run Graph.move g (Transition.survivors Graph.move callFailed g moves) =
        ((Transition.run Graph.move g moves).1,
          (Transition.run Graph.move g moves).2.filter fun o => !callFailed o) :=
  ⟨fun _ _ h => Graph.step_failed h,
    fun g moves => Transition.run_survivors (fun _ _ h => move_failed h) g moves⟩

end

open PlainCore Sample in
theorem full_ring_leaves_no_trace :
    ((Sample.ready.run [.flushSink 1]).1.step (.flushSink 1)).1 =
      (Sample.ready.run [.flushSink 1]).1 :=
  failed_calls_leave_no_trace.1 (Sample.ready.run [.flushSink 1]).1 (.flushSink 1) rfl

end AudioGraph
