import AudioGraph.Engine.Reclaim
import AudioGraph.Properties.Running

namespace AudioGraph

open RefCount

section

variable [AudioCore] {P S : Type}

def ArcHandle.owners (h : ArcHandle P S) : List Nat :=
  h.inner :: ((h.cycle.map InFlight.graph).toList ++ h.guards)

structure Reclaims (h : ArcHandle P S) (d : LeakyHandle P S) (freed : List Nat) : Prop where
  accounted : Accounted h.heap h.owners freed
  holds : Holds h.heap d.handle.graphs
  inner : h.inner = d.handle.current
  cycle : h.cycle = d.handle.cycle
  guards : h.guards = d.guards

section Reclaims

variable {h : ArcHandle P S} {d : LeakyHandle P S} {freed : List Nat}

theorem Reclaims.live (hr : Reclaims h d freed) {k : Nat} (hk : k ∈ h.owners) :
    ∃ c, cell h.heap k = some c ∧ d.handle.graphs[k]? = some c.value := by
  obtain ⟨c, hc⟩ := hr.accounted.counted.live k hk
  exact ⟨c, hc, hr.holds.value k c hc⟩

theorem Reclaims.install (hr : Reclaims h d freed) (g : Graph P S) :
    Reclaims (h.install g).1 { d with handle := d.handle.install g }
        (freed ++ (h.install g).2.toList) ∧
      (h.install g).2 =
        if h.inner ∈ (h.cycle.map InFlight.graph).toList ++ h.guards then none
        else some h.inner := by
  have hstored := (hr.accounted.alloc g).perm (List.Perm.swap _ _ _)
  obtain ⟨hreleased, hfreed⟩ := hstored.release
  have hne : h.inner ≠ h.heap.length :=
    Nat.ne_of_lt (hr.accounted.counted.lt List.mem_cons_self)
  refine ⟨⟨hreleased, (hr.holds.alloc g).release h.inner, ?_, hr.cycle, hr.guards⟩, ?_⟩
  · simp [ArcHandle.install, RtHandle.current, RtHandle.install, hr.holds.length]
  · rw [ArcHandle.install, hfreed]
    simp only [List.mem_cons, hne, false_or]

variable [AudioNode P] [SinkNode S]

theorem Reclaims.load (hr : Reclaims h d freed) (ctx : ProcessContext) :
    Reclaims (h.tick (.load ctx)).1 { d with handle := (d.handle.tick (.load ctx)).1 } freed ∧
      (h.tick (.load ctx)).2 = .ticked (d.handle.tick (.load ctx)).2 none := by
  cases hcycle : h.cycle with
  | some c =>
    have harc : h.tick (.load ctx) = (h, .ticked .idle none) := by
      simp [ArcHandle.tick, hcycle]
    rw [harc, RtHandle.tick_load_busy (hr.cycle.symm.trans hcycle)]
    exact ⟨hr, rfl⟩
  | none =>
    obtain ⟨c, hc, hat⟩ := hr.live (k := h.inner) List.mem_cons_self
    have harc : h.tick (.load ctx) =
        ({ h with
            heap := retain h.heap h.inner
            cycle := some ⟨h.inner,
              if c.value.compiled then c.value.executionOrder else [], ctx⟩ },
          .ticked (.loaded h.inner) none) := by
      simp [ArcHandle.tick, hcycle, hc]
    have hretained := hr.accounted.retain (k := h.inner) List.mem_cons_self
    rw [harc, RtHandle.tick_load (hr.cycle.symm.trans hcycle) (hr.inner ▸ hat), ← hr.inner]
    refine ⟨⟨?_, hr.holds.retain h.inner, hr.inner, rfl, hr.guards⟩, rfl⟩
    simpa [ArcHandle.owners, hcycle] using hretained

theorem Reclaims.visit (hr : Reclaims h d freed) :
    Reclaims (h.tick .visit).1 { d with handle := (d.handle.tick .visit).1 } freed ∧
      (h.tick .visit).2 = .ticked (d.handle.tick .visit).2 none := by
  cases hcycle : h.cycle with
  | none =>
    have hcycle' := hr.cycle.symm.trans hcycle
    simp only [ArcHandle.tick, hcycle, RtHandle.tick, hcycle', and_true]
    exact hr
  | some c =>
    obtain ⟨k, rest, ctx⟩ := c
    have hcycle' := hr.cycle.symm.trans hcycle
    cases rest with
    | nil =>
      simp only [ArcHandle.tick, hcycle, RtHandle.tick, hcycle', and_true]
      exact hr
    | cons n rest =>
      have hk : k ∈ h.owners := by simp [ArcHandle.owners, hcycle]
      obtain ⟨c, hc, hat⟩ := hr.live hk
      let st := AudioGraph.visit c.value.edges (c.value.scratch, ctx) n
      have harc : h.tick .visit =
          ({ h with
              heap := write h.heap k { c.value with scratch := st.1 }
              cycle := some ⟨k, rest, st.2⟩ }, .ticked .visited none) := by
        simp [ArcHandle.tick, hcycle, hc, st]
      have hwritten := hr.accounted.write k { c.value with scratch := st.1 }
      rw [harc, RtHandle.tick_visit hcycle' hat]
      refine ⟨⟨?_, hr.holds.write (lt_of_cell hc) _, ?_, rfl, hr.guards⟩, rfl⟩
      · simpa [ArcHandle.owners, hcycle] using hwritten
      · simpa [RtHandle.current] using hr.inner

theorem Reclaims.finish (hr : Reclaims h d freed) :
    ∃ out, (h.tick .finish).2 = .ticked (d.handle.tick .finish).2 out ∧
      Reclaims (h.tick .finish).1 { d with handle := (d.handle.tick .finish).1 }
        (freed ++ out.toList) ∧
      ∀ r, (d.handle.tick .finish).2 = .returned r →
        out = if r.graph ∈ h.inner :: h.guards then none else some r.graph := by
  have hkept : Reclaims h d (freed ++ (none : Option Nat).toList) := by simpa using hr
  have hnone : ∀ r, Ticked.idle = .returned r →
      none = if r.graph ∈ h.inner :: h.guards then none else some r.graph := by
    intro r hreturned
    cases hreturned
  cases hcycle : h.cycle with
  | none =>
    have hcycle' := hr.cycle.symm.trans hcycle
    simp only [ArcHandle.tick, hcycle, RtHandle.tick, hcycle']
    exact ⟨none, rfl, hkept, hnone⟩
  | some c =>
    obtain ⟨k, rest, ctx⟩ := c
    have hcycle' := hr.cycle.symm.trans hcycle
    cases rest with
    | cons n rest =>
      simp only [ArcHandle.tick, hcycle, RtHandle.tick, hcycle']
      exact ⟨none, rfl, hkept, hnone⟩
    | nil =>
      have hk : k ∈ h.owners := by simp [ArcHandle.owners, hcycle]
      obtain ⟨c, hc, hat⟩ := hr.live hk
      have harc : h.tick .finish =
          ({ h with heap := (release h.heap k).1, cycle := none },
            .ticked (.returned ⟨k, ctx, if c.value.compiled then .ok () else .error .notCompiled⟩)
              (freedIf k (release h.heap k).2)) := by
        simp [ArcHandle.tick, hcycle, hc]
      have howned : Accounted h.heap (k :: (h.inner :: h.guards)) freed := by
        have haccounted := hr.accounted
        simp only [ArcHandle.owners, hcycle, Option.map_some, Option.toList_some,
          List.singleton_append] at haccounted
        exact haccounted.perm (List.Perm.swap _ _ _)
      obtain ⟨hreleased, hfreed⟩ := howned.release
      rw [harc, RtHandle.tick_finish hcycle' hat]
      refine ⟨_, rfl, ⟨hreleased, hr.holds.release k, hr.inner, rfl, hr.guards⟩, ?_⟩
      intro r hreturned
      cases hreturned
      exact hfreed

omit [AudioNode P] [SinkNode S] in
theorem Reclaims.drop (hr : Reclaims h d freed) {guard k : Nat} (hk : h.guards[guard]? = some k) :
    Reclaims { h with heap := (release h.heap k).1, guards := h.guards.eraseIdx guard }
        { d with guards := d.guards.eraseIdx guard }
        (freed ++ (freedIf k (release h.heap k).2).toList) := by
  have hperm : h.owners.Perm
      (k :: (h.inner :: ((h.cycle.map InFlight.graph).toList ++ h.guards.eraseIdx guard))) := by
    obtain ⟨hlt, rfl⟩ := List.getElem?_eq_some_iff.mp hk
    refine ((List.getElem_cons_eraseIdx_perm hlt).symm.append_left _).cons h.inner |>.trans ?_
    exact (List.perm_middle.cons h.inner).trans (List.Perm.swap _ _ _)
  obtain ⟨hreleased, -⟩ := (hr.accounted.perm hperm).release
  exact ⟨hreleased, hr.holds.release k, hr.inner, hr.cycle, by rw [hr.guards]⟩

theorem Reclaims.step (hr : Reclaims h d freed) (s : Swap P S) :
    Reclaims (h.step s).1 (d.step s).1 (freed ++ (h.step s).2.freed) ∧
      (h.step s).2.answer = (d.step s).2 := by
  cases s with
  | tick t =>
    cases t with
    | install g =>
      exact ⟨(hr.install g).1, rfl⟩
    | load ctx =>
      obtain ⟨hnext, hanswer⟩ := hr.load ctx
      simp only [ArcHandle.step, LeakyHandle.step, hanswer, Swapped.freed, Swapped.answer]
      exact ⟨by simpa using hnext, trivial⟩
    | visit =>
      obtain ⟨hnext, hanswer⟩ := hr.visit
      simp only [ArcHandle.step, LeakyHandle.step, hanswer, Swapped.freed, Swapped.answer]
      exact ⟨by simpa using hnext, trivial⟩
    | finish =>
      obtain ⟨out, hanswer, hnext, -⟩ := hr.finish
      simp only [ArcHandle.step, LeakyHandle.step, hanswer, Swapped.freed, Swapped.answer]
      exact ⟨hnext, trivial⟩
  | graph =>
    obtain ⟨c, hc, -⟩ := hr.live (k := h.inner) List.mem_cons_self
    have hretained := hr.accounted.retain (k := h.inner) List.mem_cons_self
    simp only [ArcHandle.step, hc, LeakyHandle.step, Swapped.freed, Swapped.answer, ← hr.inner,
      List.append_nil, and_true]
    refine ⟨hretained.perm ?_, hr.holds.retain h.inner, hr.inner, hr.cycle, by rw [hr.guards]⟩
    simp only [ArcHandle.owners, ← List.append_assoc, ← List.cons_append]
    exact (List.perm_append_singleton _ _).symm
  | readOutput guard node port =>
    cases hguard : h.guards[guard]? with
    | none =>
      simp only [ArcHandle.step, LeakyHandle.step, hguard, ← hr.guards, Swapped.freed,
        Swapped.answer, List.append_nil, and_true]
      exact hr
    | some k =>
      have hk : k ∈ h.owners :=
        List.mem_cons_of_mem _ (List.mem_append_right _ (List.mem_of_getElem? hguard))
      obtain ⟨c, hc, hat⟩ := hr.live hk
      simp only [ArcHandle.step, LeakyHandle.step, hguard, ← hr.guards, hc, hat, Swapped.freed,
        Swapped.answer, List.append_nil, Option.bind_some, and_true]
      exact hr
  | drop guard =>
    cases hguard : h.guards[guard]? with
    | none =>
      simp only [ArcHandle.step, LeakyHandle.step, hguard, ← hr.guards, Swapped.freed,
        Swapped.answer, List.append_nil, and_true]
      exact hr
    | some k =>
      simp only [ArcHandle.step, LeakyHandle.step, hguard, ← hr.guards, Swapped.freed,
        Swapped.answer, and_true]
      have hdropped := hr.drop hguard
      rwa [← hr.guards] at hdropped

end Reclaims

def Swap.asTick : Swap P S → Option (Tick P S)
  | .tick t => some t
  | _ => none

variable [AudioNode P] [SinkNode S]

theorem LeakyHandle.run_handle (d : LeakyHandle P S) (swaps : List (Swap P S)) :
    (d.run swaps).1.handle = (d.handle.run (swaps.filterMap Swap.asTick)).1 := by
  induction swaps generalizing d with
  | nil => rfl
  | cons s swaps ih =>
    have hrest := ih (d.step s).1
    cases s with
    | tick t => exact hrest
    | graph => exact hrest
    | readOutput guard node port =>
      have hsame : (d.step (.readOutput guard node port)).1 = d := by
        simp only [LeakyHandle.step]
        split <;> rfl
      rw [hsame] at hrest
      change ((d.step (.readOutput guard node port)).1.run swaps).1.handle = _
      rw [hsame]
      exact hrest
    | drop guard =>
      have hsame : (d.step (.drop guard)).1.handle = d.handle := by
        simp only [LeakyHandle.step]
        split <;> rfl
      rw [hsame] at hrest
      exact hrest

namespace ArcHandle

def freed (h : ArcHandle P S) (swaps : List (Swap P S)) : List Nat :=
  Transition.log (fun _ s => s.freed) step h swaps

omit [AudioNode P] [SinkNode S] in
theorem new_reclaims (g₀ : Graph P S) : Reclaims (new g₀) (LeakyHandle.new g₀) [] where
  accounted := by
    have hempty : Accounted ([] : Heap (Graph P S)) [] [] :=
      ⟨⟨nofun, nofun⟩, .nil, by simp⟩
    exact hempty.alloc g₀
  holds := by
    have hempty : Holds ([] : Heap (Graph P S)) [] := ⟨rfl, nofun⟩
    exact hempty.alloc g₀
  inner := rfl
  cycle := rfl
  guards := rfl

theorem run_reclaims {h : ArcHandle P S} {d : LeakyHandle P S} {out : List Nat}
    (hr : Reclaims h d out) (swaps : List (Swap P S)) :
    Reclaims (h.run swaps).1 (d.run swaps).1 (out ++ h.freed swaps) ∧
      (h.run swaps).2.map Swapped.answer = (d.run swaps).2 := by
  induction swaps generalizing h d out with
  | nil =>
    refine ⟨?_, rfl⟩
    have hnone : h.freed [] = [] := rfl
    rw [hnone, List.append_nil]
    exact hr
  | cons s swaps ih =>
    obtain ⟨hnext, hanswer⟩ := hr.step s
    obtain ⟨hend, hanswers⟩ := ih hnext
    constructor
    · rw [freed, Transition.log_cons, ← List.append_assoc]
      exact hend
    · exact List.cons_eq_cons.mpr ⟨hanswer, hanswers⟩

theorem reclaimed_once (g₀ : Graph P S) (swaps : List (Swap P S)) :
    let last := ((new g₀).run swaps).1
    let kept := ((RtHandle.new g₀).run (swaps.filterMap Swap.asTick)).1
    let live := fun k => ∃ c, cell last.heap k = some c
    ((new g₀).run swaps).2.map Swapped.answer = ((LeakyHandle.new g₀).run swaps).2 ∧
      last.cycle = kept.cycle ∧
      (∀ k c, cell last.heap k = some c → kept.graphs[k]? = some c.value) ∧
      (∀ k, live k ↔ k = last.inner ∨ last.cycle.map InFlight.graph = some k ∨ k ∈ last.guards) ∧
      ((new g₀).freed swaps).Nodup ∧
      (∀ k, k ∈ (new g₀).freed swaps ↔ k < kept.graphs.length ∧ ¬ live k) ∧
      ∀ r out, (last.step (.tick .finish)).2 = .ticked (.returned r) out →
        out = if r.graph = last.inner ∨ r.graph ∈ last.guards then none else some r.graph := by
  intro last kept live
  obtain ⟨hr, hanswers⟩ := run_reclaims (new_reclaims g₀) swaps
  have hkept : ((LeakyHandle.new g₀).run swaps).1.handle = kept := LeakyHandle.run_handle _ swaps
  have hlive : ∀ k, live k ↔
      k = last.inner ∨ last.cycle.map InFlight.graph = some k ∨ k ∈ last.guards := by
    intro k
    rw [show live k ↔ k ∈ last.owners from hr.accounted.counted.live_iff k]
    simp [owners]
  refine ⟨hanswers, by rw [← hkept]; exact hr.cycle, fun k c hc => ?_, hlive, hr.accounted.nodup,
    fun k => ?_, fun r out hout => ?_⟩
  · rw [← hkept]
    exact hr.holds.value k c hc
  · rw [← hkept, ← hr.holds.length]
    have hmem := hr.accounted.mem_iff k
    rw [← hr.accounted.counted.live_iff k] at hmem
    exact hmem
  · obtain ⟨freed, hfinish, -, hfreed⟩ := hr.finish
    have heq : Swapped.ticked (.returned r) out =
        .ticked (((LeakyHandle.new g₀).run swaps).1.handle.tick .finish).2 freed :=
      hout.symm.trans hfinish
    rw [Swapped.ticked.injEq] at heq
    have hmem : r.graph ∈ last.inner :: last.guards ↔
        r.graph = last.inner ∨ r.graph ∈ last.guards := List.mem_cons
    rw [heq.2, hfreed r heq.1.symm]
    exact if_congr hmem rfl rfl

end ArcHandle

end

end AudioGraph
