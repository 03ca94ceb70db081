import AudioGraph.Engine.Reload
import AudioGraph.Properties.Running

namespace AudioGraph

section

variable [AudioCore] {P S : Type}

def Tick.installs : Tick P S → List (Graph P S)
  | .install graph => [graph]
  | _ => []

def Tick.starts (t : Tick P S) (e : Ticked) : List (Nat × ProcessContext) :=
  match t, e with
  | .load ctx, .loaded k => [(k, ctx)]
  | _, _ => []

def Tick.visits : Tick P S → Bool
  | .visit => true
  | _ => false

def Tick.returns (_ : Tick P S) : Ticked → List Return
  | .returned r => [r]
  | _ => []

variable [AudioNode P] [SinkNode S]

def cycleOn (graphs : List (Graph P S)) (c : Nat × ProcessContext) :
    List (Graph P S) × Option Return :=
  match graphs[c.1]? with
  | some g =>
    let r := g.processCycle c.2
    (graphs.set c.1 r.1, some ⟨c.1, r.2.1, r.2.2⟩)
  | none => (graphs, none)

def replay (graphs : List (Graph P S)) (cycles : List (Nat × ProcessContext)) :
    List (Graph P S) × List (Option Return) :=
  Transition.run cycleOn graphs cycles

def Graph.walk (g : Graph P S) : List NodeId := if g.compiled then g.executionOrder else []

def Graph.partway (g : Graph P S) (order : List NodeId) (ctx : ProcessContext) : Graph P S :=
  { g with scratch := (cycle g.edges order (g.scratch, ctx)).1 }

-- The graphs as whole cycles left them, but for the one cycle that has not returned yet.
inductive Midway (graphs : List (Graph P S)) :
    List (Nat × ProcessContext) → RtHandle P S → Prop
  | idle : Midway graphs [] ⟨graphs, none⟩
  | running {k : Nat} {g : Graph P S} (ctx : ProcessContext) (pre : List NodeId)
      {rest : List NodeId} (hat : graphs[k]? = some g) (hwalk : g.walk = pre ++ rest) :
      Midway graphs [(k, ctx)]
        ⟨graphs.set k (g.partway pre ctx),
          some ⟨k, rest, (cycle g.edges pre (g.scratch, ctx)).2⟩⟩

section Replay

variable {graphs : List (Graph P S)} {cs : List (Nat × ProcessContext)}

theorem cycleOn_length (graphs : List (Graph P S)) (c : Nat × ProcessContext) :
    (cycleOn graphs c).1.length = graphs.length := by
  unfold cycleOn
  split
  · exact List.length_set
  · rfl

theorem replay_length (graphs : List (Graph P S)) (cs : List (Nat × ProcessContext)) :
    (replay graphs cs).1.length = graphs.length := by
  induction cs generalizing graphs with
  | nil => rfl
  | cons c cs ih => exact (ih (cycleOn graphs c).1).trans (cycleOn_length graphs c)

theorem cycleOn_append {c : Nat × ProcessContext} (hc : c.1 < graphs.length)
    (more : List (Graph P S)) :
    cycleOn (graphs ++ more) c = ((cycleOn graphs c).1 ++ more, (cycleOn graphs c).2) := by
  simp only [cycleOn, List.getElem?_append_left hc, List.getElem?_eq_getElem hc,
    List.set_append_left _ _ hc]

theorem replay_append (hcs : ∀ c ∈ cs, c.1 < graphs.length) (more : List (Graph P S)) :
    replay (graphs ++ more) cs = ((replay graphs cs).1 ++ more, (replay graphs cs).2) := by
  induction cs generalizing graphs with
  | nil => rfl
  | cons c cs ih =>
    have hc : c.1 < graphs.length := hcs c (by simp)
    have hrest : ∀ c' ∈ cs, c'.1 < (cycleOn graphs c).1.length := by
      intro c' hc'
      rw [cycleOn_length]
      exact hcs c' (by simp [hc'])
    have hih := ih hrest
    simp only [replay] at hih ⊢
    rw [Transition.run_cons, Transition.run_cons, cycleOn_append hc, hih]

theorem replay_concat (graphs : List (Graph P S)) (cs : List (Nat × ProcessContext))
    (c : Nat × ProcessContext) :
    replay graphs (cs ++ [c]) =
      ((cycleOn (replay graphs cs).1 c).1,
        (replay graphs cs).2 ++ [(cycleOn (replay graphs cs).1 c).2]) := by
  simp [replay, Transition.run_append]

def Graph.cycles (g : Graph P S) (ctxs : List ProcessContext) : Graph P S :=
  ctxs.foldl (fun g ctx => (g.processCycle ctx).1) g

theorem replay_at {k : Nat} {g : Graph P S} (hk : graphs[k]? = some g) :
    (replay graphs cs).1[k]? = some (g.cycles ((cs.filter fun c => c.1 = k).map Prod.snd)) := by
  induction cs generalizing graphs g with
  | nil => exact hk
  | cons c cs ih =>
    obtain ⟨hlt, hat⟩ := List.getElem?_eq_some_iff.mp hk
    change (replay (cycleOn graphs c).1 cs).1[k]? = _
    by_cases hc : c.1 = k
    · have hnext : (cycleOn graphs c).1[k]? = some (g.processCycle c.2).1 := by
        simp [cycleOn, hc, hlt, hat]
      rw [ih hnext]
      simp [hc, Graph.cycles]
    · have hnext : (cycleOn graphs c).1[k]? = some g := by
        unfold cycleOn
        split <;> simp [hc, hk]
      rw [ih hnext]
      simp [hc]

end Replay

theorem Graph.processCycle_walk (g : Graph P S) (ctx : ProcessContext) :
    g.processCycle ctx = (g.partway g.walk ctx, (cycle g.edges g.walk (g.scratch, ctx)).2,
      if g.compiled then .ok () else .error .notCompiled) := by
  by_cases hc : g.compiled = true
  · simp only [processCycle, walk, if_pos hc]
    rfl
  · simp only [processCycle, walk, if_neg hc]
    rfl

section Midway

variable {graphs : List (Graph P S)} {pending : List (Nat × ProcessContext)} {h : RtHandle P S}

theorem Midway.length (hm : Midway graphs pending h) : h.graphs.length = graphs.length := by
  cases hm with
  | idle => rfl
  | running _ _ _ _ => exact List.length_set

theorem Midway.install (hm : Midway graphs pending h) (g : Graph P S) :
    Midway (graphs ++ [g]) pending (h.install g) := by
  cases hm with
  | idle => exact .idle
  | @running k g' ctx pre rest hat hwalk =>
    have hk : k < graphs.length := (List.getElem?_eq_some_iff.mp hat).1
    have hat' : (graphs ++ [g])[k]? = some g' := by rw [List.getElem?_append_left hk, hat]
    have hinstalled := Midway.running ctx pre hat' hwalk
    rwa [List.set_append_left _ _ hk] at hinstalled

theorem Midway.load (hm : Midway graphs [] h) (hpos : 0 < graphs.length) (ctx : ProcessContext) :
    (h.tick (.load ctx)).2 = .loaded (graphs.length - 1) ∧
      Midway graphs [(graphs.length - 1, ctx)] (h.tick (.load ctx)).1 := by
  cases hm with
  | idle =>
    have hlt : graphs.length - 1 < graphs.length := by omega
    have hat := List.getElem?_eq_getElem hlt
    have hstart := Midway.running ctx [] hat rfl
    have hsame : graphs[graphs.length - 1].partway [] ctx = graphs[graphs.length - 1] := rfl
    rw [hsame, List.set_getElem_self] at hstart
    rw [RtHandle.tick_load rfl hat]
    exact ⟨rfl, hstart⟩

theorem Midway.load_busy {c : Nat × ProcessContext} (hm : Midway graphs (c :: pending) h)
    (ctx : ProcessContext) : h.tick (.load ctx) = (h, .idle) := by
  cases hm with
  | running _ _ _ _ => exact RtHandle.tick_load_busy rfl

theorem Midway.visit (hm : Midway graphs pending h) :
    ((h.tick .visit).2 = .visited ∨ (h.tick .visit).2 = .idle) ∧
      Midway graphs pending (h.tick .visit).1 := by
  cases hm with
  | idle => exact ⟨.inr rfl, .idle⟩
  | @running k g ctx pre rest hat hwalk =>
    cases rest with
    | nil => exact ⟨.inr rfl, .running ctx pre hat hwalk⟩
    | cons n rest =>
      have hlt : k < graphs.length := (List.getElem?_eq_some_iff.mp hat).1
      have hwalk' : g.walk = (pre ++ [n]) ++ rest := by rw [hwalk, List.append_assoc]; rfl
      have hnext := Midway.running ctx (pre ++ [n]) hat hwalk'
      have hcycle : cycle g.edges (pre ++ [n]) (g.scratch, ctx) =
          AudioGraph.visit g.edges (cycle g.edges pre (g.scratch, ctx)) n := by
        simp [cycle, List.foldl_append]
      simp only [Graph.partway, hcycle] at hnext
      rw [RtHandle.tick_visit rfl (List.getElem?_set_self hlt), List.set_set]
      exact ⟨.inl rfl, hnext⟩

theorem Midway.finish (hm : Midway graphs pending h) :
    ((h.tick .finish).2 = .idle ∧ Midway graphs pending (h.tick .finish).1) ∨
      ∃ c r, pending = [c] ∧ (h.tick .finish).2 = .returned r ∧
        (cycleOn graphs c).2 = some r ∧ Midway (cycleOn graphs c).1 [] (h.tick .finish).1 := by
  cases hm with
  | idle => exact .inl ⟨rfl, .idle⟩
  | @running k g ctx pre rest hat hwalk =>
    cases rest with
    | cons n rest => exact .inl ⟨rfl, .running ctx pre hat hwalk⟩
    | nil =>
      rw [List.append_nil] at hwalk
      have hlt : k < graphs.length := (List.getElem?_eq_some_iff.mp hat).1
      have hcycleOn : cycleOn graphs (k, ctx) =
          (graphs.set k (g.partway pre ctx), some ⟨k, (cycle g.edges pre (g.scratch, ctx)).2,
            if g.compiled then .ok () else .error .notCompiled⟩) := by
        simp only [cycleOn, hat, g.processCycle_walk ctx, hwalk]
      rw [RtHandle.tick_finish rfl (List.getElem?_set_self hlt)]
      refine .inr ⟨(k, ctx), _, rfl, rfl, congrArg Prod.snd hcycleOn, ?_⟩
      rw [hcycleOn]
      exact .idle

theorem Midway.visit_takes (hm : Midway graphs pending h) {c : InFlight}
    (hcycle : h.cycle = some c) {n : NodeId} {rest : List NodeId} (hrest : c.rest = n :: rest) :
    (h.tick .visit).2 = .visited ∧
      ∃ ctx, (h.tick .visit).1.cycle = some ⟨c.graph, rest, ctx⟩ := by
  cases hm with
  | idle => cases hcycle
  | @running k g ctx pre _ hat hwalk =>
    have hlt : k < graphs.length := (List.getElem?_eq_some_iff.mp hat).1
    cases hcycle
    subst hrest
    rw [RtHandle.tick_visit rfl (List.getElem?_set_self hlt)]
    exact ⟨rfl, _, rfl⟩

theorem Midway.finish_returns (hm : Midway graphs pending h) {c : InFlight}
    (hcycle : h.cycle = some c) (hrest : c.rest = []) :
    (∃ result, (h.tick .finish).2 = .returned ⟨c.graph, c.ctx, result⟩) ∧
      (h.tick .finish).1.cycle = none := by
  cases hm with
  | idle => cases hcycle
  | @running k g ctx pre _ hat hwalk =>
    have hlt : k < graphs.length := (List.getElem?_eq_some_iff.mp hat).1
    cases hcycle
    subst hrest
    rw [RtHandle.tick_finish rfl (List.getElem?_set_self hlt)]
    exact ⟨⟨_, rfl⟩, rfl⟩

theorem Midway.advances (hm : Midway graphs pending h) {c : InFlight} (hcycle : h.cycle = some c)
    {t : Tick P S} (hopen : t ≠ .finish) :
    (∃ graphs' pending', Midway graphs' pending' (h.tick t).1) ∧
      ∃ ctx, (h.tick t).1.cycle =
        some ⟨c.graph, c.rest.drop (if t.visits then 1 else 0), ctx⟩ := by
  cases t with
  | install g => exact ⟨⟨_, _, hm.install g⟩, c.ctx, hcycle⟩
  | load ctx =>
    rw [RtHandle.tick_load_busy hcycle]
    exact ⟨⟨_, _, hm⟩, c.ctx, hcycle⟩
  | visit =>
    refine ⟨⟨_, _, hm.visit.2⟩, ?_⟩
    obtain ⟨k, rest, ctx⟩ := c
    cases rest with
    | nil =>
      rw [RtHandle.tick_visit_done hcycle]
      exact ⟨ctx, hcycle⟩
    | cons n rest => exact (hm.visit_takes hcycle rfl).2
  | finish => exact absurd rfl hopen

theorem Midway.run_advances (hm : Midway graphs pending h) {c : InFlight}
    (hcycle : h.cycle = some c) {ticks : List (Tick P S)} (hopen : ∀ t ∈ ticks, t ≠ .finish) :
    (∃ graphs' pending', Midway graphs' pending' (h.run ticks).1) ∧
      ∃ ctx, (h.run ticks).1.cycle =
        some ⟨c.graph, c.rest.drop (ticks.countP Tick.visits), ctx⟩ := by
  induction ticks generalizing graphs pending h c with
  | nil => exact ⟨⟨_, _, hm⟩, c.ctx, hcycle⟩
  | cons t ticks ih =>
    obtain ⟨⟨graphs₁, pending₁, hm₁⟩, ctx₁, hcycle₁⟩ := hm.advances hcycle (hopen t (by simp))
    obtain ⟨hend, ctx, hcycle'⟩ := ih hm₁ hcycle₁ fun t' ht' => hopen t' (by simp [ht'])
    refine ⟨hend, ctx, hcycle'.trans ?_⟩
    rw [List.drop_drop, List.countP_cons, Nat.add_comm]

end Midway

structure Linearized (installed : List (Graph P S)) (done pending : List (Nat × ProcessContext))
    (returned : List Return) (h : RtHandle P S) : Prop where
  nonempty : 0 < installed.length
  bound : ∀ c ∈ done ++ pending, c.1 < installed.length
  sorted : ((done ++ pending).map Prod.fst).Pairwise (· ≤ ·)
  returned : (replay installed done).2 = returned.map some
  midway : Midway (replay installed done).1 pending h

section Linearized

variable {installed : List (Graph P S)} {done pending : List (Nat × ProcessContext)}
  {returned : List Return} {h : RtHandle P S}

theorem Linearized.length (hc : Linearized installed done pending returned h) :
    h.graphs.length = installed.length := hc.midway.length.trans (replay_length installed done)

theorem Linearized.install (hc : Linearized installed done pending returned h) (g : Graph P S) :
    Linearized (installed ++ [g]) done pending returned (h.install g) := by
  have hlen : (installed ++ [g]).length = installed.length + 1 := by simp
  have hreplay := replay_append (fun c hcd => hc.bound c (List.mem_append_left _ hcd)) [g]
  refine ⟨by omega, fun c hcd => ?_, hc.sorted, ?_, ?_⟩
  · have hlt := hc.bound c hcd
    omega
  · rw [hreplay]
    exact hc.returned
  · rw [hreplay]
    exact hc.midway.install g

theorem Linearized.load (hc : Linearized installed done [] returned h) (ctx : ProcessContext) :
    (h.tick (.load ctx)).2 = .loaded (installed.length - 1) ∧
      Linearized installed done [(installed.length - 1, ctx)] returned
        (h.tick (.load ctx)).1 := by
  have hpos := hc.nonempty
  have hlen := replay_length installed done
  obtain ⟨hloaded, hmidway⟩ := hc.midway.load (hlen ▸ hpos) ctx
  rw [hlen] at hloaded hmidway
  have hbound := hc.bound
  have hsorted := hc.sorted
  rw [List.append_nil] at hbound hsorted
  refine ⟨hloaded, hpos, fun c hcd => ?_, ?_, hc.returned, hmidway⟩
  · rcases List.mem_append.mp hcd with hcd | hcd
    · exact hbound c hcd
    · rw [List.mem_singleton.mp hcd]
      exact Nat.sub_lt hpos Nat.one_pos
  · rw [List.map_append, List.pairwise_append]
    refine ⟨hsorted, List.pairwise_singleton _ _, fun k hk l hl => ?_⟩
    obtain ⟨c, hcd, rfl⟩ := List.mem_map.mp hk
    rw [List.mem_singleton.mp hl]
    exact Nat.le_sub_one_of_lt (hbound c hcd)

theorem Linearized.load_busy {c : Nat × ProcessContext}
    (hc : Linearized installed done (c :: pending) returned h) (ctx : ProcessContext) :
    h.tick (.load ctx) = (h, .idle) := hc.midway.load_busy ctx

theorem Linearized.visit (hc : Linearized installed done pending returned h) :
    ((h.tick .visit).2 = .visited ∨ (h.tick .visit).2 = .idle) ∧
      Linearized installed done pending returned (h.tick .visit).1 := by
  obtain ⟨hevent, hmidway⟩ := hc.midway.visit
  exact ⟨hevent, { hc with midway := hmidway }⟩

theorem Linearized.finish (hc : Linearized installed done pending returned h) :
    ((h.tick .finish).2 = .idle ∧
        Linearized installed done pending returned (h.tick .finish).1) ∨
      ∃ c r, pending = [c] ∧ (h.tick .finish).2 = .returned r ∧
        Linearized installed (done ++ [c]) [] (returned ++ [r]) (h.tick .finish).1 := by
  rcases hc.midway.finish with ⟨hidle, hmidway⟩ | ⟨c, r, hone, hreturned, hout, hmidway⟩
  · exact .inl ⟨hidle, { hc with midway := hmidway }⟩
  · subst hone
    have hreplay := replay_concat installed done c
    refine .inr ⟨c, r, rfl, hreturned, hc.nonempty, by simpa using hc.bound,
      by simpa using hc.sorted, ?_, ?_⟩
    · rw [hreplay, hout, hc.returned, List.map_append]
      rfl
    · rw [hreplay]
      exact hmidway

theorem Linearized.tick (hc : Linearized installed done pending returned h) (t : Tick P S) :
    ∃ done' pending',
      done' ++ pending' = done ++ pending ++ t.starts (h.tick t).2 ∧
      Linearized (installed ++ t.installs) done' pending' (returned ++ t.returns (h.tick t).2)
        (h.tick t).1 := by
  cases t with
  | install g =>
    refine ⟨done, pending, (List.append_nil _).symm, ?_⟩
    simpa [Tick.installs, Tick.returns, RtHandle.tick] using hc.install g
  | load ctx =>
    cases hpending : pending with
    | nil =>
      subst hpending
      obtain ⟨hloaded, hnext⟩ := hc.load ctx
      refine ⟨done, [(installed.length - 1, ctx)], ?_, ?_⟩
      · rw [hloaded, List.append_nil]
        rfl
      · simpa [Tick.installs, Tick.returns, hloaded] using hnext
    | cons c rest =>
      subst hpending
      refine ⟨done, c :: rest, ?_, ?_⟩
      · rw [hc.load_busy ctx]
        exact (List.append_nil _).symm
      · simpa [Tick.installs, Tick.returns, hc.load_busy ctx] using hc
  | visit =>
    obtain ⟨hevent, hnext⟩ := hc.visit
    refine ⟨done, pending, (List.append_nil _).symm, ?_⟩
    rcases hevent with hevent | hevent <;>
      simpa [Tick.installs, Tick.returns, hevent] using hnext
  | finish =>
    rcases hc.finish with ⟨hidle, hnext⟩ | ⟨c, r, hone, hreturned, hnext⟩
    · refine ⟨done, pending, ?_, ?_⟩
      · rw [hidle]
        exact (List.append_nil _).symm
      · simpa [Tick.installs, Tick.returns, hidle] using hnext
    · subst hone
      refine ⟨done ++ [c], [], by simp [Tick.starts], ?_⟩
      simpa [Tick.installs, Tick.returns, hreturned] using hnext

end Linearized

namespace RtHandle

def started (h : RtHandle P S) (ticks : List (Tick P S)) : List (Nat × ProcessContext) :=
  Transition.log Tick.starts tick h ticks

def returned (h : RtHandle P S) (ticks : List (Tick P S)) : List Return :=
  Transition.log Tick.returns tick h ticks

def installs (g₀ : Graph P S) (ticks : List (Tick P S)) : List (Graph P S) :=
  g₀ :: ticks.flatMap Tick.installs

theorem new_linearized (g₀ : Graph P S) : Linearized [g₀] [] [] [] (new g₀) :=
  ⟨Nat.one_pos, fun _ hc => absurd hc List.not_mem_nil, .nil, rfl, .idle⟩

theorem run_linearized (g₀ : Graph P S) (ticks : List (Tick P S)) :
    ∃ done pending, (new g₀).started ticks = done ++ pending ∧
      Linearized (installs g₀ ticks) done pending ((new g₀).returned ticks)
        ((new g₀).run ticks).1 := by
  have hrun : ∀ (ticks : List (Tick P S)) (h : RtHandle P S) (installed : List (Graph P S))
      (done pending : List (Nat × ProcessContext)) (rs : List Return),
      Linearized installed done pending rs h →
      ∃ done' pending', done ++ pending ++ h.started ticks = done' ++ pending' ∧
        Linearized (installed ++ ticks.flatMap Tick.installs) done' pending'
          (rs ++ h.returned ticks) (h.run ticks).1 := by
    intro ticks
    induction ticks with
    | nil =>
      intro h installed done pending rs hc
      refine ⟨done, pending, List.append_nil _, ?_⟩
      simpa [returned, Transition.log, run] using hc
    | cons t ticks ih =>
      intro h installed done pending rs hc
      obtain ⟨done₁, pending₁, hstarted, hnext⟩ := hc.tick t
      obtain ⟨done', pending', hrest, hend⟩ := ih _ _ _ _ _ hnext
      refine ⟨done', pending', ?_, ?_⟩
      · have hcons : h.started (t :: ticks) =
            t.starts (h.tick t).2 ++ (h.tick t).1.started ticks := rfl
        rw [← hrest, hstarted, hcons, ← List.append_assoc]
      · rw [List.append_assoc, List.append_assoc] at hend
        exact hend
  obtain ⟨done, pending, hstarted, hend⟩ := hrun ticks _ _ _ _ _ (new_linearized g₀)
  exact ⟨done, pending, hstarted, hend⟩

theorem reload_clean_cut (g₀ : Graph P S) (ticks : List (Tick P S)) :
    ∃ done pending,
      (new g₀).started ticks = done ++ pending ∧
      (replay (installs g₀ ticks) done).2 = ((new g₀).returned ticks).map some ∧
      Midway (replay (installs g₀ ticks) done).1 pending ((new g₀).run ticks).1 ∧
      (∀ (k : Nat) (g : Graph P S), (installs g₀ ticks)[k]? = some g →
        (replay (installs g₀ ticks) done).1[k]? =
          some (g.cycles ((done.filter fun c => c.1 = k).map Prod.snd))) ∧
      (((new g₀).started ticks).map Prod.fst).Pairwise (· ≤ ·) ∧
      ∀ pre ctx post k, ticks = pre ++ .load ctx :: post →
        (((new g₀).run pre).1.tick (.load ctx)).2 = .loaded k →
        k + 1 = (installs g₀ pre).length := by
  obtain ⟨done, pending, hstarted, hc⟩ := run_linearized g₀ ticks
  refine ⟨done, pending, hstarted, hc.returned, hc.midway, fun k g hk => replay_at hk, ?_, ?_⟩
  · rw [hstarted]
    exact hc.sorted
  · intro pre ctx post k _ hloaded
    obtain ⟨done', pending', -, hc'⟩ := run_linearized g₀ pre
    have hpos := hc'.nonempty
    cases hpending : pending' with
    | nil =>
      subst hpending
      have hk := (hc'.load ctx).1.symm.trans hloaded
      cases hk
      omega
    | cons c rest =>
      subst hpending
      rw [hc'.load_busy ctx] at hloaded
      cases hloaded

theorem cycle_returns (g₀ : Graph P S) (pre ticks : List (Tick P S)) {c : InFlight}
    (hcycle : ((new g₀).run pre).1.cycle = some c) (hopen : ∀ t ∈ ticks, t ≠ .finish)
    (hvisits : c.rest.length ≤ ticks.countP Tick.visits) :
    ∃ ctx result, (((new g₀).run (pre ++ ticks)).1.tick .finish).2 =
      .returned ⟨c.graph, ctx, result⟩ := by
  obtain ⟨done, pending, -, hc⟩ := run_linearized g₀ pre
  obtain ⟨⟨graphs', pending', hend⟩, ctx, hcycle'⟩ := hc.midway.run_advances hcycle hopen
  obtain ⟨⟨result, hreturned⟩, -⟩ :=
    hend.finish_returns hcycle' (List.drop_eq_nil_of_le hvisits)
  have hrun : ((new g₀).run (pre ++ ticks)).1 = (((new g₀).run pre).1.run ticks).1 := by
    rw [run, Transition.run_append]
    rfl
  rw [hrun]
  exact ⟨ctx, result, hreturned⟩

end RtHandle

end

open PlainCore Sample in
example :
    ((RtHandle.new ready).run
        [.load (), .visit, .install built, .finish, .visit, .finish, .load (), .finish]).2 =
      [.loaded 0, .visited, .installed, .idle, .visited, .returned ⟨0, (), .ok ()⟩, .loaded 1,
        .returned ⟨1, (), .error .notCompiled⟩] := rfl

end AudioGraph
