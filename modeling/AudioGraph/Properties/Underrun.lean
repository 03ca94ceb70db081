import AudioGraph.Properties.Metadata

namespace AudioGraph

open BoundedFifo Overlay

namespace AudioFrame

structure Agrees (f f' : AudioFrame) : Prop where
  channels : f.channels = f'.channels
  sampleRate : f.sampleRate = f'.sampleRate
  samples : Agree f.samples f'.samples

theorem copyFrom_agrees (dst src : AudioFrame) : (dst.copyFrom src).Agrees src :=
  ⟨rfl, rfl, agree_overlay dst.samples src.samples⟩

theorem copyFrom_eq_self {dst src : AudioFrame} (h : dst.Agrees src) : dst.copyFrom src = dst := by
  rw [copyFrom_overlay, overlay_eq_self h.samples, ← h.channels, ← h.sampleRate]

end AudioFrame

section

variable [AudioCore] {Q R : Type}

def Act.FeedsPort (node : NodeId) (port : PortIdx) : Act Q R → Prop
  | .call (.feed target p _) => target = node ∧ p = port
  | _ => False

def Act.Cycles : Act Q R → Prop
  | .call (.processCycle _) => True
  | _ => False

def RingSource.advanced (n : RingSource) : RingSource :=
  match n.consumer.pop with
  | some (frame, consumer) => { n with consumer := consumer, last := n.last.copyFrom frame }
  | none => n

theorem RingSource.process_slot (n : RingSource) (ctx : ProcessContext) (i : List AudioFrame)
    (out : AudioFrame) :
    n.process ctx i [out] = ⟨n.advanced, ctx, [out.copyFrom n.emitted]⟩ := by
  unfold advanced emitted
  cases hpop : n.consumer.pop with
  | none => rw [process_of_empty hpop]
  | some popped => rw [process_of_pop hpop]

structure SourceState where
  source : RingSource
  slot : AudioFrame

namespace SourceState

def cycled (v : SourceState) : SourceState := ⟨v.source.advanced, v.slot.copyFrom v.source.emitted⟩

def pushed (v : SourceState) (frame : AudioFrame) : SourceState :=
  match v.source.consumer.push frame with
  | some ring => { v with source.consumer := ring }
  | none => v

omit [AudioCore] in
@[simp] theorem pushed_slot (v : SourceState) (frame : AudioFrame) :
    (v.pushed frame).slot = v.slot := by
  unfold pushed
  split <;> rfl

omit [AudioCore] in
@[simp] theorem pushed_last (v : SourceState) (frame : AudioFrame) :
    (v.pushed frame).source.last = v.source.last := by
  unfold pushed
  split <;> rfl

def Matched (v : SourceState) : Prop := Agree v.slot.samples v.source.last.samples

omit [AudioCore] in
theorem Matched.cycled {v : SourceState} (h : v.Matched) :
    v.cycled.slot.Agrees v.cycled.source.last := by
  unfold SourceState.cycled RingSource.advanced RingSource.emitted
  cases v.source.consumer.pop with
  | none => exact AudioFrame.copyFrom_agrees v.slot v.source.last
  | some popped => exact ⟨rfl, rfl, h.overlay popped.1.samples⟩

omit [AudioCore] in
theorem cycled_of_empty {v : SourceState} (h : v.slot.Agrees v.source.last)
    (hempty : v.source.consumer.pop = none) : v.cycled.slot = v.slot := by
  simp only [SourceState.cycled, RingSource.emitted, hempty]
  exact AudioFrame.copyFrom_eq_self h

omit [AudioCore] in
theorem cycled_of_pop {v : SourceState} {frame : AudioFrame} {ring : RingBuffer AudioFrame}
    (h : v.source.consumer.pop = some (frame, ring)) :
    v.cycled.slot = v.slot.copyFrom frame := by
  simp only [SourceState.cycled, RingSource.emitted, h]

def act (node : NodeId) (v : SourceState) : Act Q R → SourceState
  | .call (.processCycle _) => v.cycled
  | .call (.feed target port src) =>
    if target = node ∧ port = 0 then { v with slot := v.slot.copyFrom src } else v
  | .push target frame => if target = node then v.pushed frame else v
  | _ => v

variable {node : NodeId} {v : SourceState}

theorem act_cases (node : NodeId) (v : SourceState) (a : Act Q R) :
    v.act node a = v ∨ (∃ frame, v.act node a = v.pushed frame) ∨
      (a.Cycles ∧ v.act node a = v.cycled) ∨
      a.FeedsPort node 0 ∧ ∃ src, v.act node a = { v with slot := v.slot.copyFrom src } := by
  cases a with
  | call op =>
    cases op with
    | feed target port src =>
      by_cases hport : target = node ∧ port = 0
      · exact .inr (.inr (.inr ⟨hport, src, if_pos hport⟩))
      · exact .inl (if_neg hport)
    | processCycle ctx => exact .inr (.inr (.inl ⟨trivial, rfl⟩))
    | _ => exact .inl rfl
  | push target frame =>
    by_cases htarget : target = node
    · exact .inr (.inl ⟨frame, if_pos htarget⟩)
    · exact .inl (if_neg htarget)
  | _ => exact .inl rfl

theorem Matched.act (h : v.Matched) {a : Act Q R} (ha : ¬ a.FeedsPort node 0) :
    (v.act node a).Matched := by
  rcases v.act_cases node a with heq | ⟨frame, heq⟩ | ⟨-, heq⟩ | ⟨hfeeds, -⟩
  · rw [heq]
    exact h
  · rw [heq, Matched, pushed_slot, pushed_last]
    exact h
  · rw [heq]
    exact h.cycled.samples
  · exact absurd hfeeds ha

theorem Matched.play (h : v.Matched) {acts : List (Act Q R)}
    (hacts : ∀ a ∈ acts, ¬ a.FeedsPort node 0) : (acts.foldl (SourceState.act node) v).Matched :=
  List.foldlRecOn acts _ h fun _ hw a ha => hw.act (hacts a ha)

theorem act_len (v : SourceState) (a : Act Q R) : (v.act node a).slot.len = v.slot.len := by
  rcases v.act_cases node a with heq | ⟨frame, heq⟩ | ⟨-, heq⟩ | ⟨-, src, heq⟩
  · rw [heq]
  · rw [heq, pushed_slot]
  · rw [heq]
    exact AudioFrame.copyFrom_len v.slot v.source.emitted
  · rw [heq]
    exact AudioFrame.copyFrom_len v.slot src

theorem play_len (v : SourceState) (acts : List (Act Q R)) :
    (acts.foldl (SourceState.act node) v).slot.len = v.slot.len := by
  induction acts generalizing v with
  | nil => rfl
  | cons a acts ih => exact (ih (v.act node a)).trans (v.act_len a)

theorem act_quiet (v : SourceState) {a : Act Q R} (hfeed : ¬ a.FeedsPort node 0)
    (hcycle : ¬ a.Cycles) :
    (v.act node a).slot = v.slot ∧ (v.act node a).source.last = v.source.last := by
  rcases v.act_cases node a with heq | ⟨frame, heq⟩ | ⟨hcycles, -⟩ | ⟨hfeeds, -⟩
  · rw [heq]
    exact ⟨rfl, rfl⟩
  · rw [heq]
    exact ⟨pushed_slot v frame, pushed_last v frame⟩
  · exact absurd hcycles hcycle
  · exact absurd hfeeds hfeed

theorem play_quiet (v : SourceState) {acts : List (Act Q R)}
    (hacts : ∀ a ∈ acts, ¬ a.FeedsPort node 0 ∧ ¬ a.Cycles) :
    (acts.foldl (SourceState.act node) v).slot = v.slot ∧
      (acts.foldl (SourceState.act node) v).source.last = v.source.last := by
  induction acts generalizing v with
  | nil => exact ⟨rfl, rfl⟩
  | cons a acts ih =>
    obtain ⟨hfeed, hcycle⟩ := hacts a (by simp)
    obtain ⟨hslot, hlast⟩ := act_quiet v hfeed hcycle
    obtain ⟨hslots, hlasts⟩ := ih (v.act node a) fun b hb => hacts b (by simp [hb])
    exact ⟨hslots.trans hslot, hlasts.trans hlast⟩

end SourceState

namespace Graph

variable {config : GraphConfig} {built ready g : Graph (DynNode Q) (DynSink R)} {node : NodeId}
  {v : SourceState}

structure HoldsSource (ready : Graph (DynNode Q) (DynSink R)) (node : NodeId)
    (g : Graph (DynNode Q) (DynSink R)) (v : SourceState) : Prop where
  steady : Steady (fun _ => ()) ready g
  source : g.scratch.nodes[node]? = some (.plain (.ringSource v.source))
  slot : g.scratch.outputScratch[node]? = some [v.slot]

omit [AudioCore] in
theorem HoldsSource.readOutput (h : HoldsSource ready node g v) :
    g.readOutput node 0 = some v.slot := by
  simp [Graph.readOutput, frameAt, h.slot]

omit [AudioCore] in
theorem HoldsSource.sourceAt (h : HoldsSource ready node g v) : g.sourceAt node = some v.source :=
  sourceAt_eq_some.mpr h.source

variable [AudioNode Q] [SinkNode R]

theorem HoldsSource.cycle (hc : Compiled config built ready) (h : HoldsSource ready node g v)
    (ctx : ProcessContext) : HoldsSource ready node (g.processCycle ctx).1 v.cycled := by
  have hrun : (Op.processCycle ctx : Op (DynNode Q) (DynSink R)).runs := trivial
  have hlt : node < g.nodeCount := (List.getElem?_eq_some_iff.mp h.source).1
  obtain ⟨c, rfl, hsync⟩ := h.steady.exists_call hc ctx hlt
  have hslot : c.slot = .plain (.ringSource v.source) :=
    Option.some.inj (hsync.state.symm.trans h.source)
  have houts : c.outFrames = [v.slot] := Option.some.inj (hsync.outputs.symm.trans h.slot)
  have hresult : c.result =
      ((v.source.process c.ctx c.inFrames [v.slot]).map .ringSource).map .plain := by
    rw [Call.result, hslot, houts]
    rfl
  rw [RingSource.process_slot] at hresult
  have hnext := hsync.next_state
  have hnextOut := hsync.next_outputs
  rw [hresult] at hnext hnextOut
  exact ⟨h.steady.step measured_unit hrun, hnext, hnextOut⟩

theorem HoldsSource.feed (h : HoldsSource ready node g v) (target : NodeId) (port : PortIdx)
    (src : AudioFrame) :
    HoldsSource ready node (g.feed target port src)
      (if target = node ∧ port = 0 then { v with slot := v.slot.copyFrom src } else v) := by
  have hrun : (Op.feed target port src : Op (DynNode Q) (DynSink R)).runs := trivial
  have hsteady := h.steady.step measured_unit hrun
  have hnode : (g.feed target port src).scratch.nodes[node]? =
      some (.plain (.ringSource v.source)) := by
    rw [feed_nodes]
    exact h.source
  have hcell := congrArg Cell.outFrames (feed_cells g target port src node)
  have hrow : (g.scratch.cells node).outFrames = some [v.slot] := h.slot
  by_cases hport : target = node ∧ port = 0
  · obtain ⟨rfl, rfl⟩ := hport
    rw [if_pos ⟨rfl, rfl⟩]
    refine ⟨hsteady, hnode, hcell.trans ?_⟩
    rw [if_pos rfl, Cell.feed, hrow]
    rfl
  · rw [if_neg hport]
    refine ⟨hsteady, hnode, hcell.trans ?_⟩
    by_cases htarget : target = node
    · obtain ⟨port, rfl⟩ : ∃ p, port = p + 1 :=
        Nat.exists_eq_succ_of_ne_zero fun hzero => hport ⟨htarget, hzero⟩
      rw [if_pos htarget.symm, Cell.feed, hrow]
      simp
    · rw [if_neg (Ne.symm htarget)]
      exact h.slot

theorem HoldsSource.flushSinks (h : HoldsSource ready node g v) :
    HoldsSource ready node g.flushSinks.1 v := by
  have hrun : (Op.flushSinks : Op (DynNode Q) (DynSink R)).runs := trivial
  refine ⟨h.steady.step measured_unit hrun, ?_, ?_⟩
  · rw [flushSinks_eq]
    simp only [List.getElem?_map, h.source]
    rfl
  · rw [flushSinks_eq]
    exact h.slot

theorem HoldsSource.flushSink (h : HoldsSource ready node g v) (target : NodeId) :
    HoldsSource ready node (g.flushSink target).1 v := by
  have hrun : (Op.flushSink target : Op (DynNode Q) (DynSink R)).runs := trivial
  refine ⟨h.steady.step measured_unit hrun, ?_, ?_⟩
  · rw [flushSink_nodes, List.getElem?_modify, h.source]
    split <;> rfl
  · rw [flushSink_eq]
    exact h.slot

omit [AudioCore] [AudioNode Q] [SinkNode R] in
theorem HoldsSource.push (h : HoldsSource ready node g v) (target : NodeId) (frame : AudioFrame) :
    HoldsSource ready node (g.pushSource target frame).1
      (if target = node then v.pushed frame else v) := by
  by_cases htarget : target = node
  · subst htarget
    rw [if_pos rfl, SourceState.pushed, pushSource, h.sourceAt, Option.bind_some]
    cases v.source.consumer.push frame with
    | none => exact h
    | some ring =>
      refine ⟨h.steady.setNodes (by simp), ?_, h.slot⟩
      simp [Graph.setConsumer, h.source]
  · rw [if_neg htarget]
    rcases pushSource_cases g target frame with heq | ⟨n, ring, -, -, heq⟩
    · rw [heq]
      exact h
    · rw [heq]
      refine ⟨h.steady.setNodes (by simp), ?_, h.slot⟩
      simp [Graph.setConsumer, htarget, h.source]

omit [AudioCore] [AudioNode Q] [SinkNode R] in
theorem HoldsSource.pop (h : HoldsSource ready node g v) (sink : NodeId) :
    HoldsSource ready node (g.popSink sink).1 v := by
  rcases popSink_cases g sink with heq | ⟨n, frame, ring, hn, -, heq⟩
  · rw [heq]
    exact h
  · have hne : sink ≠ node := by
      rintro rfl
      cases hn.symm.trans h.source
    rw [heq]
    refine ⟨h.steady.setNodes (by simp), ?_, h.slot⟩
    simp [setProducer, hne, h.source]

theorem HoldsSource.act (hc : Compiled config built ready) (h : HoldsSource ready node g v)
    {a : Act Q R}
    (ha : a.plays) : HoldsSource ready node (g.act a).1 (v.act node a) := by
  cases a with
  | call op =>
    cases op with
    | feed target port src => exact h.feed target port src
    | processCycle ctx => exact h.cycle hc ctx
    | flushSinks => exact h.flushSinks
    | flushSink target => exact h.flushSink target
    | _ => cases ha
  | push target frame => exact h.push target frame
  | pop sink => exact h.pop sink
  | readInput id port => exact h
  | readOutput id port => exact h

theorem HoldsSource.play (hc : Compiled config built ready) (h : HoldsSource ready node g v)
    {acts : List (Act Q R)} (hacts : ∀ a ∈ acts, a.plays) :
    HoldsSource ready node (g.play acts).1 (acts.foldl (SourceState.act node) v) := by
  induction acts generalizing g v with
  | nil => exact h
  | cons a acts ih =>
    exact ih (h.act hc (hacts a (by simp))) fun b hb => hacts b (by simp [hb])

theorem play_concat (g : Graph (DynNode Q) (DynSink R)) (acts : List (Act Q R)) (a : Act Q R) :
    (g.play (acts ++ [a])).1 = ((g.play acts).1.act a).1 := by
  simp [Graph.play, Transition.run_append]

theorem Compiled.holdsSource (hc : Compiled config built ready) {n : RingSource}
    (hn : ready.sourceAt node = some n) :
    HoldsSource ready node ready
      ⟨n, silence config.channels config.numFrames config.sampleRate⟩ := by
  have hnode := sourceAt_eq_some.mp hn
  refine ⟨.refl _ ready, hnode, ?_⟩
  rw [hc.nodes] at hnode
  rw [hc.outputs, List.getElem?_map, hnode]
  rfl

theorem underrun_holds (hcompile : built.compile config = (ready, .ok ()))
    {ring : RingBuffer AudioFrame} {channels : UInt16} {rate : UInt32} {numFrames : Nat}
    (hnew : ready.sourceAt node = some (RingSource.new ring channels rate numFrames)) :
    (∀ (acts : List (Act Q R)) ctx, (∀ a ∈ acts, a.plays ∧ ¬ a.FeedsPort node 0) →
      ∃ n out, (ready.play (acts ++ [.call (.processCycle ctx)])).1.sourceAt node = some n ∧
        (ready.play (acts ++ [.call (.processCycle ctx)])).1.readOutput node 0 = some out ∧
        out.Agrees n.last) ∧
    ∀ (acts quiet : List (Act Q R)) ctx ctx',
      (∀ a ∈ acts ++ quiet, a.plays ∧ ¬ a.FeedsPort node 0) → (∀ a ∈ quiet, ¬ a.Cycles) →
      let cycled := (ready.play (acts ++ [.call (.processCycle ctx)])).1
      let later := (cycled.play quiet).1
      (∀ n, later.sourceAt node = some n → n.consumer.pop = none) →
      (later.processCycle ctx').1.readOutput node 0 = cycled.readOutput node 0 := by
  have hc := compiled_of_compile hcompile
  have hholds := hc.holdsSource hnew
  let v : SourceState := ⟨RingSource.new ring channels rate numFrames,
    silence config.channels config.numFrames config.sampleRate⟩
  have hmatched : v.Matched := by
    simp only [SourceState.Matched, v, RingSource.new, AudioCore.silence_samples]
    exact agree_replicate _ _ 0
  have hcycled : ∀ (acts : List (Act Q R)) ctx, (∀ a ∈ acts, a.plays ∧ ¬ a.FeedsPort node 0) →
      ∃ w : SourceState, w.slot.Agrees w.source.last ∧
        HoldsSource ready node (ready.play (acts ++ [.call (.processCycle ctx)])).1 w := by
    intro acts ctx hacts
    refine ⟨_, (hmatched.play fun a ha => (hacts a ha).2).cycled, ?_⟩
    rw [play_concat]
    exact (hholds.play hc fun a ha => (hacts a ha).1).cycle hc ctx
  refine ⟨fun acts ctx hacts => ?_, fun acts quiet ctx ctx' hacts hquiet => ?_⟩
  · obtain ⟨w, hagrees, hw⟩ := hcycled acts ctx hacts
    exact ⟨w.source, w.slot, hw.sourceAt, hw.readOutput, hagrees⟩
  · intro cycled later hempty
    obtain ⟨w, hagrees, hw⟩ := hcycled acts ctx fun a ha => hacts a (by simp [ha])
    have hmid : ∀ a ∈ quiet, a.plays ∧ ¬ a.FeedsPort node 0 := fun a ha => hacts a (by simp [ha])
    have hlater := hw.play hc fun a ha => (hmid a ha).1
    obtain ⟨hslot, hlast⟩ := w.play_quiet fun a ha => ⟨(hmid a ha).2, hquiet a ha⟩
    have hheld := SourceState.cycled_of_empty (hslot ▸ hlast ▸ hagrees) (hempty _ hlater.sourceAt)
    rw [(hlater.cycle hc ctx').readOutput, hheld, hslot]
    exact hw.readOutput.symm

theorem HoldsSource.cycle_of_pop (hc : Compiled config built ready) (h : HoldsSource ready node g v)
    {frame : AudioFrame} {ring : RingBuffer AudioFrame}
    (hpop : v.source.consumer.pop = some (frame, ring)) (ctx : ProcessContext) :
    (g.processCycle ctx).1.readOutput node 0 =
      some ⟨frame.channels, frame.sampleRate,
        frame.samples.take v.slot.len ++ v.slot.samples.drop frame.len⟩ := by
  rw [(h.cycle hc ctx).readOutput, SourceState.cycled_of_pop hpop, AudioFrame.copyFrom_overlay,
    overlay_eq]
  rfl

theorem Compiled.pop_emits (hc : Compiled config built ready) {n m : RingSource}
    (hn : ready.sourceAt node = some n) {acts : List (Act Q R)} (hacts : ∀ a ∈ acts, a.plays)
    (hm : (ready.play acts).1.sourceAt node = some m) {frame : AudioFrame}
    {ring : RingBuffer AudioFrame} (hpop : m.consumer.pop = some (frame, ring))
    (ctx : ProcessContext) :
    ∃ held, (ready.play acts).1.readOutput node 0 = some held ∧ held.len = config.frameLen ∧
      ((ready.play acts).1.processCycle ctx).1.readOutput node 0 =
        some ⟨frame.channels, frame.sampleRate,
          frame.samples.take config.frameLen ++ held.samples.drop frame.len⟩ := by
  have hholds := (hc.holdsSource hn).play hc hacts
  rw [hholds.sourceAt, Option.some.injEq] at hm
  have hlen : (acts.foldl (SourceState.act node)
      ⟨n, silence config.channels config.numFrames config.sampleRate⟩).slot.len =
        config.frameLen := (SourceState.play_len _ acts).trans (silence_len _ _ _)
  refine ⟨_, hholds.readOutput, hlen, ?_⟩
  rw [hholds.cycle_of_pop hc (hm ▸ hpop) ctx, hlen]

theorem popped_frame_emitted (hcompile : built.compile config = (ready, .ok ())) {n : RingSource}
    (hn : ready.sourceAt node = some n) {acts acts' : List (Act Q R)}
    (hacts : ∀ a ∈ acts, a.plays) (hacts' : ∀ a ∈ acts', a.plays) {m m' : RingSource}
    (hm : (ready.play acts).1.sourceAt node = some m)
    (hm' : (ready.play acts').1.sourceAt node = some m') {frame : AudioFrame}
    {ring ring' : RingBuffer AudioFrame} (hpop : m.consumer.pop = some (frame, ring))
    (hpop' : m'.consumer.pop = some (frame, ring')) (ctx ctx' : ProcessContext) :
    ∃ held held', (ready.play acts).1.readOutput node 0 = some held ∧
      (ready.play acts').1.readOutput node 0 = some held' ∧
      held.len = config.frameLen ∧ held'.len = config.frameLen ∧
      ((ready.play acts).1.processCycle ctx).1.readOutput node 0 =
        some ⟨frame.channels, frame.sampleRate,
          frame.samples.take config.frameLen ++ held.samples.drop frame.len⟩ ∧
      ((ready.play acts').1.processCycle ctx').1.readOutput node 0 =
        some ⟨frame.channels, frame.sampleRate,
          frame.samples.take config.frameLen ++ held'.samples.drop frame.len⟩ ∧
      (((ready.play acts).1.processCycle ctx).1.readOutput node 0 =
          ((ready.play acts').1.processCycle ctx').1.readOutput node 0 ↔
        held.samples.drop frame.len = held'.samples.drop frame.len) ∧
      (config.frameLen ≤ frame.len →
        ((ready.play acts).1.processCycle ctx).1.readOutput node 0 =
          ((ready.play acts').1.processCycle ctx').1.readOutput node 0) := by
  have hc := compiled_of_compile hcompile
  obtain ⟨held, hheld, hlen, hout⟩ := hc.pop_emits hn hacts hm hpop ctx
  obtain ⟨held', hheld', hlen', hout'⟩ := hc.pop_emits hn hacts' hm' hpop' ctx'
  have hiff : ((ready.play acts).1.processCycle ctx).1.readOutput node 0 =
      ((ready.play acts').1.processCycle ctx').1.readOutput node 0 ↔
        held.samples.drop frame.len = held'.samples.drop frame.len := by
    rw [hout, hout', Option.some.injEq, AudioFrame.mk.injEq, List.append_cancel_left_eq]
    simp only [true_and]
  refine ⟨held, held', hheld, hheld', hlen, hlen', hout, hout', hiff, fun hlong => ?_⟩
  rw [hiff, List.drop_eq_nil_of_le (hlen.trans_le hlong),
    List.drop_eq_nil_of_le (hlen'.trans_le hlong)]

end Graph

end

namespace Sample

open BoundedFifo PlainCore

def lone : List (Op (DynNode RingSource) (DynSink RingSink)) :=
  [.addNode (.ringSource (RingSource.new (RingBuffer.new 2) 1 48000 2))]

def loneBuilt : Graph (DynNode RingSource) (DynSink RingSink) := (Graph.new.run lone).1

def loneReady : Graph (DynNode RingSource) (DynSink RingSink) := (loneBuilt.compile config).1

def short : AudioFrame := ⟨1, 48000, [⟨9⟩]⟩

end Sample

open BoundedFifo PlainCore Sample in
theorem underrun_holds_lone :
    ((loneReady.play [.push 0 frame, .call (.processCycle ())]).1.processCycle ()).1.readOutput
        0 0 =
      (loneReady.play [.push 0 frame, .call (.processCycle ())]).1.readOutput 0 0 := by
  have hcompile : loneBuilt.compile config = (loneReady, .ok ()) := rfl
  have hnew : loneReady.sourceAt 0 = some (RingSource.new (RingBuffer.new 2) 1 48000 2) := rfl
  refine (Graph.underrun_holds hcompile hnew).2 [.push 0 frame] [] () () ?_ (by simp) ?_
  · simp [Act.plays, Act.FeedsPort]
  · rintro n hn
    cases hn
    rfl

open BoundedFifo PlainCore Sample in
theorem popped_frame_emitted_lone :
    ((loneReady.play [.push 0 frame]).1.processCycle ()).1.readOutput 0 0 =
      ((loneReady.play [.call (.processCycle ()), .push 0 frame]).1.processCycle ()).1.readOutput
        0 0 := by
  have hcompile : loneBuilt.compile config = (loneReady, .ok ()) := rfl
  have hn : loneReady.sourceAt 0 = some (RingSource.new (RingBuffer.new 2) 1 48000 2) := rfl
  have hacts : ∀ a ∈ ([.push 0 frame] : List (Act RingSource RingSink)), a.plays := by
    simp [Act.plays]
  have hacts' : ∀ a ∈ ([.call (.processCycle ()), .push 0 frame] : List (Act RingSource RingSink)),
      a.plays := by
    simp [Act.plays, Op.runs]
  obtain ⟨held, held', -, -, -, -, -, -, -, hlong⟩ :=
    Graph.popped_frame_emitted hcompile hn hacts hacts' rfl rfl rfl rfl () ()
  exact hlong (by decide)

-- A frame of one sample into a slot of two: the second sample is left from the frame before it.
open BoundedFifo PlainCore Sample in
theorem short_frame_leaves_stale_tail :
    ¬ ∀ (config : GraphConfig) (built ready : Graph (DynNode RingSource) (DynSink RingSink))
        (node : NodeId) (ring : RingBuffer AudioFrame) (channels : UInt16)
        (rate : UInt32) (numFrames : Nat) (acts acts' : List (Act RingSource RingSink))
        (n n' : RingSource) (frame : AudioFrame),
      Graph.Built built → built.compile config = (ready, .ok ()) →
      ready.sourceAt node = some (RingSource.new ring channels rate numFrames) →
      (∀ a ∈ acts ++ acts', a.plays ∧ ¬ a.FeedsPort node 0) →
      (ready.play acts).1.sourceAt node = some n →
      (ready.play acts').1.sourceAt node = some n' →
      n.consumer.pop.map Prod.fst = some frame → n'.consumer.pop.map Prod.fst = some frame →
      ((ready.play acts).1.processCycle ()).1.readOutput node 0 =
        ((ready.play acts').1.processCycle ()).1.readOutput node 0 := by
  intro h
  have hbuilt : Graph.Built loneBuilt := ⟨lone, by simp [lone, Op.builds], rfl⟩
  have hsame := h config loneBuilt loneReady 0 (RingBuffer.new 2) 1 48000 2
    [.push 0 frame, .call (.processCycle ()), .push 0 short] [.push 0 short] _ _ short hbuilt rfl
    rfl (by simp [Act.plays, Op.runs, Act.FeedsPort]) rfl rfl rfl rfl
  have hsamples := congrArg (Option.map AudioFrame.samples) hsame
  exact absurd hsamples (by decide)

end AudioGraph
