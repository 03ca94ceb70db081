import AudioGraph.Properties.Buffers
import AudioGraph.Properties.Dataflow
import Mathlib.Algebra.Ring.Nat

namespace AudioGraph

open BoundedFifo

class KeepsShape (N : Type) [AudioCore] [AudioNode N] : Prop where
  process_shapes : ∀ (n : N) ctx i o,
    (process n ctx i o).outputs.map (fun f => (f.channels, f.len)) =
      o.map fun f => (f.channels, f.len)

theorem KeepsShape.keepsLengths {N : Type} [AudioCore] [AudioNode N] [KeepsShape N] :
    KeepsLengths N where
  process_lens n ctx i o := by
    have hlens := congrArg (List.map Prod.snd) (KeepsShape.process_shapes n ctx i o)
    simpa only [List.map_map, Function.comp_def] using hlens

instance [AudioCore] : KeepsShape RingSink where
  process_shapes n ctx i o := by cases i <;> rfl

def AudioFrame.Planar (config : GraphConfig) (f : AudioFrame) : Prop :=
  f.samples.length = f.channels.toNat * config.numFrames

def AudioFrame.WellShaped (f : AudioFrame) : Prop := f.channels.toNat ∣ f.samples.length

def AudioFrame.Fits (config : GraphConfig) (f : AudioFrame) : Prop :=
  f.channels = config.channels ∨ config.numFrames = 0

theorem AudioFrame.planar_iff_fits {config : GraphConfig} {f : AudioFrame}
    (hlen : f.len = config.frameLen) : f.Planar config ↔ f.Fits config := by
  have hsamples : f.samples.length = config.channels.toNat * config.numFrames := hlen
  rw [Planar, Fits, hsamples, mul_eq_mul_right_iff, UInt16.toNat_inj, @eq_comm _ f.channels]

section

variable {P S : Type}

def EveryFrame (p : AudioFrame → Prop) (table : List (List AudioFrame)) : Prop :=
  ∀ row ∈ table, ∀ f ∈ row, p f

structure Framed (p : AudioFrame → Prop) (s : GraphScratch P S) : Prop where
  inputs : EveryFrame p s.inputScratch
  outputs : EveryFrame p s.outputScratch

structure Copyable (p : AudioFrame → Prop) : Prop where
  copyFrom : ∀ dst src : AudioFrame, p src → p (dst.copyFrom src)
  silenced : ∀ f : AudioFrame, p f → p f.silenced

variable {p : AudioFrame → Prop} {table : List (List AudioFrame)}

theorem EveryFrame.set (h : EveryFrame p table) {n : Nat} {row : List AudioFrame}
    (hrow : ∀ f ∈ row, p f) : EveryFrame p (table.set n row) := by
  intro row' hmem
  rcases List.mem_or_eq_of_mem_set hmem with hmem | rfl
  · exact h row' hmem
  · exact hrow

theorem EveryFrame.at (h : EveryFrame p table) {slot : NodeId × PortIdx} {f : AudioFrame}
    (hf : frameAt table slot = some f) : p f := by
  obtain ⟨row, hrow, hat⟩ := Option.bind_eq_some_iff.mp hf
  exact h row (List.mem_of_getElem? hrow) f (List.mem_of_getElem? hat)

theorem EveryFrame.row (h : EveryFrame p table) {n : Nat} {row : List AudioFrame}
    (hrow : table[n]? = some row) : ∀ f ∈ row, p f := h row (List.mem_of_getElem? hrow)

theorem EveryFrame.congr {q p' : AudioFrame → Prop} (hq : EveryFrame q table)
    (h : ∀ f, q f → (p f ↔ p' f)) : EveryFrame p table ↔ EveryFrame p' table :=
  ⟨fun hp row hrow f hf => (h f (hq row hrow f hf)).mp (hp row hrow f hf),
    fun hp row hrow f hf => (h f (hq row hrow f hf)).mpr (hp row hrow f hf)⟩

theorem Copyable.fillSlots (hp : Copyable p) {edges : List Edge}
    {source : NodeId × PortIdx → Option AudioFrame} (hsource : ∀ slot f, source slot = some f → p f)
    {n : NodeId} {slots : List AudioFrame} (hslots : ∀ f ∈ slots, p f) :
    ∀ f ∈ AudioGraph.fillSlots edges source n slots, p f := by
  intro f hf
  obtain ⟨pi, hlt, rfl⟩ := List.mem_mapIdx.mp hf
  have hslot : p slots[pi] := hslots _ (List.getElem_mem hlt)
  unfold fillSlot
  split
  · split
    · rename_i srcFrame hsrc
      exact hp.copyFrom _ _ (hsource _ _ hsrc)
    · exact hslot
  · exact hp.silenced _ hslot

theorem Graph.feed_framed (hp : Copyable p) {g : Graph P S} (h : Framed p g.scratch)
    {node : NodeId} {port : PortIdx} {src : AudioFrame}
    (hsrc : frameAt g.scratch.outputScratch (node, port) ≠ none → p src) :
    Framed p (g.feed node port src).scratch := by
  unfold Graph.feed
  split
  · exact h
  · rename_i slots hslots
    split
    · exact h
    · rename_i dst hdst
      have hport : frameAt g.scratch.outputScratch (node, port) ≠ none := by
        simp [frameAt, hslots, hdst]
      refine ⟨h.inputs, h.outputs.set fun f hf => ?_⟩
      rcases List.mem_or_eq_of_mem_set hf with hf | rfl
      · exact h.outputs.row hslots f hf
      · exact hp.copyFrom dst src (hsrc hport)

variable [AudioCore] [AudioNode P] [SinkNode S]

def Emits (p : AudioFrame → Prop) (s : GraphScratch P S) (n : NodeId) : Prop :=
  ∀ node outSlots, s.nodes[n]? = some node → s.outputScratch[n]? = some outSlots →
    ∀ ctx i, ∀ f ∈ (process node ctx i outSlots).outputs, p f

theorem emits_of_cell {s t : GraphScratch P S} {n : NodeId} (hcell : t.cells n = s.cells n)
    (h : Emits p s n) : Emits p t n := by
  intro node outSlots hnode hout
  have hn : t.nodes[n]? = s.nodes[n]? := congrArg Cell.node hcell
  have ho : t.outputScratch[n]? = s.outputScratch[n]? := congrArg Cell.outFrames hcell
  exact h node outSlots (hn ▸ hnode) (ho ▸ hout)

theorem Framed.visit (hp : Copyable p) (edges : List Edge) {s : GraphScratch P S}
    (h : Framed p s) (ctx : ProcessContext) {n : NodeId} (hn : Emits p s n) :
    Framed p (AudioGraph.visit edges (s, ctx) n).1 := by
  have hins : ∀ slots, s.inputScratch[n]? = some slots →
      EveryFrame p
        (s.inputScratch.set n (fillSlots edges (frameAt s.outputScratch) n slots)) :=
    fun slots hin => h.inputs.set (hp.fillSlots (fun _ _ hf => h.outputs.at hf) (h.inputs.row hin))
  rcases visit_cases edges s ctx n with ⟨-, heq⟩ | ⟨slots, hin, -, heq⟩ |
    ⟨slots, outSlots, node, hin, hout, hnode, heq⟩
  · rw [heq]
    exact h
  · rw [heq]
    exact ⟨hins slots hin, h.outputs⟩
  · rw [heq]
    exact ⟨hins slots hin, h.outputs.set (hn node outSlots hnode hout ctx _)⟩

-- No node is visited twice, so that each is still as the cycle found it when its turn comes.
theorem Framed.cycle (hp : Copyable p) (edges : List Edge) {order : List NodeId}
    (hd : order.Nodup) {s : GraphScratch P S} (h : Framed p s) (ctx : ProcessContext)
    (hemits : ∀ n ∈ order, Emits p s n) : Framed p (AudioGraph.cycle edges order (s, ctx)).1 := by
  induction order generalizing s ctx with
  | nil => exact h
  | cons n order ih =>
    obtain ⟨hn, hd⟩ := List.nodup_cons.mp hd
    refine ih hd (h.visit hp edges ctx (hemits n (by simp))) _ fun m hm => ?_
    have hne : m ∉ [n] := fun hmn => hn (List.mem_singleton.mp hmn ▸ hm)
    exact emits_of_cell (cycle_frame hne (s, ctx)) (hemits m (by simp [hm]))

end

section

variable [AudioCore] {Q R : Type}

def RingSource.emitted (n : RingSource) : AudioFrame :=
  match n.consumer.pop with
  | some (frame, _) => frame
  | none => n.last

theorem RingSource.process_outputs (n : RingSource) (ctx : ProcessContext)
    (i rest : List AudioFrame) (out : AudioFrame) :
    (n.process ctx i (out :: rest)).outputs = out.copyFrom n.emitted :: rest := by
  unfold emitted
  cases hpop : n.consumer.pop with
  | none => rw [process_of_empty hpop]
  | some popped => rw [process_of_pop hpop]

def Act.Carries (config : GraphConfig) (g : Graph (DynNode Q) (DynSink R)) : Act Q R → Prop
  | .call (.feed node port src) => g.readOutput node port ≠ none → src.Fits config
  | .call (.processCycle _) =>
    ∀ node n, g.sourceAt node = some n → g.readOutput node 0 ≠ none → n.emitted.Fits config
  | _ => True

omit [AudioCore] in
theorem fits_copyable (config : GraphConfig) : Copyable (AudioFrame.Fits config) where
  copyFrom _ _ h := h
  silenced _ h := h

omit [AudioCore] in
theorem everyFrame_of_rows {τ : Type} {measure : AudioFrame → τ} {q : τ → Prop}
    {table table' : List (List AudioFrame)} (h : rows measure table = rows measure table')
    (h' : EveryFrame (fun f => q (measure f)) table') :
    EveryFrame (fun f => q (measure f)) table := by
  intro row hrow f hf
  have hmem : row.map measure ∈ rows measure table := List.mem_map_of_mem hrow
  rw [h] at hmem
  obtain ⟨row', hrow', heq⟩ := List.mem_map.mp hmem
  have hm : measure f ∈ row'.map measure := heq ▸ List.mem_map_of_mem hf
  obtain ⟨f', hf', heq'⟩ := List.mem_map.mp hm
  exact heq' ▸ h' row' hrow' f' hf'

theorem everyFrame_portFrames {N : Type} {p : AudioFrame → Prop} {config : GraphConfig}
    (hp : p (silence config.channels config.numFrames config.sampleRate)) (nodes : List N)
    (ports : N → List PortDescriptor) :
    EveryFrame p (nodes.map fun n => portFrames config (ports n)) := by
  intro row hrow f hf
  obtain ⟨n, -, rfl⟩ := List.mem_map.mp hrow
  obtain ⟨port, -, rfl⟩ := List.mem_map.mp hf
  exact hp

variable [AudioNode Q] [SinkNode R]

omit [AudioCore] in
theorem fits_of_shapes {config : GraphConfig} {l l' : List AudioFrame}
    (h : l'.map (fun f => (f.channels, f.len)) = l.map fun f => (f.channels, f.len))
    (hl : ∀ f ∈ l, f.Fits config) : ∀ f ∈ l', f.Fits config := by
  intro f hf
  have hmem : (f.channels, f.len) ∈ l'.map fun f => (f.channels, f.len) := List.mem_map_of_mem hf
  rw [h] at hmem
  obtain ⟨f', hf', heq⟩ := List.mem_map.mp hmem
  have hchannels : f'.channels = f.channels := congrArg Prod.fst heq
  have hfits := hl f' hf'
  rwa [AudioFrame.Fits, hchannels] at hfits

namespace Graph

variable {config : GraphConfig} {built ready g : Graph (DynNode Q) (DynSink R)}

theorem emits_fits [KeepsShape Q] [KeepsShape R] (h : Framed (AudioFrame.Fits config) g.scratch)
    {ctx : ProcessContext} (hc : (Act.call (.processCycle ctx) : Act Q R).Carries config g)
    (n : NodeId) : Emits (AudioFrame.Fits config) g.scratch n := by
  intro node outSlots hnode hout ctx' i
  have hold : ∀ f ∈ outSlots, f.Fits config := h.outputs.row hout
  cases node with
  | plain node =>
    cases node with
    | ringSource source =>
      cases outSlots with
      | nil => exact fun f hf => absurd hf List.not_mem_nil
      | cons out rest =>
        have hread : g.readOutput n 0 ≠ none := by simp [readOutput, frameAt, hout]
        have hemitted := hc n source (sourceAt_eq_some.mpr hnode) hread
        change ∀ f ∈ (source.process ctx' i (out :: rest)).outputs, f.Fits config
        rw [RingSource.process_outputs]
        exact List.forall_mem_cons.mpr ⟨hemitted, fun f hf => hold f (by simp [hf])⟩
    | ringSink sink => exact fits_of_shapes (KeepsShape.process_shapes sink ctx' i outSlots) hold
    | other q => exact fits_of_shapes (KeepsShape.process_shapes q ctx' i outSlots) hold
  | sink node =>
    cases node with
    | ringSink sink => exact fits_of_shapes (KeepsShape.process_shapes sink ctx' i outSlots) hold
    | other r => exact fits_of_shapes (KeepsShape.process_shapes r ctx' i outSlots) hold

omit [AudioCore] [AudioNode Q] [SinkNode R] in
theorem readOutput_feed {node : NodeId} {port : PortIdx} {dst : AudioFrame}
    (h : g.readOutput node port = some dst) (src : AudioFrame) :
    (g.feed node port src).readOutput node port = some (dst.copyFrom src) := by
  obtain ⟨slots, hslots, hdst⟩ := Option.bind_eq_some_iff.mp h
  have hcell := congrArg Cell.outFrames (feed_cells g node port src node)
  have hrow : (g.feed node port src).scratch.outputScratch[node]? =
      some (slots.modify port (·.copyFrom src)) := by
    simpa [GraphScratch.cells, Cell.feed, hslots] using hcell
  simp [readOutput, frameAt, hrow, hdst]

theorem readOutput_source (hc : Compiled config built ready)
    (hs : Steady AudioFrame.len ready g) {node : NodeId} {n : RingSource} {out : AudioFrame}
    (hn : g.sourceAt node = some n) (hout : g.readOutput node 0 = some out)
    (ctx : ProcessContext) :
    (g.processCycle ctx).1.readOutput node 0 = some (out.copyFrom n.emitted) := by
  have hnode := sourceAt_eq_some.mp hn
  have hlt : node < g.nodeCount := (List.getElem?_eq_some_iff.mp hnode).1
  obtain ⟨c, rfl, hsync⟩ := hs.exists_call hc ctx hlt
  obtain ⟨outSlots, houtSlots, hport⟩ := Option.bind_eq_some_iff.mp hout
  have hslot : c.slot = .plain (.ringSource n) :=
    Option.some.inj (hsync.state.symm.trans hnode)
  have hframes : c.outFrames = outSlots := Option.some.inj (hsync.outputs.symm.trans houtSlots)
  obtain ⟨rest, rfl⟩ : ∃ rest, outSlots = out :: rest := by
    cases outSlots with
    | nil => cases hport
    | cons first rest => exact ⟨rest, by rw [Option.some.inj hport]⟩
  have hresult : c.result.outputs = out.copyFrom n.emitted :: rest := by
    rw [Call.result, hslot, hframes]
    exact RingSource.process_outputs n c.ctx c.inFrames rest out
  have hafter := hsync.next_outputs
  rw [hresult] at hafter
  simp [readOutput, frameAt, hafter]

theorem Steady.act {τ : Type} {measure : AudioFrame → τ}
    (hm : Measured measure (DynNode Q) (DynSink R)) {base : Graph (DynNode Q) (DynSink R)}
    (h : Steady measure base g) {a : Act Q R} (ha : a.plays) :
    Steady measure base (g.act a).1 := by
  have hturned := act_turned g a
  generalize g.act a = r at hturned ⊢
  cases hturned with
  | call op => exact h.step hm ha
  | peer nodes _ hkept =>
    have hlen : nodes.length = g.scratch.nodes.length := by
      simpa [memory] using congrArg List.length hkept
    exact h.setNodes hlen

theorem act_frames (g : Graph (DynNode Q) (DynSink R)) {a : Act Q R} (ha : ∀ op, a ≠ .call op) :
    (g.act a).1.scratch.inputScratch = g.scratch.inputScratch ∧
      (g.act a).1.scratch.outputScratch = g.scratch.outputScratch := by
  have hturned := act_turned g a
  generalize g.act a = r at hturned ⊢
  cases hturned with
  | call op => exact absurd rfl (ha op)
  | peer nodes _ _ => exact ⟨rfl, rfl⟩

theorem act_fits_iff [KeepsShape Q] [KeepsShape R] (hc : Compiled config built ready)
    (hs : Steady AudioFrame.len ready g) (hf : Framed (AudioFrame.Fits config) g.scratch)
    {a : Act Q R} (ha : a.plays) :
    Framed (AudioFrame.Fits config) (g.act a).1.scratch ↔ a.Carries config g := by
  have hquiet : a.Carries config g → (g.act a).1.scratch.inputScratch = g.scratch.inputScratch →
      (g.act a).1.scratch.outputScratch = g.scratch.outputScratch →
      (Framed (AudioFrame.Fits config) (g.act a).1.scratch ↔ a.Carries config g) := by
    intro hcarries hins houts
    exact ⟨fun _ => hcarries, fun _ => ⟨hins ▸ hf.inputs, houts ▸ hf.outputs⟩⟩
  cases a with
  | call op =>
    cases op with
    | feed node port src =>
      refine ⟨fun h hread => ?_, fun h => feed_framed (fits_copyable config) hf h⟩
      obtain ⟨dst, hdst⟩ := Option.ne_none_iff_exists'.mp hread
      have hfits : (dst.copyFrom src).Fits config := h.outputs.at (readOutput_feed hdst src)
      exact hfits
    | processCycle ctx =>
      constructor
      · intro h node n hn hread
        obtain ⟨out, hout⟩ := Option.ne_none_iff_exists'.mp hread
        have hfits : (out.copyFrom n.emitted).Fits config :=
          h.outputs.at (readOutput_source hc hs hn hout ctx)
        exact hfits
      · intro h
        have hd : g.executionOrder.Nodup := by
          rw [hs.eq]
          exact hc.order_perm.nodup_iff.mpr List.nodup_range
        have hcycle := hf.cycle (fits_copyable config) g.edges hd ctx fun n _ => emits_fits hf h n
        simpa [act, step, Graph.processCycle, hs.compiled hc.compiled] using hcycle
    | flushSinks =>
      refine hquiet trivial ?_ ?_ <;> simp [act, step, flushSinks_eq]
    | flushSink node =>
      refine hquiet trivial ?_ ?_ <;> simp [act, step, flushSink_eq]
    | _ => cases ha
  | push source frame =>
    obtain ⟨hins, houts⟩ := act_frames g (a := .push source frame) (by simp)
    exact hquiet trivial hins houts
  | pop sink =>
    obtain ⟨hins, houts⟩ := act_frames g (a := .pop sink) (by simp)
    exact hquiet trivial hins houts
  | readInput node port => exact hquiet trivial rfl rfl
  | readOutput node port => exact hquiet trivial rfl rfl

theorem planar_iff_fits (hc : Compiled config built ready) (hs : Steady AudioFrame.len ready g) :
    Framed (AudioFrame.Planar config) g.scratch ↔ Framed (AudioFrame.Fits config) g.scratch := by
  have hsilence : (silence config.channels config.numFrames config.sampleRate).len =
      config.frameLen := silence_len _ _ _
  have hshape := hs.shape
  simp only [GraphScratch.shape, Shape.mk.injEq, hc.inputs, hc.outputs] at hshape
  have hins : EveryFrame (fun f => f.len = config.frameLen) g.scratch.inputScratch :=
    everyFrame_of_rows (q := fun l => l = config.frameLen) hshape.2.1
      (everyFrame_portFrames (p := fun f => f.len = config.frameLen) hsilence _ _)
  have houts : EveryFrame (fun f => f.len = config.frameLen) g.scratch.outputScratch :=
    everyFrame_of_rows (q := fun l => l = config.frameLen) hshape.2.2
      (everyFrame_portFrames (p := fun f => f.len = config.frameLen) hsilence _ _)
  have hin := hins.congr fun _ hlen => AudioFrame.planar_iff_fits hlen
  have hout := houts.congr fun _ hlen => AudioFrame.planar_iff_fits hlen
  exact ⟨fun h => ⟨hin.mp h.inputs, hout.mp h.outputs⟩,
    fun h => ⟨hin.mpr h.inputs, hout.mpr h.outputs⟩⟩

theorem metadata_matches_iff [KeepsShape Q] [KeepsShape R]
    (hcompile : built.compile config = (ready, .ok ())) (acts : List (Act Q R))
    (hacts : ∀ a ∈ acts, a.plays) :
    Transition.Throughout act (fun g => Framed (AudioFrame.Planar config) g.scratch) ready acts ↔
      Transition.EachStep act (fun g a => a.Carries config g) ready acts := by
  have hc := compiled_of_compile hcompile
  have : KeepsLengths Q := KeepsShape.keepsLengths
  have : KeepsLengths R := KeepsShape.keepsLengths
  have hbase : ∀ (s : Graph (DynNode Q) (DynSink R)) (a : Act Q R), a.plays →
      Steady AudioFrame.len ready s → Steady AudioFrame.len ready (s.act a).1 :=
    fun _ _ ha hs => hs.act measured_len ha
  refine Transition.throughout_iff hbase (fun s a ha hs hplanar => ?_)
    (Transition.eachStep_of_forall hacts ready) (.refl AudioFrame.len ready) ?_
  · have hfits := (planar_iff_fits hc hs).mp hplanar
    rw [planar_iff_fits hc (hbase s a ha hs)]
    exact act_fits_iff hc hs hfits ha
  · have hsilence : (silence config.channels config.numFrames config.sampleRate).Fits config :=
      Or.inl (AudioCore.silence_channels _ _ _)
    rw [planar_iff_fits hc (.refl AudioFrame.len ready)]
    refine ⟨?_, ?_⟩
    · rw [hc.inputs]
      exact everyFrame_portFrames hsilence _ _
    · rw [hc.outputs]
      exact everyFrame_portFrames hsilence _ _

end Graph

end

namespace Sample

open PlainCore

def tap : List (Op (DynNode RingSink) (DynSink RingSink)) :=
  [.addNode (.ringSource source), .addSink (.ringSink sink), .link (0, 0) (1, 0)]

def tapBuilt : Graph (DynNode RingSink) (DynSink RingSink) := (Graph.new.run tap).1

def tapped : Graph (DynNode RingSink) (DynSink RingSink) := (tapBuilt.compile config).1

theorem tapBuilt_built : Graph.Built tapBuilt := ⟨tap, by simp [tap, Op.builds], rfl⟩

end Sample

open PlainCore Sample in
theorem metadata_matches_tapped :
    Transition.Throughout Graph.act
      (fun g => Framed (AudioFrame.Planar Sample.config) g.scratch) tapped
      [.call (.feed 0 0 Sample.frame)] := by
  have hcompile : tapBuilt.compile Sample.config = (tapped, .ok ()) := rfl
  have hplays : ∀ a ∈ ([.call (.feed 0 0 Sample.frame)] : List (Act RingSink RingSink)),
      a.plays := by
    simp [Act.plays, Op.runs]
  exact (Graph.metadata_matches_iff hcompile _ hplays).mpr ⟨fun _ => Or.inl rfl, trivial⟩

-- Two channels of two samples into a slot of one channel: the slot keeps two samples in all.
open PlainCore Sample in
theorem wide_frame_mislabelled :
    ¬ ∀ (config : GraphConfig) (built ready : Graph (DynNode RingSink) (DynSink RingSink))
        (acts : List (Act RingSink RingSink)), Graph.Built built →
      built.compile config = (ready, .ok ()) → (∀ a ∈ acts, a.plays) →
      (∀ node port src, .call (.feed node port src) ∈ acts → src.WellShaped) →
      (∀ node frame, .push node frame ∈ acts → frame.WellShaped) →
      Transition.Throughout Graph.act (fun g => Framed (AudioFrame.Planar config) g.scratch) ready
        acts := by
  intro h
  have hwide : wide.WellShaped := ⟨2, rfl⟩
  have hfeeds : ∀ (node : NodeId) (port : PortIdx) (src : AudioFrame),
      Act.call (.feed node port src) ∈ ([.call (.feed 0 0 wide)] : List (Act RingSink RingSink)) →
        src.WellShaped := by
    intro node port src hmem
    simp only [List.mem_singleton, Act.call.injEq, Op.feed.injEq] at hmem
    rw [hmem.2.2]
    exact hwide
  obtain ⟨-, hfed⟩ := h Sample.config tapBuilt tapped [.call (.feed 0 0 wide)] tapBuilt_built rfl
    (by simp [Act.plays, Op.runs]) hfeeds (by simp)
  have hframe : frameAt (tapped.act (.call (.feed 0 0 wide))).1.scratch.outputScratch (0, 0) =
      some ⟨2, 48000, [⟨1⟩, ⟨2⟩]⟩ := rfl
  have hplanar : AudioFrame.Planar Sample.config ⟨2, 48000, [⟨1⟩, ⟨2⟩]⟩ := hfed.outputs.at hframe
  cases hplanar

end AudioGraph
