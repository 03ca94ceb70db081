import AudioGraph.Foundation.Occupancy
import AudioGraph.Properties.Bridge

namespace AudioGraph

open BoundedFifo Handoff

section

variable [AudioCore] {P R Q S : Type} [AudioNode P] [SinkNode R] [AudioNode Q] [SinkNode S]

namespace Bridge

open AudioGraph.Graph

variable {configA configB : GraphConfig} {readyA : Graph P (DynSink R)}
  {readyB : Graph (DynNode Q) S} {wires : List Wire} {w : Wire}

def heard (quiet stash : AudioFrame) (stores : List AudioFrame) (i : Nat) : AudioFrame :=
  (quiet :: stash :: stores).getD i quiet

theorem xruns_scheduled (hrA : Running configA readyA readyA)
    (hrB : Running configB readyB readyB) (hs : Separate wires) (hw : w ∈ wires) {c : Nat}
    {channelsA channelsB : UInt16} {rateA rateB : UInt32} {framesA framesB : Nat}
    (hsink : readyA.scratch.nodes[w.sink]? =
      some (.sink (.ringSink (RingSink.new (RingBuffer.new c) channelsA rateA framesA))))
    (hsource : readyB.scratch.nodes[w.source]? =
      some (.plain (.ringSource (RingSource.new (RingBuffer.new c) channelsB rateB framesB))))
    (hstash : channelsA.toNat * framesA = configA.frameLen)
    (hlast : channelsB.toNat * framesB = configA.frameLen)
    (hsame : configB.frameLen = configA.frameLen) {turns : List Turn}
    (hturns : ∀ t ∈ turns, ¬ t.feeds w.source) :
    let es := history wires w ⟨readyA, readyB⟩ turns
    let kinds := turns.filterMap (Turn.kind w)
    es = (plan (.ringFull 1) ⟨RingBuffer.new c, 1, 0⟩ 2 kinds).map
        (Event.map (heard (silence channelsB framesB rateB) (silence channelsA framesA rateA)
          (stored es))) ∧
      ((∀ e ∈ es, e.xrun = false) ↔ InBand c 0 kinds) ∧
      (InBand c 0 kinds → Alternates false kinds → played es <+: stored es) := by
  intro es kinds
  have hstart := Joined.start hrA hrB hsink hsource rfl rfl
    ((silence_len _ _ _).trans hstash) ((silence_len _ _ _).trans hlast) hsame
  obtain ⟨⟨n, k, -, htrace⟩, hkinds⟩ := hstart.run hrA hrB hs hw hturns
  change es.map Event.kind = kinds at hkinds
  have hfree := htrace.xrun_free_iff
  have hlossless := htrace.lossless (c := c) rfl
  have hpick : ∀ (j : Nat) x, (stored es)[j]? = some x →
      heard (silence channelsB framesB rateB) (silence channelsA framesA rateA) (stored es)
        (2 + j) = x := by
    intro j x hj
    rw [Nat.add_comm, heard, List.getD_cons_succ, List.getD_cons_succ,
      List.getD_eq_getElem?_getD, hj]
    rfl
  have hplanned :=
    htrace.planned (p := ⟨RingBuffer.new c, 1, 0⟩) (i := 2) ⟨rfl, rfl, rfl, rfl⟩ hpick
  rw [hkinds] at hplanned hfree
  refine ⟨hplanned, hfree, fun hband halt => ?_⟩
  rw [← hkinds] at halt
  exact hlossless.played_prefix (hfree.mpr hband) halt

theorem latency_settles (hrA : Running configA readyA readyA)
    (hrB : Running configB readyB readyB) (hs : Separate wires) (hw : w ∈ wires) {c : Nat}
    (hpos : 0 < c) {channelsA channelsB : UInt16} {rateA rateB : UInt32} {framesA framesB : Nat}
    (hsink : readyA.scratch.nodes[w.sink]? =
      some (.sink (.ringSink (RingSink.new (RingBuffer.new c) channelsA rateA framesA))))
    (hsource : readyB.scratch.nodes[w.source]? =
      some (.plain (.ringSource (RingSource.new (RingBuffer.new c) channelsB rateB framesB))))
    (hstash : channelsA.toNat * framesA = configA.frameLen)
    (hlast : channelsB.toNat * framesB = configA.frameLen)
    (hsame : configB.frameLen = configA.frameLen) {turns passes : List Turn} {n : Nat}
    (hturns : ∀ t ∈ turns, ¬ t.feeds w.source) (hpasses : ∀ t ∈ passes, ¬ t.feeds w.source)
    (hrounds : passes.filterMap (Turn.kind w) = rounds n) :
    let now := (run wires ⟨readyA, readyB⟩ turns).1
    let es := history wires w now passes
    ∃ before after : RingSink, now.a.sinkAt w.sink = some before ∧
      (run wires now passes).1.a.sinkAt w.sink = some after ∧
      let waiting := before.producer.frames
      let lost := if waiting.length = c then 1 else 0
      played es = (waiting ++ (stored es).drop lost).take n ∧
        after.producer.frames = (waiting ++ (stored es).drop lost).drop n ∧
        refused es = (List.replicate n (.ringFull 1)).take lost ∧
        ∀ frame, .played frame false ∉ es := by
  intro now es
  have hstart := Joined.start hrA hrB hsink hsource rfl rfl
    ((silence_len _ _ _).trans hstash) ((silence_len _ _ _).trans hlast) hsame
  obtain ⟨⟨before, k, hnow, htrace⟩, -⟩ := hstart.run hrA hrB hs hw hturns
  obtain ⟨⟨after, k', hthen, hpassed⟩, hkinds⟩ := hnow.run hrA hrB hs hw hpasses
  have hcapacity : before.producer.capacity = c := htrace.capacity
  have hsettled := hpassed.stabilizes (hkinds.trans hrounds) (hcapacity.symm ▸ hpos)
  refine ⟨before, after, sinkAt_eq_some.mpr hnow.sink.node, sinkAt_eq_some.mpr hthen.sink.node, ?_⟩
  rw [← hcapacity]
  exact hsettled

end Bridge

end

open PlainCore Sample in
theorem xruns_scheduled_sample :
    (Bridge.history [⟨1, 0⟩] ⟨1, 0⟩ ⟨senderReady, receiverReady⟩ turns).map Event.xrun =
      [false, false, true, false, true] := by
  have hs : Separate [⟨1, 0⟩] := ⟨by decide, by decide⟩
  have hturns : ∀ t ∈ turns, ¬ t.feeds 0 := by simp [turns, Turn.feeds]
  obtain ⟨hplan, -, -⟩ := Bridge.xruns_scheduled (w := ⟨1, 0⟩) (c := 1) sender_running
    receiver_running hs (by simp) rfl rfl rfl rfl rfl hturns
  rw [hplan]
  rfl

namespace Sample

open PlainCore

def passes : List Turn := Turn.pass () ++ Turn.pass () ++ Turn.pass ()

end Sample

open PlainCore Sample in
theorem latency_settles_sample :
    refused (Bridge.history [⟨1, 0⟩] ⟨1, 0⟩
      (Bridge.run [⟨1, 0⟩] ⟨senderReady, receiverReady⟩ turns).1 passes) = [] := by
  have hs : Separate [⟨1, 0⟩] := ⟨by decide, by decide⟩
  have hturns : ∀ t ∈ turns, ¬ t.feeds 0 := by simp [turns, Turn.feeds]
  have hpasses : ∀ t ∈ passes, ¬ t.feeds 0 := by simp [passes, Turn.pass, Turn.feeds]
  obtain ⟨before, after, hbefore, -, -, -, hrefused, -⟩ := Bridge.latency_settles (w := ⟨1, 0⟩)
    (c := 1) sender_running receiver_running hs (by simp) (by decide) rfl rfl rfl rfl rfl hturns
    hpasses (n := 3) rfl
  have hempty : before.producer.frames = [] := by
    cases hbefore
    rfl
  simpa [hempty] using hrefused

end AudioGraph
