import AudioGraph.Foundation.Handoff

namespace Handoff

open BoundedFifo

variable {α β ε : Type}

def Event.map (f : α → β) : Event α ε → Event β ε
  | .stored x => .stored (f x)
  | .flushed x r => .flushed (f x) r
  | .played x p => .played (f x) p

def Event.xrun : Event α ε → Bool
  | .flushed _ (.error _) => true
  | .played _ popped => !popped
  | _ => false

def played : List (Event α ε) → List α
  | [] => []
  | .played x _ :: es => x :: played es
  | _ :: es => played es

def State.move (full : ε) (s : State α) (x : α) : Kind → State α × Event α ε
  | .store => ({ s with stash := x }, .stored x)
  | .flush =>
    match s.ring.push s.stash with
    | some ring => ({ s with ring := ring }, .flushed s.stash (.ok ()))
    | none => (s, .flushed s.stash (.error full))
  | .play =>
    match s.ring.pop with
    | some (x, ring) => ({ s with ring := ring, last := x }, .played x true)
    | none => (s, .played s.last false)

-- What a schedule does to the numbers of the values: `i` is the number of the next store.
def plan (full : ε) : State Nat → Nat → List Kind → List (Event Nat ε)
  | _, _, [] => []
  | s, i, k :: ks =>
    let r := s.move full i k
    r.2 :: plan full r.1 (if k = .store then i + 1 else i) ks

def InBand (c occupied : Nat) (ks : List Kind) : Prop :=
  ∀ pre, pre <+: ks → pre.count .play ≤ occupied + pre.count .flush ∧
    occupied + pre.count .flush ≤ c + pre.count .play

structure Matches (pick : Nat → α) (p : State Nat) (s : State α) : Prop where
  capacity : s.ring.capacity = p.ring.capacity
  frames : s.ring.frames = p.ring.frames.map pick
  stash : s.stash = pick p.stash
  last : s.last = pick p.last

variable {full : ε} {s t : State α} {es : List (Event α ε)} {c occupied : Nat} {ks : List Kind}

section Band

theorem inBand_cons {k : Kind} : InBand c occupied (k :: ks) ↔ occupied ≤ c ∧
    ∀ pre, pre <+: ks → (k :: pre).count .play ≤ occupied + (k :: pre).count .flush ∧
      occupied + (k :: pre).count .flush ≤ c + (k :: pre).count .play := by
  constructor
  · intro h
    have hnil := (h [] List.nil_prefix).2
    refine ⟨by simpa using hnil, fun pre hpre => h (k :: pre) ?_⟩
    exact List.cons_prefix_cons.mpr ⟨rfl, hpre⟩
  · rintro ⟨hle, h⟩ pre hpre
    rcases List.prefix_cons_iff.mp hpre with rfl | ⟨pre', rfl, hpre'⟩
    · simpa using hle
    · exact h pre' hpre'

theorem inBand_store (hle : occupied ≤ c) :
    InBand c occupied (.store :: ks) ↔ InBand c occupied ks := by
  rw [inBand_cons]
  simp [InBand, hle]

theorem inBand_flush (hle : occupied ≤ c) :
    InBand c occupied (.flush :: ks) ↔ occupied < c ∧ InBand c (occupied + 1) ks := by
  rw [inBand_cons]
  simp only [InBand, List.count_cons_self, ne_eq, reduceCtorEq, not_false_eq_true,
    List.count_cons_of_ne]
  constructor
  · rintro ⟨-, h⟩
    have hnil := h [] List.nil_prefix
    simp only [List.count_nil] at hnil
    refine ⟨by omega, fun pre hpre => ?_⟩
    have := h pre hpre
    omega
  · rintro ⟨-, h⟩
    refine ⟨hle, fun pre hpre => ?_⟩
    have := h pre hpre
    omega

theorem inBand_play (hle : occupied ≤ c) :
    InBand c occupied (.play :: ks) ↔ 0 < occupied ∧ InBand c (occupied - 1) ks := by
  rw [inBand_cons]
  simp only [InBand, List.count_cons_self, ne_eq, reduceCtorEq, not_false_eq_true,
    List.count_cons_of_ne]
  constructor
  · rintro ⟨-, h⟩
    have hnil := h [] List.nil_prefix
    simp only [List.count_nil] at hnil
    refine ⟨by omega, fun pre hpre => ?_⟩
    have := h pre hpre
    omega
  · rintro ⟨hpos, h⟩
    refine ⟨hle, fun pre hpre => ?_⟩
    have := h pre hpre
    omega

end Band

theorem Trace.xrun_free_iff (h : Trace full s es t) : (∀ e ∈ es, e.xrun = false) ↔
    InBand s.ring.capacity s.ring.frames.length (es.map Event.kind) := by
  induction h with
  | nil s =>
    have hbound := s.ring.bounded
    simp [InBand, hbound]
  | @cons s t u e es hstep _ ih =>
    have hbound := s.ring.bounded
    rw [List.forall_mem_cons, ih, List.map_cons]
    cases hstep with
    | store x =>
      rw [Event.kind, inBand_store hbound]
      simp [Event.xrun]
    | flush hpush =>
      obtain ⟨hcap, hframes⟩ := RingBuffer.push_eq_some hpush
      have hroom := RingBuffer.push_eq_none_iff s.ring s.stash
      rw [hpush] at hroom
      rw [Event.kind, inBand_flush hbound, hcap, hframes, List.length_append]
      have hlt : s.ring.frames.length < s.ring.capacity := by
        have hne : s.ring.frames.length ≠ s.ring.capacity := fun heq => by simp [heq] at hroom
        omega
      simp [Event.xrun, hlt]
    | refuse hpush =>
      have hfull := (RingBuffer.push_eq_none_iff _ _).mp hpush
      rw [Event.kind, inBand_flush hbound]
      simp [Event.xrun, hfull]
    | pop hpop =>
      obtain ⟨hcap, hframes⟩ := RingBuffer.pop_eq_some hpop
      rw [Event.kind, inBand_play hbound, hcap, hframes]
      simp [Event.xrun]
    | hold hpop =>
      have hempty := (RingBuffer.pop_eq_none_iff _).mp hpop
      rw [Event.kind, inBand_play hbound, hempty]
      simp [Event.xrun]

theorem Matches.step {pick : Nat → α} {p : State Nat} {e : Event α ε} (h : Matches pick p s)
    (hstep : Step full s e t) {i : Nat} (hi : ∀ x, e = .stored x → pick i = x) :
    Matches pick (p.move full i e.kind).1 t ∧ e = (p.move full i e.kind).2.map pick := by
  have hlen : s.ring.frames.length = p.ring.frames.length := by rw [h.frames, List.length_map]
  cases hstep with
  | store x =>
    have hx := hi x rfl
    simp only [State.move, Event.kind, Event.map, hx, and_true]
    exact ⟨h.capacity, h.frames, hx.symm, h.last⟩
  | @flush ring hpush =>
    obtain ⟨hcap, hframes⟩ := RingBuffer.push_eq_some hpush
    cases hpush' : p.ring.push p.stash with
    | none =>
      have hfull := (RingBuffer.push_eq_none_iff _ _).mp hpush'
      rw [← hlen, ← h.capacity, ← RingBuffer.push_eq_none_iff _ s.stash, hpush] at hfull
      cases hfull
    | some ring' =>
      obtain ⟨hcap', hframes'⟩ := RingBuffer.push_eq_some hpush'
      simp only [State.move, Event.kind, hpush', Event.map, h.stash, and_true]
      refine ⟨?_, ?_, rfl, h.last⟩
      · rw [hcap, hcap', h.capacity]
      · rw [hframes, hframes', h.frames, h.stash]
        simp
  | refuse hpush =>
    have hfull := (RingBuffer.push_eq_none_iff _ _).mp hpush
    rw [hlen, h.capacity, ← RingBuffer.push_eq_none_iff _ p.stash] at hfull
    simp only [State.move, Event.kind, hfull, Event.map, h.stash, and_true]
    exact h
  | @pop ring x hpop =>
    obtain ⟨hcap, hframes⟩ := RingBuffer.pop_eq_some hpop
    rw [h.frames] at hframes
    cases hpop' : p.ring.pop with
    | none =>
      rw [(RingBuffer.pop_eq_none_iff _).mp hpop'] at hframes
      cases hframes
    | some popped =>
      obtain ⟨j, ring'⟩ := popped
      obtain ⟨hcap', hframes'⟩ := RingBuffer.pop_eq_some hpop'
      rw [hframes', List.map_cons, List.cons.injEq] at hframes
      simp only [State.move, Event.kind, hpop', Event.map, hframes.1, and_true]
      exact ⟨by rw [hcap, hcap', h.capacity], hframes.2.symm, h.stash, hframes.1.symm⟩
  | hold hpop =>
    have hempty := (RingBuffer.pop_eq_none_iff _).mp hpop
    rw [h.frames, List.map_eq_nil_iff, ← RingBuffer.pop_eq_none_iff] at hempty
    simp only [State.move, Event.kind, hempty, Event.map, h.last, and_true]
    exact h

theorem Trace.planned (h : Trace full s es t) {pick : Nat → α} {p : State Nat} {i : Nat}
    (hp : Matches pick p s) (hpick : ∀ j x, (stored es)[j]? = some x → pick (i + j) = x) :
    es = (plan full p i (es.map Event.kind)).map (Event.map pick) := by
  induction h generalizing p i with
  | nil s => rfl
  | @cons s t u e es hstep _ ih =>
    have hi : ∀ x, e = .stored x → pick i = x := by
      rintro x rfl
      exact hpick 0 x rfl
    obtain ⟨hnext, hevent⟩ := hp.step hstep hi
    have hrest := ih hnext (i := if e.kind = .store then i + 1 else i) fun j x hj => by
      cases e with
      | stored y =>
        rw [Event.kind, if_pos rfl, Nat.add_assoc, Nat.add_comm 1]
        exact hpick (j + 1) x hj
      | flushed y r => exact hpick j x hj
      | played y popped => exact hpick j x hj
    rw [List.map_cons, plan, List.map_cons, ← hevent, ← hrest]

theorem results_ok (h : ∀ e ∈ es, Event.xrun e = false) : ∀ r ∈ results es, r = .ok () := by
  induction es with
  | nil => exact fun r hr => absurd hr List.not_mem_nil
  | cons e es ih =>
    obtain ⟨he, hes⟩ := List.forall_mem_cons.mp h
    cases e with
    | stored x => exact ih hes
    | played x p => exact ih hes
    | flushed x r =>
      intro r' hr'
      rcases List.mem_cons.mp hr' with rfl | hr'
      · cases r' with
        | ok u => rfl
        | error e => cases he
      · exact ih hes r' hr'

theorem accepted_prefix (xs : List α) {rs : List (Except ε Unit)} (h : ∀ r ∈ rs, r = .ok ()) :
    (xs.zip rs).filterMap accepted <+: xs := by
  induction xs generalizing rs with
  | nil => simp
  | cons x xs ih =>
    cases rs with
    | nil => simp
    | cons r rs =>
      obtain ⟨rfl, hrs⟩ := List.forall_mem_cons.mp h
      exact List.cons_prefix_cons.mpr ⟨rfl, ih hrs⟩

theorem played_eq_popped (h : ∀ e ∈ es, Event.xrun e = false) : played es = popped es := by
  induction es with
  | nil => rfl
  | cons e es ih =>
    obtain ⟨he, hes⟩ := List.forall_mem_cons.mp h
    cases e with
    | stored x => exact ih hes
    | flushed x r => exact ih hes
    | played x p =>
      cases p with
      | false => cases he
      | true => rw [played, popped, ih hes]

theorem Lossless.played_prefix {last : α} {ring : RingBuffer α} (h : Lossless full c last ring es)
    (hfree : ∀ e ∈ es, e.xrun = false) (halt : Alternates false (es.map Event.kind)) :
    played es <+: stored es := by
  have hpopped : popped es <+: pushed es := ⟨ring.frames, h.conserved⟩
  rw [played_eq_popped hfree]
  refine hpopped.trans ?_
  rw [h.rounds halt]
  exact accepted_prefix _ (results_ok hfree)

section Lockstep

def rounds (n : Nat) : List Kind := (List.replicate n [Kind.store, .flush, .play]).flatten

theorem rounds_succ (n : Nat) : rounds (n + 1) = .store :: .flush :: .play :: rounds n := by
  simp [rounds, List.replicate_succ]

theorem events_of_round {ks : List Kind}
    (h : es.map Event.kind = .store :: .flush :: .play :: ks) :
    ∃ x y r z p es', es = .stored x :: .flushed y r :: .played z p :: es' ∧
      es'.map Event.kind = ks := by
  rcases es with _ | ⟨e₁, _ | ⟨e₂, _ | ⟨e₃, es'⟩⟩⟩ <;> simp at h
  obtain ⟨h₁, h₂, h₃, hrest⟩ := h
  cases e₁ with
  | stored x =>
    cases e₂ with
    | flushed y r =>
      cases e₃ with
      | played z p => exact ⟨x, y, r, z, p, es', rfl, hrest⟩
      | stored _ => cases h₃
      | flushed _ _ => cases h₃
    | stored _ => cases h₂
    | played _ _ => cases h₂
  | flushed _ _ => cases h₁
  | played _ _ => cases h₁

theorem Trace.split_round {x y z : α} {r : Except ε Unit} {p : Bool}
    (h : Trace full s (.stored x :: .flushed y r :: .played z p :: es) t) :
    ∃ u, Trace full s [.stored x, .flushed y r, .played z p] u ∧ Trace full u es t := by
  cases h with
  | cons hstore h =>
    cases h with
    | cons hflush h =>
      cases h with
      | @cons _ u _ _ _ hplay h =>
        exact ⟨u, .cons hstore (.cons hflush (.cons hplay (.nil u))), h⟩

theorem Step.played_of_frames {z : α} {p : Bool} (h : Step full s (.played z p) t)
    (hsome : s.ring.frames ≠ []) : p = true ∧ z :: t.ring.frames = s.ring.frames := by
  cases h with
  | pop hpop => exact ⟨rfl, (RingBuffer.pop_eq_some hpop).2.symm⟩
  | hold hnone => exact absurd ((RingBuffer.pop_eq_none_iff _).mp hnone) hsome

theorem Trace.round_room {x y z : α} {r : Except ε Unit} {p : Bool}
    (h : Trace full s [.stored x, .flushed y r, .played z p] t)
    (hroom : s.ring.frames.length < s.ring.capacity) :
    r = .ok () ∧ p = true ∧ z :: t.ring.frames = s.ring.frames ++ [x] := by
  cases h with
  | cons hstore h =>
    cases h with
    | cons hflush h =>
      cases h with
      | cons hplay h =>
        cases h
        cases hstore
        cases hflush with
        | refuse hfull =>
          have hlen := (RingBuffer.push_eq_none_iff _ _).mp hfull
          exact absurd hlen (Nat.ne_of_lt hroom)
        | flush hpush =>
          have hframes := (RingBuffer.push_eq_some hpush).2
          obtain ⟨hp, hz⟩ := hplay.played_of_frames (by simp [hframes])
          exact ⟨rfl, hp, hz.trans hframes⟩

theorem Trace.round_full {x y z : α} {r : Except ε Unit} {p : Bool}
    (h : Trace full s [.stored x, .flushed y r, .played z p] t)
    (hfull : s.ring.frames.length = s.ring.capacity) (hpos : 0 < s.ring.capacity) :
    r = .error full ∧ p = true ∧ z :: t.ring.frames = s.ring.frames := by
  have hsome : s.ring.frames ≠ [] := by
    intro hnil
    rw [hnil, List.length_nil] at hfull
    omega
  cases h with
  | cons hstore h =>
    cases h with
    | cons hflush h =>
      cases h with
      | cons hplay h =>
        cases h
        cases hstore
        cases hflush with
        | refuse _ =>
          obtain ⟨hp, hz⟩ := hplay.played_of_frames hsome
          exact ⟨rfl, hp, hz⟩
        | flush hpush =>
          have hnone := (RingBuffer.push_eq_none_iff s.ring x).mpr hfull
          have hsent : s.ring.push x = some _ := hpush
          rw [hnone] at hsent
          cases hsent

theorem Trace.lockstep {n : Nat} (h : Trace full s es t) (hkinds : es.map Event.kind = rounds n)
    (hroom : s.ring.frames.length < s.ring.capacity) :
    played es = (s.ring.frames ++ stored es).take n ∧
      t.ring.frames = (s.ring.frames ++ stored es).drop n ∧ ∀ e ∈ es, e.xrun = false := by
  induction n generalizing s es with
  | zero =>
    have hnil : es = [] := List.map_eq_nil_iff.mp hkinds
    subst hnil
    cases h
    simp [played, stored]
  | succ n ih =>
    rw [rounds_succ] at hkinds
    obtain ⟨x, y, r, z, p, es', rfl, hrest⟩ := events_of_round hkinds
    obtain ⟨u, hround, htail⟩ := h.split_round
    obtain ⟨rfl, rfl, hframes⟩ := hround.round_room hroom
    have hlen : u.ring.frames.length = s.ring.frames.length := by
      have hlens := congrArg List.length hframes
      simpa using hlens
    obtain ⟨hplayed, hring, hfree⟩ := ih htail hrest (by rw [hlen, hround.capacity]; exact hroom)
    have hshift : s.ring.frames ++
        stored (.stored x :: .flushed y (.ok ()) :: .played z true :: es') =
          z :: (u.ring.frames ++ stored es') := by
      rw [← List.cons_append, hframes, List.append_assoc]
      rfl
    rw [hshift]
    refine ⟨?_, hring, ?_⟩
    · change z :: played es' = _
      rw [hplayed, List.take_succ_cons]
    · simpa [Event.xrun] using hfree

theorem refused_of_free (h : ∀ e ∈ es, Event.xrun e = false) : refused es = [] := by
  induction es with
  | nil => rfl
  | cons e es ih =>
    obtain ⟨he, hes⟩ := List.forall_mem_cons.mp h
    cases e with
    | stored x => exact ih hes
    | played x p => exact ih hes
    | flushed x r =>
      cases r with
      | ok u => exact ih hes
      | error e => cases he

theorem Trace.stabilizes {n : Nat} (h : Trace full s es t)
    (hkinds : es.map Event.kind = rounds n) (hpos : 0 < s.ring.capacity) :
    let lost := if s.ring.frames.length = s.ring.capacity then 1 else 0
    played es = (s.ring.frames ++ (stored es).drop lost).take n ∧
      t.ring.frames = (s.ring.frames ++ (stored es).drop lost).drop n ∧
      refused es = (List.replicate n full).take lost ∧ ∀ x, .played x false ∉ es := by
  intro lost
  rcases Nat.lt_or_ge s.ring.frames.length s.ring.capacity with hroom | hge
  · have hlost : lost = 0 := if_neg (Nat.ne_of_lt hroom)
    obtain ⟨hplayed, hring, hfree⟩ := h.lockstep hkinds hroom
    rw [hlost, List.drop_zero, List.take_zero]
    refine ⟨hplayed, hring, refused_of_free hfree, fun x hx => ?_⟩
    have hxrun := hfree _ hx
    cases hxrun
  · have hfull : s.ring.frames.length = s.ring.capacity := Nat.le_antisymm s.ring.bounded hge
    have hlost : lost = 1 := if_pos hfull
    rw [hlost]
    cases n with
    | zero =>
      have hnil : es = [] := List.map_eq_nil_iff.mp hkinds
      subst hnil
      cases h
      simp [played, stored, refused]
    | succ n =>
      rw [rounds_succ] at hkinds
      obtain ⟨x, y, r, z, p, es', rfl, hrest⟩ := events_of_round hkinds
      obtain ⟨u, hround, htail⟩ := h.split_round
      obtain ⟨rfl, rfl, hframes⟩ := hround.round_full hfull hpos
      have hroom : u.ring.frames.length < u.ring.capacity := by
        have hlen := congrArg List.length hframes
        rw [List.length_cons] at hlen
        rw [hround.capacity]
        omega
      obtain ⟨hplayed, hring, hfree⟩ := htail.lockstep hrest hroom
      have hshift : s.ring.frames ++ (stored (.stored x :: .flushed y (.error full) ::
          .played z true :: es')).drop 1 = z :: (u.ring.frames ++ stored es') := by
        rw [← List.cons_append, hframes]
        rfl
      rw [hshift]
      refine ⟨?_, hring, ?_, fun w hw => ?_⟩
      · change z :: played es' = _
        rw [hplayed, List.take_succ_cons]
      · change full :: refused es' = _
        rw [refused_of_free hfree]
        rfl
      · simp only [List.mem_cons, reduceCtorEq, Event.played.injEq, Bool.false_eq_true, and_false,
          false_or] at hw
        have hxrun := hfree _ hw
        cases hxrun

end Lockstep

end Handoff
