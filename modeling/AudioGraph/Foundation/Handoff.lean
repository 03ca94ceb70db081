import AudioGraph.Foundation.BoundedFifo

namespace Handoff

open BoundedFifo

variable {α ε : Type}

-- One side stores a value and pushes copies of it; the other repeats its last value on underrun.
structure State (α : Type) where
  ring : RingBuffer α
  stash : α
  last : α

inductive Event (α ε : Type) where
  | stored (x : α)
  | flushed (x : α) (result : Except ε Unit)
  | played (x : α) (popped : Bool)

inductive Step (full : ε) : State α → Event α ε → State α → Prop
  | store (s : State α) (x : α) : Step full s (.stored x) { s with stash := x }
  | flush {s : State α} {ring : RingBuffer α} (h : s.ring.push s.stash = some ring) :
      Step full s (.flushed s.stash (.ok ())) { s with ring := ring }
  | refuse {s : State α} (h : s.ring.push s.stash = none) :
      Step full s (.flushed s.stash (.error full)) s
  | pop {s : State α} {ring : RingBuffer α} {x : α} (h : s.ring.pop = some (x, ring)) :
      Step full s (.played x true) { s with ring := ring, last := x }
  | hold {s : State α} (h : s.ring.pop = none) : Step full s (.played s.last false) s

inductive Trace (full : ε) : State α → List (Event α ε) → State α → Prop
  | nil (s : State α) : Trace full s [] s
  | cons {s t u : State α} {e : Event α ε} {es : List (Event α ε)} (hstep : Step full s e t)
      (hrest : Trace full t es u) : Trace full s (e :: es) u

def pushed : List (Event α ε) → List α
  | [] => []
  | .flushed x (.ok ()) :: es => x :: pushed es
  | _ :: es => pushed es

def popped : List (Event α ε) → List α
  | [] => []
  | .played x true :: es => x :: popped es
  | _ :: es => popped es

def refused : List (Event α ε) → List ε
  | [] => []
  | .flushed _ (.error e) :: es => e :: refused es
  | _ :: es => refused es

def stored : List (Event α ε) → List α
  | [] => []
  | .stored x :: es => x :: stored es
  | _ :: es => stored es

def results : List (Event α ε) → List (Except ε Unit)
  | [] => []
  | .flushed _ r :: es => r :: results es
  | _ :: es => results es

inductive Kind where
  | store
  | flush
  | play
deriving DecidableEq

def Event.kind : Event α ε → Kind
  | .stored _ => .store
  | .flushed _ _ => .flush
  | .played _ _ => .play

def Alternates : (pending : Bool) → List Kind → Prop
  | _, [] => True
  | false, .store :: ks => Alternates true ks
  | true, .flush :: ks => Alternates false ks
  | pending, .play :: ks => Alternates pending ks
  | _, _ => False

def Repeats : α → List (Event α ε) → Prop
  | _, [] => True
  | _, .played x true :: es => Repeats x es
  | last, .played x false :: es => x = last ∧ Repeats last es
  | last, _ :: es => Repeats last es

def Fresh : α → List (Event α ε) → Prop
  | _, [] => True
  | _, .stored x :: es => Fresh x es
  | stash, .flushed x _ :: es => x = stash ∧ Fresh stash es
  | stash, _ :: es => Fresh stash es

variable {full : ε} {s t u : State α} {es es' : List (Event α ε)}

theorem Step.trace {e : Event α ε} (h : Step full s e t) : Trace full s [e] t := .cons h (.nil t)

theorem Trace.append (h : Trace full s es t) (h' : Trace full t es' u) :
    Trace full s (es ++ es') u := by
  induction h with
  | nil s => exact h'
  | cons hstep _ ih => exact .cons hstep (ih h')

theorem Trace.capacity (h : Trace full s es t) : t.ring.capacity = s.ring.capacity := by
  induction h with
  | nil s => rfl
  | cons hstep _ ih =>
    cases hstep with
    | store x => exact ih
    | flush hpush => exact ih.trans (RingBuffer.push_eq_some hpush).1
    | refuse _ => exact ih
    | pop hpop => exact ih.trans (RingBuffer.pop_eq_some hpop).1
    | hold _ => exact ih

theorem Trace.conserves (h : Trace full s es t) :
    popped es ++ t.ring.frames = s.ring.frames ++ pushed es := by
  induction h with
  | nil s => simp [popped, pushed]
  | cons hstep _ ih =>
    cases hstep with
    | store x => exact ih
    | flush hpush =>
      simp only [(RingBuffer.push_eq_some hpush).2, List.append_assoc, List.singleton_append] at ih
      exact ih
    | refuse _ => exact ih
    | pop hpop => simp only [popped, pushed, List.cons_append, (RingBuffer.pop_eq_some hpop).2, ih]
    | hold _ => exact ih

theorem Trace.repeats (h : Trace full s es t) : Repeats s.last es := by
  induction h with
  | nil s => trivial
  | cons hstep _ ih =>
    cases hstep with
    | store x => exact ih
    | flush _ => exact ih
    | refuse _ => exact ih
    | pop _ => exact ih
    | hold _ => exact ⟨rfl, ih⟩

theorem Trace.fresh (h : Trace full s es t) : Fresh s.stash es := by
  induction h with
  | nil s => trivial
  | cons hstep _ ih =>
    cases hstep with
    | store x => exact ih
    | flush _ => exact ⟨rfl, ih⟩
    | refuse _ => exact ⟨rfl, ih⟩
    | pop _ => exact ih
    | hold _ => exact ih

theorem Trace.refused_eq (h : Trace full s es t) : ∀ e ∈ refused es, e = full := by
  induction h with
  | nil s => exact fun e he => absurd he List.not_mem_nil
  | cons hstep _ ih =>
    cases hstep with
    | store x => exact ih
    | flush _ => exact ih
    | refuse _ =>
      intro e he
      rcases List.mem_cons.mp he with rfl | he
      · rfl
      · exact ih e he
    | pop _ => exact ih
    | hold _ => exact ih

theorem count_flush (es : List (Event α ε)) :
    (es.map Event.kind).count .flush = (pushed es).length + (refused es).length := by
  induction es with
  | nil => rfl
  | cons e es ih =>
    cases e with
    | stored x => simpa [Event.kind, pushed, refused] using ih
    | played x p => cases p <;> simpa [Event.kind, pushed, refused] using ih
    | flushed x r =>
      cases r with
      | ok u =>
        simp only [List.map_cons, Event.kind, List.count_cons_self, pushed, refused,
          List.length_cons, ih]
        omega
      | error e =>
        simp only [List.map_cons, Event.kind, List.count_cons_self, pushed, refused,
          List.length_cons, ih]
        omega

def accepted : α × Except ε Unit → Option α
  | (x, .ok ()) => some x
  | (_, .error _) => none

theorem pushed_of_alternates {pending : Bool} {stash : α} {es : List (Event α ε)}
    (h : Fresh stash es) (halt : Alternates pending (es.map Event.kind)) :
    pushed es =
      (((if pending then [stash] else []) ++ stored es).zip (results es)).filterMap accepted := by
  induction es generalizing pending stash with
  | nil => simp [pushed, results]
  | cons e es ih =>
    cases e with
    | stored x =>
      cases pending with
      | false => simpa [pushed, stored, results] using ih h halt
      | true => cases halt
    | flushed x r =>
      obtain ⟨rfl, hrest⟩ := h
      cases pending with
      | false => cases halt
      | true =>
        have hes := ih hrest halt
        cases r with
        | ok u => simpa [pushed, stored, results, accepted] using hes
        | error e => simpa [pushed, stored, results, accepted, List.filterMap_cons] using hes
    | played x p =>
      cases pending <;> cases p <;> simpa [pushed, stored, results] using ih h halt

theorem refused_append (es es' : List (Event α ε)) :
    refused (es ++ es') = refused es ++ refused es' := by
  induction es with
  | nil => rfl
  | cons e es ih =>
    cases e with
    | stored x => simpa [refused] using ih
    | flushed x r => cases r <;> simpa [refused] using ih
    | played x p => simpa [refused] using ih

theorem Trace.round {x y z : α} {r : Except ε Unit} {p : Bool}
    (h : Trace full s [.stored x, .flushed y r, .played z p] t) (hempty : s.ring.frames = [])
    (hcapacity : 0 < s.ring.capacity) :
    r = .ok () ∧ z = x ∧ t.ring.frames = [] ∧ t.ring.capacity = s.ring.capacity := by
  have hcap := h.capacity
  cases h with
  | cons hstore h =>
    cases h with
    | cons hflush h =>
      cases h with
      | cons hplay h =>
        cases h
        cases hstore
        cases hflush with
        | refuse hfull =>
          have hlen := (RingBuffer.push_eq_none_iff _ _).mp hfull
          simp only [hempty, List.length_nil] at hlen
          omega
        | flush hpush =>
          have hframes := (RingBuffer.push_eq_some hpush).2
          rw [hempty, List.nil_append] at hframes
          cases hplay with
          | hold hnone =>
            have hnil := (RingBuffer.pop_eq_none_iff _).mp hnone
            simp only [hframes] at hnil
            cases hnil
          | pop hpop =>
            have hrest := (RingBuffer.pop_eq_some hpop).2
            simp only [hframes, List.cons.injEq] at hrest
            exact ⟨rfl, hrest.1.symm, hrest.2.symm, hcap⟩

structure Lossless (full : ε) (c : Nat) (last : α) (ring : RingBuffer α) (es : List (Event α ε)) :
    Prop where
  capacity : ring.capacity = c
  bounded : ring.frames.length ≤ c
  conserved : popped es ++ ring.frames = pushed es
  repeats : Repeats last es
  counted : (es.map Event.kind).count .flush = (pushed es).length + (refused es).length
  refused_eq : ∀ e ∈ refused es, e = full
  rounds : Alternates false (es.map Event.kind) →
    pushed es = ((stored es).zip (results es)).filterMap accepted

theorem Trace.lossless (h : Trace full s es t) {c : Nat} (hs : s.ring = RingBuffer.new c) :
    Lossless full c s.last t.ring es where
  capacity := by rw [h.capacity, hs]; rfl
  bounded := by
    have hbound := t.ring.bounded
    rwa [h.capacity, hs] at hbound
  conserved := by
    rw [h.conserves, hs]
    rfl
  repeats := h.repeats
  counted := count_flush es
  refused_eq := h.refused_eq
  rounds := pushed_of_alternates h.fresh

end Handoff
