import AudioGraph.Foundation.BoundedFifo
import AudioGraph.Foundation.Pointwise

namespace Pointwise

variable {α β γ δ : Type*} {R : α → β → Prop} {S : γ → δ → Prop} {l : List α} {l' : List β}

theorem rel_getElem? (h : List.Forall₂ R l l') (n : Nat) : Option.Rel R l[n]? l'[n]? := by
  rcases forall₂_getElem? h n with ⟨hl, hl'⟩ | ⟨a, b, hl, hl', hab⟩
  · rw [hl, hl']
    exact .none
  · rw [hl, hl']
    exact .some hab

theorem rel_bind {f : α → Option γ} {f' : β → Option δ} {a : Option α} {b : Option β}
    (hab : Option.Rel R a b) (h : ∀ x y, R x y → Option.Rel S (f x) (f' y)) :
    Option.Rel S (a.bind f) (b.bind f') := by
  cases hab with
  | none => exact .none
  | some hxy => exact h _ _ hxy

theorem forall₂_mapIdx {f : Nat → α → γ} {f' : Nat → β → δ} (h : List.Forall₂ R l l')
    (hf : ∀ i a b, R a b → S (f i a) (f' i b)) :
    List.Forall₂ S (l.mapIdx f) (l'.mapIdx f') := by
  induction h generalizing f f' with
  | nil => exact .nil
  | cons hab _ ih =>
    rw [List.mapIdx_cons, List.mapIdx_cons]
    exact .cons (hf 0 _ _ hab) (ih fun i a b hab => hf (i + 1) a b hab)

theorem forall₂_map {f : α → γ} {f' : β → δ} (h : List.Forall₂ R l l')
    (hf : ∀ a b, R a b → S (f a) (f' b)) : List.Forall₂ S (l.map f) (l'.map f') :=
  List.forall₂_map_left_iff.mpr (List.forall₂_map_right_iff.mpr (h.imp hf))

theorem map_eq_of_related {f : α → γ} {f' : β → γ} (h : List.Forall₂ R l l')
    (hf : ∀ a b, R a b → f a = f' b) : l.map f = l'.map f' :=
  List.forall₂_eq_eq_eq ▸ forall₂_map h hf

end Pointwise

namespace BoundedFifo

open Pointwise

namespace RingBuffer

variable {α β : Type} {R : α → β → Prop} {r : RingBuffer α} {r' : RingBuffer β}

structure Related (R : α → β → Prop) (r : RingBuffer α) (r' : RingBuffer β) : Prop where
  capacity : r.capacity = r'.capacity
  frames : List.Forall₂ R r.frames r'.frames

theorem Related.push (h : Related R r r') {x : α} {y : β} (hxy : R x y) :
    Option.Rel (Related R) (r.push x) (r'.push y) := by
  have hfull : r.push x = none ↔ r'.push y = none := by
    rw [push_eq_none_iff, push_eq_none_iff, h.capacity, h.frames.length_eq]
  cases hpush : r.push x with
  | none =>
    rw [hfull.mp hpush]
    exact .none
  | some ring =>
    cases hpush' : r'.push y with
    | none => exact absurd (hfull.mpr hpush') (by simp [hpush])
    | some ring' =>
      obtain ⟨hcapacity, hframes⟩ := push_eq_some hpush
      obtain ⟨hcapacity', hframes'⟩ := push_eq_some hpush'
      refine .some ⟨by rw [hcapacity, hcapacity', h.capacity], ?_⟩
      rw [hframes, hframes']
      exact List.rel_append h.frames (.cons hxy .nil)

theorem Related.pop (h : Related R r r') :
    Option.Rel (fun a b => R a.1 b.1 ∧ Related R a.2 b.2) r.pop r'.pop := by
  have hframes := h.frames
  cases hpop : r.pop with
  | none =>
    rw [(pop_eq_none_iff r).mp hpop, List.forall₂_nil_left_iff] at hframes
    rw [(pop_eq_none_iff r').mpr hframes]
    exact .none
  | some popped =>
    obtain ⟨hcapacity, hcons⟩ := pop_eq_some hpop
    rw [hcons] at hframes
    cases hpop' : r'.pop with
    | none =>
      rw [(pop_eq_none_iff r').mp hpop'] at hframes
      cases hframes
    | some popped' =>
      obtain ⟨hcapacity', hcons'⟩ := pop_eq_some hpop'
      rw [hcons', List.forall₂_cons] at hframes
      exact .some ⟨hframes.1, by rw [hcapacity, hcapacity', h.capacity], hframes.2⟩

end RingBuffer

end BoundedFifo
