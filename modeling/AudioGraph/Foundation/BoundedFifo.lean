namespace BoundedFifo

structure RingBuffer (α : Type) where
  capacity : Nat
  frames : List α
  bounded : frames.length ≤ capacity
deriving DecidableEq

namespace RingBuffer

variable {α : Type}

def new (capacity : Nat) : RingBuffer α := ⟨capacity, [], Nat.zero_le _⟩

def push (r : RingBuffer α) (x : α) : Option (RingBuffer α) :=
  if h : r.frames.length < r.capacity then
    some ⟨r.capacity, r.frames ++ [x], by rw [List.length_append]; exact h⟩
  else none

def pop (r : RingBuffer α) : Option (α × RingBuffer α) :=
  match h : r.frames with
  | [] => none
  | x :: xs => some (x, ⟨r.capacity, xs, by have := r.bounded; simp [h] at this; omega⟩)

theorem ext {r r' : RingBuffer α} (hc : r.capacity = r'.capacity) (hf : r.frames = r'.frames) :
    r = r' := by
  cases r
  cases r'
  cases hc
  cases hf
  rfl

theorem push_eq_none_iff (r : RingBuffer α) (x : α) :
    r.push x = none ↔ r.frames.length = r.capacity := by
  have := r.bounded
  by_cases h : r.frames.length < r.capacity
  · simp [push, h]
    omega
  · simp [push, h]
    omega

theorem push_eq_some {r r' : RingBuffer α} {x : α} (h : r.push x = some r') :
    r'.capacity = r.capacity ∧ r'.frames = r.frames ++ [x] := by
  by_cases hlt : r.frames.length < r.capacity
  · simp only [push, dif_pos hlt, Option.some.injEq] at h
    exact h ▸ ⟨rfl, rfl⟩
  · simp [push, hlt] at h

theorem pop_eq_none_iff (r : RingBuffer α) : r.pop = none ↔ r.frames = [] := by
  unfold pop
  split <;> simp_all

theorem pop_eq_some {r r' : RingBuffer α} {x : α} (h : r.pop = some (x, r')) :
    r'.capacity = r.capacity ∧ r.frames = x :: r'.frames := by
  unfold pop at h
  split at h
  · cases h
  · rename_i heq
    simp only [Option.some.injEq, Prod.mk.injEq] at h
    obtain ⟨rfl, rfl⟩ := h
    exact ⟨rfl, heq⟩

end RingBuffer

end BoundedFifo
