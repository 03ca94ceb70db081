import Mathlib.Data.List.Count
import Mathlib.Data.List.Perm.Basic

-- Shared values that live as long as something refers to them.
namespace RefCount

variable {α : Type*}

structure Cell (α : Type*) where
  value : α
  refs : Nat

-- A cell that was freed leaves a hole, so that an index is never given out twice.
abbrev Heap (α : Type*) := List (Option (Cell α))

def cell (h : Heap α) (k : Nat) : Option (Cell α) := h[k]?.join

def alloc (h : Heap α) (x : α) : Heap α := h ++ [some ⟨x, 1⟩]

def retain (h : Heap α) (k : Nat) : Heap α :=
  h.modify k (Option.map fun c => { c with refs := c.refs + 1 })

def write (h : Heap α) (k : Nat) (x : α) : Heap α :=
  h.modify k (Option.map fun c => { c with value := x })

def release (h : Heap α) (k : Nat) : Heap α × Bool :=
  match cell h k with
  | some c =>
    if c.refs ≤ 1 then (h.set k none, true)
    else (h.set k (some { c with refs := c.refs - 1 }), false)
  | none => (h, false)

section Cells

variable {h : Heap α} {k m : Nat} {c : Cell α}

theorem lt_of_cell (hc : cell h k = some c) : k < h.length := by
  rw [cell, Option.join_eq_some_iff] at hc
  exact (List.getElem?_eq_some_iff.mp hc).1

theorem cell_alloc (h : Heap α) (x : α) (m : Nat) :
    cell (alloc h x) m = if m = h.length then some ⟨x, 1⟩ else cell h m := by
  rcases Nat.lt_trichotomy m h.length with hlt | rfl | hgt
  · simp [cell, alloc, List.getElem?_append_left hlt, Nat.ne_of_lt hlt]
  · simp [cell, alloc]
  · have hone : m - h.length ≠ 0 := by omega
    simp [cell, alloc, List.getElem?_append_right (Nat.le_of_lt hgt), Nat.ne_of_gt hgt, hone,
      List.getElem?_eq_none (Nat.le_of_lt hgt)]

theorem cell_modify (h : Heap α) (k : Nat) (f : Cell α → Cell α) (m : Nat) :
    cell (h.modify k (Option.map f)) m = if m = k then (cell h m).map f else cell h m := by
  by_cases hm : m = k
  · subst hm
    cases hc : h[m]? with
    | none => simp [cell, hc]
    | some o => cases o <;> simp [cell, hc]
  · simp [cell, hm, Ne.symm hm]

theorem cell_set (hk : k < h.length) (o : Option (Cell α)) (m : Nat) :
    cell (h.set k o) m = if m = k then o else cell h m := by
  by_cases hm : m = k
  · subst hm
    simp [cell, hk]
  · simp [cell, hm, Ne.symm hm]

theorem release_length (h : Heap α) (k : Nat) : (release h k).1.length = h.length := by
  unfold release
  split
  · split <;> simp
  · rfl

theorem cell_release (hc : cell h k = some c) (m : Nat) :
    cell (release h k).1 m =
      if m = k then (if c.refs ≤ 1 then none else some { c with refs := c.refs - 1 })
      else cell h m := by
  by_cases hlast : c.refs ≤ 1
  · simp only [release, hc, if_pos hlast]
    exact cell_set (lt_of_cell hc) none m
  · simp only [release, hc, if_neg hlast]
    exact cell_set (lt_of_cell hc) _ m

theorem release_freed (hc : cell h k = some c) : (release h k).2 = decide (c.refs ≤ 1) := by
  by_cases hlast : c.refs ≤ 1 <;> simp [release, hc, hlast]

end Cells

structure Counted (h : Heap α) (owners : List Nat) : Prop where
  live : ∀ k ∈ owners, ∃ c, cell h k = some c
  refs : ∀ k c, cell h k = some c → c.refs = owners.count k ∧ k ∈ owners

section Counted

variable {h : Heap α} {owners owners' : List Nat} {k : Nat}

theorem Counted.live_iff (hh : Counted h owners) (k : Nat) :
    (∃ c, cell h k = some c) ↔ k ∈ owners :=
  ⟨fun ⟨c, hc⟩ => (hh.refs k c hc).2, hh.live k⟩

theorem Counted.perm (hh : Counted h owners) (hp : owners.Perm owners') : Counted h owners' where
  live k hk := hh.live k (hp.mem_iff.mpr hk)
  refs k c hc := by
    obtain ⟨hcount, hmem⟩ := hh.refs k c hc
    exact ⟨hcount.trans (hp.count_eq k), hp.mem_iff.mp hmem⟩

theorem Counted.lt (hh : Counted h owners) (hk : k ∈ owners) : k < h.length := by
  obtain ⟨c, hc⟩ := hh.live k hk
  exact lt_of_cell hc

theorem Counted.alloc (hh : Counted h owners) (x : α) :
    Counted (alloc h x) (h.length :: owners) := by
  have hfresh : h.length ∉ owners := fun hmem => Nat.lt_irrefl _ (hh.lt hmem)
  constructor
  · intro k hk
    rw [cell_alloc]
    by_cases hlen : k = h.length
    · exact ⟨_, if_pos hlen⟩
    · rw [if_neg hlen]
      exact hh.live k (List.mem_of_ne_of_mem hlen hk)
  · intro k c hc
    rw [cell_alloc] at hc
    by_cases hlen : k = h.length
    · subst hlen
      rw [if_pos rfl, Option.some.injEq] at hc
      simp [← hc, List.count_eq_zero.mpr hfresh]
    · rw [if_neg hlen] at hc
      obtain ⟨hcount, hmem⟩ := hh.refs k c hc
      refine ⟨?_, List.mem_cons_of_mem _ hmem⟩
      rw [List.count_cons_of_ne (Ne.symm hlen), hcount]

theorem Counted.retain (hh : Counted h owners) (hk : k ∈ owners) :
    Counted (retain h k) (k :: owners) := by
  constructor
  · intro m hm
    have hmem : m ∈ owners := by
      rcases List.mem_cons.mp hm with rfl | hm
      · exact hk
      · exact hm
    obtain ⟨c, hc⟩ := hh.live m hmem
    rw [RefCount.retain, cell_modify, hc]
    split
    · exact ⟨_, rfl⟩
    · exact ⟨_, rfl⟩
  · intro m c hc
    rw [RefCount.retain, cell_modify] at hc
    by_cases hm : m = k
    · subst hm
      rw [if_pos rfl] at hc
      obtain ⟨c', hc', rfl⟩ := Option.map_eq_some_iff.mp hc
      simp [(hh.refs m c' hc').1]
    · rw [if_neg hm] at hc
      obtain ⟨hcount, hmem⟩ := hh.refs m c hc
      exact ⟨by rw [List.count_cons_of_ne (Ne.symm hm), hcount], List.mem_cons_of_mem _ hmem⟩

theorem Counted.write (hh : Counted h owners) (k : Nat) (x : α) :
    Counted (write h k x) owners := by
  constructor
  · intro m hm
    obtain ⟨c, hc⟩ := hh.live m hm
    rw [RefCount.write, cell_modify, hc]
    split
    · exact ⟨_, rfl⟩
    · exact ⟨_, rfl⟩
  · intro m c hc
    rw [RefCount.write, cell_modify] at hc
    split at hc
    · obtain ⟨c', hc', rfl⟩ := Option.map_eq_some_iff.mp hc
      exact hh.refs m c' hc'
    · exact hh.refs m c hc

theorem Counted.release (hh : Counted h (k :: owners)) :
    Counted (release h k).1 owners ∧ ((release h k).2 = true ↔ k ∉ owners) := by
  obtain ⟨c, hc⟩ := hh.live k List.mem_cons_self
  have hcount : c.refs = owners.count k + 1 := by
    rw [(hh.refs k c hc).1, List.count_cons_self]
  have hlast : c.refs ≤ 1 ↔ k ∉ owners := by
    rw [← List.count_eq_zero]
    omega
  refine ⟨⟨fun m hm => ?_, fun m d hd => ?_⟩, by rw [release_freed hc, decide_eq_true_iff, hlast]⟩
  · rw [cell_release hc]
    by_cases hmk : m = k
    · subst hmk
      rw [if_pos rfl, if_neg fun hle => hlast.mp hle hm]
      exact ⟨_, rfl⟩
    · rw [if_neg hmk]
      exact hh.live m (List.mem_cons_of_mem _ hm)
  · rw [cell_release hc] at hd
    by_cases hmk : m = k
    · subst hmk
      rw [if_pos rfl] at hd
      split at hd
      · cases hd
      · rename_i hle
        rw [Option.some.injEq] at hd
        refine ⟨by rw [← hd, hcount]; rfl, ?_⟩
        by_contra hmem
        exact hle (hlast.mpr hmem)
    · rw [if_neg hmk] at hd
      obtain ⟨hm, hmem⟩ := hh.refs m d hd
      rw [List.count_cons_of_ne (Ne.symm hmk)] at hm
      exact ⟨hm, List.mem_of_ne_of_mem hmk hmem⟩

end Counted

def freedIf (k : Nat) (freed : Bool) : Option Nat := if freed then some k else none

structure Accounted (h : Heap α) (owners freed : List Nat) : Prop where
  counted : Counted h owners
  nodup : freed.Nodup
  mem_iff : ∀ k, k ∈ freed ↔ k < h.length ∧ k ∉ owners

section Accounted

variable {h : Heap α} {owners owners' freed : List Nat} {k : Nat}

theorem Accounted.perm (ha : Accounted h owners freed) (hp : owners.Perm owners') :
    Accounted h owners' freed :=
  ⟨ha.counted.perm hp, ha.nodup, fun m => by rw [ha.mem_iff, hp.mem_iff]⟩

theorem Accounted.alloc (ha : Accounted h owners freed) (x : α) :
    Accounted (alloc h x) (h.length :: owners) freed := by
  refine ⟨ha.counted.alloc x, ha.nodup, fun m => ?_⟩
  simp only [ha.mem_iff, RefCount.alloc, List.length_append, List.length_singleton, List.mem_cons,
    not_or]
  constructor
  · rintro ⟨hlt, hout⟩
    exact ⟨Nat.lt_succ_of_lt hlt, Nat.ne_of_lt hlt, hout⟩
  · rintro ⟨hlt, hne, hout⟩
    exact ⟨Nat.lt_of_le_of_ne (Nat.le_of_lt_succ hlt) hne, hout⟩

theorem Accounted.retain (ha : Accounted h owners freed) (hk : k ∈ owners) :
    Accounted (retain h k) (k :: owners) freed := by
  refine ⟨ha.counted.retain hk, ha.nodup, fun m => ?_⟩
  have hsame : m ∈ k :: owners ↔ m ∈ owners := by
    rw [List.mem_cons, or_iff_right_of_imp]
    rintro rfl
    exact hk
  rw [ha.mem_iff, hsame, RefCount.retain, List.length_modify]

theorem Accounted.write (ha : Accounted h owners freed) (k : Nat) (x : α) :
    Accounted (write h k x) owners freed := by
  refine ⟨ha.counted.write k x, ha.nodup, fun m => ?_⟩
  rw [ha.mem_iff, RefCount.write, List.length_modify]

theorem Accounted.release (ha : Accounted h (k :: owners) freed) :
    Accounted (RefCount.release h k).1 owners
        (freed ++ (freedIf k (RefCount.release h k).2).toList) ∧
      freedIf k (RefCount.release h k).2 = if k ∈ owners then none else some k := by
  obtain ⟨hcounted, hfreed⟩ := ha.counted.release
  have hlt := ha.counted.lt List.mem_cons_self
  have hlen := release_length h k
  by_cases hk : k ∈ owners
  · have hkept : (RefCount.release h k).2 = false := by
      rw [Bool.eq_false_iff, Ne, hfreed]
      exact fun hn => hn hk
    have hnone : freedIf k (RefCount.release h k).2 = none := by simp [freedIf, hkept]
    rw [hnone, if_pos hk]
    refine ⟨⟨hcounted, by simpa using ha.nodup, fun m => ?_⟩, rfl⟩
    have hsame : m ∈ k :: owners ↔ m ∈ owners := by
      rw [List.mem_cons, or_iff_right_of_imp]
      rintro rfl
      exact hk
    simp only [Option.toList_none, List.append_nil, ha.mem_iff, hsame, hlen]
  · have hsome : freedIf k (RefCount.release h k).2 = some k := by simp [freedIf, hfreed.mpr hk]
    rw [hsome, if_neg hk]
    refine ⟨⟨hcounted, ?_, fun m => ?_⟩, rfl⟩
    · refine List.nodup_append.mpr ⟨ha.nodup, by simp, ?_⟩
      rintro m hm _ hk' rfl
      rw [Option.toList_some, List.mem_singleton] at hk'
      subst hk'
      exact ((ha.mem_iff m).mp hm).2 List.mem_cons_self
    · rw [Option.toList_some, List.mem_append, List.mem_singleton, ha.mem_iff, List.mem_cons,
        not_or, hlen]
      constructor
      · rintro (⟨hm, -, hout⟩ | rfl)
        · exact ⟨hm, hout⟩
        · exact ⟨hlt, hk⟩
      · rintro ⟨hm, hout⟩
        by_cases hmk : m = k
        · exact Or.inr hmk
        · exact Or.inl ⟨hm, hmk, hout⟩

end Accounted

structure Holds (h : Heap α) (xs : List α) : Prop where
  length : h.length = xs.length
  value : ∀ k c, cell h k = some c → xs[k]? = some c.value

section Holds

variable {h : Heap α} {xs : List α} {k : Nat}

theorem Holds.alloc (hh : Holds h xs) (x : α) : Holds (alloc h x) (xs ++ [x]) := by
  refine ⟨by simp [RefCount.alloc, hh.length], fun m c hc => ?_⟩
  rw [cell_alloc] at hc
  by_cases hm : m = h.length
  · rw [if_pos hm, Option.some.injEq] at hc
    simp [← hc, hm, hh.length]
  · rw [if_neg hm] at hc
    have hlt : m < xs.length := hh.length ▸ lt_of_cell hc
    rw [List.getElem?_append_left hlt]
    exact hh.value m c hc

theorem Holds.retain (hh : Holds h xs) (k : Nat) : Holds (retain h k) xs := by
  refine ⟨by simp [RefCount.retain, hh.length], fun m c hc => ?_⟩
  rw [RefCount.retain, cell_modify] at hc
  split at hc
  · obtain ⟨c', hc', rfl⟩ := Option.map_eq_some_iff.mp hc
    exact hh.value m c' hc'
  · exact hh.value m c hc

theorem Holds.release (hh : Holds h xs) (k : Nat) : Holds (release h k).1 xs := by
  refine ⟨(release_length h k).trans hh.length, fun m c hc => ?_⟩
  cases hk : cell h k with
  | none =>
    simp only [RefCount.release, hk] at hc
    exact hh.value m c hc
  | some d =>
    rw [cell_release hk] at hc
    split at hc
    · rename_i hm
      subst hm
      split at hc
      · cases hc
      · rw [Option.some.injEq] at hc
        rw [← hc]
        exact hh.value m d hk
    · exact hh.value m c hc

theorem Holds.write (hh : Holds h xs) (hk : k < h.length) (x : α) :
    Holds (write h k x) (xs.set k x) := by
  refine ⟨by simp [RefCount.write, hh.length], fun m c hc => ?_⟩
  rw [RefCount.write, cell_modify] at hc
  by_cases hm : m = k
  · subst hm
    rw [if_pos rfl] at hc
    obtain ⟨c', hc', rfl⟩ := Option.map_eq_some_iff.mp hc
    exact List.getElem?_set_self (hh.length ▸ hk)
  · rw [if_neg hm] at hc
    rw [List.getElem?_set_ne (Ne.symm hm)]
    exact hh.value m c hc

end Holds

end RefCount
