import AudioGraph.Foundation.Dependency
import Mathlib.Order.Lattice.Nat

namespace Dependency

variable {ι : Type*} {edge : ι → ι → Prop} {s : Set ι} {rank : ι → ℕ}

def Walk (edge : ι → ι → Prop) : ℕ → ι → Prop
  | 0, _ => True
  | k + 1, b => ∃ a, edge a b ∧ Walk edge k a

-- Without a bound on the walks this is no length of any of them.
noncomputable def depth (edge : ι → ι → Prop) (b : ι) : ℕ := sSup {k | Walk edge k b}

structure Ranked (edge : ι → ι → Prop) (s : Set ι) (rank : ι → ℕ) : Prop where
  closed : ∀ a b, edge a b → b ∈ s → a ∈ s
  climbs : ∀ a b, edge a b → b ∈ s → rank a < rank b

namespace Ranked

theorem walk_le_rank (h : Ranked edge s rank) {k : ℕ} {b : ι} (hwalk : Walk edge k b)
    (hb : b ∈ s) : k ≤ rank b := by
  induction k generalizing b with
  | zero => exact Nat.zero_le _
  | succ k ih =>
    obtain ⟨a, hab, ha⟩ := hwalk
    exact (ih ha (h.closed a b hab hb)).trans_lt (h.climbs a b hab hb)

theorem walk_le_depth (h : Ranked edge s rank) {k : ℕ} {b : ι} (hwalk : Walk edge k b)
    (hb : b ∈ s) : k ≤ depth edge b := by
  have hbound : BddAbove {k | Walk edge k b} := ⟨rank b, fun _ hj => h.walk_le_rank hj hb⟩
  exact le_csSup hbound hwalk

theorem walk_depth (h : Ranked edge s rank) {b : ι} (hb : b ∈ s) :
    Walk edge (depth edge b) b := by
  have hbound : BddAbove {k | Walk edge k b} := ⟨rank b, fun _ hj => h.walk_le_rank hj hb⟩
  have hne : {k | Walk edge k b}.Nonempty := ⟨0, trivial⟩
  exact Nat.sSup_mem hne hbound

theorem depth_lt (h : Ranked edge s rank) {a b : ι} (hab : edge a b) (hb : b ∈ s) :
    depth edge a < depth edge b :=
  h.walk_le_depth ⟨a, hab, h.walk_depth (h.closed a b hab hb)⟩ hb

theorem exists_below (h : Ranked edge s rank) {b : ι} (hb : b ∈ s) (hpos : 0 < depth edge b) :
    ∃ a, edge a b ∧ depth edge b = depth edge a + 1 := by
  have hwalk := h.walk_depth hb
  obtain ⟨k, hk⟩ := Nat.exists_eq_succ_of_ne_zero hpos.ne'
  rw [hk] at hwalk
  obtain ⟨a, hab, ha⟩ := hwalk
  have hle := h.walk_le_depth ha (h.closed a b hab hb)
  have hlt := h.depth_lt hab hb
  exact ⟨a, hab, by omega⟩

end Ranked

variable [DecidableEq ι]

theorem Ranked.linearizes {nodes order : List ι} (h : Ranked edge {n | n ∈ nodes} rank)
    (hinto : ∀ a b, edge a b → b ∈ nodes) (hp : order.Perm nodes)
    (hlayers : order.Pairwise fun a b => depth edge a ≤ depth edge b) :
    Linearizes nodes edge order where
  perm := hp
  before a b hab := by
    have hb : b ∈ order := hp.mem_iff.mpr (hinto a b hab)
    have ha : a ∈ order := hp.mem_iff.mpr (h.closed a b hab (hinto a b hab))
    have hlt := h.depth_lt hab (hinto a b hab)
    by_contra hnot
    have hne : order.idxOf b ≠ order.idxOf a := fun heq =>
      hlt.ne' (by rw [List.idxOf_inj hb |>.mp heq])
    have hbefore := List.pairwise_iff_getElem.mp hlayers _ _ (List.idxOf_lt_length_of_mem hb)
      (List.idxOf_lt_length_of_mem ha) (by omega)
    rw [List.getElem_idxOf, List.getElem_idxOf] at hbefore
    omega

theorem Linearizes.ranked {nodes order : List ι} (h : Linearizes nodes edge order)
    (hfrom : ∀ a b, edge a b → a ∈ nodes) : Ranked edge {n | n ∈ nodes} order.idxOf where
  closed a b hab _ := hfrom a b hab
  climbs a b hab _ := h.before a b hab

end Dependency
