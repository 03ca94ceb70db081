import Mathlib.Data.Fintype.Card
import Mathlib.Data.List.Nodup
import Mathlib.Data.List.Perm.Basic
import Mathlib.Data.Set.Finite.Basic
import Mathlib.Logic.Relation
import Mathlib.Order.WellFounded

namespace Dependency

open Relation

variable {ι : Type*}

def Acyclic (edge : ι → ι → Prop) : Prop := ∀ a, ¬ TransGen edge a a

theorem acyclic_of_rank {edge : ι → ι → Prop} (rank : ι → ℕ)
    (h : ∀ a b, edge a b → rank a < rank b) : Acyclic edge := by
  have hpath : ∀ a b, TransGen edge a b → rank a < rank b := by
    intro a b hab
    induction hab with
    | single hab => exact h _ _ hab
    | tail _ hbc ih => exact ih.trans (h _ _ hbc)
  exact fun a ha => (hpath a a ha).false

theorem Acyclic.mono {edge edge' : ι → ι → Prop} (h : Acyclic edge')
    (hsub : ∀ a b, edge a b → edge' a b) : Acyclic edge :=
  fun a ha => h a (TransGen.mono hsub a a ha)

theorem Acyclic.map {κ : Type*} {edge : ι → ι → Prop} {edge' : κ → κ → Prop} (h : Acyclic edge')
    (f : ι → κ) (hmap : ∀ a b, edge a b → edge' (f a) (f b)) : Acyclic edge :=
  fun a ha => h (f a) (TransGen.lift f hmap a a ha)

-- A cycle never visits a node without a predecessor or a successor, so those need no counterpart.
theorem Acyclic.of_inner {κ : Type*} {edge : ι → ι → Prop} {edge' : κ → κ → Prop}
    {r : ι → κ → Prop} (h : Acyclic edge) (hrel : ∀ a b x, r a x → r b x → a = b)
    (hinner : ∀ x y, edge' x y → (∃ w, edge' w x) → (∃ z, edge' y z) →
      ∃ a b, r a x ∧ r b y ∧ edge a b) : Acyclic edge' := by
  have hpath : ∀ x y, TransGen edge' x y → (∃ w, edge' w x) → (∃ z, edge' y z) →
      ∃ a b, r a x ∧ r b y ∧ TransGen edge a b := by
    intro x y hxy hin
    induction hxy with
    | single hxy =>
      intro hout
      obtain ⟨a, b, ha, hb, hab⟩ := hinner _ _ hxy hin hout
      exact ⟨a, b, ha, hb, .single hab⟩
    | tail hxy hyz ih =>
      intro hout
      obtain ⟨a, b, ha, hb, hab⟩ := ih ⟨_, hyz⟩
      obtain ⟨w, -, hwy⟩ := TransGen.tail'_iff.mp hxy
      obtain ⟨b', c, hb', hc, hbc⟩ := hinner _ _ hyz ⟨w, hwy⟩ hout
      rw [← hrel b b' _ hb hb'] at hbc
      exact ⟨a, c, ha, hc, hab.tail hbc⟩
  intro x hx
  obtain ⟨y, hxy, -⟩ := TransGen.head'_iff.mp hx
  obtain ⟨w, -, hwx⟩ := TransGen.tail'_iff.mp hx
  obtain ⟨a, b, ha, hb, hab⟩ := hpath x x hx ⟨w, hwx⟩ ⟨y, hxy⟩
  rw [hrel b a x hb ha] at hab
  exact h a hab

theorem Acyclic.exists_source {edge : ι → ι → Prop} (h : Acyclic edge) {s : Set ι}
    (hfin : s.Finite) (hne : s.Nonempty) : ∃ b ∈ s, ∀ a ∈ s, ¬ edge a b := by
  have := hfin.to_subtype
  let path : s → s → Prop := fun a b => TransGen edge a b
  have : IsTrans s path := ⟨fun _ _ _ hab hbc => TransGen.trans hab hbc⟩
  have : Std.Irrefl path := ⟨fun a ha => h a ha⟩
  have wf : WellFounded path := Finite.wellFounded_of_trans_of_irrefl path
  obtain ⟨b, -, hb⟩ := wf.has_min Set.univ ⟨⟨hne.some, hne.some_mem⟩, trivial⟩
  exact ⟨b, b.2, fun a ha hab => hb ⟨a, ha⟩ trivial (.single hab)⟩

def Trapped (edge : ι → ι → Prop) (b : ι) : Prop :=
  ∃ c, TransGen edge c c ∧ ReflTransGen edge c b

theorem Trapped.mono {edge edge' : ι → ι → Prop} {b : ι} (h : Trapped edge b)
    (hsub : ∀ a b, edge a b → edge' a b) : Trapped edge' b := by
  obtain ⟨c, hcycle, hpath⟩ := h
  exact ⟨c, TransGen.mono hsub c c hcycle, ReflTransGen.mono hsub c b hpath⟩

theorem Trapped.map {κ : Type*} {edge : ι → ι → Prop} {edge' : κ → κ → Prop} {b : ι}
    (h : Trapped edge b) (f : ι → κ) (hmap : ∀ a b, edge a b → edge' (f a) (f b)) :
    Trapped edge' (f b) := by
  obtain ⟨c, hcycle, hpath⟩ := h
  exact ⟨f c, TransGen.lift f hmap c c hcycle, ReflTransGen.lift f hmap c b hpath⟩

theorem Trapped.tail {edge : ι → ι → Prop} {a b : ι} (h : Trapped edge a) (hab : edge a b) :
    Trapped edge b := by
  obtain ⟨c, hcycle, hpath⟩ := h
  exact ⟨c, hcycle, hpath.tail hab⟩

-- A cycle never leaves the trapped nodes, so no other edge can close one.
theorem acyclic_of_trapped {edge edge' : ι → ι → Prop} (hsub : ∀ a b, edge' a b → edge a b)
    (h : Acyclic fun a b => edge' a b ∧ Trapped edge a ∧ Trapped edge b) : Acyclic edge' := by
  have hpath : ∀ a b, TransGen edge' a b → Trapped edge a →
      TransGen (fun a b => edge' a b ∧ Trapped edge a ∧ Trapped edge b) a b ∧ Trapped edge b := by
    intro a b hab ha
    induction hab with
    | single hab =>
      have hb := ha.tail (hsub _ _ hab)
      exact ⟨.single ⟨hab, ha, hb⟩, hb⟩
    | tail _ hbc ih =>
      obtain ⟨hab, hb⟩ := ih
      have hc := hb.tail (hsub _ _ hbc)
      exact ⟨hab.tail ⟨hbc, hb, hc⟩, hc⟩
  intro a ha
  have htrapped : Trapped edge a := ⟨a, TransGen.mono hsub a a ha, .refl⟩
  exact h a (hpath a a ha htrapped).1

theorem Trapped.exists_edge {edge : ι → ι → Prop} {b : ι} (h : Trapped edge b) :
    ∃ a, edge a b := by
  obtain ⟨c, hcycle, hpath⟩ := h
  obtain ⟨a, -, hab⟩ := TransGen.tail'_iff.mp (hcycle.trans_left hpath)
  exact ⟨a, hab⟩

-- Walking backwards inside a finite set has to come round somewhere.
theorem trapped_of_stuck {edge : ι → ι → Prop} {s : Set ι} (hfin : s.Finite)
    (hpred : ∀ b ∈ s, ∃ a ∈ s, edge a b) {b : ι} (hb : b ∈ s) : Trapped edge b := by
  by_contra hfree
  let behind : Set ι := {a | a ∈ s ∧ ReflTransGen edge a b}
  let inner : ι → ι → Prop := fun a c => edge a c ∧ c ∈ behind
  have hacyclic : Acyclic inner := by
    intro a ha
    obtain ⟨_, -, -, hbehind⟩ := TransGen.tail'_iff.mp ha
    exact hfree ⟨a, TransGen.mono (fun _ _ h => h.1) a a ha, hbehind.2⟩
  have hbehind : behind.Finite := hfin.subset fun a ha => ha.1
  obtain ⟨m, ⟨hm, hpath⟩, hsource⟩ := hacyclic.exists_source hbehind ⟨b, hb, .refl⟩
  obtain ⟨a, ha, ham⟩ := hpred m hm
  exact hsource a ⟨ha, .head ham hpath⟩ ⟨ham, hm, hpath⟩

theorem not_trapped_of_rank {edge : ι → ι → Prop} {s : Set ι} (rank : ι → ℕ)
    (h : ∀ a b, edge a b → b ∈ s → a ∈ s ∧ rank a < rank b) {b : ι} (hb : b ∈ s) :
    ¬ Trapped edge b := by
  have hback : ∀ a b, TransGen edge a b → b ∈ s → a ∈ s ∧ rank a < rank b := by
    intro a b hab
    induction hab with
    | single hab => exact h _ _ hab
    | tail _ hbc ih =>
      intro hc
      obtain ⟨hb, hlt⟩ := h _ _ hbc hc
      obtain ⟨ha, hlt'⟩ := ih hb
      exact ⟨ha, hlt'.trans hlt⟩
  rintro ⟨c, hcycle, hpath⟩
  have hc : c ∈ s := (hback c b (hcycle.trans_left hpath) hb).1
  exact (hback c c hcycle hc).2.false

variable [DecidableEq ι]

structure Linearizes (nodes : List ι) (edge : ι → ι → Prop) (order : List ι) : Prop where
  perm : order.Perm nodes
  before : ∀ a b, edge a b → order.idxOf a < order.idxOf b

theorem Linearizes.acyclic {nodes order : List ι} {edge : ι → ι → Prop}
    (h : Linearizes nodes edge order) : Acyclic edge :=
  acyclic_of_rank order.idxOf h.before

theorem idxOf_append_cons {pre post : List ι} {b : ι} (hb : b ∉ pre) :
    (pre ++ b :: post).idxOf b = pre.length := by
  simp [List.idxOf_append, hb]

theorem mem_of_idxOf_lt {pre post : List ι} {a b : ι} (hb : b ∉ pre)
    (h : (pre ++ b :: post).idxOf a < (pre ++ b :: post).idxOf b) : a ∈ pre := by
  rw [idxOf_append_cons hb] at h
  by_contra ha
  rw [List.idxOf_append, if_neg ha] at h
  omega

theorem idxOf_lt_of_mem {pre post : List ι} {a b : ι} (hb : b ∉ pre) (ha : a ∈ pre) :
    (pre ++ b :: post).idxOf a < (pre ++ b :: post).idxOf b := by
  rw [idxOf_append_cons hb, List.idxOf_append, if_pos ha]
  exact List.idxOf_lt_length_of_mem ha

end Dependency
