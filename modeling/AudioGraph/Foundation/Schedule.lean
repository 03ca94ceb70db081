import AudioGraph.Foundation.Dependency

namespace Schedule

open Dependency

variable {ι σ γ : Type*} [DecidableEq ι]

def visit (f : ι → (ι → σ) → γ → σ × γ) (s : (ι → σ) × γ) (n : ι) : (ι → σ) × γ :=
  let r := f n s.1 s.2
  (Function.update s.1 n r.1, r.2)

def run (f : ι → (ι → σ) → γ → σ × γ) (order : List ι) (s : (ι → σ) × γ) : (ι → σ) × γ :=
  order.foldl (visit f) s

def ReadsOnly (f : ι → (ι → σ) → γ → σ × γ) (edge : ι → ι → Prop) : Prop :=
  ∀ n s t c, s n = t n → (∀ m, edge m n → s m = t m) → f n s c = f n t c

def KeepsAmbient (f : ι → (ι → σ) → γ → σ × γ) : Prop := ∀ n s c, (f n s c).2 = c

structure Solution (f : ι → (ι → σ) → γ → σ × γ) (order : List ι) (c : γ) (s t : ι → σ) :
    Prop where
  solved : ∀ n ∈ order, t n = (f n (Function.update t n (s n)) c).1
  kept : ∀ n, n ∉ order → t n = s n

variable {f : ι → (ι → σ) → γ → σ × γ} {edge : ι → ι → Prop}

@[simp] theorem run_nil (s : (ι → σ) × γ) : run f [] s = s := rfl

@[simp] theorem run_cons (n : ι) (order : List ι) (s : (ι → σ) × γ) :
    run f (n :: order) s = run f order (visit f s n) := rfl

theorem run_append (pre post : List ι) (s : (ι → σ) × γ) :
    run f (pre ++ post) s = run f post (run f pre s) := by
  simp [run, List.foldl_append]

theorem run_frame {order : List ι} {n : ι} (hn : n ∉ order) (s : (ι → σ) × γ) :
    (run f order s).1 n = s.1 n := by
  induction order generalizing s with
  | nil => rfl
  | cons m order ih =>
    simp only [List.mem_cons, not_or] at hn
    rw [run_cons, ih hn.2]
    exact Function.update_of_ne hn.1 _ _

theorem run_ambient (hc : KeepsAmbient f) (order : List ι) (s : (ι → σ) × γ) :
    (run f order s).2 = s.2 := by
  induction order generalizing s with
  | nil => rfl
  | cons n order ih => rw [run_cons, ih]; exact hc n s.1 s.2

-- Cells read by `n` were settled before its turn, and its own cell is still the old one.
theorem run_prefix_agrees {pre post : List ι} {n : ι} (hd : (pre ++ n :: post).Nodup)
    (s : (ι → σ) × γ) {m : ι} (hm : m ∈ pre) :
    (run f pre s).1 m = (run f (pre ++ n :: post) s).1 m := by
  have hpost : m ∉ n :: post := fun h => (List.nodup_append.mp hd).2.2 m hm m h rfl
  rw [run_append, run_frame hpost]

theorem run_visited {pre post : List ι} {n : ι} (hd : (pre ++ n :: post).Nodup)
    (s : (ι → σ) × γ) :
    (run f pre s).1 n = s.1 n ∧
      (run f (pre ++ n :: post) s).1 n = (f n (run f pre s).1 (run f pre s).2).1 := by
  obtain ⟨-, hpost, hdisj⟩ := List.nodup_append.mp hd
  have hn : n ∉ pre := fun h => hdisj n h n (by simp) rfl
  refine ⟨run_frame hn s, ?_⟩
  rw [run_append, run_cons, run_frame (List.nodup_cons.mp hpost).1]
  exact Function.update_self _ _ _

theorem run_solved (hr : ReadsOnly f edge) {pre post : List ι} {n : ι}
    (hd : (pre ++ n :: post).Nodup) (hpre : ∀ m, edge m n → m ∈ pre) (s : (ι → σ) × γ) :
    (run f (pre ++ n :: post) s).1 n =
      (f n (Function.update (run f (pre ++ n :: post) s).1 n (s.1 n)) (run f pre s).2).1 := by
  obtain ⟨hold, hvisit⟩ := run_visited hd s
  have hn : n ∉ pre := fun h => (List.nodup_append.mp hd).2.2 n h n (by simp) rfl
  rw [hvisit]
  congr 1
  apply hr
  · rw [Function.update_self, hold]
  · intro m hm
    have hmn : m ≠ n := fun h => hn (h ▸ hpre m hm)
    rw [Function.update_of_ne hmn]
    exact run_prefix_agrees hd s (hpre m hm)

theorem run_solution (hr : ReadsOnly f edge) (hc : KeepsAmbient f) {order : List ι}
    (hd : order.Nodup) (hb : ∀ a b, edge a b → order.idxOf a < order.idxOf b)
    (s : ι → σ) (c : γ) : Solution f order c s (run f order (s, c)).1 where
  solved n hn := by
    obtain ⟨pre, post, rfl⟩ := List.append_of_mem hn
    have hpre : n ∉ pre := fun h => (List.nodup_append.mp hd).2.2 n h n (by simp) rfl
    have h := run_solved hr hd (fun m hm => mem_of_idxOf_lt hpre (hb m n hm)) (s, c)
    rwa [run_ambient hc] at h
  kept _ hn := run_frame hn _

-- Induction along the order: each cell is a function of cells that come strictly earlier.
theorem Solution.unique (hr : ReadsOnly f edge) {order : List ι}
    (hb : ∀ a b, edge a b → order.idxOf a < order.idxOf b) {c : γ} {s t t' : ι → σ}
    (h : Solution f order c s t) (h' : Solution f order c s t') : t = t' := by
  have hrank : ∀ k n, order.idxOf n = k → t n = t' n := by
    intro k
    induction k using Nat.strong_induction_on with
    | _ k ih =>
      intro n hk
      by_cases hn : n ∈ order
      · rw [h.solved n hn, h'.solved n hn]
        congr 1
        apply hr
        · rw [Function.update_self, Function.update_self]
        · intro m hm
          have hlt := hb m n hm
          have hmn : m ≠ n := fun he => by subst he; omega
          rw [Function.update_of_ne hmn, Function.update_of_ne hmn]
          exact ih _ (hk ▸ hlt) m rfl
      · rw [h.kept n hn, h'.kept n hn]
  exact funext fun n => hrank _ n rfl

theorem Solution.transfer {κ : Type*} [DecidableEq κ] {f' : κ → (κ → σ) → γ → σ × γ}
    {order : List ι} {order' : List κ} {c c' : γ} {s t : ι → σ} {s' t' : κ → σ}
    (h : Solution f order c s t) (h' : Solution f' order' c' s' t') {r : ι → κ → Prop}
    (hmem : ∀ n m, r n m → n ∈ order ∧ m ∈ order')
    (hstep : ∀ n m, r n m →
      (∀ k l, order.idxOf k < order.idxOf n → r k l → t k = t' l) →
      (f n (Function.update t n (s n)) c).1 = (f' m (Function.update t' m (s' m)) c').1)
    {n : ι} {m : κ} (hnm : r n m) : t n = t' m := by
  have hrank : ∀ i n m, order.idxOf n = i → r n m → t n = t' m := by
    intro i
    induction i using Nat.strong_induction_on with
    | _ i ih =>
      intro n m hi hnm
      obtain ⟨hn, hm⟩ := hmem n m hnm
      rw [h.solved n hn, h'.solved m hm]
      exact hstep n m hnm fun k l hlt hkl => ih _ (hi ▸ hlt) k l rfl hkl
  exact hrank _ n m rfl hnm

theorem run_agrees (hr : ReadsOnly f edge) (hc : KeepsAmbient f) {keep : ι → Prop}
    (hkeep : ∀ a b, edge a b → keep b → keep a) (order : List ι) {s t : ι → σ} (c : γ)
    (h : ∀ n, keep n → t n = s n) {n : ι} (hn : keep n) :
    (run f order (t, c)).1 n = (run f order (s, c)).1 n := by
  induction order generalizing s t with
  | nil => exact h n hn
  | cons m order ih =>
    rw [run_cons, run_cons, visit, visit, hc m s c, hc m t c]
    refine ih fun k hk => ?_
    by_cases hkm : k = m
    · subst hkm
      have hread : f k t c = f k s c := hr k t s c (h k hk) fun l hl => h l (hkeep l k hl hk)
      rw [Function.update_self, Function.update_self, hread]
    · rw [Function.update_of_ne hkm, Function.update_of_ne hkm]
      exact h k hk

def Resettles (f : ι → (ι → σ) → γ → σ × γ) (edge : ι → ι → Prop) (n : ι) (old : σ) : Prop :=
  ∀ u t c c', u n = old → (∀ m, edge m n → t m = u m) → t n = (f n u c).1 → (f n t c').1 = t n

theorem run_fixed {order : List ι} {t : ι → σ} (h : ∀ n ∈ order, ∀ c, (f n t c).1 = t n) (c : γ) :
    (run f order (t, c)).1 = t := by
  induction order generalizing c with
  | nil => rfl
  | cons n order ih =>
    rw [run_cons, visit, h n (by simp), Function.update_eq_self]
    exact ih (fun m hm => h m (by simp [hm])) _

theorem run_settled {order : List ι} (hd : order.Nodup)
    (hb : ∀ a b, edge a b → order.idxOf a < order.idxOf b) {s : ι → σ}
    (h : ∀ n ∈ order, Resettles f edge n (s n)) (c c' : γ) :
    (run f order ((run f order (s, c)).1, c')).1 = (run f order (s, c)).1 := by
  refine run_fixed (fun n hn d => ?_) c'
  obtain ⟨pre, post, rfl⟩ := List.append_of_mem hn
  obtain ⟨hold, hvisit⟩ := run_visited hd (s, c)
  have hpre : n ∉ pre := fun hm => (List.nodup_append.mp hd).2.2 n hm n (by simp) rfl
  refine h n hn (run f pre (s, c)).1 _ _ d hold (fun m hm => ?_) hvisit
  have hmem : m ∈ pre := mem_of_idxOf_lt hpre (hb m n hm)
  exact (run_prefix_agrees hd _ hmem).symm

theorem Solution.of_mem_iff {order order' : List ι} {c : γ} {s t : ι → σ}
    (hmem : ∀ n, n ∈ order ↔ n ∈ order') (h : Solution f order c s t) :
    Solution f order' c s t where
  solved n hn := h.solved n ((hmem n).mpr hn)
  kept n hn := h.kept n (fun hm => hn ((hmem n).mp hm))

theorem run_order_independent (hr : ReadsOnly f edge) (hc : KeepsAmbient f)
    {nodes order order' : List ι} (hd : nodes.Nodup) (h : Linearizes nodes edge order)
    (h' : Linearizes nodes edge order') (s : ι → σ) (c : γ) :
    run f order (s, c) = run f order' (s, c) := by
  have hmem : ∀ n, n ∈ order' ↔ n ∈ order := fun n => (h'.perm.trans h.perm.symm).mem_iff
  have hs := run_solution hr hc (h.perm.nodup_iff.mpr hd) h.before s c
  have hs' := (run_solution hr hc (h'.perm.nodup_iff.mpr hd) h'.before s c).of_mem_iff hmem
  refine Prod.ext (hs.unique hr h.before hs') ?_
  rw [run_ambient hc, run_ambient hc]

end Schedule
