import AudioGraph.Foundation.Transition

namespace Footprint

open Transition

variable {σ α ο κ β : Type*}

-- A state is what its parts hold, and an action is a matter of the parts it touches.
structure Bounded (look : σ → κ → β) (step : σ → α → σ × ο) (touches : α → κ → Bool) : Prop where
  determined : Function.Injective look
  frame : ∀ s a k, touches a k = false → look (step s a).1 k = look s k
  confined : ∀ s t a, (∀ k, touches a k = true → look t k = look s k) →
    (step t a).2 = (step s a).2 ∧
      ∀ k, touches a k = true → look (step t a).1 k = look (step s a).1 k

def Apart (touches : α → κ → Bool) (a b : α) : Prop :=
  ∀ k, touches a k = true → touches b k = false

def record (touches : α → κ → Bool) (k : κ) (a : α) (o : ο) : List (α × ο) :=
  if touches a k then [(a, o)] else []

def history (touches : α → κ → Bool) (step : σ → α → σ × ο) (k : κ) (s : σ) (as : List α) :
    List (α × ο) :=
  log (record touches k) step s as

structure Equivalent (touches : α → κ → Bool) (step : σ → α → σ × ο) (s : σ)
    (as bs : List α) : Prop where
  ends : (run step s bs).1 = (run step s as).1
  histories : ∀ k, history touches step k s bs = history touches step k s as

variable {look : σ → κ → β} {step : σ → α → σ × ο} {touches : α → κ → Bool}

theorem Apart.symm {a b : α} (h : Apart touches a b) : Apart touches b a := by
  intro k hb
  by_contra ha
  rw [h k (by simpa using ha)] at hb
  cases hb

theorem Apart.record_nil {a b : α} (h : Apart touches a b) (k : κ) (o o' : ο) :
    record touches k a o = [] ∨ record touches k b o' = [] := by
  cases ha : touches a k with
  | false => exact .inl (by simp [record, ha])
  | true => exact .inr (by simp [record, h k ha])

theorem Apart.record_comm {a b : α} (h : Apart touches a b) (k : κ) (o o' : ο) :
    record touches k b o' ++ record touches k a o =
      record touches k a o ++ record touches k b o' := by
  rcases h.record_nil k o o' with hnil | hnil
  · rw [hnil, List.append_nil, List.nil_append]
  · rw [hnil, List.append_nil, List.nil_append]

theorem Equivalent.cons {s : σ} {a : α} {as bs : List α}
    (h : Equivalent touches step (step s a).1 as bs) :
    Equivalent touches step s (a :: as) (a :: bs) where
  ends := h.ends
  histories k := congrArg (record touches k a (step s a).2 ++ ·) (h.histories k)

theorem Equivalent.trans {s : σ} {as bs cs : List α} (h : Equivalent touches step s as bs)
    (h' : Equivalent touches step s bs cs) : Equivalent touches step s as cs where
  ends := h'.ends.trans h.ends
  histories k := (h'.histories k).trans (h.histories k)

theorem Bounded.answer_apart (h : Bounded look step touches) {a b : α}
    (hab : Apart touches a b) (s : σ) : (step (step s a).1 b).2 = (step s b).2 :=
  (h.confined s (step s a).1 b fun k hb => h.frame s a k (hab.symm k hb)).1

theorem Bounded.comm (h : Bounded look step touches) {a b : α} (hab : Apart touches a b)
    (s : σ) : (step (step s a).1 b).1 = (step (step s b).1 a).1 := by
  refine h.determined (funext fun k => ?_)
  cases ha : touches a k with
  | true =>
    have hb : touches b k = false := hab k ha
    have hsame := h.confined s (step s b).1 a fun k ha => h.frame s b k (hab k ha)
    rw [h.frame _ b k hb, hsame.2 k ha]
  | false =>
    rw [h.frame _ a k ha]
    cases hb : touches b k with
    | false => rw [h.frame _ b k hb, h.frame s a k ha, h.frame s b k hb]
    | true =>
      have hsame := h.confined s (step s a).1 b fun k hb => h.frame s a k (hab.symm k hb)
      exact hsame.2 k hb

theorem Bounded.swap (h : Bounded look step touches) {a b : α} (hab : Apart touches a b)
    (s : σ) (as : List α) : Equivalent touches step s (a :: b :: as) (b :: a :: as) where
  ends := by rw [run_cons, run_cons, run_cons, run_cons, h.comm hab]
  histories k := by
    simp only [history, log_cons]
    rw [h.comm hab, h.answer_apart hab, h.answer_apart hab.symm, ← List.append_assoc,
      ← List.append_assoc, hab.record_comm]

theorem Bounded.ahead (h : Bounded look step touches) {a : α} {pre : List α}
    (hpre : ∀ b ∈ pre, Apart touches a b) (post : List α) (s : σ) :
    Equivalent touches step s (a :: (pre ++ post)) (pre ++ a :: post) := by
  induction pre generalizing s with
  | nil => exact ⟨rfl, fun _ => rfl⟩
  | cons b pre ih =>
    have hrest : ∀ c ∈ pre, Apart touches a c := fun c hc => hpre c (List.mem_cons_of_mem b hc)
    exact (h.swap (hpre b List.mem_cons_self) s (pre ++ post)).trans (ih hrest _).cons

theorem filter_touched {a : α} {k : κ} (ha : touches a k = true) (as : List α) :
    (a :: as).filter (touches · k) = a :: as.filter (touches · k) := by
  simp [ha]

theorem filter_nil_of_apart {a : α} {pre : List α} (hpre : ∀ b ∈ pre, Apart touches a b) {k : κ}
    (ha : touches a k = true) : pre.filter (touches · k) = [] :=
  List.filter_eq_nil_iff.mpr fun b hb => by simp [hpre b hb k ha]

-- The first of the actions that touch a part is the same in both lists, so nothing that stands
-- before it in the other one shares a part with it.
theorem apart_of_orders {a : α} {as pre post : List α} (ha : a ∉ pre)
    (h : ∀ k, (pre ++ a :: post).filter (touches · k) = (a :: as).filter (touches · k)) :
    ∀ b ∈ pre, Apart touches a b := by
  intro b hb k hak
  by_contra hbk
  have hmem : b ∈ pre.filter (touches · k) := List.mem_filter.mpr ⟨hb, by simpa using hbk⟩
  obtain ⟨c, cs, hc⟩ := List.exists_cons_of_ne_nil (List.ne_nil_of_mem hmem)
  have hk := h k
  rw [List.filter_append, hc, filter_touched hak, filter_touched hak, List.cons_append,
    List.cons.injEq] at hk
  have hin : c ∈ pre.filter (touches · k) := by rw [hc]; exact List.mem_cons_self
  exact ha (hk.1 ▸ (List.mem_filter.mp hin).1)

theorem Bounded.equivalent (h : Bounded look step touches) (hsome : ∀ a, ∃ k, touches a k = true)
    {as bs : List α} (hk : ∀ k, bs.filter (touches · k) = as.filter (touches · k)) (s : σ) :
    Equivalent touches step s as bs := by
  induction as generalizing bs s with
  | nil =>
    have hbs : bs = [] := by
      refine List.eq_nil_iff_forall_not_mem.mpr fun b hb => ?_
      obtain ⟨k, hbk⟩ := hsome b
      have hmem : b ∈ bs.filter (touches · k) := List.mem_filter.mpr ⟨hb, hbk⟩
      rw [hk k] at hmem
      cases hmem
    subst hbs
    exact ⟨rfl, fun _ => rfl⟩
  | cons a as ih =>
    have hmem : a ∈ bs := by
      obtain ⟨k, hak⟩ := hsome a
      have hin : a ∈ bs.filter (touches · k) := by
        rw [hk k, filter_touched hak]
        exact List.mem_cons_self
      exact (List.mem_filter.mp hin).1
    obtain ⟨pre, post, rfl, ha⟩ := List.eq_append_cons_of_mem hmem
    have hpre := apart_of_orders ha hk
    have hrest : ∀ k, (pre ++ post).filter (touches · k) = as.filter (touches · k) := by
      intro k
      have hboth := hk k
      cases hak : touches a k with
      | false => simpa [List.filter_cons, hak] using hboth
      | true =>
        rw [List.filter_append, filter_nil_of_apart hpre hak, List.nil_append,
          filter_touched hak, filter_touched hak, List.cons.injEq] at hboth
        rw [List.filter_append, filter_nil_of_apart hpre hak, List.nil_append]
        exact hboth.2
    exact (ih hrest (step s a).1).cons.trans (h.ahead hpre post s)

end Footprint
