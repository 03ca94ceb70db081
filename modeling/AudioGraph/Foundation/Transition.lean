import Mathlib.Data.List.Forall2
import Mathlib.Tactic.TypeStar

namespace Transition

variable {σ τ α ο ω : Type*}

def run (step : σ → α → σ × ο) : σ → List α → σ × List ο
  | s, [] => (s, [])
  | s, a :: as =>
    let next := step s a
    let rest := run step next.1 as
    (rest.1, next.2 :: rest.2)

@[simp] theorem run_nil (step : σ → α → σ × ο) (s : σ) : run step s [] = (s, []) := rfl

@[simp] theorem run_cons (step : σ → α → σ × ο) (s : σ) (a : α) (as : List α) :
    run step s (a :: as) =
      ((run step (step s a).1 as).1, (step s a).2 :: (run step (step s a).1 as).2) := rfl

theorem run_append (step : σ → α → σ × ο) (s : σ) (as bs : List α) :
    run step s (as ++ bs) =
      ((run step (run step s as).1 bs).1,
        (run step s as).2 ++ (run step (run step s as).1 bs).2) := by
  induction as generalizing s with
  | nil => rfl
  | cons a as ih => simp [ih]

theorem run_invariant {step : σ → α → σ × ο} {allowed : α → Prop} {inv : σ → Prop}
    (hstep : ∀ s a, allowed a → inv s → inv (step s a).1) {s : σ} {as : List α}
    (has : ∀ a ∈ as, allowed a) (hs : inv s) : inv (run step s as).1 := by
  induction as generalizing s with
  | nil => exact hs
  | cons a as ih =>
    have ha : allowed a := has a (by simp)
    exact ih (fun b hb => has b (by simp [hb])) (hstep s a ha hs)

theorem run_always {step : σ → α → σ × ο} {inv : σ → Prop}
    (hstep : ∀ s a, inv s → inv (step s a).1) {s : σ} (hs : inv s) (as : List α) :
    inv (run step s as).1 := by
  induction as generalizing s with
  | nil => exact hs
  | cons a as ih => exact ih (hstep s a hs)

def Throughout (step : σ → α → σ × ο) (inv : σ → Prop) : σ → List α → Prop
  | s, [] => inv s
  | s, a :: as => inv s ∧ Throughout step inv (step s a).1 as

def EachStep (step : σ → α → σ × ο) (ok : σ → α → Prop) : σ → List α → Prop
  | _, [] => True
  | s, a :: as => ok s a ∧ EachStep step ok (step s a).1 as

theorem eachStep_of_forall {step : σ → α → σ × ο} {ok : α → Prop} {as : List α}
    (h : ∀ a ∈ as, ok a) (s : σ) : EachStep step (fun _ a => ok a) s as := by
  induction as generalizing s with
  | nil => trivial
  | cons a as ih => exact ⟨h a (by simp), ih (fun b hb => h b (by simp [hb])) (step s a).1⟩

theorem throughout_iff {step : σ → α → σ × ο} {allowed ok : σ → α → Prop} {base inv : σ → Prop}
    (hbase : ∀ s a, allowed s a → base s → base (step s a).1)
    (hstep : ∀ s a, allowed s a → base s → inv s → (inv (step s a).1 ↔ ok s a)) {s : σ}
    {as : List α} (has : EachStep step allowed s as) (hb : base s) (hs : inv s) :
    Throughout step inv s as ↔ EachStep step ok s as := by
  induction as generalizing s with
  | nil => exact ⟨fun _ => trivial, fun _ => hs⟩
  | cons a as ih =>
    obtain ⟨ha, hrest⟩ := has
    have hnext := hbase s a ha hb
    constructor
    · rintro ⟨-, hlater⟩
      have hinv : inv (step s a).1 := by
        cases as with
        | nil => exact hlater
        | cons b bs => exact hlater.1
      exact ⟨(hstep s a ha hb hs).mp hinv, (ih hrest hnext hinv).mp hlater⟩
    · rintro ⟨hok, hlater⟩
      have hinv := (hstep s a ha hb hs).mpr hok
      exact ⟨hs, (ih hrest hnext hinv).mpr hlater⟩

def log {γ : Type*} (record : α → ο → List γ) (step : σ → α → σ × ο) (s : σ) (as : List α) :
    List γ :=
  (as.zip (run step s as).2).flatMap fun call => record call.1 call.2

theorem log_cons {γ : Type*} (record : α → ο → List γ) (step : σ → α → σ × ο) (s : σ) (a : α)
    (as : List α) :
    log record step s (a :: as) = record a (step s a).2 ++ log record step (step s a).1 as := rfl

theorem log_append {γ : Type*} (record : α → ο → List γ) (step : σ → α → σ × ο) (s : σ)
    (as bs : List α) :
    log record step s (as ++ bs) =
      log record step s as ++ log record step (run step s as).1 bs := by
  induction as generalizing s with
  | nil => rfl
  | cons a as ih => rw [List.cons_append, log_cons, ih, log_cons, List.append_assoc, run_cons]

theorem log_map {γ δ : Type*} (record : α → ο → List γ) (f : γ → δ) (step : σ → α → σ × ο) (s : σ)
    (as : List α) :
    log (fun a o => (record a o).map f) step s as = (log record step s as).map f := by
  simp only [log, List.map_flatMap]

theorem run_log {γ : Type*} {record : α → ο → List γ} {step : σ → α → σ × ο} {view : σ → List γ}
    (hstep : ∀ s a, view (step s a).1 = view s ++ record a (step s a).2) (s : σ) (as : List α) :
    view (run step s as).1 = view s ++ log record step s as := by
  induction as generalizing s with
  | nil => simp [log]
  | cons a as ih =>
    rw [run_cons, ih, hstep, List.append_assoc, log_cons]

theorem run_lockstep {step : σ → α → σ × ο} {step' : τ → α → τ × ω} {allowed : α → Prop}
    {rel : σ → τ → Prop} {same : ο → ω → Prop}
    (hstep : ∀ s t a, allowed a → rel s t →
      rel (step s a).1 (step' t a).1 ∧ same (step s a).2 (step' t a).2)
    {s : σ} {t : τ} {as : List α} (has : ∀ a ∈ as, allowed a) (hst : rel s t) :
    rel (run step s as).1 (run step' t as).1 ∧
      List.Forall₂ same (run step s as).2 (run step' t as).2 := by
  induction as generalizing s t with
  | nil => exact ⟨hst, .nil⟩
  | cons a as ih =>
    obtain ⟨hrel, hsame⟩ := hstep s t a (has a (by simp)) hst
    obtain ⟨hend, houts⟩ := ih (fun b hb => has b (by simp [hb])) hrel
    exact ⟨hend, .cons hsame houts⟩

def visible (hidden : α → Bool) (a : α) (o : ο) : List ο := if hidden a then [] else [o]

theorem run_erase {step : σ → α → σ × ο} {allowed : α → Prop} {hidden : α → Bool}
    {rel : σ → σ → Prop} {same : ο → ο → Prop}
    (hhidden : ∀ s t a, allowed a → hidden a = true → rel s t → rel (step s a).1 t)
    (hvisible : ∀ s t a, allowed a → hidden a = false → rel s t →
      rel (step s a).1 (step t a).1 ∧ same (step s a).2 (step t a).2)
    {s t : σ} {as : List α} (has : ∀ a ∈ as, allowed a) (hst : rel s t) :
    rel (run step s as).1 (run step t (as.filter fun a => !hidden a)).1 ∧
      List.Forall₂ same (log (visible hidden) step s as)
        (run step t (as.filter fun a => !hidden a)).2 := by
  induction as generalizing s t with
  | nil => exact ⟨hst, .nil⟩
  | cons a as ih =>
    have ha : allowed a := has a (by simp)
    have hrest : ∀ b ∈ as, allowed b := fun b hb => has b (by simp [hb])
    cases hh : hidden a with
    | true =>
      have hkept : (a :: as).filter (fun a => !hidden a) = as.filter fun a => !hidden a := by
        simp [hh]
      have hnone : visible hidden a (step s a).2 = [] := by simp [visible, hh]
      rw [hkept, run_cons, log_cons, hnone, List.nil_append]
      exact ih hrest (hhidden s t a ha hh hst)
    | false =>
      obtain ⟨hrel, hsame⟩ := hvisible s t a ha hh hst
      have hkept : (a :: as).filter (fun a => !hidden a) =
          a :: as.filter fun a => !hidden a := by
        simp [hh]
      have hone : visible hidden a (step s a).2 = [(step s a).2] := by simp [visible, hh]
      obtain ⟨hend, hlog⟩ := ih hrest hrel
      rw [hkept, run_cons, run_cons, log_cons, hone, List.singleton_append]
      exact ⟨hend, .cons hsame hlog⟩

theorem run_each {κ β : Type*} [DecidableEq κ] {step : σ → κ → σ × ο} (view : σ → κ → β)
    {f : β → β} {answer : κ → β → ο}
    (hview : ∀ s k n, view (step s k).1 n = if n = k then f (view s n) else view s n)
    (hanswer : ∀ s k, (step s k).2 = answer k (view s k)) {ks : List κ} (hd : ks.Nodup) (s : σ) :
    (run step s ks).2 = ks.map (fun k => answer k (view s k)) ∧
      ∀ n, view (run step s ks).1 n = if n ∈ ks then f (view s n) else view s n := by
  induction ks generalizing s with
  | nil => exact ⟨rfl, fun _ => rfl⟩
  | cons k ks ih =>
    obtain ⟨hk, hd⟩ := List.nodup_cons.mp hd
    obtain ⟨houts, hend⟩ := ih hd (step s k).1
    constructor
    · have hrest : ∀ k' ∈ ks, answer k' (view (step s k).1 k') = answer k' (view s k') := by
        intro k' hk'
        rw [hview, if_neg (ne_of_mem_of_not_mem hk' hk)]
      rw [run_cons, houts, hanswer, List.map_cons, List.map_congr_left hrest]
    · intro n
      rw [run_cons, hend, hview]
      by_cases hn : n = k
      · subst hn
        simp [hk]
      · simp [hn]

theorem foldl_once {f : σ → α → σ} {p q : σ → Prop} {w : α} {as : List α} (hd : as.Nodup)
    (hw : w ∈ as) (hp : ∀ s, ∀ a ∈ as, a ≠ w → p s → p (f s a)) (hpq : ∀ s, p s → q (f s w))
    (hq : ∀ s, ∀ a ∈ as, a ≠ w → q s → q (f s a)) {s : σ} (hs : p s) : q (as.foldl f s) := by
  obtain ⟨pre, post, rfl⟩ := List.append_of_mem hw
  obtain ⟨-, hpost, hdisj⟩ := List.nodup_append.mp hd
  have hpre : p (pre.foldl f s) :=
    List.foldlRecOn pre f hs fun t ht a ha =>
      hp t a (by simp [ha]) (hdisj a ha w (by simp)) ht
  rw [List.foldl_append, List.foldl_cons]
  exact List.foldlRecOn post f (hpq _ hpre) fun t ht a ha =>
    hq t a (by simp [ha]) (fun h => (List.nodup_cons.mp hpost).1 (h ▸ ha)) ht

def survivors (step : σ → α → σ × ο) (fails : ο → Bool) : σ → List α → List α
  | _, [] => []
  | s, a :: as =>
    if fails (step s a).2 then survivors step fails (step s a).1 as
    else a :: survivors step fails (step s a).1 as

theorem run_survivors {step : σ → α → σ × ο} {fails : ο → Bool}
    (hfail : ∀ s a, fails (step s a).2 = true → (step s a).1 = s) (s : σ) (as : List α) :
    run step s (survivors step fails s as) =
      ((run step s as).1, (run step s as).2.filter (fun o => !fails o)) := by
  induction as generalizing s with
  | nil => rfl
  | cons a as ih =>
    cases hf : fails (step s a).2 with
    | true => simp [survivors, hf, ← ih, hfail s a hf]
    | false => simp [survivors, hf, ih]

theorem run_related {β : Type*} {step : σ → α → σ × ο} {step' : τ → β → τ × ω} {acts : α → β → Prop}
    {rel : σ → τ → Prop} {same : ο → ω → Prop}
    (hstep : ∀ s t a b, acts a b → rel s t →
      rel (step s a).1 (step' t b).1 ∧ same (step s a).2 (step' t b).2)
    {as : List α} {bs : List β} (has : List.Forall₂ acts as bs) {s : σ} {t : τ} (hst : rel s t) :
    rel (run step s as).1 (run step' t bs).1 ∧
      List.Forall₂ same (run step s as).2 (run step' t bs).2 := by
  induction has generalizing s t with
  | nil => exact ⟨hst, .nil⟩
  | cons hab _ ih =>
    obtain ⟨hrel, hsame⟩ := hstep s t _ _ hab hst
    obtain ⟨hend, houts⟩ := ih hrel
    exact ⟨hend, .cons hsame houts⟩

theorem log_prefix {γ : Type*} {record : α → ο → List γ} {step : σ → α → σ × ο}
    (hone : ∀ a o, (record a o).length ≤ 1) {as : List α} {heard : List γ} {s : σ}
    (h : heard <+: log record step s as) :
    ∃ before after, as = before ++ after ∧ log record step s before = heard ∧
      ∀ x, heard.getLast? = some x → ∃ bs b, before = bs ++ [b] ∧
        record b (step (run step s bs).1 b).2 = [x] := by
  induction as generalizing s heard with
  | nil =>
    have hnil : heard = [] := List.prefix_nil.mp h
    exact ⟨[], [], rfl, hnil ▸ rfl, by simp [hnil]⟩
  | cons a as ih =>
    cases heard with
    | nil => exact ⟨[], a :: as, rfl, rfl, by simp⟩
    | cons y heard =>
      rw [log_cons] at h
      rcases hrec : record a (step s a).2 with _ | ⟨z, zs⟩
      · rw [hrec, List.nil_append] at h
        obtain ⟨before, after, rfl, hlog, hlast⟩ := ih h
        refine ⟨a :: before, after, rfl, by rw [log_cons, hrec, List.nil_append, hlog], ?_⟩
        intro x hx
        obtain ⟨bs, b, rfl, hb⟩ := hlast x hx
        exact ⟨a :: bs, b, rfl, hb⟩
      · have hzs : zs = [] := by
          have hlen := hone a (step s a).2
          rw [hrec, List.length_cons] at hlen
          exact List.length_eq_zero_iff.mp (by omega)
        rw [hrec, hzs, List.singleton_append, List.cons_prefix_cons] at h
        obtain ⟨rfl, hrest⟩ := h
        cases heard with
        | nil =>
          refine ⟨[a], as, rfl, by rw [log_cons, hrec, hzs]; rfl, ?_⟩
          intro x hx
          have hyx : y = x := by simpa using hx
          exact ⟨[], a, rfl, by rw [run_nil, hrec, hzs, hyx]⟩
        | cons y' heard =>
          obtain ⟨before, after, rfl, hlog, hlast⟩ := ih hrest
          refine ⟨a :: before, after, rfl, ?_, ?_⟩
          · rw [log_cons, hrec, hzs, hlog, List.singleton_append]
          · intro x hx
            rw [List.getLast?_cons_cons] at hx
            obtain ⟨bs, b, rfl, hb⟩ := hlast x hx
            exact ⟨a :: bs, b, rfl, hb⟩

end Transition
