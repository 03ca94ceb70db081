import AudioGraph.Foundation.Transition
import Mathlib.Data.List.Nodup

-- One call made of keyed tasks, with the calls of other threads running between the tasks.
namespace Weave

variable {σ κ α ο γ ω : Type*}

inductive Item (κ α : Type*) where
  | task (k : κ)
  | call (a : α)

def step (task : σ → κ → σ) (call : σ → α → σ × ο) (s : σ) : Item κ α → σ × Option ο
  | .task k => (task s k, none)
  | .call a => let r := call s a; (r.1, some r.2)

def run (task : σ → κ → σ) (call : σ → α → σ × ο) (s : σ) (word : List (Item κ α)) :
    σ × List (Option ο) :=
  Transition.run (step task call) s word

theorem run_concat {task : σ → κ → σ} {call : σ → α → σ × ο} {s s' : σ} {word : List (Item κ α)}
    (h : (run task call s word).1 = s') (item : Item κ α) :
    (run task call s (word ++ [item])).1 = (step task call s' item).1 := by
  rw [run, Transition.run_append, ← h]
  rfl

def tasks (word : List (Item κ α)) : List κ :=
  word.filterMap fun
    | .task k => some k
    | .call _ => none

@[simp] theorem tasks_nil : tasks ([] : List (Item κ α)) = [] := rfl

@[simp] theorem tasks_task (k : κ) (word : List (Item κ α)) :
    tasks (.task k :: word) = k :: tasks word := rfl

@[simp] theorem tasks_call (a : α) (word : List (Item κ α)) :
    tasks (.call a :: word) = tasks word := rfl

theorem tasks_append (word word' : List (Item κ α)) :
    tasks (word ++ word') = tasks word ++ tasks word' :=
  List.filterMap_append

variable [DecidableEq κ]

def early (key : α → κ) : List (Item κ α) → List α
  | [] => []
  | .task _ :: word => early key word
  | .call a :: word => if key a ∈ tasks word then a :: early key word else early key word

def late (key : α → κ) : List (Item κ α) → List α
  | [] => []
  | .task _ :: word => late key word
  | .call a :: word => if key a ∈ tasks word then late key word else a :: late key word

structure Independent (task : σ → κ → σ) (call : σ → α → σ × ο) (key : α → κ) : Prop where
  task_call : ∀ s k a, key a ≠ k → call (task s k) a = (task (call s a).1 k, (call s a).2)
  call_call : ∀ s a b, key a ≠ key b →
    call (call s a).1 b = ((call (call s b).1 a).1, (call s b).2)

def answered (key : α → κ) (k : κ) (a : α) (o : ο) : List (α × ο) :=
  if key a = k then [(a, o)] else []

def itemAnswered (key : α → κ) (k : κ) : Item κ α → Option ο → List (α × ο)
  | .call a, some o => answered key k a o
  | _, _ => []

theorem log_concat {task : σ → κ → σ} {call : σ → α → σ × ο} {s s' : σ} {word : List (Item κ α)}
    (h : (run task call s word).1 = s') (key : α → κ) (k : κ) (item : Item κ α) :
    Transition.log (itemAnswered key k) (step task call) s (word ++ [item]) =
      Transition.log (itemAnswered key k) (step task call) s word ++
        itemAnswered key k item (step task call s' item).2 := by
  rw [Transition.log_append, ← h, Transition.log_cons]
  exact congrArg _ (List.append_nil _)

theorem mem_tasks_of_early {key : α → κ} {word : List (Item κ α)} {a : α}
    (h : a ∈ early key word) : key a ∈ tasks word := by
  induction word with
  | nil => cases h
  | cons item word ih =>
    cases item with
    | task k => exact List.mem_cons_of_mem _ (ih h)
    | call b =>
      simp only [early] at h
      split at h
      · rename_i hb
        rcases List.mem_cons.mp h with rfl | h
        · exact hb
        · exact ih h
      · exact ih h

section Log

variable {call : σ → α → σ × ο} {key : α → κ} {k : κ}

theorem log_other {as : List α} (h : ∀ a ∈ as, key a ≠ k) (s : σ) :
    Transition.log (answered key k) call s as = [] := by
  induction as generalizing s with
  | nil => rfl
  | cons a as ih =>
    have ha : answered key k a (call s a).2 = [] := if_neg (h a (by simp))
    rw [Transition.log_cons, ha, ih fun b hb => h b (by simp [hb])]
    rfl

end Log

section Independent

variable {task : σ → κ → σ} {call : σ → α → σ × ο} {key : α → κ}

omit [DecidableEq κ] in
theorem Independent.task_run (h : Independent task call key) {k : κ} {as : List α}
    (has : ∀ a ∈ as, key a ≠ k) (s : σ) :
    Transition.run call (task s k) as =
      (task (Transition.run call s as).1 k, (Transition.run call s as).2) := by
  induction as generalizing s with
  | nil => rfl
  | cons a as ih =>
    have ha := h.task_call s k a (has a (by simp))
    rw [Transition.run_cons, ha, ih fun b hb => has b (by simp [hb])]
    rfl

omit [DecidableEq κ] in
theorem Independent.call_tasks (h : Independent task call key) {a : α} {ks : List κ}
    (ha : key a ∉ ks) (s : σ) :
    call (ks.foldl task s) a = (ks.foldl task (call s a).1, (call s a).2) := by
  induction ks generalizing s with
  | nil => rfl
  | cons k ks ih =>
    simp only [List.mem_cons, not_or] at ha
    obtain ⟨hk, hks⟩ := ha
    rw [List.foldl_cons, ih hks, h.task_call s k a hk]
    rfl

omit [DecidableEq κ] in
theorem Independent.call_run (h : Independent task call key) {a : α} {bs : List α}
    (hbs : ∀ b ∈ bs, key b ≠ key a) (s : σ) :
    Transition.run call (call s a).1 bs =
        ((call (Transition.run call s bs).1 a).1, (Transition.run call s bs).2) ∧
      (call (Transition.run call s bs).1 a).2 = (call s a).2 := by
  induction bs generalizing s with
  | nil => exact ⟨rfl, rfl⟩
  | cons b bs ih =>
    have hb : key b ≠ key a := hbs b (by simp)
    have hab := h.call_call s a b (Ne.symm hb)
    have hba := h.call_call s b a hb
    obtain ⟨hrun, hanswer⟩ := ih (fun c hc => hbs c (by simp [hc])) (call s b).1
    constructor
    · rw [Transition.run_cons, hab, hrun]
      rfl
    · rw [Transition.run_cons, hanswer, hba]

theorem Independent.delay (h : Independent task call key) {a : α} {word : List (Item κ α)}
    (ha : key a ∉ tasks word) (s : σ) :
    let before := Transition.run call s (early key word)
    let m := (tasks word).foldl task before.1
    (tasks word).foldl task (Transition.run call (call s a).1 (early key word)).1 =
        (call m a).1 ∧
      (call m a).2 = (call s a).2 ∧
      (Transition.run call (call s a).1 (early key word)).2 = before.2 := by
  have hother : ∀ b ∈ early key word, key b ≠ key a :=
    fun b hb hba => ha (hba ▸ mem_tasks_of_early hb)
  obtain ⟨hrun, hanswer⟩ := h.call_run hother s
  have hlast := h.call_tasks ha (Transition.run call s (early key word)).1
  refine ⟨by rw [hrun, hlast], ?_, by rw [hrun]⟩
  rw [hlast]
  exact hanswer

theorem answered_swap {a : α} {k : κ} {word : List (Item κ α)} (ha : key a ∉ tasks word) (o : ο)
    (s : σ) :
    answered key k a o ++ Transition.log (answered key k) call s (early key word) =
      Transition.log (answered key k) call s (early key word) ++ answered key k a o := by
  by_cases hk : key a = k
  · have hother : ∀ b ∈ early key word, key b ≠ k :=
      fun b hb hbk => ha (hk.trans hbk.symm ▸ mem_tasks_of_early hb)
    rw [log_other hother, List.append_nil, List.nil_append]
  · have hnone : answered key k a o = [] := if_neg hk
    rw [hnone, List.append_nil, List.nil_append]

-- By induction on the word: a task moves past the early calls, a call with no task of its key
-- ahead moves past the early calls and past all the tasks.
theorem Independent.serial (h : Independent task call key) {word : List (Item κ α)}
    (hd : (tasks word).Nodup) (s : σ) :
    let m := (tasks word).foldl task (Transition.run call s (early key word)).1
    (run task call s word).1 = (Transition.run call m (late key word)).1 ∧
      ∀ k, Transition.log (itemAnswered key k) (step task call) s word =
        Transition.log (answered key k) call s (early key word) ++
          Transition.log (answered key k) call m (late key word) := by
  induction word generalizing s with
  | nil => exact ⟨rfl, fun _ => rfl⟩
  | cons item word ih =>
    cases item with
    | task k =>
      obtain ⟨hk, hd⟩ := List.nodup_cons.mp hd
      have hother : ∀ a ∈ early key word, key a ≠ k :=
        fun a ha hak => hk (hak ▸ mem_tasks_of_early ha)
      have hpast := h.task_run hother s
      obtain ⟨hend, hlog⟩ := ih hd (task s k)
      simp only [hpast] at hend hlog
      refine ⟨hend, fun l => ?_⟩
      have hsame : Transition.log (answered key l) call (task s k) (early key word) =
          Transition.log (answered key l) call s (early key word) := by
        simp only [Transition.log, hpast]
      refine (hlog l).trans ?_
      rw [hsame]
      rfl
    | call a =>
      obtain ⟨hend, hlog⟩ := ih hd (call s a).1
      by_cases ha : key a ∈ tasks word
      · have hearly : early key (.call a :: word) = a :: early key word := if_pos ha
        have hlate : late key (.call a :: word) = late key word := if_pos ha
        simp only [hearly, hlate]
        refine ⟨hend, fun k => ?_⟩
        rw [Transition.log_cons, Transition.log_cons, List.append_assoc]
        exact congrArg _ (hlog k)
      · have hearly : early key (.call a :: word) = early key word := if_neg ha
        have hlate : late key (.call a :: word) = a :: late key word := if_neg ha
        obtain ⟨hmid, hback, hanswers⟩ := h.delay ha s
        simp only [hearly, hlate, tasks_call]
        rw [hmid] at hend
        refine ⟨hend, fun k => ?_⟩
        have hsame : Transition.log (answered key k) call (call s a).1 (early key word) =
            Transition.log (answered key k) call s (early key word) := by
          simp only [Transition.log, hanswers]
        have hrest := hlog k
        rw [hsame, hmid] at hrest
        rw [Transition.log_cons, Transition.log_cons, hback, ← List.append_assoc,
          ← answered_swap ha, List.append_assoc]
        exact congrArg (answered key k a (call s a).2 ++ ·) hrest

end Independent

inductive Mark (γ ω α ο : Type*) where
  | opened (c : γ)
  | closed (o : ω)
  | acted (a : α) (o : ο)

inductive Done (γ ω α ο : Type*) where
  | called (c : γ) (o : ω)
  | acted (a : α) (o : ο)

def marked (p : α × ο) : Mark γ ω α ο := .acted p.1 p.2

def done (p : α × ο) : Done γ ω α ο := .acted p.1 p.2

inductive Linear : List (Mark γ ω α ο) → List (Done γ ω α ο) → Prop
  | nil : Linear [] []
  | acted {ms : List (Mark γ ω α ο)} {ds : List (Done γ ω α ο)} (p : α × ο) (h : Linear ms ds) :
      Linear (marked p :: ms) (done p :: ds)
  | called {ms : List (Mark γ ω α ο)} {ds : List (Done γ ω α ο)} (c : γ) (o : ω)
      (before after : List (α × ο)) (h : Linear ms ds) :
      Linear (.opened c :: (before ++ after).map marked ++ .closed o :: ms)
        (before.map done ++ .called c o :: after.map done ++ ds)

omit [DecidableEq κ] in
theorem Linear.append {ms ms' : List (Mark γ ω α ο)} {ds ds' : List (Done γ ω α ο)}
    (h : Linear ms ds) (h' : Linear ms' ds') : Linear (ms ++ ms') (ds ++ ds') := by
  induction h with
  | nil => exact h'
  | acted p _ ih => exact .acted p ih
  | called c o before after _ ih => simpa using Linear.called c o before after ih

theorem Linear.acts (l : List (α × ο)) :
    Linear (γ := γ) (ω := ω) (l.map marked) (l.map done) := by
  induction l with
  | nil => exact .nil
  | cons p l ih => exact .acted p ih

theorem Linear.single (c : γ) (o : ω) (before after : List (α × ο)) :
    Linear (.opened c :: (before ++ after).map marked ++ [.closed o])
      (before.map done ++ .called c o :: after.map done) := by
  simpa using Linear.called c o before after .nil

end Weave
