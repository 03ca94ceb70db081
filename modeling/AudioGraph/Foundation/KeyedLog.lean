import Mathlib.Data.List.Induction
import Mathlib.Data.List.Nodup
import Mathlib.Data.Nat.Find
import Mathlib.Tactic.TypeStar

namespace KeyedLog

variable {κ ν : Type*}

inductive Write (κ ν : Type*) where
  | put (v : ν)
  | erase (k : κ)

section

variable [DecidableEq κ] (key : ν → κ)

def Write.value (k : κ) : Write κ ν → Option (Option ν)
  | .put v => if key v = k then some (some v) else none
  | .erase k' => if k' = k then some none else none

def lookup (l : List ν) (k : κ) : Option ν := l.find? (fun v => key v = k)

def upsert (v : ν) : List ν → List ν
  | [] => [v]
  | x :: xs => if key x = key v then v :: xs else x :: upsert v xs

def erase (k : κ) (l : List ν) : List ν := l.filter (fun v => key v ≠ k)

def write (l : List ν) : Write κ ν → List ν
  | .put v => upsert key v l
  | .erase k => erase key k l

def replay (l : List ν) (ws : List (Write κ ν)) : List ν := ws.foldl (write key) l

def lastWrite (k : κ) (ws : List (Write κ ν)) : Option (Option ν) :=
  (ws.filterMap (·.value key k)).getLast?

variable {key} {l : List ν} {v : ν} {k k' : κ} {w : Write κ ν}

theorem upsert_mem (h : key v ∈ l.map key) :
    (upsert key v l).map key = l.map key := by
  induction l with
  | nil => cases h
  | cons x xs ih =>
    by_cases hx : key x = key v
    · simp [upsert, hx]
    · have hrest : key v ∈ xs.map key := (List.mem_cons.mp h).resolve_left (Ne.symm hx)
      simp [upsert, hx, ih hrest]

theorem upsert_not_mem (h : key v ∉ l.map key) : upsert key v l = l ++ [v] := by
  induction l with
  | nil => rfl
  | cons x xs ih =>
    rw [List.map_cons, List.mem_cons, not_or] at h
    simp [upsert, Ne.symm h.1, ih h.2]

theorem lookup_upsert (v : ν) (l : List ν) (k : κ) :
    lookup key (upsert key v l) k = if key v = k then some v else lookup key l k := by
  induction l with
  | nil => by_cases hk : key v = k <;> simp [lookup, upsert, hk]
  | cons x xs ih =>
    simp only [lookup] at ih ⊢
    by_cases hx : key x = key v
    · by_cases hk : key v = k <;> simp [upsert, hx, hk]
    · by_cases hxk : key x = k
      · have hk : k ≠ key v := hxk ▸ hx
        simp [upsert, hxk, hk, hk.symm]
      · simp [upsert, hx, hxk, ih]

theorem lookup_erase (k' : κ) (l : List ν) (k : κ) :
    lookup key (erase key k' l) k = if k' = k then none else lookup key l k := by
  rw [lookup, erase, List.find?_filter]
  by_cases hk : k' = k
  · subst hk
    simp
  · rw [if_neg hk, lookup]
    refine congrFun (congrArg List.find? (funext fun v => ?_)) l
    by_cases hv : key v = k <;> simp [hv, Ne.symm hk]

theorem lookup_write (l : List ν) (w : Write κ ν) (k : κ) :
    lookup key (write key l w) k = (w.value key k).getD (lookup key l k) := by
  cases w with
  | put v =>
    rw [write, lookup_upsert, Write.value]
    split <;> rfl
  | erase k' =>
    rw [write, lookup_erase, Write.value]
    split <;> rfl

theorem lookup_replay (l : List ν) (ws : List (Write κ ν)) (k : κ) :
    lookup key (replay key l ws) k = (lastWrite key k ws).getD (lookup key l k) := by
  induction ws generalizing l with
  | nil => rfl
  | cons w ws ih =>
    have hcons : replay key l (w :: ws) = replay key (write key l w) ws := rfl
    rw [hcons, ih, lookup_write, lastWrite, lastWrite, List.filterMap_cons]
    cases hw : w.value key k with
    | none => rfl
    | some r =>
      rw [List.getLast?_cons]
      cases (ws.filterMap (·.value key k)).getLast? <;> rfl

theorem keys_erase (k : κ) (l : List ν) :
    (erase key k l).map key = (l.map key).filter (fun k' => k' ≠ k) := by
  rw [erase, List.filter_map]
  rfl

theorem nodup_write (h : (l.map key).Nodup) (w : Write κ ν) :
    ((write key l w).map key).Nodup := by
  cases w with
  | put v =>
    by_cases hv : key v ∈ l.map key
    · rw [write, upsert_mem hv]
      exact h
    · rw [write, upsert_not_mem hv, List.map_append, List.map_singleton]
      exact List.nodup_append.mpr ⟨h, List.nodup_singleton _, fun a ha b hb heq =>
        hv (List.mem_singleton.mp hb ▸ heq ▸ ha)⟩
  | erase k =>
    rw [write, keys_erase]
    exact h.filter _

theorem nodup_replay (h : (l.map key).Nodup) (ws : List (Write κ ν)) :
    ((replay key l ws).map key).Nodup := by
  induction ws generalizing l with
  | nil => exact h
  | cons w ws ih => exact ih (nodup_write h w)

def Write.about (key : ν → κ) (k : κ) (w : Write κ ν) : Bool := (w.value key k).isSome

theorem erase_upsert_self (h : key v = k) (l : List ν) :
    erase key k (upsert key v l) = erase key k l := by
  induction l with
  | nil => simp [upsert, erase, h]
  | cons x xs ih =>
    simp only [erase] at ih ⊢
    by_cases hx : key x = k
    · simp [upsert, h, hx]
    · simpa [upsert, h, hx] using ih

theorem erase_upsert_of_ne (h : key v ≠ k) (l : List ν) :
    erase key k (upsert key v l) = upsert key v (erase key k l) := by
  induction l with
  | nil => simp [upsert, erase, h]
  | cons x xs ih =>
    simp only [erase] at ih ⊢
    by_cases hv : key x = key v
    · simp [upsert, hv, h]
    · by_cases hx : key x = k
      · have hk : k ≠ key v := Ne.symm h
        simpa [upsert, hx, hk] using ih
      · simpa [upsert, hx, hv] using ih

theorem erase_write_about (h : w.about key k = true) (l : List ν) :
    erase key k (write key l w) = erase key k l := by
  cases w with
  | put v =>
    have hv : key v = k := by
      by_contra hv
      simp [Write.about, Write.value, hv] at h
    exact erase_upsert_self hv l
  | erase k' =>
    have hk : k' = k := by
      by_contra hk
      simp [Write.about, Write.value, hk] at h
    subst hk
    simp [write, erase]

theorem erase_write_other (h : w.about key k = false) (l : List ν) :
    erase key k (write key l w) = write key (erase key k l) w := by
  cases w with
  | put v =>
    have hv : key v ≠ k := by
      intro hv
      simp [Write.about, Write.value, hv] at h
    exact erase_upsert_of_ne hv l
  | erase k' => simp only [write, erase, List.filter_filter, Bool.and_comm]

structure Born (key : ν → κ) (ws : List (Write κ ν)) (k : κ) (i : Nat) : Prop where
  put : ∃ v, ws[i]? = some (.put v) ∧ key v = k
  kept : ∀ j > i, ws[j]? ≠ some (.erase k)
  first : ∀ j < i, (∃ v, ws[j]? = some (.put v) ∧ key v = k) →
    ∃ m, j < m ∧ m < i ∧ ws[m]? = some (.erase k)

variable {ws : List (Write κ ν)} {i j : Nat}

omit [DecidableEq κ] in
theorem Born.lt_length (h : Born key ws k i) : i < ws.length := by
  obtain ⟨v, hv, -⟩ := h.put
  exact (List.getElem?_eq_some_iff.mp hv).1

omit [DecidableEq κ] in
theorem exists_born (hput : ∃ v, ws[j]? = some (.put v) ∧ key v = k)
    (hkept : ∀ m > j, ws[m]? ≠ some (.erase k)) : ∃ i ≤ j, Born key ws k i := by
  classical
  let alive : Nat → Prop := fun i =>
    (∃ v, ws[i]? = some (.put v) ∧ key v = k) ∧ ∀ m > i, ws[m]? ≠ some (.erase k)
  have halive : ∃ i, alive i := ⟨j, hput, hkept⟩
  obtain ⟨hfound, hafter⟩ := Nat.find_spec halive
  refine ⟨Nat.find halive, Nat.find_min' halive ⟨hput, hkept⟩, hfound, hafter, ?_⟩
  intro m hm hmput
  have hdead : ¬ alive m := Nat.find_min halive hm
  have herased : ∃ m' > m, ws[m']? = some (.erase k) := by
    by_contra hnone
    exact hdead ⟨hmput, fun m' hm' heq => hnone ⟨m', hm', heq⟩⟩
  obtain ⟨m', hm', heq⟩ := herased
  have hle : m' ≤ Nat.find halive := not_lt.mp fun hlt => hafter m' hlt heq
  have hne : m' ≠ Nat.find halive := by
    rintro rfl
    obtain ⟨v, hv, -⟩ := hfound
    rw [hv] at heq
    cases heq
  exact ⟨m', hm', lt_of_le_of_ne hle hne, heq⟩

omit [DecidableEq κ] in
theorem Born.unique (h : Born key ws k i) (h' : Born key ws k j) : i = j := by
  have hle : ∀ {i j : Nat}, Born key ws k i → Born key ws k j → i ≤ j := by
    intro i j h h'
    by_contra hlt
    obtain ⟨m, hm, -, herased⟩ := h.first j (not_le.mp hlt) h'.put
    exact h'.kept m hm herased
  exact le_antisymm (hle h h') (hle h' h)

omit [DecidableEq κ] in
theorem getElem?_concat_iff {w w' : Write κ ν} :
    (ws ++ [w])[i]? = some w' ↔ ws[i]? = some w' ∨ i = ws.length ∧ w = w' := by
  rw [List.getElem?_append]
  split
  · rename_i hlt
    have hne : i ≠ ws.length := Nat.ne_of_lt hlt
    simp [hne]
  · rename_i hge
    have hnone : ws[i]? = none := List.getElem?_eq_none (not_lt.mp hge)
    rw [hnone, List.getElem?_singleton]
    by_cases hi : i = ws.length
    · simp [hi]
    · have hsub : i - ws.length ≠ 0 := by omega
      simp [hi, hsub]

omit [DecidableEq κ] in
theorem Born.of_concat (h : Born key (ws ++ [w]) k i) :
    w ≠ .erase k ∧ Born key ws k i ∨
      i = ws.length ∧ (∃ v, w = .put v ∧ key v = k) ∧ ∀ j, ¬ Born key ws k j := by
  obtain ⟨v, hv, hkey⟩ := h.put
  rcases getElem?_concat_iff.mp hv with hold | ⟨rfl, rfl⟩
  · have hlt : i < ws.length := (List.getElem?_eq_some_iff.mp hold).1
    refine .inl ⟨fun hw => h.kept ws.length hlt (by simp [hw]), ⟨v, hold, hkey⟩, ?_, ?_⟩
    · exact fun j hj heq => h.kept j hj (getElem?_concat_iff.mpr (.inl heq))
    · rintro j hj ⟨u, hu, hukey⟩
      obtain ⟨m, hjm, hmi, hm⟩ := h.first j hj ⟨u, getElem?_concat_iff.mpr (.inl hu), hukey⟩
      rcases getElem?_concat_iff.mp hm with hm | ⟨rfl, -⟩
      · exact ⟨m, hjm, hmi, hm⟩
      · omega
  · refine .inr ⟨rfl, ⟨v, rfl, hkey⟩, fun j hborn => ?_⟩
    obtain ⟨u, hu, hukey⟩ := hborn.put
    obtain ⟨m, hjm, -, hm⟩ :=
      h.first j hborn.lt_length ⟨u, getElem?_concat_iff.mpr (.inl hu), hukey⟩
    rcases getElem?_concat_iff.mp hm with hm | ⟨-, hw⟩
    · exact hborn.kept m hjm hm
    · cases hw

omit [DecidableEq κ] in
theorem Born.concat (h : Born key ws k i) (hw : w ≠ .erase k) : Born key (ws ++ [w]) k i := by
  obtain ⟨v, hv, hkey⟩ := h.put
  refine ⟨⟨v, getElem?_concat_iff.mpr (.inl hv), hkey⟩, fun j hj heq => ?_, ?_⟩
  · rcases getElem?_concat_iff.mp heq with heq | ⟨-, heq⟩
    · exact h.kept j hj heq
    · exact hw heq
  · rintro j hj ⟨u, hu, hukey⟩
    rcases getElem?_concat_iff.mp hu with hu | ⟨rfl, -⟩
    · obtain ⟨m, hjm, hmi, hm⟩ := h.first j hj ⟨u, hu, hukey⟩
      exact ⟨m, hjm, hmi, getElem?_concat_iff.mpr (.inl hm)⟩
    · exact absurd h.lt_length (Nat.lt_asymm hj)

omit [DecidableEq κ] in
theorem born_of_put (hkey : key v = k) (hnone : ∀ j, ¬ Born key ws k j) :
    Born key (ws ++ [.put v]) k ws.length := by
  refine ⟨⟨v, getElem?_concat_iff.mpr (.inr ⟨rfl, rfl⟩), hkey⟩, fun j hj heq => ?_, ?_⟩
  · rcases getElem?_concat_iff.mp heq with heq | ⟨rfl, -⟩
    · exact absurd (List.getElem?_eq_some_iff.mp heq).1 (Nat.lt_asymm hj)
    · exact Nat.lt_irrefl _ hj
  · rintro j hj ⟨u, hu, hukey⟩
    rcases getElem?_concat_iff.mp hu with hu | ⟨rfl, -⟩
    · by_contra hkept
      have hsurvives : ∀ m > j, ws[m]? ≠ some (.erase k) := by
        intro m hm heq
        have hlt : m < ws.length := (List.getElem?_eq_some_iff.mp heq).1
        exact hkept ⟨m, hm, hlt, getElem?_concat_iff.mpr (.inl heq)⟩
      obtain ⟨i, -, hborn⟩ := exists_born ⟨u, hu, hukey⟩ hsurvives
      exact hnone i hborn
    · exact absurd hj (lt_irrefl _)

omit [DecidableEq κ] in
theorem born_concat_iff :
    Born key (ws ++ [w]) k i ↔ w ≠ .erase k ∧ Born key ws k i ∨
      i = ws.length ∧ (∃ v, w = .put v ∧ key v = k) ∧ ∀ j, ¬ Born key ws k j := by
  constructor
  · exact Born.of_concat
  · rintro (⟨hw, h⟩ | ⟨rfl, ⟨v, rfl, hkey⟩, hnone⟩)
    · exact h.concat hw
    · exact born_of_put hkey hnone

theorem replay_concat (l : List ν) (ws : List (Write κ ν)) (w : Write κ ν) :
    replay key l (ws ++ [w]) = write key (replay key l ws) w := by
  simp [replay]

theorem mem_replay_iff (ws : List (Write κ ν)) (k : κ) :
    k ∈ (replay key [] ws).map key ↔ ∃ i, Born key ws k i := by
  induction ws using List.reverseRecOn generalizing k with
  | nil =>
    refine iff_of_false List.not_mem_nil ?_
    rintro ⟨i, hborn⟩
    exact absurd hborn.lt_length (Nat.not_lt_zero i)
  | append_singleton ws w ih =>
    rw [replay_concat]
    simp only [born_concat_iff, exists_or, exists_and_left, ← ih, exists_eq_left]
    cases w with
    | put v =>
      by_cases hv : key v ∈ (replay key [] ws).map key
      · rw [write, upsert_mem hv, ih]
        refine ⟨fun h => .inl ⟨nofun, h⟩, ?_⟩
        rintro (⟨-, h⟩ | ⟨⟨u, hu, hkey⟩, hnone⟩)
        · exact h
        · cases hu
          obtain ⟨i, hborn⟩ := (ih (key v)).mp hv
          exact absurd (hkey ▸ hborn) (hnone i)
      · rw [write, upsert_not_mem hv, List.map_append, List.mem_append, ih]
        constructor
        · rintro (h | h)
          · exact .inl ⟨nofun, h⟩
          · have hk : k = key v := List.mem_singleton.mp h
            refine .inr ⟨⟨v, rfl, hk.symm⟩, fun j hborn => hv ((ih _).mpr ⟨j, hk ▸ hborn⟩)⟩
        · rintro (⟨-, h⟩ | ⟨⟨u, hu, hkey⟩, -⟩)
          · exact .inl h
          · cases hu
            exact .inr (by simp [hkey])
    | erase k' =>
      rw [write, keys_erase, List.mem_filter, ih, decide_eq_true_iff]
      constructor
      · rintro ⟨h, hk⟩
        exact .inl ⟨fun heq => hk (Write.erase.inj heq).symm, h⟩
      · rintro (⟨hk, h⟩ | ⟨⟨v, hv, -⟩, -⟩)
        · exact ⟨h, fun heq => hk (heq ▸ rfl)⟩
        · cases hv

theorem replay_ordered (ws : List (Write κ ν)) :
    ((replay key [] ws).map key).Pairwise fun k k' =>
      ∀ i j, Born key ws k i → Born key ws k' j → i < j := by
  induction ws using List.reverseRecOn with
  | nil => exact .nil
  | append_singleton ws w ih =>
    rw [replay_concat]
    have hold : ∀ {k : κ} {i : Nat}, k ∈ (replay key [] ws).map key →
        Born key (ws ++ [w]) k i → Born key ws k i := by
      intro k i hk hborn
      rcases born_concat_iff.mp hborn with ⟨-, h⟩ | ⟨-, -, hnone⟩
      · exact h
      · obtain ⟨j, h⟩ := (mem_replay_iff ws k).mp hk
        exact absurd h (hnone j)
    have hkept := ih.imp_of_mem fun hk hk' h i j hi hj => h i j (hold hk hi) (hold hk' hj)
    cases w with
    | put v =>
      by_cases hv : key v ∈ (replay key [] ws).map key
      · rw [write, upsert_mem hv]
        exact hkept
      · rw [write, upsert_not_mem hv, List.map_append, List.pairwise_append]
        refine ⟨hkept, List.pairwise_singleton _ _, fun k hk k' hk' i j hi hj => ?_⟩
        rw [List.map_singleton, List.mem_singleton] at hk'
        rcases born_concat_iff.mp hj with ⟨-, hborn⟩ | ⟨rfl, -, -⟩
        · exact absurd ((mem_replay_iff ws k').mpr ⟨j, hborn⟩) (hk' ▸ hv)
        · exact (hold hk hi).lt_length
    | erase k =>
      rw [write, keys_erase]
      exact hkept.filter _

theorem replay_puts (h : (l.map key).Nodup) : replay key [] (l.map .put) = l := by
  induction l using List.reverseRecOn with
  | nil => rfl
  | append_singleton l v ih =>
    rw [List.map_append, List.map_singleton] at h
    obtain ⟨hl, -, hdisj⟩ := List.nodup_append.mp h
    have hv : key v ∉ l.map key := fun hmem => hdisj _ hmem _ (by simp) rfl
    rw [List.map_append, List.map_singleton, replay_concat, ih hl, write, upsert_not_mem hv]

end

theorem foldl_compact {σ α : Type*} {apply : σ → α → σ} {last : α} {about : α → Bool}
    {allowed : α → Prop}
    (habsorbs : ∀ s a, allowed a → about a = true → apply (apply s a) last = apply s last)
    (hpasses : ∀ s a, allowed a → about a = false →
      apply (apply s a) last = apply (apply s last) a)
    {as : List α} (has : ∀ a ∈ as, allowed a) (s : σ) :
    apply (as.foldl apply s) last = (as.filter fun a => !about a).foldl apply (apply s last) := by
  induction as generalizing s with
  | nil => rfl
  | cons a as ih =>
    have ha : allowed a := has a (by simp)
    rw [List.foldl_cons, ih fun b hb => has b (by simp [hb])]
    cases hab : about a with
    | true => simp [hab, habsorbs s a ha hab]
    | false => simp [hab, hpasses s a ha hab]

end KeyedLog
