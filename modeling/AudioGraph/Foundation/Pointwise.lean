import Mathlib.Data.List.Forall2

namespace Pointwise

variable {α β γ : Type*}

section Related

variable {R : α → β → Prop} {l : List α} {l' : List β}

theorem forall₂_getElem? (h : List.Forall₂ R l l') (n : Nat) :
    (l[n]? = none ∧ l'[n]? = none) ∨ ∃ a b, l[n]? = some a ∧ l'[n]? = some b ∧ R a b := by
  induction h generalizing n with
  | nil => exact Or.inl ⟨rfl, rfl⟩
  | @cons a b l l' hab _ ih =>
    cases n with
    | zero => exact Or.inr ⟨a, b, rfl, rfl, hab⟩
    | succ n => exact ih n

theorem forall₂_set (h : List.Forall₂ R l l') {a : α} {b : β} (hab : R a b) (n : Nat) :
    List.Forall₂ R (l.set n a) (l'.set n b) := by
  induction h generalizing n with
  | nil => exact .nil
  | cons hcd hrest ih =>
    cases n with
    | zero => exact .cons hab hrest
    | succ n => exact .cons hcd (ih n)

theorem forall₂_modify_both {f : α → α} {f' : β → β} {n : Nat} (h : List.Forall₂ R l l')
    (hf : ∀ a b, l[n]? = some a → R a b → R (f a) (f' b)) :
    List.Forall₂ R (l.modify n f) (l'.modify n f') := by
  induction h generalizing n with
  | nil => cases n <;> exact .nil
  | cons hab hrest ih =>
    cases n with
    | zero => exact .cons (hf _ _ rfl hab) hrest
    | succ n => exact .cons hab (ih fun c d hc hcd => hf c d hc hcd)

theorem forall₂_modify_left {f : α → α} {n : Nat} (h : List.Forall₂ R l l')
    (hf : ∀ a b, l[n]? = some a → R a b → R (f a) b) : List.Forall₂ R (l.modify n f) l' := by
  have hboth : List.Forall₂ R (l.modify n f) (l'.modify n id) := forall₂_modify_both h hf
  rwa [List.modify_id] at hboth

theorem forall₂_trans {S : β → γ → Prop} {T : α → γ → Prop} {l'' : List γ}
    (htrans : ∀ a b c, R a b → S b c → T a c) (h : List.Forall₂ R l l')
    (h' : List.Forall₂ S l' l'') : List.Forall₂ T l l'' := by
  induction h generalizing l'' with
  | nil =>
    cases h'
    exact .nil
  | cons hab _ ih =>
    cases h' with
    | cons hbc hrest => exact .cons (htrans _ _ _ hab hbc) (ih hrest)

theorem exists_forall₂ {p : β → Prop} (h : ∀ a ∈ l, ∃ b, R a b ∧ p b) :
    ∃ l', List.Forall₂ R l l' ∧ ∀ b ∈ l', p b := by
  induction l with
  | nil => exact ⟨[], .nil, by simp⟩
  | cons a l ih =>
    obtain ⟨b, hab, hb⟩ := h a (by simp)
    obtain ⟨l', hl', hp⟩ := ih fun c hc => h c (by simp [hc])
    exact ⟨b :: l', .cons hab hl', List.forall_mem_cons.mpr ⟨hb, hp⟩⟩

theorem forall₂_or_first (R : α → β → Prop) (l : List α) :
    (∃ l', List.Forall₂ R l l') ∨
      ∃ before a after bs, l = before ++ a :: after ∧ List.Forall₂ R before bs ∧ ∀ b, ¬ R a b := by
  induction l with
  | nil => exact .inl ⟨[], .nil⟩
  | cons a l ih =>
    by_cases ha : ∃ b, R a b
    · obtain ⟨b, hab⟩ := ha
      rcases ih with ⟨l', hl'⟩ | ⟨before, c, after, bs, rfl, hbefore, hc⟩
      · exact .inl ⟨b :: l', .cons hab hl'⟩
      · exact .inr ⟨a :: before, c, after, b :: bs, rfl, .cons hab hbefore, hc⟩
    · exact .inr ⟨[], a, l, [], rfl, .nil, not_exists.mp ha⟩

end Related

section Self

variable {R : α → α → Prop} {l : List α}

theorem forall₂_self (hrefl : ∀ a, R a a) (l : List α) : List.Forall₂ R l l :=
  List.forall₂_same.mpr fun a _ => hrefl a

theorem forall₂_set_self (hrefl : ∀ a, R a a) {n : Nat} {a b : α} (hn : l[n]? = some a)
    (hab : R a b) : List.Forall₂ R l (l.set n b) := by
  obtain ⟨hlt, rfl⟩ := List.getElem?_eq_some_iff.mp hn
  have hset := forall₂_set (forall₂_self hrefl l) hab n
  rwa [List.set_getElem_self] at hset

theorem forall₂_modify {f : α → α} (hrefl : ∀ a, R a a) (hf : ∀ a, R a (f a)) (l : List α)
    (n : Nat) : List.Forall₂ R l (l.modify n f) := by
  rw [List.modify_eq_set_getElem?]
  cases hn : l[n]? with
  | none => exact forall₂_self hrefl l
  | some a => exact forall₂_set_self hrefl hn (hf a)

theorem map_eq_of_forall₂ {f : α → β} {l' : List α}
    (h : List.Forall₂ (fun a b => f b = f a) l l') : l'.map f = l.map f := by
  induction h with
  | nil => rfl
  | cons hab _ ih => rw [List.map_cons, List.map_cons, hab, ih]

end Self

end Pointwise
