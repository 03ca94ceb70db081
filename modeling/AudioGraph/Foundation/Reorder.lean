import Mathlib.Data.List.Perm.Basic

namespace Reorder

variable {α σ : Type*} {free : α → α → Prop}

inductive Reordered (free : α → α → Prop) : List α → List α → Prop
  | refl (as : List α) : Reordered free as as
  | swap (a b : α) (as : List α) (hab : free a b) : Reordered free (a :: b :: as) (b :: a :: as)
  | cons (a : α) {as bs : List α} (h : Reordered free as bs) : Reordered free (a :: as) (a :: bs)
  | trans {as bs cs : List α} (h : Reordered free as bs) (h' : Reordered free bs cs) :
      Reordered free as cs

theorem Reordered.perm {as bs : List α} (h : Reordered free as bs) : as.Perm bs := by
  induction h with
  | refl as => exact .refl as
  | swap a b as _ => exact .swap b a as
  | cons a _ ih => exact ih.cons a
  | trans _ _ ih ih' => exact ih.trans ih'

theorem Reordered.foldl {f : σ → α → σ} (hcomm : ∀ s a b, free a b → f (f s a) b = f (f s b) a)
    {as bs : List α} (h : Reordered free as bs) (s : σ) : as.foldl f s = bs.foldl f s := by
  induction h generalizing s with
  | refl as => rfl
  | swap a b as hab =>
    rw [List.foldl_cons, List.foldl_cons, hcomm s a b hab]
    rfl
  | cons a _ ih => exact ih (f s a)
  | trans _ _ ih ih' => exact (ih s).trans (ih' s)

end Reorder
