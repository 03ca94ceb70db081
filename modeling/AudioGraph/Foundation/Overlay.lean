import Mathlib.Data.List.Basic

namespace Overlay

variable {α : Type*} {dst src l l' : List α}

-- A copy bounded by the shorter of the two buffers: what it does not reach stays as it was.
def overlay (dst src : List α) : List α :=
  let copyLen := min src.length dst.length
  src.take copyLen ++ dst.drop copyLen

def Agree (l l' : List α) : Prop := ∀ i, i < l.length → i < l'.length → l[i]? = l'[i]?

@[simp] theorem overlay_length (dst src : List α) : (overlay dst src).length = dst.length := by
  simp only [overlay, List.length_append, List.length_take, List.length_drop]
  omega

theorem getElem?_overlay (dst src : List α) {i : Nat} (hi : i < dst.length) :
    (overlay dst src)[i]? = if i < src.length then src[i]? else dst[i]? := by
  have hlen : (src.take (min src.length dst.length)).length = min src.length dst.length := by simp
  by_cases hsrc : i < src.length
  · have hlt : i < min src.length dst.length := by omega
    rw [overlay, if_pos hsrc, List.getElem?_append_left (hlen.symm ▸ hlt),
      List.getElem?_take_of_lt hlt]
  · have hge : min src.length dst.length ≤ i := by omega
    rw [overlay, if_neg hsrc, List.getElem?_append_right (hlen.symm ▸ hge), hlen,
      List.getElem?_drop, Nat.add_sub_cancel' hge]

theorem overlay_eq (dst src : List α) :
    overlay dst src = src.take dst.length ++ dst.drop src.length := by
  rcases Nat.le_total src.length dst.length with hle | hge
  · rw [overlay, Nat.min_eq_left hle, List.take_length, List.take_of_length_le hle]
  · rw [overlay, Nat.min_eq_right hge, List.drop_length, List.drop_of_length_le hge]

theorem agree_replicate (m n : Nat) (a : α) : Agree (List.replicate m a) (List.replicate n a) := by
  intro i hi hi'
  rw [List.length_replicate] at hi hi'
  rw [List.getElem?_replicate_of_lt hi, List.getElem?_replicate_of_lt hi']

theorem agree_overlay (dst src : List α) : Agree (overlay dst src) src := by
  intro i hi hsrc
  rw [overlay_length] at hi
  rw [getElem?_overlay dst src hi, if_pos hsrc]

theorem Agree.overlay (h : Agree l l') (src : List α) :
    Agree (overlay l src) (overlay l' src) := by
  intro i hi hi'
  rw [overlay_length] at hi hi'
  rw [getElem?_overlay l src hi, getElem?_overlay l' src hi', h i hi hi']

theorem overlay_eq_self (h : Agree dst src) : overlay dst src = dst := by
  refine List.ext_getElem? fun i => ?_
  by_cases hi : i < dst.length
  · rw [getElem?_overlay dst src hi]
    split
    · rename_i hsrc
      exact (h i hi hsrc).symm
    · rfl
  · have hge : dst.length ≤ i := Nat.le_of_not_lt hi
    rw [List.getElem?_eq_none (by simpa using hge), List.getElem?_eq_none hge]

theorem overlay_twice (dst src : List α) : overlay (overlay dst src) src = overlay dst src :=
  overlay_eq_self (agree_overlay dst src)

end Overlay
