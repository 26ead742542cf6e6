import Mathlib.Data.List.Basic

namespace Tempio.Lib

variable {α : Type}

/-- A list that only grows at its end, while its entries change along `R` in their places. -/
def Grows (R : α → α → Prop) (xs ys : List α) : Prop :=
  ∀ (i : Nat) (x : α), xs[i]? = some x → ∃ y, ys[i]? = some y ∧ R x y

namespace Grows

variable {R : α → α → Prop} {xs ys zs : List α}

theorem refl (hR : ∀ x, R x x) (xs : List α) : Grows R xs xs := by
  intro i x hx
  exact ⟨x, hx, hR x⟩

theorem trans (hR : ∀ x y z, R x y → R y z → R x z) (h : Grows R xs ys) (h' : Grows R ys zs) :
    Grows R xs zs := by
  intro i x hx
  obtain ⟨y, hy, hxy⟩ := h i x hx
  obtain ⟨z, hz, hyz⟩ := h' i y hy
  exact ⟨z, hz, hR x y z hxy hyz⟩

theorem append (hR : ∀ x, R x x) (xs zs : List α) : Grows R xs (xs ++ zs) := by
  intro i x hx
  obtain ⟨hi, _⟩ := List.getElem?_eq_some_iff.mp hx
  exact ⟨x, by rwa [List.getElem?_append_left hi], hR x⟩

theorem map {f : α → α} (hf : ∀ x ∈ xs, R x (f x)) : Grows R xs (xs.map f) := by
  intro i x hx
  refine ⟨f x, ?_, hf x (List.mem_of_getElem? hx)⟩
  rw [List.getElem?_map, hx, Option.map_some]

theorem length_le (h : Grows R xs ys) : xs.length ≤ ys.length := by
  by_contra hlt
  obtain ⟨y, hy, _⟩ := h ys.length _ (List.getElem?_eq_getElem (by omega))
  simp at hy

end Grows

end Tempio.Lib
