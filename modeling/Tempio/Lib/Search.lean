import Mathlib.Data.List.FinRange
import Mathlib.Data.Vector.Basic
import Mathlib.Logic.Function.Basic

namespace Tempio.Lib.Search

variable {α β : Type} {n : Nat}

/-- Scan the cells from the lowest index and stop at the first match. -/
def firstIndex (p : α → Bool) (v : Vector α n) : Option (Fin n) :=
  (List.finRange n).find? fun i => p (v.get i)

/-- Scan from the given index. -/
def firstFrom (from' : Nat) (p : α → Bool) (v : Vector α n) : Option (Fin n) :=
  (List.finRange n).find? fun i => decide (from' ≤ i.val) && p (v.get i)

def setAt (v : Vector α n) (i : Fin n) (x : α) : Vector α n := v.set i.val x i.isLt

/-- Everything the cells hold, lowest index first. -/
def collect (f : α → List β) (v : Vector α n) : List β := v.toList.flatMap f

theorem firstIndex_eq_none {p : α → Bool} {v : Vector α n} :
    firstIndex p v = none ↔ ∀ i : Fin n, p (v.get i) = false := by
  simp [firstIndex, List.find?_eq_none, List.mem_finRange]

theorem of_firstIndex {p : α → Bool} {v : Vector α n} {i : Fin n} (h : firstIndex p v = some i) :
    p (v.get i) = true :=
  List.find?_some (p := fun i => p (v.get i)) h

theorem firstIndex_of_unique {p : α → Bool} {v : Vector α n} {i : Fin n}
    (hi : p (v.get i) = true) (hu : ∀ j : Fin n, p (v.get j) = true → j = i) :
    firstIndex p v = some i := by
  cases h : firstIndex p v with
  | none => exact absurd hi (by simp [firstIndex_eq_none.mp h i])
  | some j => rw [hu j (of_firstIndex h)]

theorem firstFrom_eq_none {from' : Nat} {p : α → Bool} {v : Vector α n} :
    firstFrom from' p v = none ↔ ∀ i : Fin n, from' ≤ i.val → p (v.get i) = false := by
  simp [firstFrom, List.find?_eq_none, List.mem_finRange]

theorem of_firstFrom {from' : Nat} {p : α → Bool} {v : Vector α n} {i : Fin n}
    (h : firstFrom from' p v = some i) :
    from' ≤ i.val ∧ p (v.get i) = true ∧ ∀ j : Fin n, from' ≤ j.val → j < i → p (v.get j) = false := by
  rw [firstFrom, List.find?_eq_some_iff_getElem] at h
  obtain ⟨hp, k, hk, hki, hlt⟩ := h
  simp only [Bool.and_eq_true, decide_eq_true_eq, List.getElem_finRange] at hp hki hlt
  refine ⟨hp.1, hp.2, fun j hj hji => ?_⟩
  have hjk : j.val < k := by
    have := congrArg Fin.val hki
    simp only [Fin.val_cast] at this
    omega
  simpa [hj] using hlt j.val hjk

theorem lt_of_firstIndex {p : α → Bool} {v : Vector α n} {i : Fin n} (h : firstIndex p v = some i)
    {j : Fin n} (hj : j < i) : p (v.get j) = false := by
  have hzero : firstIndex p v = firstFrom 0 p v := by simp [firstIndex, firstFrom]
  rw [hzero] at h
  exact (of_firstFrom h).2.2 j (Nat.zero_le _) hj

theorem firstFrom_of_pos {p : α → Bool} {v : Vector α n} {i : Fin n} (h : p (v.get i) = true) :
    firstFrom i.val p v = some i := by
  cases hf : firstFrom i.val p v with
  | none =>
      have := firstFrom_eq_none.mp hf i le_rfl
      rw [h] at this
      cases this
  | some j =>
      obtain ⟨hij, _, hfirst⟩ := of_firstFrom hf
      rcases Nat.eq_or_lt_of_le hij with he | hlt
      · rw [Fin.ext he]
      · have := hfirst i le_rfl hlt
        rw [h] at this
        cases this

theorem firstFrom_succ {p : α → Bool} {v : Vector α n} {i : Fin n} (h : p (v.get i) = false) :
    firstFrom i.val p v = firstFrom (i.val + 1) p v := by
  have hpred : (fun j : Fin n => decide (i.val ≤ j.val) && p (v.get j)) =
      fun j => decide (i.val + 1 ≤ j.val) && p (v.get j) := by
    funext j
    by_cases hj : j = i
    · subst hj
      simp [h]
    · have hne : j.val ≠ i.val := fun he => hj (Fin.ext he)
      have hiff : i.val ≤ j.val ↔ i.val + 1 ≤ j.val := by omega
      simp only [hiff]
  rw [firstFrom, firstFrom, hpred]

theorem get_setAt (v : Vector α n) (i j : Fin n) (x : α) :
    (setAt v i x).get j = if i = j then x else v.get j := by
  have h : (v.set i.val x i.isLt)[j.val] = if i.val = j.val then x else v[j.val] :=
    Vector.getElem_set i.isLt j.isLt
  simp only [Fin.ext_iff]
  exact h

@[simp]
theorem get_setAt_self (v : Vector α n) (i : Fin n) (x : α) : (setAt v i x).get i = x := by
  rw [get_setAt, if_pos rfl]

theorem get_setAt_of_ne (v : Vector α n) {i j : Fin n} (x : α) (h : i ≠ j) :
    (setAt v i x).get j = v.get j := by
  rw [get_setAt, if_neg h]

theorem get_map {γ : Type} (f : α → γ) (v : Vector α n) (i : Fin n) : (v.map f).get i = f (v.get i) :=
  Vector.getElem_map f i.isLt

theorem comp_get_setAt {γ : Type} (f : α → γ) (v : Vector α n) (i : Fin n) (x : α) :
    (fun j => f ((setAt v i x).get j)) = Function.update (fun j => f (v.get j)) i (f x) := by
  funext j
  rw [get_setAt, Function.update_apply]
  by_cases h : i = j
  · rw [if_pos h, if_pos h.symm]
  · rw [if_neg h, if_neg (Ne.symm h)]

@[simp]
theorem setAt_setAt (v : Vector α n) (i : Fin n) (x y : α) :
    setAt (setAt v i x) i y = setAt v i y := by
  simp [setAt]

theorem mem_collect {f : α → List β} {v : Vector α n} {b : β} :
    b ∈ collect f v ↔ ∃ i : Fin n, b ∈ f (v.get i) := by
  simp only [collect, List.mem_flatMap, Vector.mem_toList_iff, Vector.mem_iff_getElem]
  constructor
  · rintro ⟨a, ⟨i, hi, rfl⟩, hb⟩
    exact ⟨⟨i, hi⟩, hb⟩
  · rintro ⟨i, hb⟩
    exact ⟨v.get i, ⟨i.val, i.isLt, rfl⟩, hb⟩

theorem countP_flatMap_set (q : β → Bool) (f : α → List β) (l : List α) (i : Nat) (hi : i < l.length)
    (x : α) : ((l.set i x).flatMap f).countP q + (f l[i]).countP q =
      (l.flatMap f).countP q + (f x).countP q := by
  induction l generalizing i with
  | nil => simp at hi
  | cons a l ih =>
      cases i with
      | zero =>
          simp only [List.set_cons_zero, List.flatMap_cons, List.countP_append,
            List.getElem_cons_zero]
          omega
      | succ i =>
          have := ih i (by simpa using hi)
          simp only [List.set_cons_succ, List.flatMap_cons, List.countP_append,
            List.getElem_cons_succ]
          omega

theorem perm_flatMap_set {f : α → List β} {l : List α} {i : Nat} {a x : α} {c : List β}
    (hi : l[i]? = some a) (hf : f a = c ++ f x) : (l.flatMap f).Perm (c ++ (l.set i x).flatMap f) := by
  induction l generalizing i with
  | nil => simp at hi
  | cons b l ih =>
      cases i with
      | zero =>
          obtain rfl : b = a := by simpa using hi
          simp [hf]
      | succ i =>
          have h := (ih (by simpa using hi)).append_left (f b)
          rw [List.set_cons_succ, List.flatMap_cons, List.flatMap_cons]
          apply h.trans
          rw [← List.append_assoc, ← List.append_assoc]
          exact List.perm_append_comm.append_right _

theorem countP_collect_setAt (q : β → Bool) (f : α → List β) (v : Vector α n) (i : Fin n) (x : α) :
    (collect f (setAt v i x)).countP q + (f (v.get i)).countP q =
      (collect f v).countP q + (f x).countP q := by
  have h := countP_flatMap_set q f v.toList i.val (by simp) x
  rw [Vector.getElem_toList] at h
  rw [collect, setAt, Vector.toList_set]
  exact h

end Tempio.Lib.Search
