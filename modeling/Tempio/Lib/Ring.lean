import Mathlib.Data.List.Basic
import Mathlib.Data.Nat.ModEq
import Mathlib.Data.Vector.Basic

namespace Tempio.Lib.Ring

variable {T : Type} {N : Nat} [NeZero N]

def cell (buf : Vector T N) (k : Nat) : T := buf[Fin.ofNat N k]

/-- The `count` elements of a ring that starts at `head`, oldest first. -/
def contents (buf : Vector T N) (head count : Nat) : List T :=
  (List.range count).map fun i => cell buf (head + i)

theorem mod_lt_size (k : Nat) : k % N < N := Nat.mod_lt k (Nat.pos_of_neZero N)

theorem cell_mod (buf : Vector T N) (k : Nat) : cell buf (k % N) = cell buf k := by
  simp only [cell]
  congr 1
  exact Fin.ext (Nat.mod_mod k N)

theorem cell_mod_add (buf : Vector T N) (k i : Nat) : cell buf (k % N + i) = cell buf (k + i) := by
  rw [← cell_mod buf (k % N + i), Nat.mod_add_mod, cell_mod]

theorem cell_set (buf : Vector T N) (j k : Nat) (x : T) :
    cell (buf.set (j % N) x (mod_lt_size j)) k = if j % N = k % N then x else cell buf k := by
  simp only [cell, Fin.getElem_fin, Fin.val_ofNat, Vector.getElem_set]

@[simp]
theorem length_contents (buf : Vector T N) (head count : Nat) :
    (contents buf head count).length = count := by
  simp [contents]

omit [NeZero N] in
theorem offset_injective (head : Nat) {i j : Nat} (hi : i < N) (hj : j < N)
    (h : (head + i) % N = (head + j) % N) : i = j := by
  have hm : head + i ≡ head + j [MOD N] := h
  exact (Nat.ModEq.add_left_cancel' head hm).eq_of_lt_of_lt hi hj

theorem contents_mod (buf : Vector T N) (head count : Nat) :
    contents buf (head % N) count = contents buf head count := by
  simp only [contents, cell_mod_add]

theorem contents_succ (buf : Vector T N) (head count : Nat) :
    contents buf head (count + 1) = cell buf head :: contents buf (head + 1) count := by
  simp only [contents, List.range_succ_eq_map, List.map_cons, List.map_map, Nat.add_zero]
  congr 1
  apply List.map_congr_left
  intro i _
  simp [Nat.add_comm 1 i, Nat.add_assoc]

theorem contents_set_of_ne (buf : Vector T N) (head count j : Nat) (x : T)
    (h : ∀ i, i < count → j % N ≠ (head + i) % N) :
    contents (buf.set (j % N) x (mod_lt_size j)) head count = contents buf head count := by
  apply List.map_congr_left
  intro i hi
  rw [cell_set, if_neg (h i (List.mem_range.mp hi))]

theorem contents_set_back (buf : Vector T N) (head count : Nat) (x : T) (hc : count < N) :
    contents (buf.set ((head + count) % N) x (mod_lt_size _)) head (count + 1) =
      contents buf head count ++ [x] := by
  have hlast : contents (buf.set ((head + count) % N) x (mod_lt_size _)) head (count + 1) =
      contents (buf.set ((head + count) % N) x (mod_lt_size _)) head count ++
        [cell (buf.set ((head + count) % N) x (mod_lt_size _)) (head + count)] := by
    simp [contents, List.range_succ]
  rw [hlast, cell_set, if_pos rfl, contents_set_of_ne]
  intro i hi he
  have := offset_injective head hc (by omega) he
  omega

theorem contents_set_front (buf : Vector T N) (head count : Nat) (x : T) (hc : count < N) :
    contents (buf.set ((head + N - 1) % N) x (mod_lt_size _)) ((head + N - 1) % N) (count + 1) =
      x :: contents buf head count := by
  have hN : 0 < N := Nat.pos_of_neZero N
  have hnext : head + N - 1 + 1 = head + N := by omega
  have hback : contents buf (head + N) count = contents buf head count := by
    rw [← contents_mod, Nat.add_mod_right, contents_mod]
  rw [contents_mod, contents_succ, cell_set, if_pos rfl, hnext, contents_set_of_ne, hback]
  intro i hi he
  have he' : (head + N - 1 + 0) % N = (head + N - 1 + (i + 1)) % N := by
    simpa only [Nat.add_zero, show head + N - 1 + (i + 1) = head + N + i by omega] using he
  have := offset_injective (head + N - 1) hN (by omega) he'
  omega

end Tempio.Lib.Ring
