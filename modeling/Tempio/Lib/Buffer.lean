import Mathlib.Data.List.Basic

namespace Tempio.Lib.Buffer

variable {B : Type}

/-- Overwrite the cells from `off` on; `none` when that runs past the buffer. -/
def memcpy (buf : List B) (off : Nat) (bytes : List B) : Option (List B) :=
  if off + bytes.length ≤ buf.length then
    some (buf.take off ++ bytes ++ buf.drop (off + bytes.length))
  else none

def copyAll : List (List B) → Nat → List B → Option (List B)
  | [], _, buf => some buf
  | b :: bs, off, buf => (memcpy buf off b).bind (copyAll bs (off + b.length))

theorem memcpy_append (pre rest bytes : List B) (h : bytes.length ≤ rest.length) :
    memcpy (pre ++ rest) pre.length bytes = some (pre ++ bytes ++ rest.drop bytes.length) := by
  simp [memcpy, h]

theorem copyAll_append (bs : List (List B)) (pre rest : List B) (h : bs.flatten.length ≤ rest.length) :
    copyAll bs pre.length (pre ++ rest) = some (pre ++ bs.flatten ++ rest.drop bs.flatten.length) := by
  induction bs generalizing pre rest with
  | nil => simp [copyAll]
  | cons b bs ih =>
      simp only [List.flatten_cons, List.length_append] at h
      have hm := ih (pre ++ b) (rest.drop b.length) (by rw [List.length_drop]; omega)
      rw [List.length_append] at hm
      rw [copyAll, memcpy_append pre rest b (by omega), Option.bind_some, hm]
      simp only [List.flatten_cons, List.length_append, List.append_assoc, List.drop_drop]

theorem copyAll_zero (bs : List (List B)) (buf : List B) (h : bs.flatten.length ≤ buf.length) :
    (copyAll bs 0 buf).map (List.take bs.flatten.length) = some bs.flatten := by
  have := copyAll_append bs [] buf h
  simp only [List.length_nil, List.nil_append] at this
  rw [this, Option.map_some, List.take_left' rfl]

end Tempio.Lib.Buffer
