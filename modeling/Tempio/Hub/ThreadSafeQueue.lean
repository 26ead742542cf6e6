import Tempio.Lib.Ring

namespace Tempio.Hub

open Tempio.Lib

/-- The ring buffer shared by the tasks. The three indices move together, and
the structure holds only the index triples the operations can produce. -/
structure ThreadSafeQueue (T : Type) (N : Nat) where
  buf : Vector T N
  head : Nat
  tail : Nat
  count : Nat
  head_lt : head < N
  tail_eq : tail = (head + count) % N
  count_le : count ≤ N

namespace ThreadSafeQueue

variable {T : Type} {N : Nat} [NeZero N]

def init [Inhabited T] : ThreadSafeQueue T N where
  buf := Vector.replicate N default
  head := 0
  tail := 0
  count := 0
  head_lt := Nat.pos_of_neZero N
  tail_eq := by simp
  count_le := Nat.zero_le N

theorem tail_lt (q : ThreadSafeQueue T N) : q.tail < N := by
  rw [q.tail_eq]
  exact Ring.mod_lt_size _

/-- `none` is the source's `false`: the queue is full and stays as it is. -/
def pushUnsafe (q : ThreadSafeQueue T N) (item : T) : Option (ThreadSafeQueue T N) :=
  if h : q.count ≥ N then none
  else some
    { buf := q.buf.set q.tail item q.tail_lt
      head := q.head
      tail := (q.tail + 1) % N
      count := q.count + 1
      head_lt := q.head_lt
      tail_eq := by rw [q.tail_eq, Nat.mod_add_mod, Nat.add_assoc]
      count_le := by omega }

def popUnsafe (q : ThreadSafeQueue T N) : Option (T × ThreadSafeQueue T N) :=
  if h : q.count = 0 then none
  else some (Ring.cell q.buf q.head,
    { buf := q.buf
      head := (q.head + 1) % N
      tail := q.tail
      count := q.count - 1
      head_lt := Ring.mod_lt_size _
      tail_eq := by
        rw [q.tail_eq, Nat.mod_add_mod, show q.head + 1 + (q.count - 1) = q.head + q.count by omega]
      count_le := by have := q.count_le; omega })

/-- Insert before the first element. The new head is the source's
`(head_ - 1 + N) % N`, added up in the order that needs no negative number. -/
def pushFrontUnsafe (q : ThreadSafeQueue T N) (item : T) : Option (ThreadSafeQueue T N) :=
  if h : q.count ≥ N then none
  else some
    { buf := q.buf.set ((q.head + N - 1) % N) item (Ring.mod_lt_size _)
      head := (q.head + N - 1) % N
      tail := q.tail
      count := q.count + 1
      head_lt := Ring.mod_lt_size _
      tail_eq := by
        have := q.head_lt
        rw [q.tail_eq, Nat.mod_add_mod,
          show q.head + N - 1 + (q.count + 1) = q.head + q.count + N by omega, Nat.add_mod_right]
      count_le := by omega }

def countUnsafe (q : ThreadSafeQueue T N) : Nat := q.count

def emptyUnsafe (q : ThreadSafeQueue T N) : Bool := q.count = 0

/-- The queued elements, next to be popped first. -/
def contents (q : ThreadSafeQueue T N) : List T := Ring.contents q.buf q.head q.count

/-- The locked operations have the same bodies as the ones above. -/
def push (q : ThreadSafeQueue T N) (item : T) : Option (ThreadSafeQueue T N) := q.pushUnsafe item

def pop (q : ThreadSafeQueue T N) : Option (T × ThreadSafeQueue T N) := q.popUnsafe

def full (q : ThreadSafeQueue T N) : Bool := q.count ≥ N

def contains (q : ThreadSafeQueue T N) (pred : T → Bool) : Bool := q.contents.any pred

@[simp]
theorem contents_init [Inhabited T] : (init : ThreadSafeQueue T N).contents = [] := by
  simp [contents, Ring.contents, init]

@[simp]
theorem length_contents (q : ThreadSafeQueue T N) : q.contents.length = q.count :=
  Ring.length_contents _ _ _

theorem length_contents_le (q : ThreadSafeQueue T N) : q.contents.length ≤ N := by
  rw [length_contents]
  exact q.count_le

theorem emptyUnsafe_iff (q : ThreadSafeQueue T N) : q.emptyUnsafe = true ↔ q.contents = [] := by
  rw [← List.length_eq_zero_iff, length_contents]
  exact decide_eq_true_iff

theorem contents_pushUnsafe {q r : ThreadSafeQueue T N} {x : T} (h : q.pushUnsafe x = some r) :
    r.contents = q.contents ++ [x] := by
  simp only [pushUnsafe, Option.dite_none_left_eq_some, Option.some.injEq] at h
  obtain ⟨hc, rfl⟩ := h
  have ht := q.tail_eq
  simp only [contents, ht]
  exact Ring.contents_set_back q.buf q.head q.count x (by omega)

theorem contents_pushFrontUnsafe {q r : ThreadSafeQueue T N} {x : T}
    (h : q.pushFrontUnsafe x = some r) : r.contents = x :: q.contents := by
  simp only [pushFrontUnsafe, Option.dite_none_left_eq_some, Option.some.injEq] at h
  obtain ⟨hc, rfl⟩ := h
  exact Ring.contents_set_front q.buf q.head q.count x (by omega)

theorem contents_popUnsafe {q r : ThreadSafeQueue T N} {x : T} (h : q.popUnsafe = some (x, r)) :
    q.contents = x :: r.contents := by
  simp only [popUnsafe, Option.dite_none_left_eq_some, Option.some.injEq, Prod.mk.injEq] at h
  obtain ⟨hc, rfl, rfl⟩ := h
  simp only [contents, Ring.contents_mod]
  rw [← Ring.contents_succ, Nat.sub_add_cancel (by omega)]

theorem popUnsafe_eq_none {q : ThreadSafeQueue T N} : q.popUnsafe = none ↔ q.contents = [] := by
  rw [← List.length_eq_zero_iff, length_contents]
  simp [popUnsafe]

theorem pushUnsafe_eq_none {q : ThreadSafeQueue T N} {x : T} :
    q.pushUnsafe x = none ↔ N ≤ q.contents.length := by
  rw [length_contents]
  simp [pushUnsafe]

theorem pushFrontUnsafe_eq_none {q : ThreadSafeQueue T N} {x : T} :
    q.pushFrontUnsafe x = none ↔ N ≤ q.contents.length := by
  rw [length_contents]
  simp [pushFrontUnsafe]

end ThreadSafeQueue

end Tempio.Hub
