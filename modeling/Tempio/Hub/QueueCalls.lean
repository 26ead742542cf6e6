import Tempio.Hub.ThreadSafeQueue

namespace Tempio.Hub

open Tempio.Lib

/-- The members of the queue as the source declares them; nothing yet bounds the
three integers. -/
structure RawQueue (T : Type) (N : Nat) where
  buf : Vector T N
  head : Int
  tail : Int
  count : Int

inductive QueueCall (T : Type)
  | push (item : T)
  | pop
  | count
  | empty
  | full
  | contains (pred : T → Bool)
  | pushUnsafe (item : T)
  | countUnsafe
  | emptyUnsafe
  | popUnsafe
  | pushFrontUnsafe (item : T)

inductive QueueAnswer (T : Type)
  | bool (b : Bool)
  | int (n : Int)
  | popped (item : Option T)

variable {T : Type} {N : Nat}

namespace RawQueue

/-- The constructor leaves the buffer as it is. -/
def init (buf : Vector T N) : RawQueue T N := ⟨buf, 0, 0, 0⟩

/-- `buf_[i]`; `none` is an access outside of the buffer. -/
def read (q : RawQueue T N) (i : Int) : Option T :=
  if h : 0 ≤ i ∧ i < N then some (q.buf.get ⟨i.toNat, by omega⟩) else none

def write (q : RawQueue T N) (i : Int) (x : T) : Option (RawQueue T N) :=
  if h : 0 ≤ i ∧ i < N then some { q with buf := q.buf.set i.toNat x (by omega) } else none

def push (q : RawQueue T N) (item : T) : Option (Bool × RawQueue T N) :=
  if q.count ≥ N then some (false, q)
  else (q.write q.tail item).map fun q =>
    (true, { q with tail := (q.tail + 1).tmod N, count := q.count + 1 })

def pop (q : RawQueue T N) : Option (Option T × RawQueue T N) :=
  if q.count ≤ 0 then some (none, q)
  else (q.read q.head).map fun out =>
    (some out, { q with head := (q.head + 1).tmod N, count := q.count - 1 })

def empty (q : RawQueue T N) : Bool := q.count ≤ 0

def full (q : RawQueue T N) : Bool := q.count ≥ N

/-- The loop of `contains` from `i` on, with the number of passes that are left. -/
def containsFrom (q : RawQueue T N) (pred : T → Bool) : Nat → Int → Option Bool
  | 0, _ => some false
  | n + 1, i =>
      (q.read ((q.head + i).tmod N)).bind fun x =>
        if pred x then some true else q.containsFrom pred n (i + 1)

def contains (q : RawQueue T N) (pred : T → Bool) : Option Bool := q.containsFrom pred q.count.toNat 0

def pushUnsafe (q : RawQueue T N) (item : T) : Option (Bool × RawQueue T N) :=
  if q.count ≥ N then some (false, q)
  else (q.write q.tail item).map fun q =>
    (true, { q with tail := (q.tail + 1).tmod N, count := q.count + 1 })

def emptyUnsafe (q : RawQueue T N) : Bool := q.count ≤ 0

def popUnsafe (q : RawQueue T N) : Option (Option T × RawQueue T N) :=
  if q.count ≤ 0 then some (none, q)
  else (q.read q.head).map fun out =>
    (some out, { q with head := (q.head + 1).tmod N, count := q.count - 1 })

def pushFrontUnsafe (q : RawQueue T N) (item : T) : Option (Bool × RawQueue T N) :=
  if q.count ≥ N then some (false, q)
  else
    let q := { q with head := (q.head - 1 + N).tmod N }
    (q.write q.head item).map fun q => (true, { q with count := q.count + 1 })

def call (q : RawQueue T N) : QueueCall T → Option (QueueAnswer T × RawQueue T N)
  | .push item => (q.push item).map fun r => (.bool r.1, r.2)
  | .pop => q.pop.map fun r => (.popped r.1, r.2)
  | .count => some (.int q.count, q)
  | .empty => some (.bool q.empty, q)
  | .full => some (.bool q.full, q)
  | .contains pred => (q.contains pred).map fun b => (.bool b, q)
  | .pushUnsafe item => (q.pushUnsafe item).map fun r => (.bool r.1, r.2)
  | .countUnsafe => some (.int q.count, q)
  | .emptyUnsafe => some (.bool q.emptyUnsafe, q)
  | .popUnsafe => q.popUnsafe.map fun r => (.popped r.1, r.2)
  | .pushFrontUnsafe item => (q.pushFrontUnsafe item).map fun r => (.bool r.1, r.2)

/-- The calls of the list, one after the other, with their answers. -/
def run (q : RawQueue T N) : List (QueueCall T) → Option (List (QueueAnswer T) × RawQueue T N)
  | [] => some ([], q)
  | c :: cs => (q.call c).bind fun r => (r.2.run cs).map fun s => (r.1 :: s.1, s.2)

structure Wf (q : RawQueue T N) : Prop where
  head : 0 ≤ q.head ∧ q.head < N
  tail : 0 ≤ q.tail ∧ q.tail < N
  count : 0 ≤ q.count ∧ q.count ≤ N
  tail_eq : q.tail = (q.head + q.count) % N

/-- `buf[(head + i) mod N]` for `i < count`. -/
def contents [NeZero N] (q : RawQueue T N) : List T :=
  (List.range q.count.toNat).map fun i => q.buf[Fin.ofNat N (q.head.toNat + i)]

end RawQueue

/-- What a double-ended queue of at most `cap` elements answers, and becomes. -/
def dequeCall (cap : Nat) (xs : List T) : QueueCall T → QueueAnswer T × List T
  | .push x | .pushUnsafe x => if xs.length < cap then (.bool true, xs ++ [x]) else (.bool false, xs)
  | .pushFrontUnsafe x => if xs.length < cap then (.bool true, x :: xs) else (.bool false, xs)
  | .pop | .popUnsafe =>
      match xs with
      | [] => (.popped none, [])
      | x :: xs => (.popped (some x), xs)
  | .count | .countUnsafe => (.int xs.length, xs)
  | .empty | .emptyUnsafe => (.bool xs.isEmpty, xs)
  | .full => (.bool (cap ≤ xs.length), xs)
  | .contains pred => (.bool (xs.any pred), xs)

def dequeRun (cap : Nat) (xs : List T) : List (QueueCall T) → List (QueueAnswer T) × List T
  | [] => ([], xs)
  | c :: cs =>
      ((dequeCall cap xs c).1 :: (dequeRun cap (dequeCall cap xs c).2 cs).1,
        (dequeRun cap (dequeCall cap xs c).2 cs).2)

namespace RawQueue

section

variable [NeZero N] (q : RawQueue T N)

theorem read_of_lt {k : Nat} (hk : k < N) : q.read k = some (Ring.cell q.buf k) := by
  rw [read, dif_pos ⟨Int.natCast_nonneg _, Int.ofNat_lt.mpr hk⟩, ← Ring.cell_mod]
  simp only [Ring.cell, Fin.getElem_fin, Fin.val_ofNat, Nat.mod_eq_of_lt hk]
  rfl

omit [NeZero N] in
theorem write_of_lt {k : Nat} (hk : k < N) (x : T) :
    q.write k x = some { q with buf := q.buf.set k x hk } := by
  rw [write, dif_pos ⟨Int.natCast_nonneg _, Int.ofNat_lt.mpr hk⟩]
  rfl

end

end RawQueue

namespace ThreadSafeQueue

/-- A queue that keeps its bounds, with its members as the source has them. -/
def raw (q : ThreadSafeQueue T N) : RawQueue T N := ⟨q.buf, q.head, q.tail, q.count⟩

section

variable [NeZero N] (q : ThreadSafeQueue T N)

theorem wf_raw : q.raw.Wf where
  head := ⟨Int.natCast_nonneg _, Int.ofNat_lt.mpr q.head_lt⟩
  tail := ⟨Int.natCast_nonneg _, Int.ofNat_lt.mpr q.tail_lt⟩
  count := ⟨Int.natCast_nonneg _, Int.ofNat_le.mpr q.count_le⟩
  tail_eq := congrArg Nat.cast q.tail_eq

theorem pushUnsafe_raw (x : T) :
    q.raw.pushUnsafe x = some ((q.pushUnsafe x).elim (false, q.raw) fun r => (true, r.raw)) := by
  by_cases hc : q.count ≥ N
  · have hfull : q.raw.count ≥ N := Int.ofNat_le.mpr hc
    rw [RawQueue.pushUnsafe, if_pos hfull, pushUnsafe, dif_pos hc]
    rfl
  · have hroom : ¬ q.raw.count ≥ N := fun h => hc (Int.ofNat_le.mp h)
    have hwrite := q.raw.write_of_lt q.tail_lt x
    rw [RawQueue.pushUnsafe, if_neg hroom, pushUnsafe, dif_neg hc]
    exact congrArg (Option.map _) hwrite

/-- The head moves back by one place, also over the start of the buffer. -/
theorem head_pred_raw : (q.raw.head - 1 + N).tmod N = ((q.head + N - 1) % N : Nat) := by
  have hN : 0 < N := Nat.pos_of_neZero N
  have hsum : q.raw.head - 1 + N = ((q.head + N - 1 : Nat) : Int) := by
    have hhead : q.raw.head = q.head := rfl
    omega
  rw [hsum]
  rfl

theorem pushFrontUnsafe_raw (x : T) :
    q.raw.pushFrontUnsafe x =
      some ((q.pushFrontUnsafe x).elim (false, q.raw) fun r => (true, r.raw)) := by
  by_cases hc : q.count ≥ N
  · have hfull : q.raw.count ≥ N := Int.ofNat_le.mpr hc
    rw [RawQueue.pushFrontUnsafe, if_pos hfull, pushFrontUnsafe, dif_pos hc]
    rfl
  · have hroom : ¬ q.raw.count ≥ N := fun h => hc (Int.ofNat_le.mp h)
    have hwrite := RawQueue.write_of_lt { q.raw with head := ((q.head + N - 1) % N : Nat) }
      (Ring.mod_lt_size (N := N) (q.head + N - 1)) x
    rw [RawQueue.pushFrontUnsafe, if_neg hroom, pushFrontUnsafe, dif_neg hc, head_pred_raw]
    exact congrArg (Option.map _) hwrite

theorem popUnsafe_raw :
    q.raw.popUnsafe = some (q.popUnsafe.elim (none, q.raw) fun r => (some r.1, r.2.raw)) := by
  by_cases hc : q.count = 0
  · have hempty : q.raw.count ≤ 0 := Int.ofNat_le.mpr (Nat.le_of_eq hc)
    rw [RawQueue.popUnsafe, if_pos hempty, popUnsafe, dif_pos hc]
    rfl
  · have hsome : ¬ q.raw.count ≤ 0 := fun h => hc (Nat.le_zero.mp (Int.ofNat_le.mp h))
    have hread := q.raw.read_of_lt q.head_lt
    have hcount : q.raw.count - 1 = (q.count - 1 : Nat) := by
      have hraw : q.raw.count = q.count := rfl
      omega
    rw [RawQueue.popUnsafe, if_neg hsome, popUnsafe, dif_neg hc, hcount]
    exact congrArg (Option.map _) hread

theorem containsFrom_raw (pred : T → Bool) (n i : Nat) :
    q.raw.containsFrom pred n i =
      some (((List.range' i n).map fun k => Ring.cell q.buf (q.head + k)).any pred) := by
  induction n generalizing i with
  | zero => rfl
  | succ n ih =>
      have hread := q.raw.read_of_lt (Ring.mod_lt_size (N := N) (q.head + i))
      have hindex : (q.raw.head + i).tmod N = ((q.head + i) % N : Nat) := rfl
      rw [RawQueue.containsFrom, hindex, hread, Option.bind_some, Ring.cell_mod]
      have hnext := ih (i + 1)
      rw [Int.natCast_succ] at hnext
      rw [hnext, List.range'_succ, List.map_cons, List.any_cons]
      change (if pred (Ring.cell q.buf (q.head + i)) = true then _ else _) = _
      cases pred (Ring.cell q.buf (q.head + i)) <;> rfl

theorem contains_raw (pred : T → Bool) : q.raw.contains pred = some (q.contents.any pred) := by
  have hloop := q.containsFrom_raw pred q.count 0
  rw [← List.range_eq_range'] at hloop
  exact hloop

/-- What an insertion answers, wherever it puts the element. -/
theorem insert_raw {o : Option (ThreadSafeQueue T N)} (put : List T → List T)
    (hnone : o = none ↔ N ≤ q.contents.length) (hsome : ∀ r, o = some r → r.contents = put q.contents) :
    ∃ r : ThreadSafeQueue T N,
      (some (o.elim (false, q.raw) fun r => (true, r.raw))).map
          (fun p => (QueueAnswer.bool (T := T) p.1, p.2)) =
        some ((if q.contents.length < N then (QueueAnswer.bool true, put q.contents)
          else (QueueAnswer.bool false, q.contents)).1, r.raw) ∧
      r.contents = (if q.contents.length < N then (QueueAnswer.bool (T := T) true, put q.contents)
          else (QueueAnswer.bool false, q.contents)).2 := by
  cases ho : o with
  | none =>
      have hfull := Nat.not_lt.mpr (hnone.mp ho)
      rw [if_neg hfull]
      exact ⟨q, rfl, rfl⟩
  | some r =>
      have hroom : q.contents.length < N := by
        apply Nat.lt_of_not_le
        intro hfull
        rw [hnone.mpr hfull] at ho
        cases ho
      rw [if_pos hroom]
      exact ⟨r, rfl, hsome r ho⟩

theorem call_popUnsafe :
    ∃ r : ThreadSafeQueue T N,
      q.raw.call .popUnsafe = some ((dequeCall N q.contents .popUnsafe).1, r.raw) ∧
        r.contents = (dequeCall N q.contents .popUnsafe).2 := by
  simp only [RawQueue.call, popUnsafe_raw, dequeCall]
  cases hp : q.popUnsafe with
  | none =>
      have hempty := popUnsafe_eq_none.mp hp
      rw [hempty]
      exact ⟨q, rfl, hempty⟩
  | some r =>
      rw [contents_popUnsafe hp]
      exact ⟨r.2, rfl, rfl⟩

/-- A call stays within the buffer and does what it does to a double-ended queue. -/
theorem call_raw (c : QueueCall T) :
    ∃ r : ThreadSafeQueue T N, q.raw.call c = some ((dequeCall N q.contents c).1, r.raw) ∧
      r.contents = (dequeCall N q.contents c).2 := by
  have hlen : q.contents.length = q.count := q.length_contents
  cases c with
  | push x | pushUnsafe x =>
      have h := q.insert_raw (· ++ [x]) pushUnsafe_eq_none fun r hr => contents_pushUnsafe hr
      rw [← pushUnsafe_raw] at h
      exact h
  | pushFrontUnsafe x =>
      have h := q.insert_raw (x :: ·) pushFrontUnsafe_eq_none fun r hr => contents_pushFrontUnsafe hr
      rw [← pushFrontUnsafe_raw] at h
      exact h
  | pop | popUnsafe => exact q.call_popUnsafe
  | count | countUnsafe =>
      refine ⟨q, ?_, rfl⟩
      simp only [RawQueue.call, dequeCall, hlen, raw]
  | empty | emptyUnsafe =>
      refine ⟨q, ?_, rfl⟩
      have hempty : decide (q.raw.count ≤ 0) = q.contents.isEmpty := by
        rw [Bool.eq_iff_iff, decide_eq_true_iff, List.isEmpty_iff, ← List.length_eq_zero_iff, hlen]
        have hraw : q.raw.count = q.count := rfl
        omega
      simp only [RawQueue.call, dequeCall, RawQueue.empty, RawQueue.emptyUnsafe, hempty]
  | full =>
      refine ⟨q, ?_, rfl⟩
      simp only [RawQueue.call, dequeCall, hlen, RawQueue.full, raw, ge_iff_le, Int.ofNat_le]
  | contains pred =>
      refine ⟨q, ?_, rfl⟩
      simp only [RawQueue.call, dequeCall, contains_raw, Option.map_some]

/-- So does every sequence of calls. -/
theorem run_raw (cs : List (QueueCall T)) :
    ∃ r : ThreadSafeQueue T N, q.raw.run cs = some ((dequeRun N q.contents cs).1, r.raw) ∧
      r.contents = (dequeRun N q.contents cs).2 := by
  induction cs generalizing q with
  | nil => exact ⟨q, rfl, rfl⟩
  | cons c cs ih =>
      obtain ⟨s, hs, hcontents⟩ := q.call_raw c
      obtain ⟨r, hr, hrest⟩ := ih s
      rw [hcontents] at hr hrest
      refine ⟨r, ?_, hrest⟩
      rw [RawQueue.run, hs, Option.bind_some, hr]
      rfl

end

end ThreadSafeQueue

/-- From any buffer the queue keeps its bounds, never leaves the buffer and answers as a
double-ended queue of at most `N` elements, and its locked calls do what the others do. -/
theorem run_deque [NeZero N] (buf : Vector T N) (cs : List (QueueCall T)) :
    (∃ s : RawQueue T N, (RawQueue.init buf).run cs = some ((dequeRun N [] cs).1, s) ∧ s.Wf ∧
      s.contents = (dequeRun N [] cs).2) ∧
    ∀ s : RawQueue T N, (∀ item, s.push item = s.pushUnsafe item) ∧ s.pop = s.popUnsafe ∧
      s.empty = s.emptyUnsafe ∧ s.call .count = s.call .countUnsafe := by
  refine ⟨?_, fun s => ⟨fun _ => rfl, rfl, rfl, rfl⟩⟩
  let q : ThreadSafeQueue T N :=
    ⟨buf, 0, 0, 0, Nat.pos_of_neZero N, (Nat.zero_mod N).symm, Nat.zero_le N⟩
  obtain ⟨r, hr, hcontents⟩ := q.run_raw cs
  exact ⟨r.raw, hr, r.wf_raw, hcontents⟩

/-- Insertions at both ends over the end of a buffer of two. -/
theorem run_deque_two :
    ((RawQueue.init #v['a', 'b']).run
          [.pushFrontUnsafe 'x', .push 'y', .push 'z', .pop, .contains (· = 'y')]).map
        (fun r => r.2.contents) = some ['y'] ∧
      ∃ s : RawQueue Char 2,
        (RawQueue.init #v['a', 'b']).run [.push 'x'] = some ((dequeRun 2 [] [.push 'x']).1, s) ∧
        s.Wf ∧ s.contents = (dequeRun 2 [] [.push 'x']).2 :=
  ⟨by decide, (run_deque #v['a', 'b'] [.push 'x']).1⟩

end Tempio.Hub
