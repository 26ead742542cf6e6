import Mathlib.Algebra.BigOperators.Group.Finset.Basic
import Mathlib.Algebra.GroupWithZero.Nat
import Mathlib.Data.Finset.Card

namespace Tempio.Lib

/-- A map from keys to queues, with at most `slots` keys and at most `perKey`
values under each of them. -/
@[ext]
structure QueueMap (K V : Type) (slots perKey : Nat) where
  queue : K → Option (List V)
  keys : Finset K
  mem_keys : ∀ k, k ∈ keys ↔ queue k ≠ none
  card_le : keys.card ≤ slots
  length_le : ∀ k l, queue k = some l → l.length ≤ perKey

namespace QueueMap

variable {K V : Type} {slots perKey : Nat}

def get (m : QueueMap K V slots perKey) (k : K) : List V := (m.queue k).getD []

theorem ext_queue {m m' : QueueMap K V slots perKey} (h : m.queue = m'.queue) : m = m' := by
  have hkeys : m.keys = m'.keys := by
    apply Finset.ext
    intro k
    rw [m.mem_keys, m'.mem_keys, h]
  exact QueueMap.ext h hkeys

theorem length_get_le (m : QueueMap K V slots perKey) (k : K) : (m.get k).length ≤ perKey := by
  cases h : m.queue k with
  | none => simp [get, h]
  | some l => simpa [get, h] using m.length_le k l h

def empty : QueueMap K V slots perKey where
  queue _ := none
  keys := ∅
  mem_keys := by simp
  card_le := Nat.zero_le _
  length_le := by simp

def size (m : QueueMap K V slots perKey) : Nat := m.keys.card

def total (m : QueueMap K V slots perKey) : Nat := ∑ k ∈ m.keys, (m.get k).length

/-- There is room under the key: its queue is not full, or it has none yet and
the map takes one more key. -/
def Room (m : QueueMap K V slots perKey) (k : K) : Prop :=
  match m.queue k with
  | some l => l.length < perKey
  | none => m.keys.card < slots

instance decidableRoom (m : QueueMap K V slots perKey) (k : K) : Decidable (m.Room k) :=
  match h : m.queue k with
  | some l => decidable_of_iff (l.length < perKey) (by simp only [Room, h])
  | none => decidable_of_iff (m.keys.card < slots) (by simp only [Room, h])

theorem Room.key {m : QueueMap K V slots perKey} {k : K} (h : m.Room k) :
    m.queue k ≠ none ∨ m.keys.card < slots := by
  cases hq : m.queue k with
  | some l => exact .inl (by simp)
  | none => exact .inr (by simpa only [Room, hq] using h)

theorem Room.length_lt {m : QueueMap K V slots perKey} {k : K} (h : m.Room k) (hs : 0 < perKey) :
    (m.get k).length < perKey := by
  cases hq : m.queue k with
  | some l =>
      rw [get, hq, Option.getD_some]
      simpa only [Room, hq] using h
  | none => simpa [get, hq] using hs

theorem queue_ne_none_of_get {m : QueueMap K V slots perKey} {k : K} (h : m.get k ≠ []) :
    m.queue k ≠ none := by
  intro hn
  simp [get, hn] at h

theorem queue_ne_none_of_dropWhile {m : QueueMap K V slots perKey} {k : K} {p : V → Bool} {v : V}
    {rest : List V} (h : (m.get k).dropWhile p = v :: rest) : m.queue k ≠ none := by
  apply queue_ne_none_of_get
  intro hn
  simp [hn] at h

theorem length_rest_le {m : QueueMap K V slots perKey} {k : K} {p : V → Bool} {v : V}
    {rest : List V} (h : (m.get k).dropWhile p = v :: rest) : rest.length ≤ perKey := by
  have hd := (List.dropWhile_sublist p (l := m.get k)).length_le
  rw [h, List.length_cons] at hd
  have := m.length_get_le k
  omega

variable [DecidableEq K]

theorem card_insert_le {m : QueueMap K V slots perKey} {k : K}
    (h : m.queue k ≠ none ∨ m.keys.card < slots) : (insert k m.keys).card ≤ slots := by
  rcases h with h | h
  · rw [Finset.insert_eq_of_mem ((m.mem_keys k).mpr h)]
    exact m.card_le
  · exact (Finset.card_insert_le k m.keys).trans h

def set (m : QueueMap K V slots perKey) (k : K) (l : List V)
    (hk : m.queue k ≠ none ∨ m.keys.card < slots) (hl : l.length ≤ perKey) :
    QueueMap K V slots perKey where
  queue := Function.update m.queue k (some l)
  keys := insert k m.keys
  mem_keys j := by
    by_cases hj : j = k
    · simp [hj]
    · simp [hj, m.mem_keys]
  card_le := card_insert_le hk
  length_le j l' h := by
    by_cases hj : j = k
    · rw [hj, Function.update_self] at h
      exact Option.some.inj h ▸ hl
    · rw [Function.update_of_ne hj] at h
      exact m.length_le j l' h

def erase (m : QueueMap K V slots perKey) (k : K) : QueueMap K V slots perKey where
  queue := Function.update m.queue k none
  keys := m.keys.erase k
  mem_keys j := by
    by_cases hj : j = k
    · simp [hj]
    · simp [hj, m.mem_keys]
  card_le := (Finset.card_erase_le).trans m.card_le
  length_le j l h := by
    by_cases hj : j = k
    · simp [hj] at h
    · rw [Function.update_of_ne hj] at h
      exact m.length_le j l h

variable [NeZero perKey]

/-- Put one more value under the key, if there is room. -/
def add (m : QueueMap K V slots perKey) (k : K) (put : List V → List V)
    (hput : ∀ l, (put l).length = l.length + 1) : Bool × QueueMap K V slots perKey :=
  if h : m.Room k then
    (true, m.set k (put (m.get k)) h.key (by
      rw [hput]
      exact h.length_lt (Nat.pos_of_neZero perKey)))
  else (false, m)

def push (m : QueueMap K V slots perKey) (k : K) (v : V) : Bool × QueueMap K V slots perKey :=
  m.add k (· ++ [v]) (by simp)

def pushFront (m : QueueMap K V slots perKey) (k : K) (v : V) : Bool × QueueMap K V slots perKey :=
  m.add k (v :: ·) (by simp)

/-- Drop the values at the front that are not live any more, and hand out the
next one; a key without any loses its queue. -/
def pop (live : V → Bool) (m : QueueMap K V slots perKey) (k : K) :
    Option V × QueueMap K V slots perKey :=
  match h : (m.get k).dropWhile fun v => !live v with
  | [] => (none, m.erase k)
  | v :: rest => (some v, m.set k rest (.inl (queue_ne_none_of_dropWhile h)) (length_rest_le h))

theorem queue_add {m : QueueMap K V slots perKey} {k : K} (put : List V → List V)
    (hput : ∀ l, (put l).length = l.length + 1) (h : m.Room k) :
    (m.add k put hput).1 = true ∧
      (m.add k put hput).2.queue = Function.update m.queue k (some (put (m.get k))) := by
  rw [add, dif_pos h]
  exact ⟨rfl, rfl⟩

theorem add_of_full {m : QueueMap K V slots perKey} {k : K} (put : List V → List V)
    (hput : ∀ l, (put l).length = l.length + 1) (h : ¬ m.Room k) : m.add k put hput = (false, m) := by
  rw [add, dif_neg h]

omit [NeZero perKey] in
theorem pop_cases (live : V → Bool) (m : QueueMap K V slots perKey) (k : K) :
    ((m.get k).dropWhile (fun v => !live v) = [] ∧ (m.pop live k).1 = none ∧
      (m.pop live k).2.queue = Function.update m.queue k none) ∨
    (∃ v rest, (m.get k).dropWhile (fun v => !live v) = v :: rest ∧ (m.pop live k).1 = some v ∧
      (m.pop live k).2.queue = Function.update m.queue k (some rest)) := by
  unfold pop
  split
  · next h => exact .inl ⟨h, rfl, rfl⟩
  · next v rest h => exact .inr ⟨v, rest, h, rfl, rfl⟩

/-- Every value under a key is one that may be filed there. -/
def Filed (P : K → V → Prop) (m : QueueMap K V slots perKey) : Prop := ∀ k, ∀ v ∈ m.get k, P k v

omit [NeZero perKey] in
theorem Filed.of_update {P : K → V → Prop} {m m' : QueueMap K V slots perKey} (h : m.Filed P) {k : K}
    {o : Option (List V)} (hq : m'.queue = Function.update m.queue k o)
    (ho : ∀ v ∈ o.getD [], P k v) : m'.Filed P := by
  intro j v hv
  rw [get, hq] at hv
  by_cases hj : j = k
  · subst hj
    rw [Function.update_self] at hv
    exact ho v hv
  · rw [Function.update_of_ne hj] at hv
    exact h j v hv

theorem Filed.add {P : K → V → Prop} {m : QueueMap K V slots perKey} (h : m.Filed P) {k : K}
    (put : List V → List V) (hput : ∀ l, (put l).length = l.length + 1)
    (hmem : ∀ w ∈ put (m.get k), w ∈ m.get k ∨ (m.Room k → P k w)) :
    (m.add k put hput).2.Filed P := by
  by_cases hr : m.Room k
  · apply h.of_update (queue_add put hput hr).2
    intro w hw
    rcases hmem w hw with hw | hw
    · exact h k w hw
    · exact hw hr
  · rw [add_of_full put hput hr]
    exact h

omit [NeZero perKey] in
theorem Filed.pop {P : K → V → Prop} {m : QueueMap K V slots perKey} (h : m.Filed P)
    (live : V → Bool) (k : K) : (m.pop live k).2.Filed P ∧ ∀ v, (m.pop live k).1 = some v → P k v := by
  rcases pop_cases live m k with ⟨_, hn, hq⟩ | ⟨v, rest, hd, hv, hq⟩
  · refine ⟨h.of_update hq (by simp), fun v hv => ?_⟩
    rw [hn] at hv
    cases hv
  · have hmem : ∀ w ∈ v :: rest, P k w := by
      intro w hw
      rw [← hd] at hw
      exact h k w ((List.dropWhile_sublist _).subset hw)
    refine ⟨h.of_update hq fun w hw => hmem w (List.mem_cons_of_mem v hw), fun w hw => ?_⟩
    rw [hv] at hw
    exact hmem w (Option.some.inj hw ▸ List.mem_cons_self)

end QueueMap

end Tempio.Lib
