import Mathlib.Data.List.Dedup
import Mathlib.Data.List.Induction
import Mathlib.Data.List.Pairwise
import Mathlib.Data.List.Sort
import Mathlib.Logic.Function.Basic

namespace Tempio.Lib.Table

variable {R K V : Type}

/-- Every row is younger than those before it. -/
def Increasing (id : R → Nat) (rows : List R) : Prop := rows.Pairwise fun r s => id r < id s

/-- The ids are 1, 2 and so on. -/
def Numbered (id : R → Nat) (rows : List R) : Prop := rows.map id = List.range' 1 rows.length

/-- The id that an AUTOINCREMENT column gives to the next row, when no row is ever deleted. -/
def nextId (id : R → Nat) (rows : List R) : Nat := (rows.map id).max?.getD 0 + 1

/-- The rows of a table that were inserted with the ids 1, 2 and so on. -/
def number (rows : List (Nat → R)) : List R := rows.mapIdx fun i row => row (i + 1)

/-- `ORDER BY id DESC` -/
def orderByIdDesc (id : R → Nat) (rows : List R) : List R :=
  rows.insertionSort fun r s => id s ≤ id r

/-- `LIMIT ?`; a negative limit is none. -/
def limit (n : Int) (rows : List R) : List R := if n < 0 then rows else rows.take n.toNat

/-- A dict put together pair by pair: the last value of a key stays. -/
def dict [DecidableEq K] (pairs : List (K × V)) : K → Option V :=
  pairs.foldl (fun d p => Function.update d p.1 (some p.2)) fun _ => none

section

variable [DecidableEq K] (id : R → Nat) (key : R → K)

/-- `SELECT key, MAX(id) FROM rows GROUP BY key` -/
def maxIds (rows : List R) : List (K × Nat) :=
  (rows.map key).dedup.map fun k => (k, ((rows.filter fun r => key r = k).map id).max?.getD 0)

/-- `SELECT s.* FROM rows s INNER JOIN (...) latest ON s.id = latest.max_id` -/
def joinMaxIds (rows : List R) : List R :=
  rows.flatMap fun r => ((maxIds id key rows).filter fun g => id r = g.2).map fun _ => r

/-- The last row of every key. -/
def latest (rows : List R) (k : K) : Option R := (rows.filter fun r => key r = k).getLast?

end

section

variable {id : R → Nat} {rows : List R} {r s : R}

theorem id_lt_nextId (h : r ∈ rows) : id r < nextId id rows := by
  have hid : id r ∈ rows.map id := List.mem_map_of_mem h
  cases hmax : (rows.map id).max? with
  | none =>
      rw [List.max?_eq_none_iff.mp hmax] at hid
      cases hid
  | some n =>
      rw [nextId, hmax, Option.getD_some]
      exact Nat.lt_succ_of_le ((List.max?_eq_some_iff.mp hmax).2 _ hid)

theorem Increasing.append (h : Increasing id rows) (hr : id r = nextId id rows) :
    Increasing id (rows ++ [r]) := by
  refine List.pairwise_append.mpr ⟨h, List.pairwise_singleton _ _, ?_⟩
  intro a ha b hb
  rw [List.mem_singleton.mp hb, hr]
  exact id_lt_nextId ha

theorem Numbered.increasing (h : Numbered id rows) : Increasing id rows := by
  have hlt : (List.range' 1 rows.length).Pairwise (· < ·) := List.pairwise_lt_range'
  rw [← h] at hlt
  exact List.pairwise_map.mp hlt

theorem Numbered.nextId (h : Numbered id rows) : nextId id rows = rows.length + 1 := by
  rcases Nat.eq_zero_or_pos rows.length with hlen | hlen
  · rw [List.eq_nil_of_length_eq_zero hlen]
    rfl
  · have hmax : (List.range' 1 rows.length).max? = some rows.length := by
      rw [List.max?_eq_some_iff]
      simp only [List.mem_range'_1]
      exact ⟨by omega, fun n hn => by omega⟩
    rw [Table.nextId, h, hmax, Option.getD_some]

theorem Numbered.append (h : Numbered id rows) (hr : id r = rows.length + 1) :
    Numbered id (rows ++ [r]) := by
  rw [Numbered, List.map_append, h, List.length_append, List.length_singleton, List.range'_1_concat,
    List.map_singleton, hr, Nat.add_comm 1]

@[simp]
theorem length_number (rows : List (Nat → R)) : (number rows).length = rows.length := List.length_mapIdx

theorem number_append (rows : List (Nat → R)) (row : Option (Nat → R)) :
    number (rows ++ row.toList) =
      number rows ++ (row.map fun row => row ((number rows).length + 1)).toList := by
  cases row <;> simp [number, List.mapIdx_append]

theorem numbered_number {rows : List (Nat → R)} (h : ∀ row ∈ rows, ∀ n, id (row n) = n) :
    Numbered id (number rows) := by
  induction rows using List.reverseRecOn with
  | nil => rfl
  | append_singleton rows row ih =>
      have hrows : ∀ r ∈ rows, ∀ n, id (r n) = n := fun r hr => h r (List.mem_append_left _ hr)
      have happend := number_append rows (some row)
      rw [Option.toList_some, Option.map_some, Option.toList_some] at happend
      rw [happend]
      exact (ih hrows).append (h row (by simp) _)

theorem Increasing.id_inj (h : Increasing id rows) (hr : r ∈ rows) (hs : s ∈ rows)
    (heq : id r = id s) : r = s := by
  have hdiffer : rows.Pairwise fun a b => id a ≠ id b := h.imp fun hlt => hlt.ne
  by_contra hne
  have : Std.Symm fun a b : R => id a ≠ id b := ⟨fun _ _ h => h.symm⟩
  exact hdiffer.forall hr hs hne heq

theorem Increasing.orderByIdDesc (h : Increasing id rows) : orderByIdDesc id rows = rows.reverse := by
  have : Std.Total fun r s : R => id s ≤ id r := ⟨fun r s => Nat.le_total (id s) (id r)⟩
  have : IsTrans R fun r s => id s ≤ id r := ⟨fun _ _ _ h h' => h'.trans h⟩
  have hperm : (Table.orderByIdDesc id rows).Perm rows.reverse :=
    (List.perm_insertionSort _ rows).trans rows.reverse_perm.symm
  refine hperm.eq_of_pairwise ?_ (List.pairwise_insertionSort _ rows) ?_
  · intro r s hr hs hrs hsr
    have hr := (List.mem_insertionSort _).mp hr
    exact h.id_inj hr (List.mem_reverse.mp hs) (Nat.le_antisymm hsr hrs)
  · exact List.pairwise_reverse.mpr (h.imp Nat.le_of_lt)

/-- A row is among the last `n`, or older than each of them. -/
theorem Increasing.mem_drop_or (h : Increasing id rows) (hr : r ∈ rows) (n : Nat) :
    r ∈ rows.drop (rows.length - n) ∨
      (rows.drop (rows.length - n)).length = n ∧ ∀ s ∈ rows.drop (rows.length - n), id r < id s := by
  rw [← List.take_append_drop (rows.length - n) rows] at h hr
  rcases List.mem_append.mp hr with hr | hr
  · right
    have hpos : 0 < (rows.take (rows.length - n)).length := List.length_pos_of_mem hr
    refine ⟨?_, (List.pairwise_append.mp h).2.2 r hr⟩
    rw [List.length_take] at hpos
    rw [List.length_drop]
    omega
  · exact .inl hr

end

section

variable [DecidableEq K] {pairs : List (K × V)} {k : K} {v : V}

theorem dict_append (pairs : List (K × V)) (p : K × V) :
    dict (pairs ++ [p]) = Function.update (dict pairs) p.1 (some p.2) := by
  rw [dict, List.foldl_append]
  rfl

theorem dict_eq_some_iff (h : (pairs.map Prod.fst).Nodup) : dict pairs k = some v ↔ (k, v) ∈ pairs := by
  induction pairs using List.reverseRecOn with
  | nil => simp [dict]
  | append_singleton pairs p ih =>
      rw [List.map_append, List.nodup_append] at h
      obtain ⟨hpairs, _, hnew⟩ := h
      have hp : p.1 ∉ pairs.map Prod.fst := fun hp => hnew _ hp p.1 (by simp) rfl
      rw [dict_append, List.mem_append, List.mem_singleton]
      by_cases hk : k = p.1
      · subst hk
        have hnone : (p.1, v) ∉ pairs := fun hm => hp (List.mem_map.mpr ⟨(p.1, v), hm, rfl⟩)
        simp [hnone, Prod.ext_iff, eq_comm]
      · rw [Function.update_of_ne hk, ih hpairs]
        simp [hk, Prod.ext_iff]

end

section

variable [DecidableEq K] {id : R → Nat} {key : R → K} {rows : List R} {r s : R} {k : K}

theorem key_of_latest (h : latest key rows k = some r) : key r = k := by
  simpa using List.of_mem_filter (List.mem_of_getLast? h)

theorem mem_of_latest (h : latest key rows k = some r) : r ∈ rows :=
  List.mem_of_mem_filter (List.mem_of_getLast? h)

theorem latest_append (key : R → K) (rows : List R) (r : R) :
    latest key (rows ++ [r]) = Function.update (latest key rows) (key r) (some r) := by
  funext k
  by_cases hk : k = key r
  · simp [latest, hk]
  · simp [latest, hk, Ne.symm hk]

theorem latest_ne_none_iff : latest key rows k ≠ none ↔ k ∈ rows.map key := by
  simp [latest]

/-- The largest id of a group is the one of its last row. -/
theorem Increasing.max?_eq (h : Increasing id rows) (hr : latest key rows k = some r) :
    ((rows.filter fun r => key r = k).map id).max? = some (id r) := by
  have hgroup : Increasing id (rows.filter fun r => key r = k) := h.filter _
  obtain ⟨older, hlast⟩ := List.getLast?_eq_some_iff.mp hr
  rw [hlast] at hgroup ⊢
  rw [List.max?_eq_some_iff]
  refine ⟨List.mem_map_of_mem (by simp), ?_⟩
  intro n hn
  obtain ⟨s, hs, rfl⟩ := List.mem_map.mp hn
  rcases List.mem_append.mp hs with hs | hs
  · exact ((List.pairwise_append.mp hgroup).2.2 s hs r (by simp)).le
  · rw [List.mem_singleton.mp hs]

theorem mem_maxIds_iff (h : Increasing id rows) {g : K × Nat} :
    g ∈ maxIds id key rows ↔ ∃ r, latest key rows g.1 = some r ∧ g.2 = id r := by
  rw [maxIds, List.mem_map]
  constructor
  · rintro ⟨k, hk, rfl⟩
    obtain ⟨r, hr⟩ := Option.ne_none_iff_exists'.mp (latest_ne_none_iff.mpr (List.mem_dedup.mp hk))
    exact ⟨r, hr, by rw [h.max?_eq hr, Option.getD_some]⟩
  · rintro ⟨r, hr, hid⟩
    refine ⟨g.1, ?_, ?_⟩
    · exact List.mem_dedup.mpr (latest_ne_none_iff.mp (by simp [hr]))
    · rw [h.max?_eq hr, Option.getD_some, ← hid]

theorem mem_joinMaxIds_iff (h : Increasing id rows) :
    r ∈ joinMaxIds id key rows ↔ latest key rows (key r) = some r := by
  simp only [joinMaxIds, List.mem_flatMap, List.mem_map, List.mem_filter, decide_eq_true_eq]
  constructor
  · rintro ⟨r', hr', g, ⟨hg, hid⟩, rfl⟩
    obtain ⟨s, hs, hgid⟩ := (mem_maxIds_iff h).mp hg
    obtain rfl : r' = s := h.id_inj hr' (mem_of_latest hs) (hid.trans hgid)
    rwa [key_of_latest hs]
  · intro hr
    exact ⟨r, mem_of_latest hr, (key r, id r), ⟨(mem_maxIds_iff h).mpr ⟨r, hr, rfl⟩, rfl⟩, rfl⟩

/-- The join has one row for every key. -/
theorem nodup_joinMaxIds (h : Increasing id rows) : ((joinMaxIds id key rows).map key).Nodup := by
  have hkeys : ((maxIds id key rows).map Prod.fst).Nodup := by
    rw [maxIds, List.map_map]
    exact (List.map_id _).symm ▸ List.nodup_dedup _
  rw [joinMaxIds, List.map_flatMap, List.nodup_flatMap]
  constructor
  · intro r hr
    have hsame : (((maxIds id key rows).filter fun g => id r = g.2).map fun _ => r).map key =
        ((maxIds id key rows).filter fun g => id r = g.2).map Prod.fst := by
      rw [List.map_map]
      apply List.map_congr_left
      intro g hg
      obtain ⟨hg, hid⟩ := List.mem_filter.mp hg
      obtain ⟨s, hs, hgid⟩ := (mem_maxIds_iff h).mp hg
      obtain rfl : r = s := h.id_inj hr (mem_of_latest hs) ((of_decide_eq_true hid).trans hgid)
      have hk : key r = g.1 := key_of_latest hs
      exact hk
    rw [hsame]
    exact hkeys.sublist (List.filter_sublist.map _)
  · refine List.Pairwise.imp_of_mem ?_ h
    intro r s hr hs hlt k hkr hks
    have hlast {t : R} (ht : t ∈ rows)
        (hk : k ∈ (((maxIds id key rows).filter fun g => id t = g.2).map fun _ => t).map key) :
        latest key rows k = some t := by
      obtain ⟨u, hu, rfl⟩ := List.mem_map.mp hk
      have hjoin : u ∈ joinMaxIds id key rows := List.mem_flatMap.mpr ⟨t, ht, hu⟩
      obtain ⟨_, _, rfl⟩ := List.mem_map.mp hu
      exact (mem_joinMaxIds_iff h).mp hjoin
    obtain rfl := Option.some.inj ((hlast hr hkr).symm.trans (hlast hs hks))
    exact Nat.lt_irrefl _ hlt

/-- Whatever order the rows of the join come in, the dict has the last row of every key. -/
theorem dict_joinMaxIds (h : Increasing id rows) {found : List R}
    (hfound : found.Perm (joinMaxIds id key rows)) :
    dict (found.map fun r => (key r, r)) = latest key rows := by
  have hnodup : ((found.map fun r => (key r, r)).map Prod.fst).Nodup := by
    rw [List.map_map]
    exact ((hfound.map key).nodup_iff).mpr (nodup_joinMaxIds h)
  funext k
  apply Option.ext
  intro r
  rw [dict_eq_some_iff hnodup, List.mem_map]
  constructor
  · rintro ⟨s, hs, heq⟩
    obtain ⟨rfl, rfl⟩ := Prod.mk.inj heq
    exact (mem_joinMaxIds_iff h).mp (hfound.mem_iff.mp hs)
  · intro hr
    obtain rfl := key_of_latest hr
    exact ⟨r, hfound.mem_iff.mpr ((mem_joinMaxIds_iff h).mpr hr), rfl⟩

end

end Tempio.Lib.Table
