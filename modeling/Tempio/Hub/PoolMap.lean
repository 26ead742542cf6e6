import Mathlib.Algebra.BigOperators.Fin
import Tempio.Hub.PendingMap
import Tempio.Lib.QueueMap

namespace Tempio.Hub

open Tempio.Lib Tempio.Lib.Search

/-- What the pool is for: a bounded map from node ids to queues of commands. -/
abbrev CommandMap := QueueMap NodeId MqttCommand maxNodes cmdPendingPerNode

namespace PendingPool

def usedSlots (p : PendingPool) : Finset (Fin maxNodes) :=
  Finset.univ.filter fun i => (p.slots.get i).used = true

theorem mem_usedSlots {p : PendingPool} {i : Fin maxNodes} :
    i ∈ p.usedSlots ↔ (p.slots.get i).used = true := by
  simp [usedSlots]

theorem Wf.lookup_ne_none_iff {p : PendingPool} (hp : p.Wf) {nodeId : NodeId} :
    p.lookup nodeId ≠ none ↔ ∃ i ∈ p.usedSlots, (p.slots.get i).nodeId = nodeId := by
  rw [Option.ne_none_iff_exists']
  constructor
  · rintro ⟨l, hl⟩
    obtain ⟨i, hu, hn, _⟩ := hp.lookup_iff.mp hl
    exact ⟨i, mem_usedSlots.mpr hu, hn⟩
  · rintro ⟨i, hi, hn⟩
    exact ⟨_, hp.lookup_iff.mpr ⟨i, mem_usedSlots.mp hi, hn, rfl⟩⟩

theorem Wf.injOn_nodeId {p : PendingPool} (hp : p.Wf) :
    Set.InjOn (fun i => (p.slots.get i).nodeId) p.usedSlots :=
  fun i hi j hj h => hp.distinct i j (mem_usedSlots.mp hi) (mem_usedSlots.mp hj) h

def asMap (p : PendingPool) (hp : p.Wf) : CommandMap where
  queue := p.lookup
  keys := p.usedSlots.image fun i => (p.slots.get i).nodeId
  mem_keys n := by
    rw [hp.lookup_ne_none_iff, Finset.mem_image]
  card_le := Finset.card_image_le.trans ((Finset.card_filter_le _ _).trans (by simp))
  length_le n l h := by
    obtain ⟨i, _, _, rfl⟩ := hp.lookup_iff.mp h
    exact ThreadSafeQueue.length_contents_le _

theorem get_asMap {p : PendingPool} (hp : p.Wf) (n : NodeId) : (p.asMap hp).get n = p.queueOf n := rfl

theorem card_keys_asMap {p : PendingPool} (hp : p.Wf) :
    (p.asMap hp).keys.card = p.usedSlots.card :=
  Finset.card_image_of_injOn hp.injOn_nodeId

theorem size_asMap {p : PendingPool} (hp : p.Wf) : (p.asMap hp).size = p.activeSlots := by
  rw [QueueMap.size, card_keys_asMap, usedSlots, Finset.card_filter, activeSlots, ← Fin.sum_univ_def]

theorem total_asMap {p : PendingPool} (hp : p.Wf) : (p.asMap hp).total = p.totalPending := by
  have hqueue : ∀ i ∈ p.usedSlots, ((p.asMap hp).get (p.slots.get i).nodeId).length =
      (p.slots.get i).queue.countUnsafe := by
    intro i hi
    rw [get_asMap, queueOf, hp.lookup_iff.mpr ⟨i, mem_usedSlots.mp hi, rfl, rfl⟩, Option.getD_some,
      ThreadSafeQueue.length_contents]
    rfl
  rw [QueueMap.total, totalPending, ← Fin.sum_univ_def]
  calc ∑ n ∈ (p.asMap hp).keys, ((p.asMap hp).get n).length
      = ∑ i ∈ p.usedSlots, ((p.asMap hp).get (p.slots.get i).nodeId).length :=
        Finset.sum_image hp.injOn_nodeId
    _ = ∑ i ∈ p.usedSlots, (p.slots.get i).queue.countUnsafe := Finset.sum_congr rfl hqueue
    _ = ∑ i, if (p.slots.get i).used then (p.slots.get i).queue.countUnsafe else 0 := by
        rw [usedSlots, Finset.sum_filter]

theorem room_asMap_iff {p : PendingPool} (hp : p.Wf) (n : NodeId) :
    (p.asMap hp).Room n ↔ ¬ p.Refuses n := by
  cases hl : p.lookup n with
  | some l =>
      have hq : (p.asMap hp).queue n = some l := hl
      simp [QueueMap.Room, Refuses, hq, hl]
  | none =>
      have hq : (p.asMap hp).queue n = none := hl
      have hfull : p.usedSlots.card = maxNodes ↔ ∀ i, (p.slots.get i).used = true := by
        have h := Finset.card_eq_iff_eq_univ p.usedSlots
        rw [Fintype.card_fin] at h
        simp [h, Finset.eq_univ_iff_forall, mem_usedSlots]
      have hle : p.usedSlots.card ≤ maxNodes := by
        have := Finset.card_le_univ p.usedSlots
        rwa [Fintype.card_fin] at this
      simp only [QueueMap.Room, hq, card_keys_asMap, Refuses, hl, reduceCtorEq, false_and,
        exists_false, true_and, false_or, ← hfull]
      omega

theorem asMap_of_update {p p' : PendingPool} (hp : p.Wf) {n : NodeId} {o : Option (List MqttCommand)}
    (hu : Update p n o p') {m : CommandMap}
    (hm : m.queue = Function.update (p.asMap hp).queue n o) : p'.asMap hu.wf = m := by
  apply QueueMap.ext_queue
  rw [hm]
  exact hu.lookup

theorem asMap_add {p : PendingPool} (hp : p.Wf) {n : NodeId} {r : Bool × PendingPool}
    (put : List MqttCommand → List MqttCommand) (hput : ∀ l, (put l).length = l.length + 1)
    (h : (∃ p', r = (true, p') ∧ ¬ p.Refuses n ∧ Update p n (some (put (p.queueOf n))) p') ∨
      r = (false, p) ∧ p.Refuses n) :
    ∃ hr : r.2.Wf, ((p.asMap hp).add n put hput) = (r.1, r.2.asMap hr) := by
  rcases h with ⟨p', rfl, hn, hu⟩ | ⟨rfl, hn⟩
  · refine ⟨hu.wf, ?_⟩
    obtain ⟨htrue, hqueue⟩ := QueueMap.queue_add put hput ((room_asMap_iff hp n).mpr hn)
    exact Prod.ext htrue (asMap_of_update hp hu hqueue).symm
  · refine ⟨hp, QueueMap.add_of_full put hput ?_⟩
    rw [room_asMap_iff hp, not_not]
    exact hn

theorem asMap_pop {p : PendingPool} (hp : p.Wf) (now : UInt32) (n : NodeId) :
    ∃ hr : (p.pop now n).2.Wf,
      (p.asMap hp).pop (·.fresh now) n = ((p.pop now n).1, (p.pop now n).2.asMap hr) := by
  have hcases := QueueMap.pop_cases (·.fresh now) (p.asMap hp) n
  have hget : ((p.asMap hp).get n).dropWhile (fun c => !c.fresh now) = unexpired now (p.queueOf n) :=
    rfl
  rw [hget] at hcases
  obtain ⟨hr, hn⟩ | ⟨p', hr, hq, hu⟩ | ⟨c, rest, p', hr, hq, hu⟩ := pop_cases hp now n
  · have hq : unexpired now (p.queueOf n) = [] := by
      rw [queueOf, hn]
      rfl
    rcases hcases with ⟨_, hnone, hm⟩ | ⟨v, rest, hv, _⟩
    · rw [hr]
      exact ⟨hp, Prod.ext hnone (asMap_of_update hp (update_none_self hp hn) hm).symm⟩
    · rw [hq] at hv
      cases hv
  · rcases hcases with ⟨_, hnone, hm⟩ | ⟨v, rest, hv, _⟩
    · rw [hr]
      exact ⟨hu.wf, Prod.ext hnone (asMap_of_update hp hu hm).symm⟩
    · rw [hq] at hv
      cases hv
  · rcases hcases with ⟨hv, _⟩ | ⟨v, rest', hv, hsome, hm⟩
    · rw [hq] at hv
      cases hv
    · rw [hq] at hv
      obtain ⟨rfl, rfl⟩ := List.cons.inj hv
      rw [hr]
      exact ⟨hu.wf, Prod.ext hsome (asMap_of_update hp hu hm).symm⟩

theorem hasWork_iff {s : Slot} : s.hasWork = true ↔ s.used = true ∧ s.queue.contents ≠ [] := by
  rw [Slot.hasWork, Bool.and_eq_true, Bool.not_eq_true', ← Bool.not_eq_true,
    ThreadSafeQueue.emptyUnsafe_iff]

theorem Wf.queueOf_nodeId {p : PendingPool} (hp : p.Wf) {i : Fin maxNodes}
    (hu : (p.slots.get i).used = true) :
    p.queueOf (p.slots.get i).nodeId = (p.slots.get i).queue.contents := by
  rw [queueOf, hp.lookup_iff.mpr ⟨i, hu, rfl, rfl⟩, Option.getD_some]

theorem Wf.of_nextNode {p : PendingPool} (hp : p.Wf) {idx idx' : Nat} {n : NodeId}
    (h : p.nextNode idx = some (n, idx')) : p.queueOf n ≠ [] := by
  obtain ⟨i, hi, he⟩ := Option.map_eq_some_iff.mp h
  obtain ⟨rfl, rfl⟩ := Prod.mk.inj he
  have hw := hasWork_iff.mp (of_firstFrom hi).2.1
  rw [hp.queueOf_nodeId hw.1]
  exact hw.2

theorem Wf.nextNode_zero_eq_none {p : PendingPool} (hp : p.Wf) (h : p.nextNode 0 = none) (n : NodeId) :
    p.queueOf n = [] := by
  cases hl : p.lookup n with
  | none => rw [queueOf, hl, Option.getD_none]
  | some l =>
      obtain ⟨i, hu, _, rfl⟩ := hp.lookup_iff.mp hl
      rw [queueOf, hl, Option.getD_some]
      by_contra hne
      have := firstFrom_eq_none.mp (Option.map_eq_none_iff.mp h) i (Nat.zero_le _)
      rw [hasWork_iff.mpr ⟨hu, hne⟩] at this
      cases this

end PendingPool

end Tempio.Hub
