import Tempio.Hub.PoolMap

namespace Tempio.Hub

open Tempio.Lib

/-- A call of the pool, with its reading of `millis()`. -/
inductive PoolCall
  | push (now : UInt32) (nodeId : NodeId) (cmd : MqttCommand)
  | pushFront (now : UInt32) (nodeId : NodeId) (cmd : MqttCommand)
  | pop (now : UInt32) (nodeId : NodeId)
  | activeSlots
  | totalPending
  | nextNode (idx : Nat)

inductive PoolAnswer
  | inserted (ok : Bool)
  | popped (cmd : Option MqttCommand)
  | number (n : Nat)
  | next (found : Option (NodeId × Nat))

namespace PendingPool

def call (p : PendingPool) : PoolCall → PoolAnswer × PendingPool
  | .push now nodeId cmd => (.inserted (p.push now nodeId cmd).1, (p.push now nodeId cmd).2)
  | .pushFront now nodeId cmd =>
      (.inserted (p.pushFront now nodeId cmd).1, (p.pushFront now nodeId cmd).2)
  | .pop now nodeId => (.popped (p.pop now nodeId).1, (p.pop now nodeId).2)
  | .activeSlots => (.number p.activeSlots, p)
  | .totalPending => (.number p.totalPending, p)
  | .nextNode idx => (.next (p.nextNode idx), p)

/-- The calls of the list, one after the other, each with its answer. -/
def run (p : PendingPool) : List PoolCall → List (PoolCall × PoolAnswer) × PendingPool
  | [] => ([], p)
  | c :: cs => ((c, (p.call c).1) :: ((p.call c).2.run cs).1, ((p.call c).2.run cs).2)

/-- The slots as a map: used slots belong to different nodes and hold their
queues, unused slots are empty. -/
structure Represents (p : PendingPool) (m : CommandMap) : Prop extends Wf p where
  queue : ∀ i, (p.slots.get i).used = true →
    m.queue (p.slots.get i).nodeId = some (p.slots.get i).queue.contents
  slot : ∀ n, m.queue n ≠ none → ∃ i, (p.slots.get i).used = true ∧ (p.slots.get i).nodeId = n

theorem represents_asMap {p : PendingPool} (hp : p.Wf) : p.Represents (p.asMap hp) where
  toWf := hp
  queue i hu := hp.lookup_iff.mpr ⟨i, hu, rfl, rfl⟩
  slot n hn := by
    obtain ⟨i, hi, hid⟩ := hp.lookup_ne_none_iff.mp hn
    exact ⟨i, mem_usedSlots.mp hi, hid⟩

end PendingPool

/-- What the map of queues answers, and becomes. The order in which `nextNode` finds the
nodes is left open. -/
inductive Allows (m : CommandMap) : PoolCall → PoolAnswer → CommandMap → Prop
  | push (now) (n) (cmd) :
      Allows m (.push now n cmd) (.inserted (m.push n (cmd.stamp now)).1) (m.push n (cmd.stamp now)).2
  | pushFront (now) (n) (cmd) :
      Allows m (.pushFront now n cmd) (.inserted (m.pushFront n (cmd.stamp now)).1)
        (m.pushFront n (cmd.stamp now)).2
  | pop (now) (n) :
      Allows m (.pop now n) (.popped (m.pop (·.fresh now) n).1) (m.pop (·.fresh now) n).2
  | activeSlots : Allows m .activeSlots (.number m.size) m
  | totalPending : Allows m .totalPending (.number m.total) m
  | found (idx idx' : Nat) (n) (h : m.get n ≠ []) : Allows m (.nextNode idx) (.next (some (n, idx'))) m
  | noneFound (idx : Nat) (h : idx = 0 → ∀ n, m.get n = []) : Allows m (.nextNode idx) (.next none) m

inductive Behaves : CommandMap → List (PoolCall × PoolAnswer) → CommandMap → Prop
  | nil (m) : Behaves m [] m
  | cons {m m' m'' c a log} (h : Allows m c a m') (hs : Behaves m' log m'') :
      Behaves m ((c, a) :: log) m''

/-- An accepted insertion put the command into the queue of the node. -/
def Queued (log : List (PoolCall × PoolAnswer)) (n : NodeId) (c : MqttCommand) : Prop :=
  ∃ now cmd, c = cmd.stamp now ∧ ((PoolCall.push now n cmd, PoolAnswer.inserted true) ∈ log ∨
    (PoolCall.pushFront now n cmd, PoolAnswer.inserted true) ∈ log)

theorem Queued.mono {log log' : List (PoolCall × PoolAnswer)} (hs : log ⊆ log') {n : NodeId}
    {c : MqttCommand}
    (h : Queued log n c) : Queued log' n c := by
  obtain ⟨now, cmd, hc, h⟩ := h
  exact ⟨now, cmd, hc, h.imp (fun h => hs h) (fun h => hs h)⟩

namespace PendingPool

theorem call_refines {p : PendingPool} (hp : p.Wf) (c : PoolCall) :
    ∃ hr : (p.call c).2.Wf, Allows (p.asMap hp) c (p.call c).1 ((p.call c).2.asMap hr) := by
  cases c with
  | push now n cmd =>
      obtain ⟨hr, h⟩ := asMap_add hp (· ++ [cmd.stamp now]) (by simp) (push_cases hp now n cmd)
      refine ⟨hr, ?_⟩
      have hpush := Allows.push (m := p.asMap hp) now n cmd
      rwa [QueueMap.push, h] at hpush
  | pushFront now n cmd =>
      obtain ⟨hr, h⟩ := asMap_add hp (cmd.stamp now :: ·) (by simp) (pushFront_cases hp now n cmd)
      refine ⟨hr, ?_⟩
      have hpush := Allows.pushFront (m := p.asMap hp) now n cmd
      rwa [QueueMap.pushFront, h] at hpush
  | pop now n =>
      obtain ⟨hr, h⟩ := asMap_pop hp now n
      refine ⟨hr, ?_⟩
      have hpop := Allows.pop (m := p.asMap hp) now n
      rwa [h] at hpop
  | activeSlots =>
      refine ⟨hp, ?_⟩
      have h := Allows.activeSlots (m := p.asMap hp)
      rwa [size_asMap hp] at h
  | totalPending =>
      refine ⟨hp, ?_⟩
      have h := Allows.totalPending (m := p.asMap hp)
      rwa [total_asMap hp] at h
  | nextNode idx =>
      refine ⟨hp, ?_⟩
      simp only [call]
      cases hn : p.nextNode idx with
      | some r => exact .found idx r.2 r.1 (hp.of_nextNode hn)
      | none => exact .noneFound idx fun hidx => hp.nextNode_zero_eq_none (hidx ▸ hn)

theorem behaves_run {p : PendingPool} (hp : p.Wf) (cs : List PoolCall) :
    ∃ hr : (p.run cs).2.Wf, Behaves (p.asMap hp) (p.run cs).1 ((p.run cs).2.asMap hr) := by
  induction cs generalizing p with
  | nil => exact ⟨hp, .nil _⟩
  | cons c cs ih =>
      obtain ⟨hc, hallows⟩ := call_refines hp c
      obtain ⟨hr, hbehaves⟩ := ih hc
      exact ⟨hr, .cons hallows hbehaves⟩

theorem asMap_init : init.asMap wf_init = .empty := by
  apply QueueMap.ext_queue
  funext n
  change init.lookup n = none
  by_contra h
  obtain ⟨i, hi, _⟩ := wf_init.lookup_ne_none_iff.mp h
  rw [mem_usedSlots, slots_init] at hi
  cases hi

end PendingPool

/-- The map files a command only under the node that it was queued for. -/
theorem filed_of_allows {m m' : CommandMap} {c : PoolCall} {a : PoolAnswer}
    {log : List (PoolCall × PoolAnswer)}
    (hm : m.Filed (Queued log)) (h : Allows m c a m') : m'.Filed (Queued (log ++ [(c, a)])) := by
  have hm' : m.Filed (Queued (log ++ [(c, a)])) :=
    fun n v hv => (hm n v hv).mono (List.subset_append_left _ _)
  cases h with
  | push now n cmd =>
      apply hm'.add
      intro w hw
      apply (List.mem_append.mp hw).imp_right
      intro hw hr
      have hok : (m.push n (cmd.stamp now)).1 = true := (QueueMap.queue_add _ _ hr).1
      refine ⟨now, cmd, List.mem_singleton.mp hw, .inl ?_⟩
      rw [hok]
      exact List.mem_append_right _ (List.mem_singleton_self _)
  | pushFront now n cmd =>
      apply hm'.add
      intro w hw
      apply (List.mem_cons.mp hw).symm.imp_right
      intro hw hr
      have hok : (m.pushFront n (cmd.stamp now)).1 = true := (QueueMap.queue_add _ _ hr).1
      refine ⟨now, cmd, hw, .inr ?_⟩
      rw [hok]
      exact List.mem_append_right _ (List.mem_singleton_self _)
  | pop now n => exact (hm'.pop _ n).1
  | activeSlots | totalPending | found | noneFound => exact hm'

theorem queued_of_behaves {m m' : CommandMap} {log before after : List (PoolCall × PoolAnswer)}
    (hm : m.Filed (Queued log)) (h : Behaves m (before ++ after) m') {now : UInt32} {n : NodeId}
    {c : MqttCommand} (hpop : after.head? = some (.pop now n, .popped (some c))) :
    Queued (log ++ before) n c := by
  induction before generalizing m log with
  | nil =>
      cases after with
      | nil => cases hpop
      | cons e after =>
          cases h with
          | cons h _ =>
              obtain ⟨rfl, ha⟩ := Prod.mk.inj (Option.some.inj hpop)
              cases h with
              | pop =>
                  rw [List.append_nil]
                  exact (hm.pop _ n).2 c (PoolAnswer.popped.inj ha)
  | cons e before ih =>
      cases h with
      | cons h hs =>
          have := ih (filed_of_allows hm h) hs
          rwa [List.append_assoc] at this

/-- Whatever is called, the pool behaves as the bounded map that its slots represent, and
a command that is popped for a node was queued for that node. -/
theorem run_refines (cs : List PoolCall) :
    (∃ m : CommandMap, (PendingPool.init.run cs).2.Represents m ∧
      Behaves .empty (PendingPool.init.run cs).1 m) ∧
    ∀ before after now n c,
      (PendingPool.init.run cs).1 = before ++ (.pop now n, .popped (some c)) :: after →
        Queued before n c := by
  obtain ⟨hr, hb⟩ := PendingPool.behaves_run PendingPool.wf_init cs
  rw [PendingPool.asMap_init] at hb
  refine ⟨⟨_, PendingPool.represents_asMap hr, hb⟩, ?_⟩
  intro before after now n c hlog
  rw [hlog] at hb
  have hempty : (QueueMap.empty : CommandMap).Filed (Queued []) := by
    intro n v hv
    cases hv
  exact queued_of_behaves hempty hb rfl

end Tempio.Hub
