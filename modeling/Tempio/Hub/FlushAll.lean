import Tempio.Hub.Flush
import Tempio.Hub.PoolMap

namespace Tempio.Hub

open PendingPool Tempio.Lib Tempio.Lib.Search Tempio.Lib.Transition

namespace FlushAll

/-- An attempt to send a command from the pool, with its result. -/
structure Tried where
  nodeId : NodeId
  cmd : MqttCommand
  ok : Bool
deriving DecidableEq

/-- The pool and the rest of the hub, as `trySend` sees it, in the middle of a call.
The other fields count the calls of `pop` and `pushFront`, each of which looks at the
clock, and record the visits and the attempts. -/
structure State (W : Type) where
  pool : PendingPool
  world : W
  calls : Nat
  visited : List NodeId
  tried : List Tried

variable {W : Type}

def State.start (pool : PendingPool) (world : W) : State W := ⟨pool, world, 0, [], []⟩

section

variable (trySend : W → MqttCommand → Bool × W) (connected : NodeId → Bool) (clock : Nat → Nat)

/-- The loop of `flushNodePending`; the fuel bounds the iterations. -/
def drain (nodeId : NodeId) : Nat → State W → Option (State W)
  | 0, _ => none
  | fuel + 1, s =>
      match s.pool.pop (UInt32.ofNat (clock s.calls)) nodeId with
      | (none, p) => some { s with pool := p, calls := s.calls + 1 }
      | (some cmd, p) =>
          match trySend s.world cmd with
          | (true, w) =>
              drain nodeId fuel { s with
                pool := p, world := w, calls := s.calls + 1, tried := s.tried ++ [⟨nodeId, cmd, true⟩] }
          | (false, w) =>
              some { s with
                pool := (p.pushFront (UInt32.ofNat (clock (s.calls + 1))) nodeId cmd).2
                world := w
                calls := s.calls + 2
                tried := s.tried ++ [⟨nodeId, cmd, false⟩] }

def flushNodePending (nodeId : NodeId) (s : State W) : Option (State W) :=
  if connected nodeId then drain trySend clock nodeId (cmdPendingPerNode + 1) s else some s

/-- The loop of `flushAllPending` from slot `idx` on. -/
def scan : Nat → Nat → State W → Option (State W)
  | 0, _, _ => none
  | fuel + 1, idx, s =>
      match s.pool.nextNode idx with
      | none => some s
      | some (nodeId, next) =>
          (flushNodePending trySend connected clock nodeId
            { s with visited := s.visited ++ [nodeId] }).bind (scan fuel next)

def flushAllPending (s : State W) : Option (State W) :=
  scan trySend connected clock (maxNodes + 1) 0 s

/-- The answers on record are those that `trySend` gives one after the other. -/
def Answered : W → List Tried → W → Prop
  | w, [], w' => w' = w
  | w, t :: ts, w' => (trySend w t.cmd).1 = t.ok ∧ Answered (trySend w t.cmd).2 ts w'

end

def triedFor (n : NodeId) (tried : List Tried) : List Tried := tried.filter (·.nodeId = n)

/-- What becomes of the queue of a connected node. `looked` are the commands that were taken
from its front, each with the time at which its age was looked at, and `behind` the others.
The attempts are those of `looked` that had not expired; all succeeded and nothing is left,
or the last one failed and is back in front of `behind`. -/
structure NodeFlushed (start stop : Nat) (queue : List MqttCommand) (tried : List Tried)
    (after : Option (List MqttCommand)) (looked : List (MqttCommand × Nat))
    (behind : List MqttCommand) : Prop where
  split : queue = looked.map Prod.fst ++ behind
  ordered : (looked.map Prod.snd).Pairwise (· ≤ ·)
  during : ∀ e ∈ looked, start ≤ e.2 ∧ e.2 ≤ stop
  unexpired : tried.map Tried.cmd = (looked.filter fun e => e.1.fresh (UInt32.ofNat e.2)).map Prod.fst
  result : (behind = [] ∧ after = none ∧ ∀ t ∈ tried, t.ok = true) ∨
    ∃ sent failed time back, tried = sent ++ [failed] ∧ (∀ t ∈ sent, t.ok = true) ∧
      failed.ok = false ∧ looked.getLast? = some (failed.cmd, time) ∧ time ≤ back ∧ back ≤ stop ∧
      after = some (failed.cmd.stamp (UInt32.ofNat back) :: behind)

/-- What `flushAllPending` promises. -/
structure FlushedAll (trySend : W → MqttCommand → Bool × W) (connected : NodeId → Bool)
    (clock : Nat → Nat) (s t : State W) : Prop where
  wf : t.pool.Wf
  once : t.visited.Nodup
  all : ∀ n, n ∈ t.visited ↔ s.pool.queueOf n ≠ []
  reached : ∀ n, connected n = true → s.pool.queueOf n ≠ [] → ∃ looked behind,
    NodeFlushed (clock 0) (clock t.calls) (s.pool.queueOf n) (triedFor n t.tried) (t.pool.lookup n)
      looked behind
  others : ∀ n, connected n = false ∨ s.pool.queueOf n = [] →
    t.pool.lookup n = s.pool.lookup n ∧ triedFor n t.tried = []
  answered : Answered trySend s.world t.tried t.world

section NodeFlushed

variable {start mid stop : Nat} {queue rest : List MqttCommand} {c : MqttCommand}

/-- What `pop` takes out in one call. -/
def taken (time : Nat) (queue : List MqttCommand) : List (MqttCommand × Nat) :=
  (expiredPrefix (UInt32.ofNat time) queue).map (·, time)

theorem filter_taken (time : Nat) (queue : List MqttCommand) :
    (taken time queue).filter (fun e => e.1.fresh (UInt32.ofNat e.2)) = [] := by
  rw [List.filter_eq_nil_iff]
  intro e he
  obtain ⟨d, hd, rfl⟩ := List.mem_map.mp he
  simp [fresh_of_mem_expiredPrefix hd]

theorem map_fst_taken (time : Nat) (queue : List MqttCommand) :
    (taken time queue).map Prod.fst = expiredPrefix (UInt32.ofNat time) queue := by
  simp [taken, Function.comp_def]

theorem snd_of_mem_taken {time : Nat} {e : MqttCommand × Nat} (he : e ∈ taken time queue) :
    e.2 = time := by
  obtain ⟨d, _, rfl⟩ := List.mem_map.mp he
  rfl

theorem NodeFlushed.drained (hstop : start ≤ stop)
    (hq : PendingPool.unexpired (UInt32.ofNat start) queue = []) :
    NodeFlushed start stop queue [] none (taken start queue) [] where
  split := by
    have h := expiredPrefix_append_unexpired (UInt32.ofNat start) queue
    rw [hq] at h
    rw [map_fst_taken, h]
  ordered := by
    rw [List.pairwise_map]
    apply List.pairwise_of_forall_mem_list
    intro a ha b hb
    rw [snd_of_mem_taken ha, snd_of_mem_taken hb]
  during e he := by rw [snd_of_mem_taken he]; exact ⟨le_rfl, hstop⟩
  unexpired := by rw [filter_taken]; rfl
  result := .inl ⟨rfl, rfl, by simp⟩

theorem NodeFlushed.failed (hmid : start ≤ mid) (hstop : mid ≤ stop) (nodeId : NodeId)
    (hq : PendingPool.unexpired (UInt32.ofNat start) queue = c :: rest) :
    NodeFlushed start stop queue [⟨nodeId, c, false⟩] (some (c.stamp (UInt32.ofNat mid) :: rest))
      (taken start queue ++ [(c, start)]) rest where
  split := by
    have h := expiredPrefix_append_unexpired (UInt32.ofNat start) queue
    rw [hq] at h
    simp [map_fst_taken, h]
  ordered := by
    rw [List.pairwise_map]
    apply List.pairwise_of_forall_mem_list
    have hall : ∀ e ∈ taken start queue ++ [(c, start)], e.2 = start := by
      intro e he
      rcases List.mem_append.mp he with he | he
      · exact snd_of_mem_taken he
      · rw [List.mem_singleton.mp he]
    intro a ha b hb
    rw [hall a ha, hall b hb]
  during e he := by
    rcases List.mem_append.mp he with he | he
    · rw [snd_of_mem_taken he]
      exact ⟨le_rfl, hmid.trans hstop⟩
    · rw [List.mem_singleton.mp he]
      exact ⟨le_rfl, hmid.trans hstop⟩
  unexpired := by simp [filter_taken, fresh_of_unexpired hq]
  result := .inr ⟨[], ⟨nodeId, c, false⟩, start, mid, rfl, by simp, rfl, by simp, hmid, hstop, rfl⟩

theorem NodeFlushed.sent {tried : List Tried} {after : Option (List MqttCommand)}
    {looked : List (MqttCommand × Nat)} {behind : List MqttCommand} (nodeId : NodeId)
    (hmid : start ≤ mid) (hstop : start ≤ stop)
    (hq : PendingPool.unexpired (UInt32.ofNat start) queue = c :: rest)
    (h : NodeFlushed mid stop rest tried after looked behind) :
    NodeFlushed start stop queue (⟨nodeId, c, true⟩ :: tried) after
      (taken start queue ++ (c, start) :: looked) behind where
  split := by
    have hq' := expiredPrefix_append_unexpired (UInt32.ofNat start) queue
    rw [hq, h.split] at hq'
    simp [map_fst_taken, hq']
  ordered := by
    have hlate : ∀ e ∈ looked, start ≤ e.2 := fun e he => hmid.trans (h.during e he).1
    have hordered := List.pairwise_map.mp h.ordered
    rw [List.pairwise_map, List.pairwise_append, List.pairwise_cons]
    refine ⟨?_, ⟨hlate, hordered⟩, ?_⟩
    · apply List.pairwise_of_forall_mem_list
      intro a ha b hb
      rw [snd_of_mem_taken ha, snd_of_mem_taken hb]
    · intro a ha b hb
      rw [snd_of_mem_taken ha]
      rcases List.mem_cons.mp hb with rfl | hb
      · exact le_rfl
      · exact hlate b hb
  during e he := by
    rcases List.mem_append.mp he with he | he
    · rw [snd_of_mem_taken he]
      exact ⟨le_rfl, hstop⟩
    · rcases List.mem_cons.mp he with rfl | he
      · exact ⟨le_rfl, hstop⟩
      · exact ⟨hmid.trans (h.during e he).1, (h.during e he).2⟩
  unexpired := by simp [filter_taken, fresh_of_unexpired hq, h.unexpired]
  result := by
    rcases h.result with ⟨hb, ha, hok⟩ | ⟨sent, failed, time, back, hs, hok, hf, hlast, hback, ha⟩
    · exact .inl ⟨hb, ha, by simpa using hok⟩
    · refine .inr ⟨⟨nodeId, c, true⟩ :: sent, failed, time, back, by rw [hs]; rfl, by simpa using hok,
        hf, ?_, hback, ha⟩
      simp [List.getLast?_cons, hlast]

end NodeFlushed

/-- Only the node's own slot is written, and it stays its slot while commands are popped. -/
theorem pop_slot {p : PendingPool} (hp : p.Wf) {n : NodeId} {i : Fin maxNodes}
    (hf : p.findSlot n = some i) (now : UInt32) :
    (∀ j, i ≠ j → (p.pop now n).2.slots.get j = p.slots.get j) ∧
      ((p.pop now n).1 ≠ none → (p.pop now n).2.findSlot n = some i) := by
  cases hr : popFresh now (p.slots.get i).queue.count (p.slots.get i).queue with
  | mk o q =>
      cases o with
      | none =>
          simp only [pop, hf, hr]
          exact ⟨fun j hj => get_setAt_of_ne _ _ hj, fun h => absurd rfl h⟩
      | some c =>
          simp only [pop, hf, hr]
          have hi := hp.findSlot_iff.mp hf
          refine ⟨fun j hj => get_setAt_of_ne _ _ hj, fun _ => ?_⟩
          rw [(update_setQueue hp hf q).wf.findSlot_iff, setQueue, get_setAt_self]
          exact hi

theorem pushFront_slot {p : PendingPool} {n : NodeId} {i : Fin maxNodes}
    (hf : p.findSlot n = some i) (now : UInt32) (cmd : MqttCommand) {j : Fin maxNodes} (hj : i ≠ j) :
    (p.pushFront now n cmd).2.slots.get j = p.slots.get j := by
  have hfc : p.findOrCreate n = some (i, p) := by
    simp only [findSlot] at hf
    simp only [findOrCreate, hf]
  cases ho : (p.slots.get i).queue.pushFrontUnsafe (cmd.stamp now) with
  | none => simp only [pushFront, insertWith, hfc, ho]
  | some q =>
      simp only [pushFront, insertWith, hfc, ho]
      exact get_setAt_of_ne _ _ hj

/-- What one run of the loop does to the node in slot `i`. -/
structure Drains (trySend : W → MqttCommand → Bool × W) (clock : Nat → Nat) (n : NodeId)
    (i : Fin maxNodes) (s t : State W) (tried : List Tried) : Prop where
  wf : t.pool.Wf
  slots : ∀ j, i ≠ j → t.pool.slots.get j = s.pool.slots.get j
  lookup : ∀ m, m ≠ n → t.pool.lookup m = s.pool.lookup m
  visited : t.visited = s.visited
  calls : s.calls ≤ t.calls
  log : t.tried = s.tried ++ tried
  own : ∀ e ∈ tried, e.nodeId = n
  answered : Answered trySend s.world tried t.world
  flushed : ∃ looked behind, NodeFlushed (clock s.calls) (clock t.calls) (s.pool.queueOf n) tried
    (t.pool.lookup n) looked behind

variable {trySend : W → MqttCommand → Bool × W} {connected : NodeId → Bool} {clock : Nat → Nat}

section Drains

variable {n : NodeId} {i : Fin maxNodes} {s : State W} {p : PendingPool} {c : MqttCommand}
  {rest : List MqttCommand}

theorem Drains.drained (hclock : Monotone clock)
    (hslots : ∀ j, i ≠ j → p.slots.get j = s.pool.slots.get j)
    (hq : unexpired (UInt32.ofNat (clock s.calls)) (s.pool.queueOf n) = [])
    (hu : Update s.pool n none p) :
    Drains trySend clock n i s { s with pool := p, calls := s.calls + 1 } [] where
  wf := hu.wf
  slots := hslots
  lookup m hm := by rw [hu.lookup, Function.update_of_ne hm]
  visited := rfl
  calls := Nat.le_succ _
  log := (List.append_nil _).symm
  own := by simp
  answered := rfl
  flushed := by
    have hle : clock s.calls ≤ clock (s.calls + 1) := hclock (Nat.le_succ _)
    rw [hu.lookup, Function.update_self]
    exact ⟨_, _, NodeFlushed.drained hle hq⟩

/-- A command is sent, and the loop goes on with the others. -/
theorem Drains.sent (hclock : Monotone clock) {w : W} {t : State W} {tried : List Tried}
    (hslots : ∀ j, i ≠ j → p.slots.get j = s.pool.slots.get j)
    (hq : unexpired (UInt32.ofNat (clock s.calls)) (s.pool.queueOf n) = c :: rest)
    (hu : Update s.pool n (some rest) p) (htry : trySend s.world c = (true, w))
    (h : Drains trySend clock n i { s with
      pool := p, world := w, calls := s.calls + 1, tried := s.tried ++ [⟨n, c, true⟩] } t tried) :
    Drains trySend clock n i s t (⟨n, c, true⟩ :: tried) where
  wf := h.wf
  slots j hj := (h.slots j hj).trans (hslots j hj)
  lookup m hm := by rw [h.lookup m hm, hu.lookup, Function.update_of_ne hm]
  visited := h.visited
  calls := (Nat.le_succ _).trans h.calls
  log := by simp [h.log]
  own := by simpa using h.own
  answered := by
    refine ⟨by rw [htry], ?_⟩
    rw [htry]
    exact h.answered
  flushed := by
    have hmid : clock s.calls ≤ clock (s.calls + 1) := hclock (Nat.le_succ _)
    have hstop : clock s.calls ≤ clock t.calls := hclock ((Nat.le_succ _).trans h.calls)
    obtain ⟨looked, behind, hflushed⟩ := h.flushed
    rw [hu.queueOf_self, Option.getD_some] at hflushed
    exact ⟨_, _, NodeFlushed.sent n hmid hstop hq hflushed⟩

/-- A command is not sent and goes back to the front. -/
theorem Drains.failed (hclock : Monotone clock) {w : W} {p' : PendingPool}
    (hslots : ∀ j, i ≠ j → p'.slots.get j = s.pool.slots.get j)
    (hq : unexpired (UInt32.ofNat (clock s.calls)) (s.pool.queueOf n) = c :: rest)
    (hu : Update s.pool n (some rest) p) (htry : trySend s.world c = (false, w))
    (hu' : Update p n (some (c.stamp (UInt32.ofNat (clock (s.calls + 1))) :: rest)) p') :
    Drains trySend clock n i s { s with
      pool := p', world := w, calls := s.calls + 2, tried := s.tried ++ [⟨n, c, false⟩] }
      [⟨n, c, false⟩] where
  wf := hu'.wf
  slots := hslots
  lookup m hm := by rw [hu'.lookup, Function.update_of_ne hm, hu.lookup, Function.update_of_ne hm]
  visited := rfl
  calls := Nat.le_add_right _ _
  log := rfl
  own := by simp
  answered := by
    rw [Answered, htry]
    exact ⟨rfl, rfl⟩
  flushed := by
    have hmid : clock s.calls ≤ clock (s.calls + 1) := hclock (Nat.le_succ _)
    have hstop : clock (s.calls + 1) ≤ clock (s.calls + 2) := hclock (Nat.le_succ _)
    rw [hu'.lookup, Function.update_self]
    exact ⟨_, _, NodeFlushed.failed hmid hstop n hq⟩

end Drains

theorem drain_spec (hclock : Monotone clock) {n : NodeId} {i : Fin maxNodes} {fuel : Nat} {s : State W}
    (hp : s.pool.Wf) (hf : s.pool.findSlot n = some i) (hfuel : (s.pool.queueOf n).length < fuel) :
    ∃ t tried, drain trySend clock n fuel s = some t ∧ Drains trySend clock n i s t tried := by
  induction fuel generalizing s with
  | zero => omega
  | succ fuel ih =>
      have hslot := pop_slot hp hf (UInt32.ofNat (clock s.calls))
      obtain ⟨_, hn⟩ | ⟨p, hr, hq, hu⟩ | ⟨c, rest, p, hr, hq, hu⟩ :=
        pop_cases hp (UInt32.ofNat (clock s.calls)) n
      · rw [PendingPool.lookup, hf] at hn
        cases hn
      · rw [hr] at hslot
        refine ⟨{ s with pool := p, calls := s.calls + 1 }, [], by simp only [drain, hr], ?_⟩
        exact .drained hclock hslot.1 hq hu
      · rw [hr] at hslot
        have hf' := hslot.2 (Option.some_ne_none c)
        have hrest : p.queueOf n = rest := by rw [hu.queueOf_self, Option.getD_some]
        have hlen := (unexpired_sublist (UInt32.ofNat (clock s.calls)) (s.pool.queueOf n)).length_le
        rw [hq, List.length_cons] at hlen
        cases htry : trySend s.world c with
        | mk ok w =>
            cases ok with
            | true =>
                obtain ⟨t, tried, hd, h⟩ := ih (s := { s with
                  pool := p, world := w, calls := s.calls + 1, tried := s.tried ++ [⟨n, c, true⟩] })
                  hu.wf hf' (by rw [hrest]; omega)
                refine ⟨t, ⟨n, c, true⟩ :: tried, by simp only [drain, hr, htry, hd], ?_⟩
                exact .sent hclock hslot.1 hq hu htry h
            | false =>
                obtain ⟨p', hpf, hu'⟩ :=
                  pushFront_of_popped hp hq hu (UInt32.ofNat (clock (s.calls + 1)))
                have hback := fun j (hj : i ≠ j) =>
                  (pushFront_slot hf' (UInt32.ofNat (clock (s.calls + 1))) c hj).trans (hslot.1 j hj)
                rw [hpf] at hback
                refine ⟨{ s with
                  pool := p'
                  world := w
                  calls := s.calls + 2
                  tried := s.tried ++ [⟨n, c, false⟩] }, [⟨n, c, false⟩],
                  by simp only [drain, hr, htry, hpf], ?_⟩
                exact .failed hclock hback hq hu htry hu'

theorem NodeFlushed.mono {start start' stop stop' : Nat} {queue : List MqttCommand} {tried : List Tried}
    {after : Option (List MqttCommand)} {looked : List (MqttCommand × Nat)} {behind : List MqttCommand}
    (hstart : start' ≤ start) (hstop : stop ≤ stop')
    (h : NodeFlushed start stop queue tried after looked behind) :
    NodeFlushed start' stop' queue tried after looked behind :=
  { h with
    during := fun e he => ⟨hstart.trans (h.during e he).1, (h.during e he).2.trans hstop⟩
    result := by
      rcases h.result with hdone | ⟨sent, failed, time, back, hs, hok, hf, hlast, hback, hle, ha⟩
      · exact .inl hdone
      · exact .inr ⟨sent, failed, time, back, hs, hok, hf, hlast, hback, hle.trans hstop, ha⟩ }

theorem Answered.append {w u v : W} {ts us : List Tried} (h : Answered trySend w ts u)
    (h' : Answered trySend u us v) : Answered trySend w (ts ++ us) v := by
  induction ts generalizing w with
  | nil =>
      obtain rfl : u = w := h
      exact h'
  | cons t ts ih => exact ⟨h.1, ih h.2⟩

theorem triedFor_append (n : NodeId) (ts us : List Tried) :
    triedFor n (ts ++ us) = triedFor n ts ++ triedFor n us :=
  List.filter_append ts us

theorem triedFor_of_own {n : NodeId} {ts : List Tried} (h : ∀ e ∈ ts, e.nodeId = n) (m : NodeId) :
    triedFor m ts = if m = n then ts else [] := by
  split_ifs with hm
  · apply List.filter_eq_self.mpr
    intro e he
    simpa [hm] using h e he
  · apply List.filter_eq_nil_iff.mpr
    intro e he
    have := h e he
    simp only [decide_eq_true_eq]
    exact fun hem => hm (hem.symm.trans this)

/-- Where the call stands when it goes on from slot `idx`: the slots behind it have been
visited and those from it on are as they were in the pool `p`. -/
structure Scanned (trySend : W → MqttCommand → Bool × W) (connected : NodeId → Bool) (clock : Nat → Nat)
    (p : PendingPool) (w : W) (idx : Nat) (s : State W) : Prop where
  wf : s.pool.Wf
  rest : ∀ j : Fin maxNodes, idx ≤ j.val → s.pool.slots.get j = p.slots.get j
  visited : ∀ n, n ∈ s.visited ↔
    ∃ j : Fin maxNodes, j.val < idx ∧ (p.slots.get j).hasWork = true ∧ (p.slots.get j).nodeId = n
  once : s.visited.Nodup
  others : ∀ n, n ∉ s.visited ∨ connected n = false →
    s.pool.lookup n = p.lookup n ∧ triedFor n s.tried = []
  reached : ∀ n ∈ s.visited, connected n = true → ∃ looked behind,
    NodeFlushed (clock 0) (clock s.calls) (p.queueOf n) (triedFor n s.tried) (s.pool.lookup n)
      looked behind
  answered : Answered trySend w s.tried s.world

theorem scanned_start {p : PendingPool} (hp : p.Wf) (w : W) :
    Scanned trySend connected clock p w 0 (.start p w) where
  wf := hp
  rest j _ := rfl
  visited n := by simp [State.start]
  once := List.nodup_nil
  others n _ := ⟨rfl, rfl⟩
  reached n hn := absurd hn List.not_mem_nil
  answered := rfl

section Visit

variable {p : PendingPool} {w : W} {idx next : Nat} {s : State W} {n : NodeId}

theorem Scanned.found (hp : p.Wf) (hs : Scanned trySend connected clock p w idx s)
    (hnext : s.pool.nextNode idx = some (n, next)) :
    ∃ i : Fin maxNodes, next = i.val + 1 ∧ idx ≤ i.val ∧ s.pool.findSlot n = some i ∧
      n ∉ s.visited ∧ (s.visited ++ [n]).Nodup ∧
      ∀ m, m ∈ s.visited ++ [n] ↔
        ∃ j : Fin maxNodes, j.val < next ∧ (p.slots.get j).hasWork = true ∧ (p.slots.get j).nodeId = m := by
  obtain ⟨i, hi, he⟩ := Option.map_eq_some_iff.mp hnext
  obtain ⟨rfl, rfl⟩ := Prod.mk.inj he
  obtain ⟨hle, hwork, hskip⟩ := of_firstFrom hi
  have hsame := hs.rest i hle
  have hnew : (s.pool.slots.get i).nodeId ∉ s.visited := by
    intro hmem
    obtain ⟨j, hj, hjw, hjn⟩ := (hs.visited _).mp hmem
    rw [hsame] at hjn hwork
    have hji := hp.distinct j i (hasWork_iff.mp hjw).1 (hasWork_iff.mp hwork).1 hjn
    rw [hji] at hj
    omega
  refine ⟨i, rfl, hle, hs.wf.findSlot_iff.mpr ⟨(hasWork_iff.mp hwork).1, rfl⟩, hnew, ?_, fun m => ?_⟩
  · rw [List.nodup_append]
    exact ⟨hs.once, List.nodup_singleton _, fun a ha b hb hab =>
      hnew (List.mem_singleton.mp hb ▸ hab ▸ ha)⟩
  · rw [List.mem_append, List.mem_singleton, hs.visited]
    constructor
    · rintro (⟨j, hj, hjw, hjn⟩ | rfl)
      · exact ⟨j, by omega, hjw, hjn⟩
      · exact ⟨i, Nat.lt_succ_self _, hsame ▸ hwork, by rw [hsame]⟩
    · rintro ⟨j, hj, hjw, hjn⟩
      by_cases hji : j = i
      · subst hji
        exact .inr (by rw [hsame, hjn])
      · left
        refine ⟨j, ?_, hjw, hjn⟩
        by_contra hge
        have hlt : j < i := lt_of_le_of_ne (Fin.le_def.mpr (by omega)) hji
        have := hskip j (by omega) hlt
        rw [hs.rest j (by omega), hjw] at this
        cases this

theorem Scanned.pass (hp : p.Wf) (hs : Scanned trySend connected clock p w idx s)
    (hnext : s.pool.nextNode idx = some (n, next)) (hc : connected n = false) :
    Scanned trySend connected clock p w next { s with visited := s.visited ++ [n] } := by
  obtain ⟨i, rfl, hle, hf, hnew, honce, hvisited⟩ := hs.found hp hnext
  exact { hs with
    rest := fun j hj => hs.rest j (by omega)
    visited := hvisited
    once := honce
    others := fun m hm => by
      apply hs.others m
      exact hm.imp_left fun h hin => h (List.mem_append_left _ hin)
    reached := fun m hm hcm => by
      rcases List.mem_append.mp hm with hm | hm
      · exact hs.reached m hm hcm
      · rw [List.mem_singleton.mp hm, hc] at hcm
        cases hcm }

theorem Scanned.flush (hclock : Monotone clock) (hp : p.Wf)
    (hs : Scanned trySend connected clock p w idx s)
    (hnext : s.pool.nextNode idx = some (n, next)) {i : Fin maxNodes} {t : State W} {tried : List Tried}
    (hi : s.pool.findSlot n = some i) (hc : connected n = true)
    (h : Drains trySend clock n i { s with visited := s.visited ++ [n] } t tried) :
    Scanned trySend connected clock p w next t := by
  obtain ⟨k, rfl, hle, hf, hnew, honce, hvisited⟩ := hs.found hp hnext
  obtain rfl : i = k := Option.some.inj (hi.symm.trans hf)
  have htried : ∀ m, triedFor m t.tried = triedFor m s.tried ++ if m = n then tried else [] := by
    intro m
    rw [h.log, triedFor_append, triedFor_of_own h.own]
  have hkept : ∀ m, m ≠ n → t.pool.lookup m = s.pool.lookup m ∧
      triedFor m t.tried = triedFor m s.tried := by
    intro m hm
    refine ⟨h.lookup m hm, ?_⟩
    rw [htried, if_neg hm, List.append_nil]
  have hold := hs.others n (.inl hnew)
  have hlog : t.visited = s.visited ++ [n] := h.visited
  rw [← hlog] at honce hvisited
  refine ⟨h.wf, fun j hj => ?_, hvisited, honce, fun m hm => ?_, fun m hm hcm => ?_,
    h.log ▸ hs.answered.append h.answered⟩
  · have hne : i ≠ j := fun he => by rw [he] at hj; omega
    exact (h.slots j hne).trans (hs.rest j (by omega))
  · have hmn : m ≠ n := by
      rintro rfl
      rcases hm with hm | hm
      · exact hm (hlog ▸ List.mem_append_right _ (List.mem_singleton_self _))
      · rw [hc] at hm
        cases hm
    rw [(hkept m hmn).1, (hkept m hmn).2]
    apply hs.others m
    exact hm.imp_left fun hm hin => hm (hlog ▸ List.mem_append_left _ hin)
  · by_cases hmn : m = n
    · subst hmn
      obtain ⟨looked, behind, hflushed⟩ := h.flushed
      have hq : s.pool.queueOf m = p.queueOf m := by rw [queueOf, hold.1, queueOf]
      refine ⟨looked, behind, ?_⟩
      rw [htried, if_pos rfl, hold.2, List.nil_append, ← hq]
      exact hflushed.mono (hclock (Nat.zero_le _)) le_rfl
    · have hin : m ∈ s.visited := by
        rw [hlog] at hm
        rcases List.mem_append.mp hm with hm | hm
        · exact hm
        · exact absurd (List.mem_singleton.mp hm) hmn
      obtain ⟨looked, behind, hflushed⟩ := hs.reached m hin hcm
      refine ⟨looked, behind, ?_⟩
      rw [(hkept m hmn).1, (hkept m hmn).2]
      exact hflushed.mono le_rfl (hclock h.calls)

theorem Scanned.finish (hp : p.Wf) (hs : Scanned trySend connected clock p w idx s)
    (hnone : s.pool.nextNode idx = none) :
    FlushedAll trySend connected clock (.start p w) s := by
  have hall : ∀ n, n ∈ s.visited ↔ p.queueOf n ≠ [] := by
    intro n
    rw [hs.visited]
    constructor
    · rintro ⟨j, _, hjw, rfl⟩
      have hw := hasWork_iff.mp hjw
      rw [hp.queueOf_nodeId hw.1]
      exact hw.2
    · intro hq
      cases hl : p.lookup n with
      | none => exact absurd (by rw [queueOf, hl, Option.getD_none]) hq
      | some l =>
          obtain ⟨j, hu, rfl, rfl⟩ := hp.lookup_iff.mp hl
          rw [hp.queueOf_nodeId hu] at hq
          have hw := hasWork_iff.mpr ⟨hu, hq⟩
          refine ⟨j, ?_, hw, rfl⟩
          by_contra hge
          have := firstFrom_eq_none.mp (Option.map_eq_none_iff.mp hnone) j (by omega)
          rw [hs.rest j (by omega), hw] at this
          cases this
  exact {
    wf := hs.wf
    once := hs.once
    all := hall
    reached := fun n hc hq => hs.reached n ((hall n).mpr hq) hc
    others := fun n hn => hs.others n (hn.symm.imp_left fun hq hin => (hall n).mp hin hq)
    answered := hs.answered }

end Visit

variable (trySend connected) in
theorem flushNodePending_spec (hclock : Monotone clock) {n : NodeId} {i : Fin maxNodes} {s : State W}
    (hp : s.pool.Wf) (hf : s.pool.findSlot n = some i) :
    (connected n = false ∧ flushNodePending trySend connected clock n s = some s) ∨
    (connected n = true ∧ ∃ t tried, flushNodePending trySend connected clock n s = some t ∧
      Drains trySend clock n i s t tried) := by
  cases hc : connected n with
  | false => exact .inl ⟨rfl, by rw [flushNodePending, hc]; rfl⟩
  | true =>
      have hlen : (s.pool.queueOf n).length < cmdPendingPerNode + 1 :=
        Nat.lt_succ_of_le (length_queueOf_le hp n)
      obtain ⟨t, tried, hd, h⟩ := drain_spec hclock hp hf hlen
      exact .inr ⟨rfl, t, tried, by rw [flushNodePending, hc, if_pos rfl, hd], h⟩

theorem scan_spec (hclock : Monotone clock) {p : PendingPool} {w : W} (hp : p.Wf) {fuel idx : Nat}
    {s : State W} (hs : Scanned trySend connected clock p w idx s) (hidx : idx ≤ maxNodes)
    (hfuel : maxNodes < idx + fuel) :
    ∃ t, scan trySend connected clock fuel idx s = some t ∧
      FlushedAll trySend connected clock (.start p w) t := by
  induction fuel generalizing idx s with
  | zero => omega
  | succ fuel ih =>
      cases hnext : s.pool.nextNode idx with
      | none => exact ⟨s, by simp only [scan, hnext], hs.finish hp hnext⟩
      | some r =>
          obtain ⟨n, next⟩ := r
          obtain ⟨i, rfl, hle, hf, _⟩ := hs.found hp hnext
          have hi : i.val + 1 ≤ maxNodes := i.isLt
          rcases flushNodePending_spec trySend connected hclock
            (s := { s with visited := s.visited ++ [n] }) hs.wf hf with ⟨hc, hr⟩ | ⟨hc, t, tried, hr, hd⟩
          · obtain ⟨t, ht, h⟩ := ih (hs.pass hp hnext hc) hi (by omega)
            exact ⟨t, by simp only [scan, hnext, hr, Option.bind_some, ht], h⟩
          · obtain ⟨u, hu, h⟩ := ih (hs.flush hclock hp hnext hf hc hd) hi (by omega)
            exact ⟨u, by simp only [scan, hnext, hr, Option.bind_some, hu], h⟩

theorem flushedAll_of_wf (trySend : W → MqttCommand → Bool × W) (connected : NodeId → Bool)
    (clock : Nat → Nat) (hclock : Monotone clock) {p : PendingPool} (hp : p.Wf) (w : W) :
    ∃ t, flushAllPending trySend connected clock (.start p w) = some t ∧
      FlushedAll trySend connected clock (.start p w) t :=
  scan_spec hclock hp (scanned_start hp w) (Nat.zero_le _) (by omega)

/-- The call ends, visits every node with work once and tries each connected one's
commands in order, up to the first failure. -/
theorem flushAllPending_spec (json : ArduinoJson) (s : HubState)
    (h : Reachable (step json) HubState.init s) (trySend : W → MqttCommand → Bool × W) (w : W)
    (connected : NodeId → Bool) (clock : Nat → Nat) (hclock : Monotone clock) :
    ∃ t, flushAllPending trySend connected clock (.start s.pool w) = some t ∧
      FlushedAll trySend connected clock (.start s.pool w) t :=
  flushedAll_of_wf trySend connected clock hclock (Reachable.inv h).wf w

/-- Two nodes wait and are connected, and every other attempt fails. -/
def twoNodes : List Action :=
  [testCommand 1, { testCommand 2 with target := strlcpy 18 "11:22:33:44:55:66".toList },
    testCommand 3].flatMap fun cmd => [.dispatch cmd, .send false, .push]

theorem flushAllPending_twoNodes : (stateAfter twoNodes).pool.totalPending = 3 ∧
    ∃ t, flushAllPending (fun (w : Bool) _ => (w, !w)) (fun _ => true) (fun i => i)
        (.start (stateAfter twoNodes).pool true) = some t ∧
      FlushedAll (fun (w : Bool) _ => (w, !w)) (fun _ => true) (fun i => i)
        (.start (stateAfter twoNodes).pool true) t := by
  refine ⟨by decide +kernel, ?_⟩
  apply flushAllPending_spec emptyObjectJson (stateAfter twoNodes) ⟨twoNodes, rfl⟩
  exact monotone_id

end FlushAll

end Tempio.Hub
