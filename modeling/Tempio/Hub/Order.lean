import Mathlib.Data.List.Sort
import Tempio.Hub.Delivery

namespace Tempio.Hub

open PendingPool Tempio.Lib.Transition

theorem sublist_of_increasing {α : Type} (key : α → Nat) {l m : List α}
    (hl : l.Pairwise fun a b => key a < key b) (hm : m.Pairwise fun a b => key a < key b)
    (hs : l ⊆ m) : l.Sublist m := by
  have : Std.Antisymm fun a b : α => key a < key b := ⟨fun a b h h' => by omega⟩
  have : Std.Irrefl fun a b : α => key a < key b := ⟨fun a => Nat.lt_irrefl _⟩
  exact List.sublist_of_subperm_of_pairwise (List.subperm_of_subset hl.nodup hs) hl hm

variable {Addr : Type}

section

variable [DecidableEq Addr] (toAddr : NodeId → Addr)

def logFor (a : Addr) (log : List (Nat × MqttCommand)) : List MqttCommand :=
  ((log.map Prod.snd).filter fun c => toAddr c.target = a).map MqttCommand.origin

/-- Every node gets its commands in the order of their dispatch. -/
def InOrder (s : HubState) : Prop :=
  ∀ a, (logFor toAddr a s.transmitted).Sublist (logFor toAddr a s.dispatched)

def HubState.waiting (s : HubState) : List MqttCommand := s.pool.stored ++ s.loop.held

/-- A write that `dispatchCommand` does itself meets no older command for the
node that still waits, and a node's commands wait under one spelling of its address. -/
def KeepsOrder (json : ArduinoJson) (s : HubState) : Action → Prop
  | .send link =>
      match s.mqtt with
      | .sending cmd => trySend json (fun _ _ => link) cmd = true →
          ∀ c ∈ s.waiting, toAddr c.target ≠ toAddr cmd.target
      | _ => True
  | .push =>
      match s.mqtt with
      | .pushing cmd =>
          ∀ c ∈ s.waiting, toAddr c.target = toAddr cmd.target → c.target = cmd.target
      | _ => True
  | _ => True

end

instance [DecidableEq Addr] (toAddr : NodeId → Addr) (s : HubState) : Decidable (InOrder toAddr s) :=
  decidable_of_iff (∀ e ∈ s.transmitted,
      (logFor toAddr (toAddr e.2.target) s.transmitted).Sublist
        (logFor toAddr (toAddr e.2.target) s.dispatched)) <| by
    refine ⟨fun h a => ?_, fun h e _ => h _⟩
    by_cases hn : logFor toAddr a s.transmitted = []
    · rw [hn]
      exact List.nil_sublist _
    · obtain ⟨c, hc⟩ := List.exists_mem_of_ne_nil _ hn
      simp only [logFor, List.mem_map, List.mem_filter, decide_eq_true_eq] at hc
      obtain ⟨_, ⟨⟨e, he, rfl⟩, rfl⟩, _⟩ := hc
      exact h e he

instance [DecidableEq Addr] (toAddr : NodeId → Addr) (json : ArduinoJson) (s : HubState) :
    (a : Action) → Decidable (KeepsOrder toAddr json s a)
  | .send link =>
      match hm : s.mqtt with
      | .sending cmd => decidable_of_iff (trySend json (fun _ _ => link) cmd = true →
          ∀ c ∈ s.waiting, toAddr c.target ≠ toAddr cmd.target) (by simp only [KeepsOrder, hm])
      | .idle | .pushing _ => .isTrue (by simp only [KeepsOrder, hm])
  | .push =>
      match hm : s.mqtt with
      | .pushing cmd => decidable_of_iff (∀ c ∈ s.waiting,
          toAddr c.target = toAddr cmd.target → c.target = cmd.target) (by simp only [KeepsOrder, hm])
      | .idle | .sending _ => .isTrue (by simp only [KeepsOrder, hm])
  | .tick _ | .dispatch _ | .flushNode _ | .flushAll | .nextNode | .connected _ | .pop | .resend _
  | .pushFront => .isTrue trivial

/-- The serials that wait for a node: the one the loop task holds before those in its queue. -/
def HubState.line (s : HubState) (n : NodeId) : List Nat :=
  ((if s.loop.heldFor = some n then s.loop.held else []) ++ s.pool.queueOf n).map MqttCommand.serial

theorem mem_waiting {s : HubState} (hs : Inv s) {c : MqttCommand} :
    c ∈ s.waiting ↔ c ∈ s.loop.held ∨ ∃ n, c ∈ s.pool.queueOf n := by
  rw [HubState.waiting, List.mem_append, hs.wf.mem_stored, or_comm]

theorem mem_line {s : HubState} (hs : Inv s) {n : NodeId} {k : Nat} :
    k ∈ s.line n ↔ ∃ c ∈ s.waiting, c.target = n ∧ c.serial = k := by
  simp only [HubState.line, List.mem_map, List.mem_append, mem_waiting hs]
  constructor
  · rintro ⟨c, hc | hc, rfl⟩
    · split_ifs at hc with hn
      · exact ⟨c, .inl hc, hs.held n hn c hc, rfl⟩
      · exact absurd hc List.not_mem_nil
    · exact ⟨c, .inr ⟨n, hc⟩, hs.queued n c hc, rfl⟩
  · rintro ⟨c, hc | ⟨m, hc⟩, rfl, rfl⟩
    · refine ⟨c, .inl ?_, rfl⟩
      cases hl : s.loop with
      | sending nodeId cmd resume | puttingBack nodeId cmd resume =>
          have hf : s.loop.heldFor = some nodeId := by rw [hl]; rfl
          rw [← hl, hf, hs.held nodeId hf c hc, if_pos rfl]
          exact hc
      | _ => simp [hl, LoopTask.held] at hc
    · exact ⟨c, .inr (by rwa [hs.queued m c hc]), rfl⟩

theorem line_of_not_held {s : HubState} (h : s.loop.heldFor = none) (n : NodeId) :
    s.line n = (s.pool.queueOf n).map MqttCommand.serial := by
  simp [HubState.line, h]

/-- The queued path keeps the order: what waits for a node stands in the order of
dispatch, behind everything sent to it and before the command in flight. -/
structure Ordered (toAddr : NodeId → Addr) (s : HubState) : Prop extends Inv s where
  increasing : ∀ n, (s.line n).Pairwise (· < ·)
  latest : ∀ c ∈ s.mqtt.inFlight, ∀ n, ∀ k ∈ s.line n, k < c.serial
  latestSent : ∀ c ∈ s.mqtt.inFlight, ∀ e ∈ s.transmitted, e.2.serial < c.serial
  behind : ∀ e ∈ s.transmitted, ∀ n, toAddr n = toAddr e.2.target → ∀ k ∈ s.line n, e.2.serial < k
  sent : s.transmitted.Pairwise fun e f =>
    toAddr e.2.target = toAddr f.2.target → e.2.serial < f.2.serial
  oneName : ∀ n m, s.line n ≠ [] → s.line m ≠ [] → toAddr n = toAddr m → n = m

variable {toAddr : NodeId → Addr}

theorem ordered_init : Ordered toAddr HubState.init := by
  have hline : ∀ n, HubState.init.line n = [] := fun n => by
    rw [line_of_not_held rfl, queueOf_init, List.map_nil]
  exact {
    inv_init with
    increasing := fun n => hline n ▸ List.Pairwise.nil
    latest := fun c hc => absurd hc List.not_mem_nil
    latestSent := fun c hc => absurd hc List.not_mem_nil
    behind := fun e he => absurd he List.not_mem_nil
    sent := List.Pairwise.nil
    oneName := fun n m hn => absurd (hline n) hn }

theorem Ordered.line_lt {s : HubState} (hs : Ordered toAddr s) {n : NodeId} {k : Nat}
    (h : k ∈ s.line n) : k < s.dispatched.length := by
  obtain ⟨c, hc, _, rfl⟩ := (mem_line hs.toInv).mp h
  apply hs.serial_lt
  apply hs.known c
  rcases (mem_waiting hs.toInv).mp hc with hc | hc
  · exact .inr (.inl hc)
  · exact .inl hc

theorem Ordered.shrink {s t : HubState} (hs : Ordered toAddr s) (hi : Inv t)
    (hline : ∀ n, (t.line n).Sublist (s.line n)) (ht : t.transmitted = s.transmitted)
    (hm : t.mqtt.inFlight ⊆ s.mqtt.inFlight) :
    Ordered toAddr t where
  toInv := hi
  increasing n := (hs.increasing n).sublist (hline n)
  latest c hc n k hk := hs.latest c (hm hc) n k ((hline n).subset hk)
  latestSent c hc := ht ▸ hs.latestSent c (hm hc)
  behind e he n hn k hk := hs.behind e (ht ▸ he) n hn k ((hline n).subset hk)
  sent := ht ▸ hs.sent
  oneName n m hn hm := hs.oneName n m (fun h => hn (List.eq_nil_of_sublist_nil (h ▸ hline n)))
    (fun h => hm (List.eq_nil_of_sublist_nil (h ▸ hline m)))

theorem Ordered.shrink_line {s t : HubState} (hs : Ordered toAddr s) (hi : Inv t)
    (ht : t.transmitted = s.transmitted) (hm : t.mqtt = s.mqtt)
    (hline : ∀ n, (t.line n).Sublist (s.line n)) : Ordered toAddr t := by
  apply hs.shrink hi hline ht
  rw [hm]
  exact List.Subset.refl _

/-- The command in flight is written while nothing waits for its node. -/
theorem Ordered.write {s t : HubState} (hs : Ordered toAddr s) (hi : Inv t) {cmd : MqttCommand}
    {time : Nat} (hfly : cmd ∈ s.mqtt.inFlight) (hm : t.mqtt.inFlight = [])
    (ht : t.transmitted = s.transmitted ++ [(time, cmd)]) (hline : t.line = s.line)
    (hg : ∀ c ∈ s.waiting, toAddr c.target ≠ toAddr cmd.target) : Ordered toAddr t where
  toInv := hi
  increasing n := by
    rw [hline]
    exact hs.increasing n
  latest c hc := by simp [hm] at hc
  latestSent c hc := by simp [hm] at hc
  behind e he n hn k hk := by
    rw [hline] at hk
    rw [ht] at he
    rcases List.mem_append.mp he with he | he
    · exact hs.behind e he n hn k hk
    · rw [List.mem_singleton.mp he] at hn
      obtain ⟨c, hc, rfl, _⟩ := (mem_line hs.toInv).mp hk
      exact absurd hn (hg c hc)
  sent := by
    rw [ht]
    apply List.pairwise_append.mpr
    refine ⟨hs.sent, List.pairwise_singleton _ _, ?_⟩
    intro e he f hf _
    rw [List.mem_singleton.mp hf]
    exact hs.latestSent cmd hfly e he
  oneName := by
    rw [hline]
    exact hs.oneName

/-- The command in flight joins the line of its node. -/
theorem Ordered.join {s t : HubState} (hs : Ordered toAddr s) (hi : Inv t) {cmd : MqttCommand}
    (hfly : cmd ∈ s.mqtt.inFlight) (hm : t.mqtt.inFlight = []) (ht : t.transmitted = s.transmitted)
    (hself : t.line cmd.target = s.line cmd.target ++ [cmd.serial])
    (hother : ∀ n, n ≠ cmd.target → t.line n = s.line n)
    (hg : ∀ c ∈ s.waiting, toAddr c.target = toAddr cmd.target → c.target = cmd.target) :
    Ordered toAddr t := by
  have hname : ∀ n, s.line n ≠ [] → toAddr n = toAddr cmd.target → n = cmd.target := by
    intro n hn ha
    obtain ⟨k, hk⟩ := List.exists_mem_of_ne_nil _ hn
    obtain ⟨c, hc, rfl, _⟩ := (mem_line hs.toInv).mp hk
    exact hg c hc ha
  refine { hi with
    increasing := ?_, latest := ?_, latestSent := ?_, behind := ?_, sent := ht ▸ hs.sent, oneName := ?_ }
  · intro n
    by_cases hn : n = cmd.target
    · subst hn
      rw [hself]
      refine List.pairwise_append.mpr ⟨hs.increasing _, List.pairwise_singleton _ _, ?_⟩
      intro k hk j hj
      rw [List.mem_singleton.mp hj]
      exact hs.latest cmd hfly _ k hk
    · exact hother n hn ▸ hs.increasing n
  · intro c hc
    simp [hm] at hc
  · intro c hc
    simp [hm] at hc
  · intro e he n ha k hk
    rw [ht] at he
    by_cases hn : n = cmd.target
    · subst hn
      rcases List.mem_append.mp (hself ▸ hk) with hk | hk
      · exact hs.behind e he _ ha k hk
      · rw [List.mem_singleton.mp hk]
        exact hs.latestSent cmd hfly e he
    · exact hs.behind e he n ha k (hother n hn ▸ hk)
  · intro n m hn hm ha
    by_cases hnt : n = cmd.target
    · by_cases hmt : m = cmd.target
      · rw [hnt, hmt]
      · rw [hnt, hname m (hother m hmt ▸ hm) (hnt ▸ ha.symm)]
    · have hn := hother n hnt ▸ hn
      by_cases hmt : m = cmd.target
      · rw [hmt, hname n hn (hmt ▸ ha)]
      · exact hs.oneName n m hn (hother m hmt ▸ hm) ha

/-- The first command of a line is written. -/
theorem Ordered.leave {s t : HubState} (hs : Ordered toAddr s) (hi : Inv t) {cmd : MqttCommand}
    {time : Nat} (hm : t.mqtt = s.mqtt) (ht : t.transmitted = s.transmitted ++ [(time, cmd)])
    (hself : s.line cmd.target = cmd.serial :: t.line cmd.target)
    (hother : ∀ n, n ≠ cmd.target → t.line n = s.line n) : Ordered toAddr t := by
  have hsub : ∀ n, (t.line n).Sublist (s.line n) := by
    intro n
    by_cases hn : n = cmd.target
    · rw [hn, hself]
      exact List.sublist_cons_self _ _
    · rw [hother n hn]
  have hnil : ∀ n, t.line n ≠ [] → s.line n ≠ [] := by
    intro n hn h
    exact hn (List.eq_nil_of_sublist_nil (h ▸ hsub n))
  have hhead : cmd.serial ∈ s.line cmd.target := hself ▸ List.mem_cons_self
  refine { hi with
    increasing := ?_, latest := ?_, latestSent := ?_, behind := ?_, sent := ?_, oneName := ?_ }
  · exact fun n => (hs.increasing n).sublist (hsub n)
  · intro c hc n k hk
    exact hs.latest c (hm ▸ hc) n k ((hsub n).subset hk)
  · intro c hc e he
    rw [hm] at hc
    rcases List.mem_append.mp (ht ▸ he) with he | he
    · exact hs.latestSent c hc e he
    · rw [List.mem_singleton.mp he]
      exact hs.latest c hc _ _ hhead
  · intro e he n ha k hk
    rcases List.mem_append.mp (ht ▸ he) with he | he
    · exact hs.behind e he n ha k ((hsub n).subset hk)
    · -- the rest of the same line is all that waits for the node
      rw [List.mem_singleton.mp he] at ha ⊢
      have hn : n = cmd.target := hs.oneName n cmd.target
        (hnil n (List.ne_nil_of_mem hk)) (List.ne_nil_of_mem hhead) ha
      exact List.rel_of_pairwise_cons (hself ▸ hs.increasing cmd.target) (hn ▸ hk)
  · rw [ht]
    apply List.pairwise_append.mpr
    refine ⟨hs.sent, List.pairwise_singleton _ _, ?_⟩
    intro e he f hf ha
    rw [List.mem_singleton.mp hf] at ha ⊢
    exact hs.behind e he cmd.target ha.symm _ hhead
  · exact fun n m hn hm => hs.oneName n m (hnil n hn) (hnil m hm)

theorem ordered_step {json : ArduinoJson} (s : HubState) (a : Action) (t : HubState)
    (hs : Ordered toAddr s) (hg : KeepsOrder toAddr json s a) (h : step json s a = some t) :
    Ordered toAddr t := by
  have hi := inv_step hs.toInv h
  cases moves_of_step hs.wf h with
  | tick ms => exact hs.shrink_line hi rfl rfl fun n => List.Sublist.refl _
  | dispatch cmd hm ht =>
      refine { hi, hs with latest := ?_, latestSent := ?_ }
      · intro c hc n k hk
        rw [List.mem_singleton.mp hc]
        exact hs.line_lt hk
      · intro c hc e he
        rw [List.mem_singleton.mp hc]
        exact hs.serial_lt (hs.sentKnown e he)
  | sent link cmd hm hsend =>
      simp only [KeepsOrder, hm] at hg
      have hfly : cmd ∈ s.mqtt.inFlight := by simp [hm, MqttTask.inFlight]
      exact hs.write hi hfly rfl rfl rfl (hg hsend)
  | unsent link cmd hm hsend =>
      apply hs.shrink hi (fun n => List.Sublist.refl _) rfl
      rw [hm]
      exact List.Subset.refl _
  | pushed cmd p hm hr hu =>
      simp only [KeepsOrder, hm] at hg
      have hfly : cmd ∈ s.mqtt.inFlight := by simp [hm, MqttTask.inFlight]
      refine hs.join hi hfly rfl rfl ?_ ?_ hg
      · simp [HubState.line, hu.queueOf_self]
      · intro n hn
        simp [HubState.line, hu.queueOf_of_ne hn]
  | refused cmd hm hr =>
      exact hs.shrink hi (fun n => List.Sublist.refl _) rfl (List.nil_subset _)
  | flushNode nodeId hl | flushAll hl | scanEnd idx hl hx | scanSkip idx hl hx hw
  | scanFound idx hl hx hw | connected nodeId resume hl =>
      apply hs.shrink_line hi rfl rfl
      intro n
      rw [line_of_not_held (s := s) (by rw [hl]; rfl), line_of_not_held rfl]
  | notConnected nodeId resume hl =>
      apply hs.shrink_line hi rfl rfl
      intro n
      rw [line_of_not_held (s := s) (by rw [hl]; rfl), line_of_not_held (by simp)]
  | popped nodeId resume cmd rest p hl hq hu =>
      apply hs.shrink_line hi rfl rfl
      intro n
      rw [line_of_not_held (s := s) (by rw [hl]; rfl)]
      by_cases hn : n = nodeId
      · subst hn
        simp only [HubState.line, LoopTask.heldFor, LoopTask.held, if_true, hu.queueOf_self,
          Option.getD_some]
        exact (hq ▸ unexpired_sublist s.millis (s.pool.queueOf n)).map _
      · simp [HubState.line, LoopTask.heldFor, hu.queueOf_of_ne hn, Ne.symm hn]
  | drained nodeId resume p hl hq hu =>
      apply hs.shrink_line hi rfl rfl
      intro n
      rw [line_of_not_held (s := s) (by rw [hl]; rfl), line_of_not_held (by simp)]
      by_cases hn : n = nodeId
      · subst hn
        simp [hu.queueOf_self]
      · simp [hu.queueOf_of_ne hn]
  | resent link nodeId cmd resume hl hsend =>
      have hheld : cmd ∈ s.loop.held := by simp [hl, LoopTask.held]
      have htarget : cmd.target = nodeId := hs.held nodeId (by rw [hl]; rfl) cmd hheld
      refine hs.leave hi rfl rfl ?_ ?_
      · simp [HubState.line, hl, LoopTask.heldFor, LoopTask.held, htarget]
      · intro n hn
        simp [HubState.line, hl, LoopTask.heldFor, htarget ▸ Ne.symm hn]
  | unresent link nodeId cmd resume hl hsend =>
      apply hs.shrink_line hi rfl rfl
      intro n
      simp [HubState.line, hl, LoopTask.heldFor, LoopTask.held]
  | putBack nodeId cmd resume p hl hr hu =>
      apply hs.shrink_line hi rfl rfl
      intro n
      rw [line_of_not_held (by simp)]
      by_cases hn : n = nodeId
      · subst hn
        simp [HubState.line, hl, LoopTask.heldFor, LoopTask.held, hu.queueOf_self]
      · simp [HubState.line, hl, LoopTask.heldFor, hu.queueOf_of_ne hn, Ne.symm hn]
  | lost nodeId cmd resume hl hr =>
      apply hs.shrink_line hi rfl rfl
      intro n
      rw [line_of_not_held (by simp)]
      exact (List.sublist_append_right _ _).map _

theorem logFor_increasing [DecidableEq Addr] (a : Addr) {log : List (Nat × MqttCommand)}
    (h : log.Pairwise fun e f => toAddr e.2.target = toAddr f.2.target → e.2.serial < f.2.serial) :
    (logFor toAddr a log).Pairwise fun c d => c.serial < d.serial := by
  rw [logFor, List.pairwise_map, List.pairwise_filter, List.pairwise_map]
  refine h.imp fun {e f} hef he hf => hef ?_
  rw [of_decide_eq_true he, of_decide_eq_true hf]

theorem Ordered.inOrder [DecidableEq Addr] (s : HubState) (hs : Ordered toAddr s) :
    InOrder toAddr s := by
  intro a
  have hdisp : s.dispatched.Pairwise fun d e => d.2.serial < e.2.serial := by
    rw [← List.pairwise_map (f := fun d : Nat × MqttCommand => d.2.serial), hs.serials]
    exact List.pairwise_lt_range
  refine sublist_of_increasing MqttCommand.serial (logFor_increasing a hs.sent)
    (logFor_increasing a (hdisp.imp fun {d e} hde (_ : toAddr d.2.target = toAddr e.2.target) => hde))
    fun c hc => ?_
  simp only [logFor, List.mem_map, List.mem_filter, decide_eq_true_eq] at hc ⊢
  obtain ⟨_, ⟨⟨e, he, rfl⟩, ha⟩, rfl⟩ := hc
  obtain ⟨d, hd, ho⟩ := hs.sentKnown e he
  exact ⟨d.2, ⟨⟨d, hd, rfl⟩, MqttCommand.target_of_origin ho ▸ ha⟩, ho⟩

/-- The commands of every node are transmitted in the order of their dispatch, in
every run in which no direct write overtakes a waiting command. -/
theorem always_inOrder [DecidableEq Addr] (toAddr : NodeId → Addr) (json : ArduinoJson)
    (as : List Action) (h : Along (step json) (KeepsOrder toAddr json) HubState.init as) :
    Always (step json) (InOrder toAddr) HubState.init as :=
  always_of_along ordered_step Ordered.inOrder ordered_init h

def addressBytes (n : NodeId) : List Char := n.chars.map Char.toLower

def queuedRun : List Action :=
  failedDispatch 1 ++ failedDispatch 2 ++
    [.flushNode (testCommand 1).target, .connected true, .pop, .resend false, .pushFront] ++
    [.flushAll, .nextNode, .connected true, .pop, .resend true, .pop, .resend true, .pop] ++
    [.dispatch (testCommand 3), .send true]

theorem queuedRun_inOrder :
    (exec (step emptyObjectJson) HubState.init queuedRun).map
        (fun s => s.transmitted.map fun e => e.2.cmdId) = some [1, 2, 3] ∧
      Always (step emptyObjectJson) (InOrder addressBytes) HubState.init queuedRun :=
  ⟨by decide +kernel, always_inOrder addressBytes emptyObjectJson queuedRun (by decide +kernel)⟩

/-- The second command is written directly while the first one still waits. -/
def overtakingRun : List Action :=
  failedDispatch 1 ++ [.dispatch (testCommand 2), .send true] ++
    [.flushAll, .nextNode, .connected true, .pop, .resend true]

theorem overtakingRun_reorders :
    ¬ Always (step emptyObjectJson) (InOrder addressBytes) HubState.init overtakingRun := by
  decide +kernel

end Tempio.Hub
