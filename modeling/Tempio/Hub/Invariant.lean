import Tempio.Hub.Moves

namespace Tempio.Hub

open PendingPool

/-- What holds in every reachable state, whatever the radio and the clock do. -/
structure Inv (s : HubState) : Prop where
  wf : s.pool.Wf
  queued : ∀ n, ∀ c ∈ s.pool.queueOf n, c.target = n
  held : ∀ n, s.loop.heldFor = some n → ∀ c ∈ s.loop.held, c.target = n
  heldUsed : ∀ n, s.loop.heldFor = some n → s.pool.lookup n ≠ none
  known : ∀ c, (∃ n, c ∈ s.pool.queueOf n) ∨ c ∈ s.loop.held ∨ c ∈ s.mqtt.inFlight →
    ∃ e ∈ s.dispatched, e.2.origin = c.origin
  sentKnown : ∀ e ∈ s.transmitted, ∃ d ∈ s.dispatched, d.2.origin = e.2.origin
  serials : s.dispatched.map (fun d => d.2.serial) = List.range s.dispatched.length
  past : ∀ e ∈ s.dispatched, e.1 ≤ s.now

theorem queueOf_init (n : NodeId) : HubState.init.pool.queueOf n = [] := by
  cases h : HubState.init.pool.lookup n with
  | none => rw [queueOf, h, Option.getD_none]
  | some l =>
      obtain ⟨i, hi, _⟩ := wf_init.lookup_iff.mp h
      rw [slots_init] at hi
      exact absurd hi (by decide)

theorem inv_init : Inv HubState.init where
  wf := wf_init
  queued n c hc := by simp [queueOf_init] at hc
  held n h := by cases h
  heldUsed n h := by cases h
  known c h := by
    rcases h with ⟨n, hc⟩ | hc | hc
    · simp [queueOf_init] at hc
    · cases hc
    · cases hc
  sentKnown e he := absurd he List.not_mem_nil
  serials := rfl
  past e he := absurd he List.not_mem_nil

theorem Inv.serial_lt {s : HubState} (hs : Inv s) {c : MqttCommand}
    (h : ∃ d ∈ s.dispatched, d.2.origin = c.origin) : c.serial < s.dispatched.length := by
  obtain ⟨d, hd, ho⟩ := h
  have hm := List.mem_map_of_mem (f := fun d : Nat × MqttCommand => d.2.serial) hd
  rw [hs.serials, List.mem_range] at hm
  exact MqttCommand.serial_of_origin ho ▸ hm

theorem lookup_update_ne_none {p p' : PendingPool} {n m : NodeId} {l : List MqttCommand}
    (hu : Update p n (some l) p') (hm : p.lookup m ≠ none) : p'.lookup m ≠ none := by
  rw [hu.lookup]
  by_cases he : m = n
  · simp [he]
  · rwa [Function.update_of_ne he]

theorem mem_of_unexpired {now : UInt32} {l rest : List MqttCommand} {c d : MqttCommand}
    (hq : unexpired now l = c :: rest) (hd : d ∈ c :: rest) : d ∈ l :=
  (unexpired_sublist now l).subset (hq ▸ hd)

theorem Inv.known_update {s : HubState} (hs : Inv s) {p : PendingPool} {n : NodeId}
    {o : Option (List MqttCommand)} (hu : Update s.pool n o p)
    (ho : ∀ c ∈ o.getD [], ∃ e ∈ s.dispatched, e.2.origin = c.origin) :
    ∀ m, ∀ c ∈ p.queueOf m, ∃ e ∈ s.dispatched, e.2.origin = c.origin :=
  hu.forall_queueOf (fun m c hc => hs.known c (.inl ⟨m, hc⟩)) ho

theorem inv_step {json : ArduinoJson} {s t : HubState} {a : Action} (hs : Inv s)
    (h : step json s a = some t) : Inv t := by
  cases moves_of_step hs.wf h with
  | tick ms =>
      exact { hs with past := fun e he => Nat.le_add_right_of_le (hs.past e he) }
  | dispatch cmd hm ht =>
      refine { hs with
        known := fun c hc => ?_
        sentKnown := fun e he => ?_
        serials := by simp [hs.serials, List.range_succ]
        past := fun e he => ?_ }
      · rcases hc with hc | hc | hc
        · obtain ⟨e, he, ho⟩ := hs.known c (.inl hc)
          exact ⟨e, List.mem_append_left _ he, ho⟩
        · obtain ⟨e, he, ho⟩ := hs.known c (.inr (.inl hc))
          exact ⟨e, List.mem_append_left _ he, ho⟩
        · have hc := List.mem_singleton.mp hc
          exact ⟨_, List.mem_append_right _ (List.mem_singleton_self _), by rw [hc]⟩
      · obtain ⟨d, hd, ho⟩ := hs.sentKnown e he
        exact ⟨d, List.mem_append_left _ hd, ho⟩
      · rcases List.mem_append.mp he with he | he
        · exact hs.past e he
        · rw [List.mem_singleton.mp he]
  | sent link cmd hm hsend =>
      refine { hs with known := fun c hc => hs.known c ?_, sentKnown := fun e he => ?_ }
      · simp only [MqttTask.inFlight, List.not_mem_nil, or_false] at hc
        exact hc.imp_right Or.inl
      · rcases List.mem_append.mp he with he | he
        · exact hs.sentKnown e he
        · rw [List.mem_singleton.mp he]
          exact hs.known cmd (.inr (.inr (by simp [hm, MqttTask.inFlight])))
  | unsent link cmd hm hsend =>
      exact { hs with known := fun c hc => hs.known c (by simpa [MqttTask.inFlight, hm] using hc) }
  | pushed cmd p hm hr hu =>
      have hin : cmd ∈ s.mqtt.inFlight := by simp [hm, MqttTask.inFlight]
      refine { hs with
        wf := hu.wf
        queued := hu.forall_queueOf hs.queued fun c hc => ?_
        heldUsed := fun n hn => lookup_update_ne_none hu (hs.heldUsed n hn)
        known := fun c hc => ?_ }
      · rcases List.mem_append.mp hc with hc | hc
        · exact hs.queued _ c hc
        · rw [List.mem_singleton.mp hc, MqttCommand.stamp_target]
      · rcases hc with ⟨n, hc⟩ | hc | hc
        · refine hs.known_update hu (fun c hc => ?_) n c hc
          rcases List.mem_append.mp hc with hc | hc
          · exact hs.known c (.inl ⟨_, hc⟩)
          · rw [List.mem_singleton.mp hc, MqttCommand.origin_stamp]
            exact hs.known cmd (.inr (.inr hin))
        · exact hs.known c (.inr (.inl hc))
        · simp [MqttTask.inFlight] at hc
  | refused cmd hm hr =>
      refine { hs with known := fun c hc => hs.known c ?_ }
      simp only [MqttTask.inFlight, List.not_mem_nil, or_false] at hc
      exact hc.imp_right Or.inl
  | flushNode nodeId hl | flushAll hl | scanEnd idx hl hi | scanSkip idx hl hi hw
  | scanFound idx hl hi hw | connected nodeId resume hl =>
      refine { hs with held := ?_, heldUsed := ?_, known := fun c hc => hs.known c ?_ }
      · simp [LoopTask.heldFor]
      · simp [LoopTask.heldFor]
      · simp only [LoopTask.held, List.not_mem_nil, false_or] at hc
        exact hc.imp_right Or.inr
  | popped nodeId resume cmd rest p hl hq hu =>
      refine { hs with
        wf := hu.wf
        queued := hu.forall_queueOf hs.queued fun c hc => hs.queued _ c
          (mem_of_unexpired hq (List.mem_cons_of_mem _ hc))
        held := fun n hn c hc => ?_
        heldUsed := fun n hn => ?_
        known := fun c hc => ?_ }
      · cases hn
        rw [List.mem_singleton.mp hc]
        exact hs.queued _ cmd (mem_of_unexpired hq List.mem_cons_self)
      · cases hn
        rw [hu.lookup, Function.update_self]
        simp
      · rcases hc with ⟨n, hc⟩ | hc | hc
        · refine hs.known_update hu (fun c hc => ?_) n c hc
          exact hs.known c (.inl ⟨_, mem_of_unexpired hq (List.mem_cons_of_mem _ hc)⟩)
        · rw [List.mem_singleton.mp hc]
          exact hs.known cmd (.inl ⟨_, mem_of_unexpired hq List.mem_cons_self⟩)
        · exact hs.known c (.inr (.inr hc))
  | drained nodeId resume p hl hq hu =>
      refine { hs with
        wf := hu.wf
        queued := hu.forall_queueOf hs.queued fun c hc => by simp at hc
        held := by simp
        heldUsed := by simp
        known := fun c hc => ?_ }
      rcases hc with ⟨n, hc⟩ | hc | hc
      · exact hs.known_update hu (fun c hc => by simp at hc) n c hc
      · simp at hc
      · exact hs.known c (.inr (.inr hc))
  | resent link nodeId cmd resume hl hsend =>
      refine { hs with
        held := ?_, heldUsed := ?_, known := fun c hc => hs.known c ?_, sentKnown := fun e he => ?_ }
      · simp [LoopTask.heldFor]
      · simp [LoopTask.heldFor]
      · simp only [LoopTask.held, List.not_mem_nil, false_or] at hc
        exact hc.imp_right Or.inr
      · rcases List.mem_append.mp he with he | he
        · exact hs.sentKnown e he
        · rw [List.mem_singleton.mp he]
          exact hs.known cmd (.inr (.inl (by simp [hl, LoopTask.held])))
  | unresent link nodeId cmd resume hl hsend =>
      have hheld := hs.held
      have hused := hs.heldUsed
      have hknown := hs.known
      rw [hl] at hheld hused hknown
      exact { hs with held := hheld, heldUsed := hused, known := hknown }
  | putBack nodeId cmd resume p hl hr hu =>
      have hcmd : cmd.target = nodeId := hs.held nodeId (by simp [hl, LoopTask.heldFor]) cmd
        (by simp [hl, LoopTask.held])
      refine { hs with
        wf := hu.wf
        queued := hu.forall_queueOf hs.queued fun c hc => ?_
        held := by simp
        heldUsed := by simp
        known := fun c hc => ?_ }
      · rcases List.mem_cons.mp hc with rfl | hc
        · rw [MqttCommand.stamp_target, hcmd]
        · exact hs.queued _ c hc
      · rcases hc with ⟨n, hc⟩ | hc | hc
        · refine hs.known_update hu (fun c hc => ?_) n c hc
          rcases List.mem_cons.mp hc with rfl | hc
          · rw [MqttCommand.origin_stamp]
            exact hs.known cmd (.inr (.inl (by simp [hl, LoopTask.held])))
          · exact hs.known c (.inl ⟨_, hc⟩)
        · simp at hc
        · exact hs.known c (.inr (.inr hc))
  | notConnected nodeId resume hl | lost nodeId cmd resume hl hr =>
      refine { hs with held := by simp, heldUsed := by simp, known := fun c hc => hs.known c ?_ }
      simp only [LoopTask.held_returned, List.not_mem_nil, false_or] at hc
      exact hc.imp_right Or.inr

end Tempio.Hub
