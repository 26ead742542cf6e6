import Tempio.Hub.Delivery

namespace Tempio.Hub

open PendingPool Tempio.Lib.Transition

/-- The copies of a command that the hub has, on their way to the pool or in one of its places. -/
def HubState.copies (s : HubState) (c : MqttCommand) : Nat := occurrences c s.mqtt.inFlight + s.places c

/-- One copy at most, and none of a command that is still to be dispatched. -/
structure Single (s : HubState) (c : MqttCommand) : Prop where
  once : s.copies c ≤ 1
  unborn : s.dispatched.length ≤ c.serial → s.copies c = 0

/-- Only a dispatch makes a copy; a step that drops a command makes one less. -/
theorem copies_step {json : ArduinoJson} {s t : HubState} {a : Action} (hs : Inv s)
    (h : step json s a = some t) (c : MqttCommand) :
    (t.dispatched = s.dispatched ∧ t.copies c ≤ s.copies c) ∨ ∃ cmd : MqttCommand,
      cmd.serial = s.dispatched.length ∧ t.dispatched = s.dispatched ++ [(s.now, cmd)] ∧
        t.copies c = s.copies c + occurrences c [cmd] := by
  cases moves_of_step hs.wf h with
  | tick ms => exact .inl ⟨rfl, le_rfl⟩
  | dispatch cmd hm ht =>
      refine .inr ⟨_, rfl, rfl, ?_⟩
      simp only [HubState.copies, HubState.places, hm, MqttTask.inFlight, occurrences_nil]
      omega
  | sent link cmd hm hsend =>
      refine .inl ⟨rfl, ?_⟩
      simp only [HubState.copies, HubState.places, hm, MqttTask.inFlight, List.map_append, List.map_cons,
        List.map_nil, occurrences_append, occurrences_nil]
      omega
  | unsent link cmd hm hsend =>
      refine .inl ⟨rfl, ?_⟩
      simp only [HubState.copies, HubState.places, hm, MqttTask.inFlight, le_refl]
  | pushed cmd p hm hr hu =>
      have hp := occurrences_update hu c
      simp only [Option.getD_some, occurrences_append, occurrences_stamp] at hp
      refine .inl ⟨rfl, ?_⟩
      simp only [HubState.copies, HubState.places, hm, MqttTask.inFlight, occurrences_nil]
      omega
  | refused cmd hm hr =>
      refine .inl ⟨rfl, ?_⟩
      simp only [HubState.copies, HubState.places, hm, MqttTask.inFlight, occurrences_nil]
      omega
  | flushNode nodeId hl | flushAll hl | scanEnd idx hl hi | scanSkip idx hl hi hw
  | scanFound idx hl hi hw | connected nodeId resume hl | unresent link nodeId cmd resume hl hsend =>
      refine .inl ⟨rfl, ?_⟩
      simp only [HubState.copies, HubState.places, hl, LoopTask.held, le_refl]
  | notConnected nodeId resume hl =>
      refine .inl ⟨rfl, ?_⟩
      simp only [HubState.copies, HubState.places, LoopTask.held_returned, hl]
      exact le_rfl
  | popped nodeId resume cmd rest p hl hq hu =>
      have hp := occurrences_update hu c
      have he := occurrences_expired c s.millis (s.pool.queueOf nodeId)
      rw [hq, occurrences_cons] at he
      simp only [Option.getD_some] at hp
      refine .inl ⟨rfl, ?_⟩
      simp only [HubState.copies, HubState.places, hl, LoopTask.held, List.map_append, List.map_map,
        Function.comp_def, List.map_id_fun', id_eq, occurrences_append, occurrences_nil]
      omega
  | drained nodeId resume p hl hq hu =>
      have hp := occurrences_update hu c
      have he := occurrences_expired c s.millis (s.pool.queueOf nodeId)
      rw [hq, occurrences_nil] at he
      simp only [Option.getD_none, occurrences_nil] at hp
      refine .inl ⟨rfl, ?_⟩
      simp only [HubState.copies, HubState.places, LoopTask.held_returned, hl]
      simp only [LoopTask.held, List.map_append, List.map_map, Function.comp_def, List.map_id_fun', id_eq,
        occurrences_append, occurrences_nil]
      omega
  | resent link nodeId cmd resume hl hsend =>
      refine .inl ⟨rfl, ?_⟩
      simp only [HubState.copies, HubState.places, hl, LoopTask.held, List.map_append, List.map_cons,
        List.map_nil, occurrences_append, occurrences_nil]
      omega
  | putBack nodeId cmd resume p hl hr hu =>
      have hp := occurrences_update hu c
      rw [Option.getD_some, occurrences_cons, occurrences_stamp] at hp
      refine .inl ⟨rfl, ?_⟩
      simp only [HubState.copies, HubState.places, LoopTask.held_returned, hl]
      simp only [LoopTask.held, occurrences_nil]
      omega
  | lost nodeId cmd resume hl hr =>
      refine .inl ⟨rfl, ?_⟩
      simp only [HubState.copies, HubState.places, LoopTask.held_returned, hl]
      simp only [LoopTask.held, occurrences_nil]
      omega

theorem single_init (c : MqttCommand) : Single HubState.init c := by
  have hp : HubState.init.copies c = 0 := by
    rw [HubState.copies, HubState.places, stored_init]
    rfl
  exact ⟨hp.trans_le (Nat.zero_le 1), fun _ => hp⟩

theorem single_step {json : ArduinoJson} {s t : HubState} {a : Action} {c : MqttCommand}
    (hs : Inv s) (h1 : Single s c) (h : step json s a = some t) : Single t c := by
  obtain ⟨honce, hnew⟩ := h1
  rcases copies_step hs h c with ⟨hsame, hle⟩ | ⟨cmd, hserial, hmore, heq⟩
  · rw [← hsame] at hnew
    exact ⟨hle.trans honce, fun hu => Nat.le_zero.mp (hle.trans_eq (hnew hu))⟩
  · have hlen : t.dispatched.length = s.dispatched.length + 1 := by
      rw [hmore, List.length_append, List.length_singleton]
    by_cases hc : cmd.serial = c.serial
    · have hle := occurrences_singleton_le c cmd
      have h0 := hnew (by omega)
      exact ⟨by omega, fun hu => by omega⟩
    · have h0 := occurrences_other_serial hc
      exact ⟨by omega, fun hu => by omega⟩

/-- Whatever the pool refuses or drops, no command is transmitted twice, or transmitted and still kept or
discarded. -/
theorem always_atMostOnce (json : ArduinoJson) (as : List Action) :
    Always (step json) (fun s => ∀ c, s.copies c ≤ 1) HubState.init as :=
  always_of_invariant (I := fun s => Inv s ∧ ∀ c, Single s c)
    (fun _ _ _ hs h => ⟨inv_step hs.1 h, fun c => single_step hs.1 (hs.2 c) h⟩)
    (fun _ hs c => (hs.2 c).once) ⟨inv_init, single_init⟩

end Tempio.Hub
