import Tempio.Hub.Invariant

namespace Tempio.Hub

open PendingPool Tempio.Lib.Transition

def occurrences (c : MqttCommand) (l : List MqttCommand) : Nat :=
  l.countP fun d => d.origin = c.origin

/-- The four situations a command that the pool accepted can be in, counted together. -/
def HubState.places (s : HubState) (c : MqttCommand) : Nat :=
  occurrences c s.pool.stored + occurrences c s.loop.held +
    occurrences c (s.transmitted.map Prod.snd) + occurrences c (s.discarded.map Prod.snd)

/-- Every accepted command is in exactly one place, and only expired ones were discarded. -/
structure Accounted (s : HubState) : Prop where
  once : ∀ c ∈ s.accepted, s.places c = 1
  expired : ∀ e ∈ s.discarded, e.2.fresh (UInt32.ofNat e.1) = false

instance (s : HubState) : Decidable (Accounted s) :=
  decidable_of_iff ((∀ c ∈ s.accepted, s.places c = 1) ∧
    ∀ e ∈ s.discarded, e.2.fresh (UInt32.ofNat e.1) = false)
    ⟨fun h => ⟨h.1, h.2⟩, fun h => ⟨h.1, h.2⟩⟩

/-- When a failed command is put back, the esp_mqtt task has not filled the
queue of the node in the meantime. -/
def RoomToPutBack (s : HubState) : Action → Prop
  | .pushFront =>
      match s.loop with
      | .puttingBack nodeId _ _ => (s.pool.queueOf nodeId).length < cmdPendingPerNode
      | _ => True
  | _ => True

@[simp]
theorem occurrences_nil (c : MqttCommand) : occurrences c [] = 0 := rfl

@[simp]
theorem occurrences_append (c : MqttCommand) (l m : List MqttCommand) :
    occurrences c (l ++ m) = occurrences c l + occurrences c m :=
  List.countP_append

theorem occurrences_cons (c d : MqttCommand) (l : List MqttCommand) :
    occurrences c (d :: l) = occurrences c [d] + occurrences c l := by
  rw [← List.singleton_append, occurrences_append]

@[simp]
theorem occurrences_stamp (c d : MqttCommand) (now : UInt32) :
    occurrences c [d.stamp now] = occurrences c [d] :=
  rfl

theorem occurrences_singleton_le (c d : MqttCommand) : occurrences c [d] ≤ 1 :=
  List.countP_le_length

theorem occurrences_self (c : MqttCommand) : occurrences c [c] = 1 := by
  simp [occurrences]

theorem occurrences_pos_of_mem {c : MqttCommand} {l : List MqttCommand} (h : c ∈ l) :
    0 < occurrences c l :=
  List.countP_pos_iff.mpr ⟨c, h, by simp⟩

theorem occurrences_update {p p' : PendingPool} {n : NodeId} {o : Option (List MqttCommand)}
    (h : Update p n o p') (c : MqttCommand) :
    occurrences c p'.stored + occurrences c (p.queueOf n) =
      occurrences c p.stored + occurrences c (o.getD []) :=
  h.stored _

theorem occurrences_expired (c : MqttCommand) (now : UInt32) (l : List MqttCommand) :
    occurrences c (expiredPrefix now l) + occurrences c (unexpired now l) = occurrences c l := by
  rw [← occurrences_append, expiredPrefix_append_unexpired]

/-- The account of one command: from its dispatch on it is first in flight, then
accepted and in one place, or it never was accepted and the pool has no copy. -/
structure Balanced (s : HubState) (c : MqttCommand) : Prop where
  accepted : 0 < occurrences c s.accepted → s.places c = 1
  pooled : 0 < occurrences c s.pool.stored + occurrences c s.loop.held +
    occurrences c (s.discarded.map Prod.snd) → 0 < occurrences c s.accepted
  inFlight : 0 < occurrences c s.mqtt.inFlight → occurrences c s.accepted = 0 ∧ s.places c = 0
  unborn : s.dispatched.length ≤ c.serial →
    occurrences c s.accepted = 0 ∧ occurrences c s.mqtt.inFlight = 0 ∧ s.places c = 0

theorem occurrences_other_serial {c d : MqttCommand} (h : d.serial ≠ c.serial) :
    occurrences c [d] = 0 := by
  have : d.origin ≠ c.origin := fun ho => h (MqttCommand.serial_of_origin ho)
  simp [occurrences, this]

theorem stored_init : HubState.init.pool.stored = [] := by
  rw [List.eq_nil_iff_forall_not_mem]
  intro c hc
  obtain ⟨n, hc⟩ := wf_init.mem_stored.mp hc
  rw [show PendingPool.init.queueOf n = [] from queueOf_init n] at hc
  exact absurd hc List.not_mem_nil

theorem balanced_init (c : MqttCommand) : Balanced HubState.init c := by
  have hp : HubState.init.places c = 0 := by
    rw [HubState.places, stored_init]
    rfl
  refine ⟨fun h => absurd h (by simp [HubState.init]), fun h => ?_,
    fun h => absurd h (by simp [HubState.init, MqttTask.inFlight]), fun _ => ⟨rfl, rfl, hp⟩⟩
  rw [stored_init] at h
  exact absurd h (by simp [HubState.init, LoopTask.held])

theorem roomToPutBack_iff {s : HubState} (hs : Inv s) {nodeId : NodeId} {cmd : MqttCommand}
    {resume : Option Nat} (hl : s.loop = .puttingBack nodeId cmd resume) :
    RoomToPutBack s .pushFront ↔ ¬ s.pool.Refuses nodeId := by
  have hu := hs.heldUsed nodeId (by rw [hl]; rfl)
  simp only [RoomToPutBack, hl]
  cases hq : s.pool.lookup nodeId with
  | none => exact absurd hq hu
  | some l => simp [Refuses, queueOf, hq]

/-- One step moves a command from one place to the next, and only a refused
`pushFront` would drop it. -/
theorem balanced_step {json : ArduinoJson} {s t : HubState} {a : Action} {c : MqttCommand}
    (hs : Inv s) (hb : Balanced s c) (hg : RoomToPutBack s a) (h : step json s a = some t) :
    Balanced t c := by
  obtain ⟨hacc, hpool, hfly, hnew⟩ := hb
  simp only [HubState.places] at hacc hpool hfly hnew
  cases moves_of_step hs.wf h with
  | tick ms => exact ⟨hacc, hpool, hfly, hnew⟩
  | dispatch cmd hm ht =>
      simp only [hm, MqttTask.inFlight, occurrences_nil, true_and] at hfly hnew
      by_cases hk : s.dispatched.length = c.serial
      · have h0 := hnew (by omega)
        refine ⟨?_, ?_, ?_, ?_⟩ <;>
          simp only [HubState.places, MqttTask.inFlight, List.length_append, List.length_singleton]
        all_goals omega
      · have h0 : occurrences c [{ cmd with serial := s.dispatched.length }] = 0 :=
          occurrences_other_serial hk
        refine ⟨?_, ?_, ?_, ?_⟩ <;>
          simp only [HubState.places, MqttTask.inFlight, List.length_append, List.length_singleton,
            h0, true_and]
        all_goals omega
  | sent link cmd hm hsend =>
      simp only [hm, MqttTask.inFlight] at hfly hnew
      have hle := occurrences_singleton_le c cmd
      refine ⟨?_, ?_, ?_, ?_⟩ <;>
        simp only [HubState.places, MqttTask.inFlight, List.map_append, List.map_cons, List.map_nil,
          occurrences_append, occurrences_nil, true_and]
      all_goals omega
  | unsent link cmd hm hsend =>
      simp only [hm, MqttTask.inFlight] at hfly hnew
      exact ⟨hacc, hpool, hfly, hnew⟩
  | pushed cmd p hm hr hu =>
      simp only [hm, MqttTask.inFlight] at hfly hnew
      have hle := occurrences_singleton_le c cmd
      have hp := occurrences_update hu c
      simp only [Option.getD_some, occurrences_append, occurrences_stamp] at hp
      refine ⟨?_, ?_, ?_, ?_⟩ <;>
        simp only [HubState.places, MqttTask.inFlight, occurrences_append, occurrences_nil, true_and]
      all_goals omega
  | refused cmd hm hr =>
      simp only [hm, MqttTask.inFlight] at hfly hnew
      refine ⟨hacc, hpool, ?_, ?_⟩ <;>
        simp only [HubState.places, MqttTask.inFlight, occurrences_nil, true_and]
      all_goals omega
  | flushNode nodeId hl | flushAll hl | scanEnd idx hl hi | scanSkip idx hl hi hw
  | scanFound idx hl hi hw | connected nodeId resume hl =>
      rw [hl] at hacc hpool hfly hnew
      exact ⟨hacc, hpool, hfly, hnew⟩
  | notConnected nodeId resume hl =>
      rw [hl] at hacc hpool hfly hnew
      simp only [LoopTask.held] at hacc hpool hfly hnew
      refine ⟨?_, ?_, ?_, ?_⟩ <;> simp only [HubState.places, LoopTask.held_returned]
      · exact hacc
      · exact hpool
      · exact hfly
      · exact hnew
  | popped nodeId resume cmd rest p hl hq hu =>
      have hp := occurrences_update hu c
      have he := occurrences_expired c s.millis (s.pool.queueOf nodeId)
      rw [hq, occurrences_cons] at he
      simp only [Option.getD_some] at hp
      simp only [hl, LoopTask.held, occurrences_nil] at hacc hpool hfly hnew
      refine ⟨?_, ?_, ?_, ?_⟩ <;>
        simp only [HubState.places, LoopTask.held, List.map_append, List.map_map, Function.comp_def,
          List.map_id_fun', id_eq, occurrences_append]
      all_goals omega
  | drained nodeId resume p hl hq hu =>
      have hp := occurrences_update hu c
      have he := occurrences_expired c s.millis (s.pool.queueOf nodeId)
      rw [hq, occurrences_nil] at he
      simp only [Option.getD_none, occurrences_nil] at hp
      simp only [hl, LoopTask.held, occurrences_nil] at hacc hpool hfly hnew
      refine ⟨?_, ?_, ?_, ?_⟩ <;>
        simp only [HubState.places, LoopTask.held_returned, List.map_append, List.map_map,
          Function.comp_def, List.map_id_fun', id_eq, occurrences_append, occurrences_nil]
      all_goals omega
  | resent link nodeId cmd resume hl hsend =>
      simp only [hl, LoopTask.held] at hacc hpool hfly hnew
      refine ⟨?_, ?_, ?_, ?_⟩ <;>
        simp only [HubState.places, LoopTask.held, List.map_append, List.map_cons, List.map_nil,
          occurrences_append, occurrences_nil]
      all_goals omega
  | unresent link nodeId cmd resume hl hsend =>
      rw [hl] at hacc hpool hfly hnew
      exact ⟨hacc, hpool, hfly, hnew⟩
  | putBack nodeId cmd resume p hl hr hu =>
      have hp := occurrences_update hu c
      rw [Option.getD_some, occurrences_cons, occurrences_stamp] at hp
      simp only [hl, LoopTask.held] at hacc hpool hfly hnew
      refine ⟨?_, ?_, ?_, ?_⟩ <;>
        simp only [HubState.places, LoopTask.held_returned, occurrences_nil]
      all_goals omega
  | lost nodeId cmd resume hl hr => exact absurd hr ((roomToPutBack_iff hs hl).mp hg)

theorem fresh_of_mem_expiredPrefix {now : UInt32} {l : List MqttCommand} {c : MqttCommand}
    (h : c ∈ expiredPrefix now l) : c.fresh now = false := by
  simpa using List.mem_takeWhile_imp h

theorem expired_step {json : ArduinoJson} {s t : HubState} {a : Action} (hs : Inv s)
    (hd : ∀ e ∈ s.discarded, e.2.fresh (UInt32.ofNat e.1) = false) (h : step json s a = some t) :
    ∀ e ∈ t.discarded, e.2.fresh (UInt32.ofNat e.1) = false := by
  have hdrop : ∀ nodeId, ∀ e ∈ s.discarded ++
      (expiredPrefix s.millis (s.pool.queueOf nodeId)).map (Prod.mk s.now),
      e.2.fresh (UInt32.ofNat e.1) = false := by
    intro nodeId e he
    rcases List.mem_append.mp he with he | he
    · exact hd e he
    · obtain ⟨c, hc, rfl⟩ := List.mem_map.mp he
      exact fresh_of_mem_expiredPrefix hc
  cases moves_of_step hs.wf h with
  | popped nodeId resume cmd rest p hl hq hu => exact hdrop nodeId
  | drained nodeId resume p hl hq hu => exact hdrop nodeId
  | _ => exact hd

/-- The invariant of the runs in which a failed command can always be put back. -/
structure Delivers (s : HubState) : Prop extends Inv s where
  balanced : ∀ c, Balanced s c
  expired : ∀ e ∈ s.discarded, e.2.fresh (UInt32.ofNat e.1) = false

theorem delivers_init : Delivers HubState.init where
  toInv := inv_init
  balanced := balanced_init
  expired e he := by simp [HubState.init] at he

theorem delivers_step {json : ArduinoJson} (s : HubState) (a : Action) (t : HubState)
    (hs : Delivers s) (hg : RoomToPutBack s a) (h : step json s a = some t) : Delivers t where
  toInv := inv_step hs.toInv h
  balanced c := balanced_step hs.toInv (hs.balanced c) hg h
  expired := expired_step hs.toInv hs.expired h

theorem Delivers.accounted (s : HubState) (hs : Delivers s) : Accounted s where
  once c hc := (hs.balanced c).accepted (occurrences_pos_of_mem hc)
  expired := hs.expired

theorem lost_of_refused {json : ArduinoJson} (s : HubState) (a : Action) (hs : Delivers s)
    (hg : ¬ RoomToPutBack s a) : ∃ t, step json s a = some t ∧ ¬ Accounted t := by
  cases a with
  | pushFront =>
      cases hl : s.loop with
      | puttingBack nodeId cmd resume =>
          rw [roomToPutBack_iff hs.toInv hl, not_not] at hg
          obtain ⟨p, _, hr, _⟩ | ⟨hf, _⟩ := pushFront_cases hs.wf s.millis nodeId cmd
          · exact absurd hg hr
          · have hb := hs.balanced cmd
            have hself := occurrences_self cmd
            have hacc : 0 < occurrences cmd s.accepted := hb.pooled (by
              simp only [hl, LoopTask.held]
              omega)
            have hone := hb.accepted hacc
            refine ⟨_, by simp only [step, hl, hf]; rfl, fun hA => ?_⟩
            obtain ⟨d, hd, hdo⟩ := List.countP_pos_iff.mp hacc
            have hzero := hA.once d hd
            have hsame : d.origin = cmd.origin := by simpa using hdo
            simp only [HubState.places, LoopTask.held_returned, occurrences, hsame] at hzero
            simp only [HubState.places, hl, LoopTask.held, occurrences] at hone hself
            simp only [List.countP_nil] at hzero
            omega
      | _ => simp [RoomToPutBack, hl] at hg
  | _ => exact absurd trivial hg

/-- No accepted command is lost or duplicated in a run exactly when there is
always room for the commands that the loop task puts back. -/
theorem always_accounted_iff (json : ArduinoJson) (as : List Action) :
    Always (step json) Accounted HubState.init as ↔
      Along (step json) RoomToPutBack HubState.init as :=
  always_iff_along delivers_step Delivers.accounted lost_of_refused delivers_init

def emptyObjectJson : ArduinoJson := .ofDocuments [.obj []]

def testCommand (cmdId : UInt16) : MqttCommand :=
  ⟨strlcpy 18 "aa:bb:cc:dd:ee:ff".toList, strlcpy 16 "TEST".toList, "{}".toList, cmdId, 0, 0⟩

def failedDispatch (cmdId : UInt16) : List Action := [.dispatch (testCommand cmdId), .send false, .push]

/-- While the loop task holds the first of four commands, a fifth one takes its place. -/
def refilledQueueRun : List Action :=
  [1, 2, 3, 4].flatMap failedDispatch ++
    [.flushNode (testCommand 1).target, .connected true, .pop] ++ failedDispatch 5 ++
    [.resend false, .pushFront]

theorem refilledQueueRun_loses :
    ¬ Always (step emptyObjectJson) Accounted HubState.init refilledQueueRun := by
  decide +kernel

end Tempio.Hub
