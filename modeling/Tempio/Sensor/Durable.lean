import Tempio.Lib.Transition
import Tempio.Sensor.Setup

namespace Tempio.Sensor

open Tempio.Lib.Transition Tempio.Protocol

/-- The interval of the last SET_INTERVAL if it was acknowledged, and no RESET_NODE came
after it. -/
def acknowledged (p : Peripheral) (before : Option UInt16) (val : List UInt8) : Option UInt16 :=
  match val with
  | [] => before
  | type :: _ =>
      if type = MsgType.setInterval.code then
        ((SetInterval.ofBytes val).map fun cmd =>
          if (p.onSetInterval cmd).notified = p.notified then none else some cmd.intervalSec).getD before
      else if type = MsgType.resetNode.code then
        ((ResetNode.ofBytes val).map fun _ => none).getD before
      else before

/-- A node over its wake cycles, with the interval it is bound to. -/
structure Wakes where
  node : Node
  acked : Option UInt16

namespace Wakes

def init (prefs : Option UInt16) : Wakes := ⟨Node.init prefs, none⟩

def ackedAfter (w : Wakes) : NodeAction → Option UInt16
  | .onWrite val => acknowledged w.node.peripheral w.acked val
  | _ => w.acked

end Wakes

def wakesStep (w : Wakes) (a : NodeAction) : Option Wakes :=
  (setupStep w.node a).map fun n => ⟨n, w.ackedAfter a⟩

/-- The acknowledged interval is the one in memory, the one that the timer was set to, and
the one that the next `begin` takes over. -/
structure Durable (w : Wakes) : Prop where
  memory : ∀ s, w.acked = some s → w.node.point ≠ .peripheralInit →
    w.node.peripheral.state.sleepInterval = clampInterval s
  timer : ∀ s, w.acked = some s → w.node.point = .asleep → w.node.timer = clampInterval s
  stored : ∀ s, w.acked = some s → w.node.peripheral.state.begin.sleepInterval = clampInterval s

/-- Between `state.end()` and the end of the BLE stack no SET_INTERVAL is acknowledged,
unless its interval is stored already. -/
def SavedInTime (w : Wakes) : NodeAction → Prop
  | .onWrite val => w.node.point = .deinit → ∀ s, acknowledged w.node.peripheral none val = some s →
      w.node.peripheral.state.begin.sleepInterval = clampInterval s
  | _ => True

/-- Where the storage is open. -/
def SetupPoint.opened : SetupPoint → Bool
  | .peripheralInit | .deinit | .sleep | .asleep => false
  | _ => true

structure Saved (w : Wakes) : Prop extends Durable w where
  opened : w.node.peripheral.state.opened = w.node.point.opened

/-- What a write does to the interval: a SET_INTERVAL sets it, a RESET_NODE restarts the
node, and everything else leaves it alone. -/
theorem onWrite_cases (p : Peripheral) (val : List UInt8) :
    (∃ cmd, p.onWrite val = p.onSetInterval cmd ∧ ∀ before, acknowledged p before val =
      if (p.onSetInterval cmd).notified = p.notified then none else some cmd.intervalSec) ∨
    (∃ cmd, p.onWrite val = p.onResetNode cmd ∧ ∀ before, acknowledged p before val = none) ∨
    ((p.onWrite val).state = p.state ∧ (p.onWrite val).restarted = p.restarted ∧
      ∀ before, acknowledged p before val = before) := by
  cases val with
  | nil => exact .inr (.inr ⟨rfl, rfl, fun _ => rfl⟩)
  | cons type rest =>
      simp only [Peripheral.onWrite, acknowledged]
      by_cases hready : type = MsgType.hubReady.code
      · subst hready
        exact .inr (.inr ⟨rfl, rfl, fun _ => rfl⟩)
      by_cases hset : type = MsgType.setInterval.code
      · simp only [if_neg hready, if_pos hset]
        cases hcmd : SetInterval.ofBytes (type :: rest) with
        | none => exact .inr (.inr ⟨rfl, rfl, fun _ => rfl⟩)
        | some cmd => exact .inl ⟨cmd, rfl, fun _ => rfl⟩
      by_cases hreset : type = MsgType.resetNode.code
      · simp only [if_neg hready, if_neg hset, if_pos hreset]
        cases hcmd : ResetNode.ofBytes (type :: rest) with
        | none => exact .inr (.inr ⟨rfl, rfl, fun _ => rfl⟩)
        | some cmd => exact .inr (.inl ⟨cmd, rfl, fun _ => rfl⟩)
      simp only [if_neg hready, if_neg hset, if_neg hreset]
      refine .inr (.inr ⟨?_, ?_, fun _ => trivial⟩)
      all_goals
        split_ifs
        · cases hcmd : TestCmd.ofBytes (type :: rest) with
          | none => rfl
          | some cmd =>
              simp only [Option.map_some, Option.getD_some, Peripheral.onTestCmd, Peripheral.notify]
              split_ifs <;> rfl
        · rfl

section

variable {n : Node} {acked : Option UInt16}

/-- A step that changes neither the interval nor the storage. -/
theorem Saved.keep (h : Saved ⟨n, acked⟩) {m : Node} (hstate : m.peripheral.state = n.peripheral.state)
    (hinit : n.point ≠ .peripheralInit) (hasleep : m.point ≠ .asleep)
    (hopen : m.point.opened = n.point.opened) : Saved ⟨m, acked⟩ where
  memory s hs _ := by
    rw [hstate]
    exact h.memory s hs hinit
  timer _ _ hp := absurd hp hasleep
  stored s hs := by
    rw [hstate]
    exact h.stored s hs
  opened := by
    rw [hstate, hopen]
    exact h.opened

theorem Saved.started (h : Saved ⟨n, acked⟩) :
    Saved ⟨{ n with peripheral := n.peripheral.blePeripheralInit, point := .waitConnect }, acked⟩ where
  memory s hs _ := h.stored s hs
  timer _ _ hp := by cases hp
  stored s hs := by
    rw [← h.stored s hs]
    exact NodeState.sleepInterval_begin_congr (NodeState.prefs_begin _)
  opened := NodeState.opened_begin _

/-- The memory starts afresh, and nothing but the stored interval is left. -/
theorem saved_boot {w : Option UInt16} (hstored : ∀ s, w = some s →
    n.peripheral.state.begin.sleepInterval = clampInterval s) : Saved ⟨n.boot, w⟩ where
  memory _ _ hp := absurd rfl hp
  timer _ _ hp := by cases hp
  stored s hs := by
    rw [← hstored s hs]
    exact NodeState.sleepInterval_begin_congr rfl
  opened := rfl

theorem opened_of_stackUp {q : SetupPoint} (hp : q.stackUp = true) : q = .deinit ∨ q.opened = true := by
  cases q with
  | peripheralInit | sleep | asleep => cases hp
  | deinit => exact .inl rfl
  | _ => exact .inr rfl

theorem saved_write {w : Option UInt16} {val : List UInt8} (hp : n.point.stackUp = true)
    (hmemory : ∀ s, w = some s → (n.peripheral.onWrite val).state.sleepInterval = clampInterval s)
    (hstored : ∀ s, w = some s → (n.peripheral.onWrite val).state.begin.sleepInterval = clampInterval s)
    (hopen : (n.peripheral.onWrite val).restarted = false →
      (n.peripheral.onWrite val).state.opened = n.point.opened) : Saved ⟨n.write val, w⟩ := by
  unfold Node.write
  split_ifs with hr
  · exact saved_boot hstored
  · exact {
      memory := fun s hs _ => hmemory s hs
      timer := fun s hs hasleep => by
        have hasleep : n.point = .asleep := hasleep
        rw [hasleep] at hp
        cases hp
      stored := hstored
      opened := hopen (Bool.eq_false_iff.mpr hr) }

theorem Saved.written (h : Saved ⟨n, acked⟩) {val : List UInt8} (hp : n.point.stackUp = true)
    (hg : SavedInTime ⟨n, acked⟩ (.onWrite val)) :
    Saved ⟨n.write val, acknowledged n.peripheral acked val⟩ := by
  rcases onWrite_cases n.peripheral val with ⟨cmd, hw, hacked⟩ | ⟨cmd, hw, hacked⟩ | ⟨hstate, _, hacked⟩
  · have hstate : (n.peripheral.onWrite val).state =
        n.peripheral.state.setSleepInterval cmd.intervalSec := by
      rw [hw, Peripheral.onSetInterval]
      split_ifs <;> rfl
    have hsec : ∀ s, acknowledged n.peripheral acked val = some s → s = cmd.intervalSec := by
      intro s hs
      rw [hacked] at hs
      split_ifs at hs
      exact (Option.some.inj hs).symm
    refine saved_write hp (fun s hs => ?_) (fun s hs => ?_) fun _ => ?_
    · rw [hstate, hsec s hs]
      rfl
    · rcases opened_of_stackUp hp with hdeinit | hopened
      · -- too late for the storage, so it must have been there before
        have hbefore := hg hdeinit s (by rw [hacked, ← hacked acked]; exact hs)
        rw [← hbefore]
        apply NodeState.sleepInterval_begin_congr
        rw [hstate]
        apply if_neg
        rw [h.opened, hdeinit]
        exact Bool.false_ne_true
      · rw [hstate, hsec s hs]
        exact NodeState.sleepInterval_begin_setSleepInterval (h.opened.trans hopened) _
    · rw [hstate]
      exact h.opened
  · refine saved_write hp (fun s hs => ?_) (fun s hs => ?_) fun hr => ?_
    · simp [hacked] at hs
    · simp [hacked] at hs
    · simp [hw, Peripheral.onResetNode] at hr
  · rw [hacked]
    refine saved_write hp (fun s hs => ?_) (fun s hs => ?_) fun _ => ?_
    · rw [hstate]
      apply h.memory s hs
      intro hinit
      rw [hinit] at hp
      cases hp
    · rw [hstate]
      exact h.stored s hs
    · rw [hstate]
      exact h.opened

theorem ackedAfter_of_waits {w : Wakes} {a : NodeAction} (ha : a.waits = true) :
    w.ackedAfter a = w.acked := by
  cases a <;> first | rfl | cases ha

theorem saved_moves {m : Node} {a : NodeAction} (h : Saved ⟨n, acked⟩)
    (hg : SavedInTime ⟨n, acked⟩ a) (hm : NodeMoves n a m) :
    Saved ⟨m, Wakes.ackedAfter ⟨n, acked⟩ a⟩ := by
  cases hm with
  | started hp => exact h.started
  | waiting _ ha hp => rwa [ackedAfter_of_waits ha]
  | connectSeen timedOut hp hc | ready timedOut hp hr | closing hp =>
      refine h.keep rfl ?_ ?_ ?_
      all_goals simp [hp, SetupPoint.opened]
  | gaveUp _ ha hp | closed _ ha hp =>
      rw [ackedAfter_of_waits ha]
      refine h.keep rfl ?_ ?_ ?_
      all_goals rcases hp with hp | hp <;> simp [hp, SetupPoint.opened]
  | sentNodeInfo hp =>
      refine h.keep (Peripheral.state_sendNodeInfo _) ?_ ?_ ?_
      all_goals simp [hp, SetupPoint.opened]
  | sentSensorData data hp =>
      refine h.keep (Peripheral.state_sendSensorData _ _) ?_ ?_ ?_
      all_goals simp [hp, SetupPoint.opened]
  | ended hp =>
      exact {
        memory := fun s hs _ => h.memory s hs (by simp [hp])
        timer := fun _ _ hasleep => by cases hasleep
        stored := fun s hs => by
          rw [← h.stored s hs]
          exact NodeState.sleepInterval_begin_congr rfl
        opened := rfl }
  | deinit hp =>
      refine h.keep rfl ?_ ?_ ?_
      all_goals simp [hp, SetupPoint.opened]
  | slept hp =>
      have hmemory : ∀ s, acked = some s → n.peripheral.state.sleepInterval = clampInterval s :=
        fun s hs => h.memory s hs (by simp [hp])
      exact {
        memory := fun s hs _ => hmemory s hs
        timer := fun s hs _ => hmemory s hs
        stored := h.stored
        opened := h.opened.trans (by simp [hp, SetupPoint.opened]) }
  | booted hp => exact saved_boot h.stored
  | connected hp | disconnected hp =>
      refine h.keep rfl (fun hq => ?_) (fun hq => ?_) rfl
      · rw [hq] at hp
        cases hp
      · rw [show n.point = .asleep from hq] at hp
        cases hp
  | written val hp hc => exact h.written hp hg

end

theorem saved_step {w v : Wakes} {a : NodeAction} (h : Saved w) (hg : SavedInTime w a)
    (hst : wakesStep w a = some v) : Saved v := by
  obtain ⟨n, hn, rfl⟩ := Option.map_eq_some_iff.mp hst
  exact saved_moves h hg (moves_of_setupStep hn)

theorem begin_write (n : Node) (val : List UInt8) :
    (n.write val).peripheral.state.begin.sleepInterval =
      (n.peripheral.onWrite val).state.begin.sleepInterval := by
  unfold Node.write
  split_ifs
  · exact NodeState.sleepInterval_begin_congr rfl
  · rfl

/-- A late SET_INTERVAL is acknowledged all the same. -/
theorem not_durable_of_late {w : Wakes} {a : NodeAction} (h : Saved w) (hg : ¬ SavedInTime w a) :
    ∃ v, wakesStep w a = some v ∧ ¬ Durable v := by
  obtain ⟨n, acked⟩ := w
  cases a with
  | onWrite val =>
      simp only [SavedInTime, not_forall] at hg
      obtain ⟨hdeinit, s, hs, hlost⟩ := hg
      rcases onWrite_cases n.peripheral val with ⟨cmd, hw, hacked⟩ | ⟨_, _, hacked⟩ | ⟨_, _, hacked⟩
      · rw [hacked] at hs
        split_ifs at hs with hsame
        have hconnected : n.peripheral.deviceConnected = true := by
          by_contra hdown
          apply hsame
          simp [Peripheral.onSetInterval, hdown, Peripheral.setInterval]
        refine ⟨⟨n.write val, acknowledged n.peripheral acked val⟩, ?_, fun hd => hlost ?_⟩
        · simp [wakesStep, setupStep, hdeinit, SetupPoint.stackUp, hconnected, Wakes.ackedAfter]
        · have hstored := hd.stored s (by rw [hacked, if_neg hsame]; exact hs)
          rw [begin_write] at hstored
          rw [← hstored]
          apply NodeState.sleepInterval_begin_congr
          have hclosed : n.peripheral.state.opened ≠ true := by
            rw [h.opened, hdeinit]
            exact Bool.false_ne_true
          rw [hw, Peripheral.onSetInterval]
          split_ifs
          · exact (if_neg hclosed).symm
          · exact (if_neg hclosed).symm
      · simp [hacked] at hs
      · simp [hacked] at hs
  | _ => exact absurd trivial hg

theorem saved_init (prefs : Option UInt16) : Saved (Wakes.init prefs) where
  memory _ hs := by cases hs
  timer _ hs := by cases hs
  stored _ hs := by cases hs
  opened := rfl

/-- An acknowledged interval is durable exactly in the runs in which no SET_INTERVAL is
acknowledged between `state.end()` and the end of the BLE stack, unless it is the stored one. -/
theorem always_durable_iff (prefs : Option UInt16) (as : List NodeAction) :
    Always wakesStep Durable (Wakes.init prefs) as ↔ Along wakesStep SavedInTime (Wakes.init prefs) as :=
  always_iff_along (fun _ _ _ => saved_step) (fun _ => Saved.toDurable)
    (fun _ _ => not_durable_of_late) (saved_init prefs)

/-- The hub does not end the connection in time, and the command comes when the storage is
closed already. -/
def lateWriteRun : List NodeAction :=
  [.peripheralInit, .onConnect, .waitConnect false, .onWrite hubReadyBytes, .waitHubReady false,
    .sendNodeInfo, .sendSensorData ⟨0, 0, 0, 0⟩, .disconnect, .waitDisconnect true, .endState,
    .onWrite (SetInterval.bytes ⟨7, 300⟩), .deinit, .sleep, .boot, .peripheralInit]

theorem lateWriteRun_forgets : ¬ Always wakesStep Durable (Wakes.init none) lateWriteRun := by
  intro h
  have hrun : (exec wakesStep (Wakes.init none) lateWriteRun).map
      (fun w => (w.acked, w.node.point, w.node.peripheral.state.sleepInterval)) =
      some (some 300, .waitConnect, 60) := by
    decide +kernel
  obtain ⟨w, hx, hw⟩ := Option.map_eq_some_iff.mp hrun
  simp only [Prod.mk.injEq] at hw
  obtain ⟨hacked, hpoint, hinterval⟩ := hw
  have hmemory := (h.at_end hx).memory 300 hacked (by simp [hpoint])
  rw [hinterval] at hmemory
  exact absurd hmemory (by decide)

end Tempio.Sensor
