import Tempio.Lib.Transition
import Tempio.Lib.Words
import Tempio.Sensor.Setup

namespace Tempio.Sensor

open Tempio.Lib.Words Tempio.Lib.Transition

/-- A node with its clock, in milliseconds since `setup` began. `start` is what the wait that goes on
has read first, and `ready` the end of the last `delay` of `setup`. -/
structure TimedNode where
  node : Node
  now : Nat
  start : Option Nat
  ready : Nat

structure TimedAction where
  action : NodeAction
  time : Nat

def NodeAction.isCallback : NodeAction → Bool
  | .onConnect | .onDisconnect | .onWrite _ => true
  | _ => false

/-- What a pass of a wait has found out from the clock. -/
def NodeAction.timedOut : NodeAction → Option Bool
  | .waitConnect timedOut | .waitHubReady timedOut | .waitDisconnect timedOut => some timedOut
  | _ => none

def SetupPoint.timeoutMs : SetupPoint → UInt32
  | .waitConnect => 5000
  | .waitHubReady => 3000
  | .waitDisconnect => 500
  | _ => 0

/-- The `delay` that follows a call of `setup`. -/
def NodeAction.delayMs : NodeAction → Nat
  | .sendNodeInfo => 100
  | .sendSensorData _ => 500
  | .deinit => 50
  | _ => 0

namespace TimedNode

/-- `setup` begins with a delay. -/
def boot (node : Node) : TimedNode := ⟨node, 0, none, 100⟩

/-- The test of a wait, on a clock of 32 bits. -/
def isLate (n : TimedNode) (time : Nat) : Bool :=
  n.node.point.timeoutMs ≤ UInt32.ofNat time - UInt32.ofNat (n.start.getD time)

/-- A pass of a wait that does not end it is followed by a delay of its own. -/
def call (n : TimedNode) (a : NodeAction) (time : Nat) (node : Node) : TimedNode :=
  if a.timedOut.isSome ∧ node.point = n.node.point then
    ⟨node, time, some (n.start.getD time), time + 10⟩
  else ⟨node, time, none, time + a.delayMs⟩

def after (n : TimedNode) (a : NodeAction) (time : Nat) (node : Node) : TimedNode :=
  match a with
  | .boot => boot node
  | .onWrite val =>
      if (n.node.peripheral.onWrite val).restarted then boot node else { n with node := node, now := time }
  | .onConnect | .onDisconnect => { n with node := node, now := time }
  | _ => n.call a time node

end TimedNode

/-- `setupStep` with the clock deciding what times out. The callbacks do not wait for a delay. -/
def timedStep (n : TimedNode) (a : TimedAction) : Option TimedNode :=
  if n.now ≤ a.time ∧ (a.action.isCallback = true ∨ n.ready ≤ a.time) ∧
      ∀ timedOut ∈ a.action.timedOut, timedOut = n.isLate a.time then
    (setupStep n.node a.action).map (n.after a.action a.time)
  else none

/-- No call of `setup` takes longer than `slack`. -/
def Prompt (slack : Nat) (n : TimedNode) (a : TimedAction) : Prop :=
  n.node.point = .asleep ∨ a.time ≤ n.ready + slack

instance decidablePrompt (slack : Nat) (n : TimedNode) (a : TimedAction) : Decidable (Prompt slack n a) :=
  inferInstanceAs (Decidable (_ ∨ _))

/-- When `setup` comes to a call at the latest. -/
def SetupPoint.latest (slack : Nat) : SetupPoint → Nat
  | .peripheralInit => 100
  | .waitConnect => 100 + slack
  | .waitHubReady => 5109 + 3 * slack
  | .sendNodeInfo => 8118 + 5 * slack
  | .sendSensorData => 8218 + 6 * slack
  | .disconnect => 8718 + 7 * slack
  | .waitDisconnect => 8718 + 8 * slack
  | .endState => 9227 + 10 * slack
  | .deinit => 9227 + 11 * slack
  | .sleep => 9277 + 12 * slack
  | .asleep => 9277 + 13 * slack

structure TimedNode.OnTime (slack : Nat) (n : TimedNode) : Prop where
  now : n.now ≤ n.ready + slack
  asleep : n.node.point = .asleep → n.now ≤ SetupPoint.latest slack .asleep
  entered : n.start = none → n.ready ≤ n.node.point.latest slack
  waits : n.start ≠ none → n.node.point.timeoutMs ≠ 0
  waited : ∀ s ∈ n.start, s ≤ n.node.point.latest slack + slack ∧
    n.ready ≤ s + n.node.point.timeoutMs.toNat + 9 ∧ s ≤ n.now

section

variable {slack : Nat} {n : TimedNode} {a : NodeAction} {time : Nat} {node : Node}

theorem TimedNode.onTime_boot (slack : Nat) (hnode : node.point = .peripheralInit) :
    (boot node).OnTime slack where
  now := Nat.zero_le _
  asleep h := by simp [boot, hnode] at h
  entered _ := by simp [boot, hnode, SetupPoint.latest]
  waits h := absurd rfl h
  waited s hs := by cases hs

theorem SetupPoint.timeoutMs_le (p : SetupPoint) : p.timeoutMs.toNat ≤ 5000 := by
  cases p <;> decide

/-- The clock does not wrap within one pass of a wait. -/
theorem TimedNode.isLate_iff (h : n.OnTime slack) (hslack : slack + 5009 < 2 ^ 32) {s : Nat}
    (hs : n.start = some s) (hnow : n.now ≤ time) (htime : time ≤ n.ready + slack) :
    n.isLate time = true ↔ n.node.point.timeoutMs.toNat ≤ time - s := by
  obtain ⟨_, hready, hstart⟩ := h.waited s hs
  have hmax := n.node.point.timeoutMs_le
  rw [isLate, hs, Option.getD_some, decide_eq_true_iff, UInt32.le_iff_toNat_le,
    toNat_sub_ofNat (by omega), Nat.mod_eq_of_lt (by omega)]

theorem Node.wait_point (n : Node) (done timedOut : Bool) (success failure : SetupPoint) :
    (n.wait done timedOut success failure).point = n.point ∧ timedOut = false ∨
      (n.wait done timedOut success failure).point = success ∨
      (n.wait done timedOut success failure).point = failure := by
  unfold Node.wait
  split_ifs with hd ht
  · exact .inr (.inl rfl)
  · exact .inr (.inr rfl)
  · exact .inl ⟨rfl, eq_false_of_ne_true ht⟩

/-- The call that `setup` comes to is the one that it makes. -/
theorem point_of_setupStep {n m : Node} (h : setupStep n a = some m) :
    (∀ late, a = .waitConnect late → n.point = .waitConnect) ∧
      (∀ late, a = .waitHubReady late → n.point = .waitHubReady) ∧
      (∀ late, a = .waitDisconnect late → n.point = .waitDisconnect) := by
  obtain ⟨p, point, timer⟩ := n
  refine ⟨?_, ?_, ?_⟩ <;> rintro late rfl <;> cases point <;> first | rfl | cases h

/-- A pass of a wait that goes on has not timed out. One that ends it leaves for a later call. -/
theorem wait_setupStep {n m : Node} {timedOut : Bool} (slack : Nat) (ha : a.timedOut = some timedOut)
    (h : setupStep n a = some m) :
    n.point.timeoutMs ≠ 0 ∧ m.point ≠ .asleep ∧ (m.point = n.point → timedOut = false) ∧
      (m.point ≠ n.point →
        n.point.latest slack + n.point.timeoutMs.toNat + 9 + 2 * slack ≤ m.point.latest slack) := by
  have hleave {p q r : SetupPoint} {late : Bool} (hw : m.point = p ∧ late = false ∨ m.point = q ∨ m.point = r)
      (hpq : p.latest slack + p.timeoutMs.toNat + 9 + 2 * slack ≤ q.latest slack)
      (hpr : p.latest slack + p.timeoutMs.toNat + 9 + 2 * slack ≤ r.latest slack)
      (hasleep : p ≠ .asleep ∧ q ≠ .asleep ∧ r ≠ .asleep) :
      m.point ≠ .asleep ∧ (m.point = p → late = false) ∧
        (m.point ≠ p → p.latest slack + p.timeoutMs.toNat + 9 + 2 * slack ≤ m.point.latest slack) := by
    rcases hw with ⟨hp, hlate⟩ | hq | hr
    · exact ⟨hp ▸ hasleep.1, fun _ => hlate, fun hne => absurd hp hne⟩
    · refine ⟨hq ▸ hasleep.2.1, fun hp => ?_, fun _ => hq ▸ hpq⟩
      rw [← hp, hq] at hpq
      omega
    · refine ⟨hr ▸ hasleep.2.2, fun hp => ?_, fun _ => hr ▸ hpr⟩
      rw [← hp, hr] at hpr
      omega
  obtain ⟨hconnect, hready, hdisconnect⟩ := point_of_setupStep h
  cases a with
  | waitConnect late =>
      obtain rfl := Option.some.inj ha
      have hp := hconnect late rfl
      simp only [setupStep, hp, Option.some.injEq] at h
      have hw := n.wait_point n.peripheral.deviceConnected late .waitHubReady .disconnect
      rw [h, hp] at hw
      rw [hp]
      refine ⟨by decide, hleave hw ?_ ?_ (by decide)⟩ <;>
        simp only [SetupPoint.latest, SetupPoint.timeoutMs, UInt32.reduceToNat] <;> omega
  | waitHubReady late =>
      obtain rfl := Option.some.inj ha
      have hp := hready late rfl
      simp only [setupStep, hp, Option.some.injEq] at h
      have hw := n.wait_point n.peripheral.hubReady (!n.peripheral.deviceConnected || late) .sendNodeInfo
        .disconnect
      rw [h, hp, Bool.or_eq_false_iff] at hw
      rw [hp]
      refine ⟨by decide, hleave (hw.imp (fun h => ⟨h.1, h.2.2⟩) id) ?_ ?_ (by decide)⟩ <;>
        simp only [SetupPoint.latest, SetupPoint.timeoutMs, UInt32.reduceToNat] <;> omega
  | waitDisconnect late =>
      obtain rfl := Option.some.inj ha
      have hp := hdisconnect late rfl
      simp only [setupStep, hp, Option.some.injEq] at h
      have hw := n.wait_point (!n.peripheral.deviceConnected) late .endState .endState
      rw [h, hp] at hw
      rw [hp]
      refine ⟨by decide, hleave hw ?_ ?_ (by decide)⟩ <;>
        simp only [SetupPoint.latest, SetupPoint.timeoutMs, UInt32.reduceToNat] <;> omega
  | _ => cases ha

/-- The calls of `setup` that are no waits follow each other. -/
theorem call_setupStep {n m : Node} (slack : Nat) (h : setupStep n a = some m) (hwait : a.timedOut = none)
    (hcallback : a.isCallback = false) (hboot : a ≠ .boot) :
    n.point.timeoutMs = 0 ∧ n.point.latest slack + slack + a.delayMs ≤ m.point.latest slack := by
  have hnext {p q : SetupPoint} (hq : m.point = q) (hno : p.timeoutMs = 0)
      (hle : p.latest slack + slack + a.delayMs ≤ q.latest slack) :
      p.timeoutMs = 0 ∧ p.latest slack + slack + a.delayMs ≤ m.point.latest slack := by
    rw [hq]
    exact ⟨hno, hle⟩
  cases a with
  | waitConnect _ | waitHubReady _ | waitDisconnect _ => cases hwait
  | onConnect | onDisconnect | onWrite _ => cases hcallback
  | boot => exact absurd rfl hboot
  | disconnect =>
      cases hp : n.point <;> simp only [setupStep, hp, reduceCtorEq, Option.some.injEq] at h
      split_ifs at h <;> refine hnext (congrArg Node.point h.symm) rfl ?_ <;>
        simp only [SetupPoint.latest, NodeAction.delayMs] <;> omega
  | peripheralInit | sendNodeInfo | sendSensorData _ | endState | deinit | sleep =>
      cases hp : n.point <;> simp only [setupStep, hp, reduceCtorEq, Option.some.injEq] at h
      refine hnext (congrArg Node.point h.symm) rfl ?_
      simp only [SetupPoint.latest, NodeAction.delayMs]
      omega

theorem timedStep_eq_some {n m : TimedNode} {a : TimedAction} (h : timedStep n a = some m) :
    n.now ≤ a.time ∧ (a.action.isCallback = true ∨ n.ready ≤ a.time) ∧
      (∀ timedOut ∈ a.action.timedOut, timedOut = n.isLate a.time) ∧
      ∃ node, setupStep n.node a.action = some node ∧ n.after a.action a.time node = m := by
  unfold timedStep at h
  split_ifs at h with hguard
  exact ⟨hguard.1, hguard.2.1, hguard.2.2, Option.map_eq_some_iff.mp h⟩

theorem TimedNode.node_after (n : TimedNode) (a : NodeAction) (time : Nat) (node : Node) :
    (n.after a time node).node = node := by
  unfold after call
  split
  · rfl
  · split_ifs <;> rfl
  · rfl
  · rfl
  · split_ifs <;> rfl

/-- Every run with a clock is one of the node without. -/
theorem exec_setupStep_of_timed {n m : TimedNode} {as : List TimedAction}
    (h : exec timedStep n as = some m) :
    exec setupStep n.node (as.map TimedAction.action) = some m.node := by
  induction as generalizing n with
  | nil => exact congrArg (some ·.node) (Option.some.inj h)
  | cons a as ih =>
      obtain ⟨u, hu, hrest⟩ := exec_cons_eq_some.mp h
      obtain ⟨_, _, _, node, hnode, rfl⟩ := timedStep_eq_some hu
      refine exec_cons_eq_some.mpr ⟨node, hnode, ?_⟩
      rw [← n.node_after a.action a.time node]
      exact ih hrest

theorem onTime_call (h : n.OnTime slack) (hslack : slack + 5009 < 2 ^ 32) (hnow : n.now ≤ time)
    (hprompt : time ≤ n.ready + slack)
    (hflag : ∀ timedOut ∈ a.timedOut, timedOut = n.isLate time) (hcallback : a.isCallback = false)
    (hboot : a ≠ .boot) (hst : setupStep n.node a = some node) : (n.call a time node).OnTime slack := by
  cases hwait : a.timedOut with
  | none =>
      obtain ⟨hno, hnext⟩ := call_setupStep slack hst hwait hcallback hboot
      have hstart : n.start = none := by
        by_contra hs
        exact h.waits hs hno
      have hentered := h.entered hstart
      rw [TimedNode.call, if_neg (by simp [hwait])]
      refine ⟨?_, fun hasleep => ?_, fun _ => ?_, fun hs => absurd rfl hs, nofun⟩
      · simp only
        omega
      · rw [show node.point = .asleep from hasleep] at hnext
        simp only
        omega
      · simp only
        omega
  | some timedOut =>
      obtain ⟨hwaits, hawake, hgoes, hends⟩ := wait_setupStep slack hwait hst
      obtain rfl := hflag timedOut (hwait ▸ rfl)
      have hpos : 0 < n.node.point.timeoutMs.toNat := by
        rw [Nat.pos_iff_ne_zero]
        exact fun h0 => hwaits (UInt32.toNat_inj.mp h0)
      by_cases hsame : node.point = n.node.point
      · rw [TimedNode.call, if_pos ⟨by simp [hwait], hsame⟩]
        refine ⟨Nat.le_add_right_of_le (Nat.le_add_right time 10), fun hasleep => absurd hasleep hawake, nofun,
          fun _ => ?_, fun s hs => ?_⟩
        · simpa only [hsame] using hwaits
        obtain rfl := Option.some.inj hs
        simp only [hsame]
        cases hstart : n.start with
        | none =>
            have hentered := h.entered hstart
            rw [Option.getD_none]
            omega
        | some s =>
            obtain ⟨hs, _, hsnow⟩ := h.waited s hstart
            have hearly : ¬ n.node.point.timeoutMs.toNat ≤ time - s := by
              rw [← n.isLate_iff h hslack hstart hnow hprompt, hgoes hsame]
              exact Bool.false_ne_true
            rw [Option.getD_some]
            omega
      · have hdelay : a.delayMs = 0 := by cases a <;> first | rfl | cases hwait
        have hnext := hends hsame
        have htime : time ≤ n.node.point.latest slack + n.node.point.timeoutMs.toNat + 9 + 2 * slack := by
          cases hstart : n.start with
          | none =>
              have hentered := h.entered hstart
              omega
          | some s =>
              obtain ⟨hs, hsready, _⟩ := h.waited s hstart
              omega
        rw [TimedNode.call, if_neg (by simp [hsame]), hdelay]
        exact ⟨Nat.le_add_right time slack, fun hasleep => absurd hasleep hawake, fun _ => htime.trans hnext,
          fun hs => absurd rfl hs, nofun⟩

/-- A callback leaves `setup` where it is, or it restarts the node. -/
theorem callback_cases {m : Node} (time : Nat) (h : setupStep n.node a = some m)
    (hcallback : a.isCallback = true) :
    n.node.point ≠ .asleep ∧
      (m.point = n.node.point ∧ n.after a time m = { n with node := m, now := time } ∨
        m.point = .peripheralInit ∧ n.after a time m = TimedNode.boot m) := by
  have hup {q : SetupPoint} (hq : q.stackUp = true) : q ≠ .asleep := by
    rintro rfl
    cases hq
  cases a with
  | onConnect | onDisconnect =>
      simp only [setupStep] at h
      split_ifs at h with hq
      exact ⟨hup hq, .inl ⟨Option.some.inj h ▸ rfl, rfl⟩⟩
  | onWrite val =>
      simp only [setupStep, Bool.and_eq_true] at h
      split_ifs at h with hq
      refine ⟨hup hq.1, ?_⟩
      obtain rfl := Option.some.inj h
      by_cases hr : (n.node.peripheral.onWrite val).restarted = true
      · refine .inr ⟨?_, ?_⟩
        · rw [Node.write, if_pos hr]
          rfl
        · simp only [TimedNode.after, if_pos hr]
      · refine .inl ⟨?_, ?_⟩
        · rw [Node.write, if_neg hr]
        · simp only [TimedNode.after, if_neg hr]
  | _ => cases hcallback

theorem point_boot {n m : Node} (h : setupStep n .boot = some m) : m.point = .peripheralInit := by
  cases hp : n.point <;> simp only [setupStep, hp, reduceCtorEq, Option.some.injEq] at h
  exact h ▸ rfl

theorem awake_of_setupStep {n m : Node} (h : setupStep n a = some m) (hboot : a ≠ .boot) :
    n.point ≠ .asleep := by
  intro hp
  cases a with
  | boot => exact hboot rfl
  | _ => simp [setupStep, hp, SetupPoint.stackUp] at h

theorem onTime_step {n m : TimedNode} {a : TimedAction} (hslack : slack + 5009 < 2 ^ 32)
    (h : n.OnTime slack) (hprompt : Prompt slack n a) (hst : timedStep n a = some m) : m.OnTime slack := by
  obtain ⟨hnow, _, hflag, node, hnode, rfl⟩ := timedStep_eq_some hst
  have hlook (hawake : n.node.point ≠ .asleep) (hpoint : node.point = n.node.point) :
      TimedNode.OnTime slack { n with node := node, now := a.time } := by
    refine ⟨hprompt.resolve_left hawake, fun hasleep => ?_, fun hs => ?_, fun hs => ?_, fun s hs => ?_⟩
    · exact absurd (hpoint ▸ hasleep) hawake
    · simpa only [hpoint] using h.entered hs
    · simpa only [hpoint] using h.waits hs
    · obtain ⟨h1, h2, h3⟩ := h.waited s hs
      simp only [hpoint]
      omega
  cases hcallback : a.action.isCallback with
  | false =>
      by_cases hboot : a.action = .boot
      · rw [hboot] at hnode ⊢
        exact TimedNode.onTime_boot slack (point_boot hnode)
      · have hlate := hprompt.resolve_left (awake_of_setupStep hnode hboot)
        have hcall := onTime_call h hslack hnow hlate hflag hcallback hboot hnode
        have hafter : n.after a.action a.time node = n.call a.action a.time node := by
          unfold TimedNode.after
          split <;> simp_all [NodeAction.isCallback]
        rwa [hafter]
  | true =>
      obtain ⟨hawake, ⟨hpoint, hafter⟩ | ⟨hpoint, hafter⟩⟩ := callback_cases a.time hnode hcallback
      · rw [hafter]
        exact hlook hawake hpoint
      · rw [hafter]
        exact TimedNode.onTime_boot slack hpoint

theorem TimedNode.OnTime.now_le (h : n.OnTime slack) : n.now ≤ SetupPoint.latest slack .asleep := by
  by_cases hasleep : n.node.point = .asleep
  · exact h.asleep hasleep
  · have hnow := h.now
    cases hstart : n.start with
    | none =>
        have hentered := h.entered hstart
        cases hp : n.node.point <;> simp only [hp, SetupPoint.latest] at hentered ⊢ <;>
          first | omega | exact absurd hp hasleep
    | some s =>
        obtain ⟨hs, hready, _⟩ := h.waited s hstart
        have hwaits := h.waits (by simp [hstart])
        cases hp : n.node.point <;>
          simp only [hp, SetupPoint.latest, SetupPoint.timeoutMs, UInt32.reduceToNat] at hs hready ⊢ <;>
          first | omega | exact absurd (by rw [hp]; rfl) hwaits

/-- The call that `setup` makes next. -/
def TimedNode.next (n : TimedNode) (time : Nat) (data : Protocol.SensorData) : NodeAction :=
  match n.node.point with
  | .peripheralInit => .peripheralInit
  | .waitConnect => .waitConnect (n.isLate time)
  | .waitHubReady => .waitHubReady (n.isLate time)
  | .sendNodeInfo => .sendNodeInfo
  | .sendSensorData => .sendSensorData data
  | .disconnect => .disconnect
  | .waitDisconnect => .waitDisconnect (n.isLate time)
  | .endState => .endState
  | .deinit => .deinit
  | .sleep => .sleep
  | .asleep => .boot

/-- `setup` is never stuck. -/
theorem isSome_next (data : Protocol.SensorData) (hnow : n.now ≤ time) (hready : n.ready ≤ time) :
    (n.next time data).isCallback = false ∧ (timedStep n ⟨n.next time data, time⟩).isSome = true := by
  have hflag : ∀ timedOut ∈ (n.next time data).timedOut, timedOut = n.isLate time := by
    unfold TimedNode.next
    split <;> simp [NodeAction.timedOut]
  have hstep : (setupStep n.node (n.next time data)).isSome = true := by
    unfold TimedNode.next
    split <;> next hp => simp [setupStep, hp]
  refine ⟨by unfold TimedNode.next; split <;> rfl, ?_⟩
  rw [timedStep, if_pos ⟨hnow, .inr hready, hflag⟩, Option.isSome_map]
  exact hstep

end

/-- A wake takes 9.3 seconds and thirteen times what one call takes at most, and `setup` can always go
on. -/
theorem always_asleep_in_time (slack : Nat) (hslack : slack + 5009 < 2 ^ 32) (prefs : Option UInt16)
    (as : List TimedAction)
    (hprompt : Along timedStep (Prompt slack) (TimedNode.boot (Node.init prefs)) as) :
    Always timedStep (fun n => n.now ≤ 9277 + 13 * slack ∧ ∀ data, ∃ time, time ≤ n.ready + slack ∧
        (n.next time data).isCallback = false ∧ (timedStep n ⟨n.next time data, time⟩).isSome = true)
      (TimedNode.boot (Node.init prefs)) as := by
  refine always_of_along (fun n a m h => onTime_step hslack h) (fun n h => ⟨h.now_le, fun data => ?_⟩)
    (TimedNode.onTime_boot slack rfl) hprompt
  have hnow := h.now
  exact ⟨max n.now n.ready, by omega, isSome_next data (Nat.le_max_left _ _) (Nat.le_max_right _ _)⟩

/-- The hub connects and says nothing more. -/
def quietWake : List TimedAction :=
  [⟨.peripheralInit, 130⟩, ⟨.waitConnect false, 130⟩, ⟨.onConnect, 135⟩, ⟨.waitConnect false, 141⟩,
    ⟨.waitHubReady false, 141⟩, ⟨.waitHubReady false, 152⟩, ⟨.onDisconnect, 160⟩, ⟨.waitHubReady false, 163⟩,
    ⟨.disconnect, 163⟩, ⟨.endState, 165⟩, ⟨.deinit, 190⟩, ⟨.sleep, 241⟩]

theorem quietWake_in_time :
    Always timedStep (fun n => n.now ≤ 9277 + 13 * 30 ∧ ∀ data, ∃ time, time ≤ n.ready + 30 ∧
        (n.next time data).isCallback = false ∧ (timedStep n ⟨n.next time data, time⟩).isSome = true)
      (TimedNode.boot (Node.init none)) quietWake :=
  always_asleep_in_time 30 (by decide) none quietWake (by decide +kernel)

example : (exec timedStep (TimedNode.boot (Node.init none)) quietWake).map (·.node.point) = some .asleep := by
  decide +kernel

end Tempio.Sensor
