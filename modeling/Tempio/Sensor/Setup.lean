import Tempio.Sensor.BlePeripheral

namespace Tempio.Sensor

open Tempio.Protocol

/-- The call that `setup` comes to next; a wait stands for every pass of its loop. -/
inductive SetupPoint
  | peripheralInit
  | waitConnect
  | waitHubReady
  | sendNodeInfo
  | sendSensorData
  | disconnect
  | waitDisconnect
  | endState
  | deinit
  | sleep
  | asleep
deriving DecidableEq

/-- From the end of `ble_peripheral_init` up to `NimBLEDevice::deinit` the stack is up and
its callbacks can run. -/
def SetupPoint.stackUp : SetupPoint → Bool
  | .peripheralInit | .sleep | .asleep => false
  | _ => true

/-- A sensor node. `timer` are the seconds that its wake-up timer is set to. -/
structure Node where
  peripheral : Peripheral
  point : SetupPoint
  timer : UInt16

inductive NodeAction
  | peripheralInit
  | waitConnect (timedOut : Bool)
  | waitHubReady (timedOut : Bool)
  | sendNodeInfo
  | sendSensorData (data : SensorData)
  | disconnect
  | waitDisconnect (timedOut : Bool)
  | endState
  | deinit
  | sleep
  | boot
  | onConnect
  | onDisconnect
  | onWrite (val : List UInt8)

/-- A pass of one of the waits, or the test before the last of them. -/
def NodeAction.waits : NodeAction → Bool
  | .waitConnect _ | .waitHubReady _ | .disconnect | .waitDisconnect _ => true
  | _ => false

def Peripheral.sendNodeInfo (p : Peripheral) : Peripheral :=
  if p.dataChar = true ∧ p.deviceConnected = true then
    p.notify (NodeInfo.bytes ⟨NodeType.sensor.code, 3100, 0, 1⟩)
  else p

def Peripheral.sendSensorData (p : Peripheral) (data : SensorData) : Peripheral :=
  if p.dataChar = true ∧ p.deviceConnected = true then p.notify data.bytes else p

def Peripheral.endState (p : Peripheral) : Peripheral := { p with state := p.state.endPrefs }

theorem Peripheral.state_sendNodeInfo (p : Peripheral) : p.sendNodeInfo.state = p.state := by
  unfold sendNodeInfo
  split_ifs <;> rfl

theorem Peripheral.state_sendSensorData (p : Peripheral) (data : SensorData) :
    (p.sendSensorData data).state = p.state := by
  unfold sendSensorData
  split_ifs <;> rfl

namespace Node

def init (prefs : Option UInt16) : Node := ⟨Peripheral.init prefs, .peripheralInit, 0⟩

/-- The memory is lost, the stored interval stays. -/
def boot (n : Node) : Node :=
  { n with peripheral := Peripheral.init n.peripheral.state.prefs, point := .peripheralInit }

/-- A write is handled. `ESP.restart` does not return. -/
def write (n : Node) (val : List UInt8) : Node :=
  if (n.peripheral.onWrite val).restarted then
    boot { n with peripheral := n.peripheral.onWrite val }
  else { n with peripheral := n.peripheral.onWrite val }

/-- One pass of the wait, which goes on, or is over because of a timeout or for success. -/
def wait (n : Node) (done timedOut : Bool) (success failure : SetupPoint) : Node :=
  if done then { n with point := success }
  else if timedOut then { n with point := failure }
  else n

end Node

/-- One call of `setup`, one pass of a wait, or one callback of the BLE stack. -/
def setupStep (n : Node) (a : NodeAction) : Option Node :=
  match a, n.point with
  | .peripheralInit, .peripheralInit =>
      some { n with peripheral := n.peripheral.blePeripheralInit, point := .waitConnect }
  | .waitConnect timedOut, .waitConnect =>
      some (n.wait n.peripheral.deviceConnected timedOut .waitHubReady .disconnect)
  | .waitHubReady timedOut, .waitHubReady =>
      some (n.wait n.peripheral.hubReady (!n.peripheral.deviceConnected || timedOut) .sendNodeInfo
        .disconnect)
  | .sendNodeInfo, .sendNodeInfo =>
      some { n with peripheral := n.peripheral.sendNodeInfo, point := .sendSensorData }
  | .sendSensorData data, .sendSensorData =>
      some { n with peripheral := n.peripheral.sendSensorData data, point := .disconnect }
  | .disconnect, .disconnect =>
      some { n with point := if n.peripheral.deviceConnected then .waitDisconnect else .endState }
  | .waitDisconnect timedOut, .waitDisconnect =>
      some (n.wait (!n.peripheral.deviceConnected) timedOut .endState .endState)
  | .endState, .endState => some { n with peripheral := n.peripheral.endState, point := .deinit }
  | .deinit, .deinit => some { n with point := .sleep }
  | .sleep, .sleep => some { n with timer := n.peripheral.state.sleepInterval, point := .asleep }
  | .boot, .asleep => some n.boot
  | .onConnect, _ => if n.point.stackUp then some { n with peripheral := n.peripheral.onConnect } else none
  | .onDisconnect, _ =>
      if n.point.stackUp then some { n with peripheral := n.peripheral.onDisconnect } else none
  | .onWrite val, _ =>
      if n.point.stackUp && n.peripheral.deviceConnected then some (n.write val) else none
  | _, _ => none

/-- Everything that a step of a node can do. -/
inductive NodeMoves (n : Node) : NodeAction → Node → Prop
  | started (hp : n.point = .peripheralInit) :
      NodeMoves n .peripheralInit
        { n with peripheral := n.peripheral.blePeripheralInit, point := .waitConnect }
  | waiting (a) (ha : a.waits = true) (hp : n.point.stackUp = true) : NodeMoves n a n
  | connectSeen (timedOut) (hp : n.point = .waitConnect) (hc : n.peripheral.deviceConnected = true) :
      NodeMoves n (.waitConnect timedOut) { n with point := .waitHubReady }
  | ready (timedOut) (hp : n.point = .waitHubReady) (hr : n.peripheral.hubReady = true) :
      NodeMoves n (.waitHubReady timedOut) { n with point := .sendNodeInfo }
  | gaveUp (a) (ha : a.waits = true) (hp : n.point = .waitConnect ∨ n.point = .waitHubReady) :
      NodeMoves n a { n with point := .disconnect }
  | sentNodeInfo (hp : n.point = .sendNodeInfo) :
      NodeMoves n .sendNodeInfo
        { n with peripheral := n.peripheral.sendNodeInfo, point := .sendSensorData }
  | sentSensorData (data) (hp : n.point = .sendSensorData) :
      NodeMoves n (.sendSensorData data)
        { n with peripheral := n.peripheral.sendSensorData data, point := .disconnect }
  | closing (hp : n.point = .disconnect) : NodeMoves n .disconnect { n with point := .waitDisconnect }
  | closed (a) (ha : a.waits = true) (hp : n.point = .disconnect ∨ n.point = .waitDisconnect) :
      NodeMoves n a { n with point := .endState }
  | ended (hp : n.point = .endState) :
      NodeMoves n .endState { n with peripheral := n.peripheral.endState, point := .deinit }
  | deinit (hp : n.point = .deinit) : NodeMoves n .deinit { n with point := .sleep }
  | slept (hp : n.point = .sleep) :
      NodeMoves n .sleep { n with timer := n.peripheral.state.sleepInterval, point := .asleep }
  | booted (hp : n.point = .asleep) : NodeMoves n .boot n.boot
  | connected (hp : n.point.stackUp = true) :
      NodeMoves n .onConnect { n with peripheral := n.peripheral.onConnect }
  | disconnected (hp : n.point.stackUp = true) :
      NodeMoves n .onDisconnect { n with peripheral := n.peripheral.onDisconnect }
  | written (val) (hp : n.point.stackUp = true) (hc : n.peripheral.deviceConnected = true) :
      NodeMoves n (.onWrite val) (n.write val)

theorem Node.wait_cases (n : Node) (done timedOut : Bool) (success failure : SetupPoint) :
    done = true ∧ n.wait done timedOut success failure = { n with point := success } ∨
      timedOut = true ∧ n.wait done timedOut success failure = { n with point := failure } ∨
      n.wait done timedOut success failure = n := by
  cases done with
  | true => exact .inl ⟨rfl, rfl⟩
  | false =>
      cases timedOut with
      | true => exact .inr (.inl ⟨rfl, rfl⟩)
      | false => exact .inr (.inr rfl)

theorem moves_of_setupStep {n m : Node} {a : NodeAction} (h : setupStep n a = some m) :
    NodeMoves n a m := by
  obtain ⟨p, point, timer⟩ := n
  cases a with
  | onConnect =>
      simp only [setupStep] at h
      split_ifs at h with hp
      exact Option.some.inj h ▸ .connected hp
  | onDisconnect =>
      simp only [setupStep] at h
      split_ifs at h with hp
      exact Option.some.inj h ▸ .disconnected hp
  | onWrite val =>
      simp only [setupStep, Bool.and_eq_true] at h
      split_ifs at h with hp
      exact Option.some.inj h ▸ .written val hp.1 hp.2
  | waitConnect timedOut =>
      cases point with
      | waitConnect =>
          rw [← Option.some.inj h]
          rcases Node.wait_cases ⟨p, .waitConnect, timer⟩ p.deviceConnected timedOut .waitHubReady
            .disconnect with ⟨hc, hw⟩ | ⟨_, hw⟩ | hw
          · exact hw ▸ .connectSeen timedOut rfl hc
          · exact hw ▸ .gaveUp _ rfl (.inl rfl)
          · exact hw.symm ▸ .waiting _ rfl rfl
      | _ => cases h
  | waitHubReady timedOut =>
      cases point with
      | waitHubReady =>
          rw [← Option.some.inj h]
          rcases Node.wait_cases ⟨p, .waitHubReady, timer⟩ p.hubReady (!p.deviceConnected || timedOut)
            .sendNodeInfo .disconnect with ⟨hr, hw⟩ | ⟨_, hw⟩ | hw
          · exact hw ▸ .ready timedOut rfl hr
          · exact hw ▸ .gaveUp _ rfl (.inr rfl)
          · exact hw.symm ▸ .waiting _ rfl rfl
      | _ => cases h
  | waitDisconnect timedOut =>
      cases point with
      | waitDisconnect =>
          rw [← Option.some.inj h]
          rcases Node.wait_cases ⟨p, .waitDisconnect, timer⟩ (!p.deviceConnected) timedOut .endState
            .endState with ⟨_, hw⟩ | ⟨_, hw⟩ | hw
          · exact hw ▸ .closed _ rfl (.inr rfl)
          · exact hw ▸ .closed _ rfl (.inr rfl)
          · exact hw.symm ▸ .waiting _ rfl rfl
      | _ => cases h
  | disconnect =>
      cases point with
      | disconnect =>
          rw [← Option.some.inj h]
          cases hc : p.deviceConnected with
          | true => simpa only [hc, if_true] using NodeMoves.closing (n := ⟨p, .disconnect, timer⟩) rfl
          | false =>
              simpa only [hc, Bool.false_eq_true, if_false] using
                NodeMoves.closed (n := ⟨p, .disconnect, timer⟩) _ rfl (.inl rfl)
      | _ => cases h
  | peripheralInit =>
      cases point with
      | peripheralInit => exact Option.some.inj h ▸ .started rfl
      | _ => cases h
  | sendNodeInfo =>
      cases point with
      | sendNodeInfo => exact Option.some.inj h ▸ .sentNodeInfo rfl
      | _ => cases h
  | sendSensorData data =>
      cases point with
      | sendSensorData => exact Option.some.inj h ▸ .sentSensorData data rfl
      | _ => cases h
  | endState =>
      cases point with
      | endState => exact Option.some.inj h ▸ .ended rfl
      | _ => cases h
  | deinit =>
      cases point with
      | deinit => exact Option.some.inj h ▸ .deinit rfl
      | _ => cases h
  | sleep =>
      cases point with
      | sleep => exact Option.some.inj h ▸ .slept rfl
      | _ => cases h
  | boot =>
      cases point with
      | asleep => exact Option.some.inj h ▸ .booted rfl
      | _ => cases h

/-- The hub has spoken to the node in this wake. -/
def Node.Greeted (n : Node) : Prop :=
  n.peripheral.hubReady = true ∨ n.point = .sendNodeInfo ∨ n.point = .sendSensorData

section

variable {n m : Node} {a : NodeAction}

theorem not_greeted_boot (n : Node) : ¬ n.boot.Greeted := by
  rintro (h | h | h) <;> cases h

theorem Node.write_cases (n : Node) (val : List UInt8) :
    n.write val = { n with peripheral := n.peripheral.onWrite val } ∨
      ∃ n' : Node, n.write val = n'.boot := by
  unfold Node.write
  split_ifs
  · exact .inr ⟨_, rfl⟩
  · exact .inl rfl

theorem not_greeted_of_restarted (h : NodeMoves n a m) (hm : m.point = .peripheralInit) :
    ¬ m.Greeted := by
  have hup : ∀ {q : SetupPoint}, q = .peripheralInit → q.stackUp ≠ true := by
    rintro q rfl
    exact Bool.false_ne_true
  cases h with
  | booted hp => exact not_greeted_boot n
  | written val hp hc =>
      rcases n.write_cases val with hw | ⟨n', hw⟩
      · rw [hw] at hm
        exact absurd hp (hup hm)
      · rw [hw]
        exact not_greeted_boot n'
  | waiting _ ha hp | connected hp | disconnected hp => exact absurd hp (hup hm)
  | _ => cases hm

/-- Only a write can be the first that the hub says. -/
theorem greeted_of_moves (h : NodeMoves n a m) (hm : m.Greeted) : n.Greeted ∨ ∃ val, a = .onWrite val := by
  cases h with
  | written val hp hc => exact .inr ⟨val, rfl⟩
  | booted hp => exact absurd hm (not_greeted_boot n)
  | ready timedOut hp hr => exact .inl (.inl hr)
  | sentNodeInfo hp => exact .inl (.inr (.inl hp))
  | sentSensorData data hp => exact .inl (.inr (.inr hp))
  | waiting _ ha hp | connected hp | disconnected hp => exact .inl hm
  | started hp | connectSeen timedOut hp hc | gaveUp _ ha hp | closing hp | closed _ ha hp | ended hp
  | deinit hp | slept hp =>
      rcases hm with hm | hm | hm
      · exact .inl (.inl hm)
      · cases hm
      · cases hm

/-- A node sends nothing before the hub has spoken. -/
theorem sent_of_moves (h : NodeMoves n a m)
    (hm : m.peripheral.notified.drop n.peripheral.notified.length ≠ []) :
    n.Greeted ∨ ∃ val, a = .onWrite val := by
  cases h with
  | written val hp hc => exact .inr ⟨val, rfl⟩
  | sentNodeInfo hp => exact .inl (.inr (.inl hp))
  | sentSensorData data hp => exact .inl (.inr (.inr hp))
  | booted hp => exact absurd List.drop_nil hm
  | _ => exact absurd List.drop_length hm

end

end Tempio.Sensor
