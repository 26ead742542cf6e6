import Tempio.Hub.MqttCommand
import Tempio.Hub.ThreadSafeQueue
import Tempio.Lib.Search
import Tempio.Lib.Transition

namespace Tempio.Hub.Ble

open Tempio.Lib.Search

def pendingMax : Nat := 8

instance : NeZero pendingMax := ⟨by decide⟩

/-- Client objects are numbered in the order of their creation. -/
abbrev Client := Nat

/-- A connection slot. `configChar` says whether the pointer is set. -/
structure ConnectedNode (Addr : Type) where
  client : Option Client
  configChar : Bool
  addr : Addr
  used : Bool

/-- The next assignment of `registerNode`. -/
inductive Assignment
  | client
  | getCharacteristic
  | configChar (found : Bool)
  | addr
  | used
deriving DecidableEq

/-- Where the loop task stands in `connectToNode`. -/
inductive ConnectTask (Addr : Type)
  | idle
  | findingSlot (addr : Addr)
  | acquiring (addr : Addr) (slot : Fin maxNodes)
  | connecting (addr : Addr) (slot : Fin maxNodes) (client : Client)
  | discovering (addr : Addr) (slot : Fin maxNodes) (client : Client)
  | disconnecting (client : Client)
  | stashing (client : Client)
  | registering (addr : Addr) (slot : Fin maxNodes) (client : Client) (next : Assignment)
  | greeting (slot : Fin maxNodes)
deriving DecidableEq

/-- The shared state of the BLE modules. `link` is the peer that a client's link
goes to while it is up, and `lost` are the link losses whose `onDisconnect` has
not run yet. -/
structure Central (Addr : Type) where
  nodes : Vector (ConnectedNode Addr) maxNodes
  pendingQueue : ThreadSafeQueue Addr pendingMax
  doScan : Bool
  task : ConnectTask Addr
  created : Nat
  link : Client → Option Addr
  lost : List Client

variable {Addr : Type} [DecidableEq Addr]

def Central.init [Inhabited Addr] : Central Addr :=
  ⟨Vector.replicate maxNodes ⟨none, false, default, false⟩, ThreadSafeQueue.init, false, .idle, 0,
    fun _ => none, []⟩

namespace Central

def findSlotIndex (s : Central Addr) (pred : ConnectedNode Addr → Bool) : Option (Fin maxNodes) :=
  firstIndex pred s.nodes

def isAlreadyConnected (s : Central Addr) (addr : Addr) : Bool :=
  (s.findSlotIndex fun n => n.used && decide (n.addr = addr)).isSome

def findEmptySlot (s : Central Addr) : Option (Fin maxNodes) := s.findSlotIndex fun n => !n.used

def findSlotByClient (s : Central Addr) (c : Client) : Option (Fin maxNodes) :=
  s.findSlotIndex fun n => n.used && decide (n.client = some c)

def isAlreadyPending (s : Central Addr) (addr : Addr) : Bool :=
  s.pendingQueue.contains fun a => a = addr

def setNode (s : Central Addr) (i : Fin maxNodes) (n : ConnectedNode Addr) : Central Addr :=
  { s with nodes := setAt s.nodes i n }

/-- Forget the characteristics of the slots whose client only waits to be reused. -/
def cleanupDisconnected (s : Central Addr) : Central Addr :=
  { s with nodes := s.nodes.map fun n =>
      if !n.used && n.client.isSome then { n with configChar := false } else n }

def findReusableClient (s : Central Addr) : Option (Client × Central Addr) :=
  (s.findSlotIndex fun n => !n.used && n.client.isSome).bind fun i =>
    (s.nodes.get i).client.map fun c => (c, s.setNode i { s.nodes.get i with client := none })

/-- A reusable client, else a new one if the library still creates one. -/
def acquireClient (s : Central Addr) (createClient : Bool) : Option (Client × Central Addr) :=
  match s.findReusableClient with
  | some r => some r
  | none => if createClient then some (s.created, { s with created := s.created + 1 }) else none

def stashClient (s : Central Addr) (c : Client) : Central Addr :=
  match s.findSlotIndex fun n => !n.used && n.client.isNone with
  | some i => s.setNode i { s.nodes.get i with client := some c }
  | none => s

/-- The link goes down, whoever ends it, and its `onDisconnect` is due. -/
def dropLink (s : Central Addr) (c : Client) : Central Addr :=
  match s.link c with
  | some _ => { s with link := Function.update s.link c none, lost := s.lost ++ [c] }
  | none => s

def onDisconnect (s : Central Addr) (c : Client) : Central Addr :=
  match s.findSlotByClient c with
  | some i =>
      { s.setNode i { s.nodes.get i with used := false, configChar := false } with doScan := true }
  | none => { s with doScan := true }

/-- `ScanCB::onResult` for a device that advertises the service. -/
def onResult (s : Central Addr) (addr : Addr) : Central Addr :=
  if s.isAlreadyConnected addr then s
  else if s.isAlreadyPending addr then s
  else if s.findEmptySlot.isNone then s
  else if s.pendingQueue.full then s
  else match s.pendingQueue.push addr with
    | some q => { s with pendingQueue := q }
    | none => s

end Central

/-- One step of the loop task, a link loss, or a callback on the BLE task. What
the radio answers comes with the action. -/
inductive Action (Addr : Type)
  | cleanup
  | processNextPending
  | findEmptySlot
  | acquireClient (created : Bool)
  | connect (ok : Bool)
  | discoverAndSubscribe (ok : Bool)
  | disconnect
  | stashClient
  | assign (found : Bool)
  | writeHubReady
  | onResult (addr : Addr)
  | loseLink (c : Client)
  | onDisconnect (c : Client)

/-- One assignment of `registerNode`, in the order of the source. -/
def registerStep (s : Central Addr) (addr : Addr) (slot : Fin maxNodes) (c : Client) (found : Bool) :
    Assignment → Central Addr
  | .client =>
      { s.setNode slot { s.nodes.get slot with client := some c } with
        task := .registering addr slot c .getCharacteristic }
  | .getCharacteristic => { s with task := .registering addr slot c (.configChar found) }
  | .configChar found =>
      { s.setNode slot { s.nodes.get slot with configChar := found } with
        task := .registering addr slot c .addr }
  | .addr =>
      { s.setNode slot { s.nodes.get slot with addr := addr } with
        task := .registering addr slot c .used }
  | .used =>
      { s.setNode slot { s.nodes.get slot with used := true } with task := .greeting slot }

/-- A new link needs the client's previous one to be down and reported: the
BLE task handles the events of one client in their order. -/
def step (s : Central Addr) : Action Addr → Option (Central Addr)
  | .cleanup =>
      match s.task with
      | .idle => some { s.cleanupDisconnected with doScan := false }
      | _ => none
  | .processNextPending =>
      match s.task with
      | .idle =>
          match s.pendingQueue.pop with
          | some (addr, q) => some { s with pendingQueue := q, task := .findingSlot addr }
          | none => some s
      | _ => none
  | .findEmptySlot =>
      match s.task with
      | .findingSlot addr =>
          match s.findEmptySlot with
          | some slot => some { s with task := .acquiring addr slot }
          | none => some { s with task := .idle }
      | _ => none
  | .acquireClient created =>
      match s.task with
      | .acquiring addr slot =>
          match s.acquireClient created with
          | some (c, s') => some { s' with task := .connecting addr slot c }
          | none => some { s with task := .idle }
      | _ => none
  | .connect ok =>
      match s.task with
      | .connecting addr slot c =>
          if ok then
            if s.link c = none ∧ c ∉ s.lost then
              some { s with
                link := Function.update s.link c (some addr), task := .discovering addr slot c }
            else none
          else some { s with task := .disconnecting c }
      | _ => none
  | .discoverAndSubscribe ok =>
      match s.task with
      | .discovering addr slot c =>
          if ok && (s.link c).isSome then some { s with task := .registering addr slot c .client }
          else some { s with task := .disconnecting c }
      | _ => none
  | .disconnect =>
      match s.task with
      | .disconnecting c => some { s.dropLink c with task := .stashing c }
      | _ => none
  | .stashClient =>
      match s.task with
      | .stashing c => some { s.stashClient c with task := .idle }
      | _ => none
  | .assign found =>
      match s.task with
      | .registering addr slot c next => some (registerStep s addr slot c found next)
      | _ => none
  | .writeHubReady =>
      match s.task with
      | .greeting _ => some { s with task := .idle }
      | _ => none
  | .onResult addr => some (s.onResult addr)
  | .loseLink c => if (s.link c).isSome then some (s.dropLink c) else none
  | .onDisconnect c =>
      if c ∈ s.lost then some { s.onDisconnect c with lost := s.lost.erase c } else none

end Tempio.Hub.Ble
