import Tempio.Hub.MqttCommand
import Tempio.Hub.ThreadSafeQueue
import Tempio.Lib.Search

namespace Tempio.Hub

open Tempio.Lib Tempio.Lib.Search

abbrev CommandQueue := ThreadSafeQueue MqttCommand cmdPendingPerNode

structure Slot where
  queue : CommandQueue
  nodeId : NodeId
  used : Bool

def Slot.holds (nodeId : NodeId) (s : Slot) : Bool := s.used && decide (s.nodeId = nodeId)

/-- What `nextNode` looks for in one critical section. -/
def Slot.hasWork (s : Slot) : Bool := s.used && !s.queue.emptyUnsafe

def Slot.stored (s : Slot) : List MqttCommand := if s.used then s.queue.contents else []

/-- The pending queues of the nodes: a fixed array of slots with a flag. -/
structure PendingPool where
  slots : Vector Slot maxNodes

namespace PendingPool

def init : PendingPool := ⟨Vector.replicate maxNodes ⟨ThreadSafeQueue.init, default, false⟩⟩

def findSlot (p : PendingPool) (nodeId : NodeId) : Option (Fin maxNodes) :=
  firstIndex (Slot.holds nodeId) p.slots

/-- The slot that already holds the node, else the first unused one, taken for it. -/
def findOrCreate (p : PendingPool) (nodeId : NodeId) : Option (Fin maxNodes × PendingPool) :=
  match firstIndex (Slot.holds nodeId) p.slots with
  | some i => some (i, p)
  | none =>
      match firstIndex (fun s => !s.used) p.slots with
      | some i => some (i, ⟨setAt p.slots i { p.slots.get i with used := true, nodeId := nodeId }⟩)
      | none => none

def setQueue (p : PendingPool) (i : Fin maxNodes) (q : CommandQueue) : PendingPool :=
  ⟨setAt p.slots i { p.slots.get i with queue := q }⟩

/-- The common body of `push` and `pushFront`, which differ in the queue operation. -/
def insertWith (op : CommandQueue → MqttCommand → Option CommandQueue) (p : PendingPool)
    (now : UInt32) (nodeId : NodeId) (cmd : MqttCommand) : Bool × PendingPool :=
  match p.findOrCreate nodeId with
  | none => (false, p)
  | some (i, p') =>
      match op (p'.slots.get i).queue (cmd.stamp now) with
      | none => (false, p')
      | some q => (true, p'.setQueue i q)

def push (p : PendingPool) (now : UInt32) (nodeId : NodeId) (cmd : MqttCommand) :
    Bool × PendingPool :=
  p.insertWith ThreadSafeQueue.pushUnsafe now nodeId cmd

def pushFront (p : PendingPool) (now : UInt32) (nodeId : NodeId) (cmd : MqttCommand) :
    Bool × PendingPool :=
  p.insertWith ThreadSafeQueue.pushFrontUnsafe now nodeId cmd

/-- The `while` loop of `pop`: expired commands are dropped on the way. The
first argument bounds the iterations, and the queue's count is enough. -/
def popFresh (now : UInt32) : Nat → CommandQueue → Option MqttCommand × CommandQueue
  | 0, q => (none, q)
  | n + 1, q =>
      match q.popUnsafe with
      | none => (none, q)
      | some (cmd, q') => if cmd.fresh now then (some cmd, q') else popFresh now n q'

def pop (p : PendingPool) (now : UInt32) (nodeId : NodeId) : Option MqttCommand × PendingPool :=
  match p.findSlot nodeId with
  | none => (none, p)
  | some i =>
      match popFresh now (p.slots.get i).queue.count (p.slots.get i).queue with
      | (some cmd, q) => (some cmd, p.setQueue i q)
      | (none, q) => (none, ⟨setAt p.slots i { p.slots.get i with queue := q, used := false }⟩)

def activeSlots (p : PendingPool) : Nat :=
  ((List.finRange maxNodes).map fun i => if (p.slots.get i).used then 1 else 0).sum

def totalPending (p : PendingPool) : Nat :=
  ((List.finRange maxNodes).map fun i =>
    if (p.slots.get i).used then (p.slots.get i).queue.countUnsafe else 0).sum

/-- The next node with work from slot `idx` on, and the index to go on from. -/
def nextNode (p : PendingPool) (idx : Nat) : Option (NodeId × Nat) :=
  (firstFrom idx Slot.hasWork p.slots).map fun i => ((p.slots.get i).nodeId, i.val + 1)

end PendingPool

end Tempio.Hub
