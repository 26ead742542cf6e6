import Tempio.Hub.DataNotify
import Tempio.Hub.Wiring
import Tempio.Sensor.Setup

namespace Tempio.EndToEnd

open Tempio.Lib.Transition Tempio.Protocol Tempio.Hub Tempio.Hub.Ble Tempio.Sensor Function

variable {Addr : Type}

/-- A notification that the hub has handled: who sent it, and the address of the slot that
`resolveSourceSlot` found for it. -/
structure Notification (Addr : Type) where
  sender : Addr
  data : List UInt8
  source : Option Addr

/-- The hub and the nodes around it. Both ends of a connection know of it on their own:
`conn` is the client that a node's radio is connected to, `hub.central.link` the node that
a client is connected to. `toNode` and `toHub` are the writes and the notifications on the
way, and `accepts` are the nodes that have not had their connection of this wake yet. -/
structure System (Addr : Type) where
  hub : Radio Addr
  inbox : Inbox
  node : Addr → Node
  accepts : Addr → Bool
  conn : Addr → Option Client
  toNode : Addr → List (List UInt8)
  toHub : Client → List (Addr × List UInt8)
  handled : List (Notification Addr)

/-- How far a `connect` comes: the node is not reached, the connection breaks before the
call returns, or it is up. -/
inductive Contact
  | refused
  | broken
  | up

inductive SystemAction (Addr : Type)
  | hub (a : RadioAction Addr)
  | connect (contact : Contact)
  | bleSendToNode (addr : Addr) (data : List UInt8)
  | onDataNotify (c : Client) (rssi : Int8)
  | bleGetPendingReport
  | bleGetPendingAck
  | node (addr : Addr) (a : NodeAction)
  | dropNode (addr : Addr)

namespace System

/-- `prefs` is the interval that each node has stored. -/
def init [Inhabited Addr] (prefs : Addr → Option UInt16) : System Addr :=
  ⟨Radio.init, Inbox.init, fun a => Node.init (prefs a), fun _ => false, fun _ => none, fun _ => [],
    fun _ => [], []⟩

/-- A write through the CONFIG characteristic of a slot. It is lost when one end of the
connection is gone. -/
def writeValue [DecidableEq Addr] (s : System Addr) (slot : Fin maxNodes) (data : List UInt8) :
    System Addr :=
  match (s.hub.central.nodes.get slot).client with
  | none => s
  | some c =>
      match s.hub.central.link c with
      | none => s
      | some a =>
          if s.conn a = some c then { s with toNode := update s.toNode a (s.toNode a ++ [data]) } else s

variable [DecidableEq Addr]

/-- The write of `registerNode`. -/
def sendHubReady (s : System Addr) : System Addr :=
  match s.hub.central.task with
  | .greeting slot =>
      if (s.hub.central.nodes.get slot).configChar then s.writeValue slot hubReadyBytes else s
  | _ => s

def bleSendToNode (s : System Addr) (addr : Addr) (data : List UInt8) : System Addr :=
  match s.hub.central.findSlotIndex fun n => n.used && decide (n.addr = addr) with
  | some slot => if (s.hub.central.nodes.get slot).configChar then s.writeValue slot data else s
  | none => s

/-- `toText` is `NimBLEAddress::toString`. -/
def onDataNotify (toText : Addr → List Char) (s : System Addr) (c : Client) (rssi : Int8) (sender : Addr)
    (data : List UInt8) : System Addr :=
  let slot := s.hub.central.findSlotByClient c
  let source := slot.map fun i => (s.hub.central.nodes.get i).addr
  { s with
    inbox := s.inbox.dispatch slot ((source.map toText).getD "??".toList) rssi data
    handled := s.handled ++ [⟨sender, data, source⟩] }

/-- The node takes the connection, its only one of this wake. -/
def taken (s : System Addr) (addr : Addr) (c : Client) : System Addr :=
  { s with
    accepts := update s.accepts addr false
    conn := update s.conn addr (some c)
    toNode := update s.toNode addr [] }

/-- The connection callbacks run for a connection that is there, or is gone, and writes
arrive in their order. -/
def nodeReady (s : System Addr) (addr : Addr) : NodeAction → Bool
  | .onConnect => (s.conn addr).isSome
  | .onDisconnect => (s.conn addr).isNone
  | .onWrite val => (s.conn addr).isSome && decide ((s.toNode addr).head? = some val)
  | _ => true

/-- What a node sends goes to the client it is connected to, if that client's link is up. -/
def notifyHub (s : System Addr) (addr : Addr) (sent : List (List UInt8)) : System Addr :=
  match s.conn addr with
  | none => s
  | some c =>
      -- whether the hub has subscribed yet is left open, so that more arrives than in the source
      if s.hub.central.link c = some addr then
        { s with toHub := update s.toHub c (s.toHub c ++ sent.map fun data => (addr, data)) }
      else s

/-- The node has come to `n` by the action. A stack that is down has no connection. -/
def nodeMoved (s : System Addr) (addr : Addr) (a : NodeAction) (n : Node) : System Addr :=
  { s with
    node := update s.node addr n
    accepts := update s.accepts addr
      (match a with
      | .peripheralInit => true
      | _ => s.accepts addr && n.point.stackUp)
    conn := update s.conn addr (if n.point.stackUp then s.conn addr else none)
    toNode := update s.toNode addr
      (match a with
      | .onWrite _ => (s.toNode addr).tail
      | _ => s.toNode addr) }

end System

variable [DecidableEq Addr]

/-- The hub's own calls and callbacks. `connect` has an action of its own, and the
notifications of a connection are handled before its `onDisconnect`. -/
def hubStep (s : System Addr) (a : RadioAction Addr) : Option (System Addr) :=
  match a with
  | .connect _ => none
  | .onDisconnect c =>
      if s.toHub c = [] then (radioStep s.hub a).map fun r => { s with hub := r } else none
  | .writeHubReady => (radioStep s.hub a).map fun r => { s.sendHubReady with hub := r }
  | _ => (radioStep s.hub a).map fun r => { s with hub := r }

def connectStep (s : System Addr) (contact : Contact) : Option (System Addr) :=
  match s.hub.central.task with
  | .connecting addr _ c =>
      match contact with
      | .refused => (radioStep s.hub (.connect false)).map fun r => { s with hub := r }
      | .broken =>
          if s.accepts addr then
            (radioStep s.hub (.connect false)).map fun r => { s.taken addr c with hub := r }
          else none
      | .up =>
          if s.accepts addr then
            (radioStep s.hub (.connect true)).map fun r => { s.taken addr c with hub := r }
          else none
  | _ => none

def nodeStep (s : System Addr) (addr : Addr) (a : NodeAction) : Option (System Addr) :=
  if s.nodeReady addr a then
    (setupStep (s.node addr) a).map fun n =>
      (s.notifyHub addr (n.peripheral.notified.drop (s.node addr).peripheral.notified.length)).nodeMoved
        addr a n
  else none

def systemStep (toText : Addr → List Char) (s : System Addr) : SystemAction Addr → Option (System Addr)
  | .hub a => hubStep s a
  | .connect contact => connectStep s contact
  | .bleSendToNode addr data => some (s.bleSendToNode addr data)
  | .onDataNotify c rssi =>
      match s.toHub c with
      | (sender, data) :: rest =>
          some ({ s with toHub := update s.toHub c rest }.onDataNotify toText c rssi sender data)
      | [] => none
  | .bleGetPendingReport =>
      s.inbox.reportQueue.pop.map fun x => { s with inbox := { s.inbox with reportQueue := x.2 } }
  | .bleGetPendingAck =>
      s.inbox.ackQueue.pop.map fun x => { s with inbox := { s.inbox with ackQueue := x.2 } }
  | .node addr a => nodeStep s addr a
  | .dropNode addr => some { s with conn := update s.conn addr none }

/-- Every handled notification was found to come from the node that sent it, and whatever
waits to be published stands under the address of the node it comes from. -/
structure Attributed (toText : Addr → List Char) (s : System Addr) : Prop where
  source : ∀ e ∈ s.handled, e.source = some e.sender
  reports : ∀ r ∈ s.inbox.reportQueue.contents, ∃ e ∈ s.handled, r.Tells e.data (toText e.sender)
  acks : ∀ a ∈ s.inbox.ackQueue.contents, ∃ e ∈ s.handled,
    handleCmdAck e.data (toText e.sender) = some a

/-- Whatever a node has on the way to the hub, and whatever can still make it send, belongs to
a connection whose client stands in a used slot of the node. -/
structure Traced (s : System Addr) : Prop where
  wired : s.hub.Wired
  sent : ∀ c, ∀ e ∈ s.toHub c, s.hub.central.view.Registered c e.1
  spoken : ∀ a c, s.conn a = some c → s.hub.central.link c = some a →
    (s.toNode a ≠ [] ∨ (s.node a).Greeted) → s.hub.central.view.Registered c a
  accepting : ∀ a, s.accepts a = true →
    s.conn a = none ∧ (s.node a).point.stackUp = true ∧ ¬ (s.node a).Greeted
  down : ∀ a, (s.node a).point.stackUp = false → s.conn a = none
  fresh : ∀ a, (s.node a).point = .peripheralInit → ¬ (s.node a).Greeted

section

variable {s : System Addr} {r : Radio Addr} {addr : Addr} {a : RadioAction Addr}

theorem registered_step (h : s.hub.Wired) (hst : radioStep s.hub a = some r) {c : Client} {x : Addr}
    (ha : a ≠ .onDisconnect c) (hr : s.hub.central.view.Registered c x) :
    r.central.view.Registered c x := by
  obtain ⟨i, hu, hc, hx⟩ := hr
  obtain ⟨hu', hc', hx'⟩ := keeps_step h hst hu fun d hd hcd => by
    rw [hc] at hcd
    exact ha (Option.some.inj hcd ▸ hd)
  exact ⟨i, hu', hc'.trans hc, hx'.trans hx⟩

theorem link_eq_none_of_onDisconnect (h : s.hub.Wired) {c : Client}
    (hst : radioStep s.hub (.onDisconnect c) = some r) : s.hub.central.link c = none := by
  cases moves_of_radioStep hst with
  | reported _ hc => exact h.lostDown c hc

/-- A step of the hub that makes no link. -/
theorem Traced.hub (h : Traced s) (hst : radioStep s.hub a = some r) (ha : a ≠ .connect true)
    (hempty : ∀ c, a = .onDisconnect c → s.toHub c = []) : Traced { s with hub := r } where
  wired := wired_step h.wired hst
  sent c e he := by
    apply registered_step h.wired hst _ (h.sent c e he)
    intro hd
    have he : e ∈ s.toHub c := he
    rw [hempty c hd] at he
    cases he
  spoken x c hconn hl hx := by
    have hl' : s.hub.central.link c = some x :=
      (link_step hst hl).resolve_right fun hnew => ha hnew.1
    apply registered_step h.wired hst _ (h.spoken x c hconn hl' hx)
    rintro rfl
    rw [link_eq_none_of_onDisconnect h.wired hst] at hl'
    cases hl'
  accepting := h.accepting
  down := h.down
  fresh := h.fresh

/-- The node that takes a connection has heard nothing from the hub in this wake. -/
theorem Traced.taken (h : Traced s) {ok : Bool} {i : Fin maxNodes} {c : Client}
    (ht : s.hub.central.task = .connecting addr i c) (hacc : s.accepts addr = true)
    (hst : radioStep s.hub (.connect ok) = some r) : Traced { s.taken addr c with hub := r } where
  wired := wired_step h.wired hst
  sent d e he := registered_step h.wired hst (fun hd => by cases hd) (h.sent d e he)
  spoken x d hconn hl hx := by
    by_cases hxa : x = addr
    · subst hxa
      have hquiet := (h.accepting x hacc).2.2
      simp [System.taken, hquiet] at hx
    · have hconn : s.conn x = some d := by simpa [System.taken, hxa] using hconn
      have hx : s.toNode x ≠ [] ∨ (s.node x).Greeted := by simpa [System.taken, hxa] using hx
      have hl' : s.hub.central.link d = some x := by
        refine (link_step hst hl).resolve_right ?_
        rintro ⟨_, j, hj⟩
        rw [ht] at hj
        cases hj
        exact hxa rfl
      exact registered_step h.wired hst (fun hd => by cases hd) (h.spoken x d hconn hl' hx)
  accepting x hx := by
    by_cases hxa : x = addr
    · simp [System.taken, hxa] at hx
    · have hx : s.accepts x = true := by simpa [System.taken, hxa] using hx
      simpa [System.taken, hxa] using h.accepting x hx
  down x hx := by
    by_cases hxa : x = addr
    · subst hxa
      have hup := (h.accepting x hacc).2.1
      have hx : (s.node x).point.stackUp = false := hx
      rw [hup] at hx
      cases hx
    · simpa [System.taken, hxa] using h.down x hx
  fresh := h.fresh

theorem writeValue_eq (s : System Addr) (slot : Fin maxNodes) (data : List UInt8) :
    ∃ q, s.writeValue slot data = { s with toNode := q } := by
  unfold System.writeValue
  split
  · exact ⟨s.toNode, rfl⟩
  · split
    · exact ⟨s.toNode, rfl⟩
    · split_ifs
      · exact ⟨_, rfl⟩
      · exact ⟨s.toNode, rfl⟩

theorem sendHubReady_eq (s : System Addr) : ∃ q, s.sendHubReady = { s with toNode := q } := by
  unfold System.sendHubReady
  split
  · split_ifs
    · exact writeValue_eq s _ _
    · exact ⟨s.toNode, rfl⟩
  · exact ⟨s.toNode, rfl⟩

theorem bleSendToNode_eq (s : System Addr) (addr : Addr) (data : List UInt8) :
    ∃ q, s.bleSendToNode addr data = { s with toNode := q } := by
  unfold System.bleSendToNode
  split
  · split_ifs
    · exact writeValue_eq s _ _
    · exact ⟨s.toNode, rfl⟩
  · exact ⟨s.toNode, rfl⟩

/-- A write through a used slot reaches the node of the slot only. -/
theorem Traced.writeValue (h : Traced s) {slot : Fin maxNodes}
    (hu : (s.hub.central.nodes.get slot).used = true) (data : List UInt8) :
    Traced (s.writeValue slot data) := by
  unfold System.writeValue
  cases hc : (s.hub.central.nodes.get slot).client with
  | none => exact h
  | some c =>
      cases hl : s.hub.central.link c with
      | none => simpa only [hl] using h
      | some x =>
          simp only [hl]
          split_ifs with hconn
          · have hreg : s.hub.central.view.Registered c x := by
              have hlinked := h.wired.linked slot c hu hc
              have hx : s.hub.central.view.link c = some x := hl
              rw [Links.DownOrTo, hx] at hlinked
              have haddr := Option.some.inj (hlinked.resolve_left (Option.some_ne_none x))
              exact ⟨slot, hu, hc, haddr.symm⟩
            refine { h with spoken := fun y d hy hly hspoken => ?_ }
            by_cases hyx : y = x
            · subst hyx
              have hdc : d = c := Option.some.inj (hy.symm.trans hconn)
              exact hdc ▸ hreg
            · apply h.spoken y d hy hly
              simpa only [update_of_ne hyx] using hspoken
          · exact h

theorem Traced.bleSendToNode (h : Traced s) (addr : Addr) (data : List UInt8) :
    Traced (s.bleSendToNode addr data) := by
  unfold System.bleSendToNode
  cases hf : s.hub.central.findSlotIndex fun n => n.used && decide (n.addr = addr) with
  | none => exact h
  | some slot =>
      have hslot := Central.of_findSlotIndex hf
      simp only [Bool.and_eq_true] at hslot
      simp only
      split_ifs
      · exact h.writeValue hslot.1 data
      · exact h

/-- When HUB_READY is written the slot is registered, or its characteristic is gone. -/
theorem Traced.sendHubReady (h : Traced s) : Traced s.sendHubReady := by
  unfold System.sendHubReady
  cases ht : s.hub.central.task with
  | greeting slot =>
      simp only
      split_ifs with hconfig
      · apply h.writeValue
        apply (h.wired.ready slot hconfig).resolve_right
        intro hr
        cases (congrArg ConnectTask.registersAt ht).symm.trans hr
      · exact h
  | _ => exact h

omit [DecidableEq Addr] in
theorem heard_of_nodeReady {a : NodeAction} (hready : s.nodeReady addr a = true) {val : List UInt8}
    (ha : a = .onWrite val) : s.conn addr ≠ none ∧ s.toNode addr ≠ [] := by
  subst ha
  simp only [System.nodeReady, Bool.and_eq_true, decide_eq_true_eq] at hready
  constructor
  · intro hnone
    simp [hnone] at hready
  · intro hnil
    simp [hnil] at hready

/-- The hub has spoken to the node before the node sends anything. -/
theorem Traced.notifyHub (h : Traced s) {a : NodeAction} {n : Node}
    (hready : s.nodeReady addr a = true) (hm : NodeMoves (s.node addr) a n) :
    ∃ q, s.notifyHub addr (n.peripheral.notified.drop (s.node addr).peripheral.notified.length) =
      { s with toHub := q } ∧ ∀ c, ∀ e ∈ q c, s.hub.central.view.Registered c e.1 := by
  unfold System.notifyHub
  cases hc : s.conn addr with
  | none => exact ⟨s.toHub, rfl, h.sent⟩
  | some c =>
      simp only
      split_ifs with hl
      · refine ⟨_, rfl, fun d e he => ?_⟩
        by_cases hdc : d = c
        · subst hdc
          rw [update_self] at he
          rcases List.mem_append.mp he with he | he
          · exact h.sent d e he
          · obtain ⟨data, hdata, rfl⟩ := List.mem_map.mp he
            apply h.spoken addr d hc hl
            rcases sent_of_moves hm (List.ne_nil_of_mem hdata) with hg | ⟨val, hval⟩
            · exact .inr hg
            · exact .inl (heard_of_nodeReady hready hval).2
        · rw [update_of_ne hdc] at he
          exact h.sent d e he
      · exact ⟨s.toHub, rfl, h.sent⟩

theorem Traced.nodeMoved (h : Traced s) {a : NodeAction} {n : Node} (hready : s.nodeReady addr a = true)
    (hm : NodeMoves (s.node addr) a n) : Traced (s.nodeMoved addr a n) where
  wired := h.wired
  sent := h.sent
  spoken x c hconn hl hx := by
    by_cases hxa : x = addr
    · subst hxa
      have hconn : s.conn x = some c := by
        simp only [System.nodeMoved, update_self] at hconn
        split_ifs at hconn
        exact hconn
      apply h.spoken x c hconn hl
      simp only [System.nodeMoved, update_self] at hx
      rcases hx with hx | hx
      · left
        intro hnil
        apply hx
        rw [hnil]
        cases a <;> rfl
      · rcases greeted_of_moves hm hx with hg | ⟨val, hval⟩
        · exact .inr hg
        · exact .inl (heard_of_nodeReady hready hval).2
    · have hconn : s.conn x = some c := by simpa [System.nodeMoved, hxa] using hconn
      apply h.spoken x c hconn hl
      simpa [System.nodeMoved, hxa] using hx
  accepting x hx := by
    by_cases hxa : x = addr
    · subst hxa
      simp only [System.nodeMoved, update_self] at hx ⊢
      by_cases hinit : a = .peripheralInit
      · subst hinit
        cases hm with
        | started hp =>
            refine ⟨?_, rfl, ?_⟩
            · rw [h.down x (by rw [hp]; rfl), ite_self]
            · rintro (hg | hg | hg)
              · exact h.fresh x hp (.inl hg)
              · cases hg
              · cases hg
        | waiting _ ha hp | gaveUp _ ha hp | closed _ ha hp => cases ha
      · have hold : s.accepts x = true ∧ n.point.stackUp = true := by
          rw [← Bool.and_eq_true]
          cases a <;> first | exact hx | exact absurd rfl hinit
        obtain ⟨hconn, _, hquiet⟩ := h.accepting x hold.1
        refine ⟨by rw [hconn, ite_self], hold.2, fun hg => ?_⟩
        rcases greeted_of_moves hm hg with hg | ⟨val, hval⟩
        · exact hquiet hg
        · exact (heard_of_nodeReady hready hval).1 hconn
    · have hx : s.accepts x = true := by simpa [System.nodeMoved, hxa] using hx
      simpa [System.nodeMoved, hxa] using h.accepting x hx
  down x hx := by
    by_cases hxa : x = addr
    · subst hxa
      simp only [System.nodeMoved, update_self] at hx ⊢
      simp [hx]
    · simp only [System.nodeMoved, update_of_ne hxa] at hx ⊢
      exact h.down x hx
  fresh x hx := by
    by_cases hxa : x = addr
    · subst hxa
      simp only [System.nodeMoved, update_self] at hx ⊢
      exact not_greeted_of_restarted hm hx
    · simp only [System.nodeMoved, update_of_ne hxa] at hx ⊢
      exact h.fresh x hx

end

section

variable {toText : Addr → List Char} {s t : System Addr}

omit [DecidableEq Addr] in
theorem Attributed.same (h : Attributed toText s) (hinbox : t.inbox = s.inbox)
    (hhandled : t.handled = s.handled) : Attributed toText t where
  source := hhandled ▸ h.source
  reports := by
    rw [hinbox, hhandled]
    exact h.reports
  acks := by
    rw [hinbox, hhandled]
    exact h.acks

theorem Traced.hubStep (h : Traced s) {a : RadioAction Addr} (hst : hubStep s a = some t) :
    Traced t ∧ t.inbox = s.inbox ∧ t.handled = s.handled := by
  cases a with
  | connect ok => cases hst
  | onDisconnect c =>
      simp only [EndToEnd.hubStep] at hst
      split_ifs at hst with hempty
      obtain ⟨r, hr, rfl⟩ := Option.map_eq_some_iff.mp hst
      refine ⟨h.hub hr (fun ha => by cases ha) fun d hd => ?_, rfl, rfl⟩
      cases hd
      exact hempty
  | writeHubReady =>
      obtain ⟨r, hr, rfl⟩ := Option.map_eq_some_iff.mp hst
      obtain ⟨q, hq⟩ := sendHubReady_eq s
      have hsent := h.sendHubReady
      rw [hq] at hsent ⊢
      exact ⟨hsent.hub hr (fun ha => by cases ha) (fun d hd => by cases hd), rfl, rfl⟩
  | _ =>
      obtain ⟨r, hr, rfl⟩ := Option.map_eq_some_iff.mp hst
      exact ⟨h.hub hr (fun ha => by cases ha) (fun d hd => by cases hd), rfl, rfl⟩

theorem Traced.connectStep (h : Traced s) {contact : Contact} (hst : connectStep s contact = some t) :
    Traced t ∧ t.inbox = s.inbox ∧ t.handled = s.handled := by
  unfold EndToEnd.connectStep at hst
  cases ht : s.hub.central.task with
  | connecting addr i c =>
      simp only [ht] at hst
      cases contact with
      | refused =>
          obtain ⟨r, hr, rfl⟩ := Option.map_eq_some_iff.mp hst
          exact ⟨h.hub hr (fun ha => by cases ha) (fun d hd => by cases hd), rfl, rfl⟩
      | broken | up =>
          simp only at hst
          split_ifs at hst with hacc
          obtain ⟨r, hr, rfl⟩ := Option.map_eq_some_iff.mp hst
          exact ⟨h.taken ht hacc hr, rfl, rfl⟩
  | _ => simp [ht] at hst

theorem Traced.nodeStep (h : Traced s) {addr : Addr} {a : NodeAction} (hst : nodeStep s addr a = some t) :
    Traced t ∧ t.inbox = s.inbox ∧ t.handled = s.handled := by
  unfold EndToEnd.nodeStep at hst
  split_ifs at hst with hready
  obtain ⟨n, hn, rfl⟩ := Option.map_eq_some_iff.mp hst
  have hm := moves_of_setupStep hn
  obtain ⟨q, hq, hsent⟩ := h.notifyHub hready hm
  rw [hq]
  have hnotified : Traced { s with toHub := q } := { h with sent := hsent }
  exact ⟨hnotified.nodeMoved hready hm, rfl, rfl⟩

omit [DecidableEq Addr] in
/-- The slot of the client is the sender's. -/
theorem source_eq_sender (h : Traced s) {c : Client} {x : Addr}
    (hreg : s.hub.central.view.Registered c x) :
    (s.hub.central.findSlotByClient c).map (fun i => (s.hub.central.nodes.get i).addr) = some x := by
  obtain ⟨i, hu, hc, hx⟩ := hreg
  rw [Central.findSlotByClient_of_distinct (fun j hj => h.wired.distinct j i c hj hc) hu hc]
  exact congrArg some hx

omit [DecidableEq Addr] in
theorem Attributed.onDataNotify (h : Attributed toText s) {c : Client} {rssi : Int8} {sender : Addr}
    {data : List UInt8} (hsource : (s.hub.central.findSlotByClient c).map
      (fun i => (s.hub.central.nodes.get i).addr) = some sender) :
    Attributed toText (s.onDataNotify toText c rssi sender data) where
  source e he := by
    rcases List.mem_append.mp he with he | he
    · exact h.source e he
    · rw [List.mem_singleton.mp he]
      exact hsource
  reports r hr := by
    rcases report_of_dispatch hr with hr | hr
    · obtain ⟨e, he, htells⟩ := h.reports r hr
      exact ⟨e, List.mem_append_left _ he, htells⟩
    · rw [hsource] at hr
      exact ⟨_, List.mem_append_right _ List.mem_cons_self, hr⟩
  acks a ha := by
    rcases ack_of_dispatch ha with ha | ha
    · obtain ⟨e, he, hack⟩ := h.acks a ha
      exact ⟨e, List.mem_append_left _ he, hack⟩
    · rw [hsource] at ha
      exact ⟨_, List.mem_append_right _ List.mem_cons_self, ha⟩

theorem attributed_step {a : SystemAction Addr} (h : Traced s ∧ Attributed toText s)
    (hst : systemStep toText s a = some t) : Traced t ∧ Attributed toText t := by
  obtain ⟨h, hattr⟩ := h
  cases a with
  | hub a =>
      obtain ⟨ht, hinbox, hhandled⟩ := h.hubStep hst
      exact ⟨ht, hattr.same hinbox hhandled⟩
  | connect contact =>
      obtain ⟨ht, hinbox, hhandled⟩ := h.connectStep hst
      exact ⟨ht, hattr.same hinbox hhandled⟩
  | node addr a =>
      obtain ⟨ht, hinbox, hhandled⟩ := h.nodeStep hst
      exact ⟨ht, hattr.same hinbox hhandled⟩
  | bleSendToNode addr data =>
      rw [← Option.some.inj hst]
      obtain ⟨q, hq⟩ := bleSendToNode_eq s addr data
      refine ⟨h.bleSendToNode addr data, ?_⟩
      rw [hq]
      exact hattr.same rfl rfl
  | dropNode addr =>
      rw [← Option.some.inj hst]
      refine ⟨{ h with spoken := fun x c hconn => ?_, accepting := fun x hx => ?_, down := fun x hx => ?_ },
        hattr.same rfl rfl⟩
      all_goals by_cases hxa : x = addr
      · simp [hxa] at hconn
      · apply h.spoken x c
        simpa [hxa] using hconn
      · exact ⟨by simp [hxa], (h.accepting x hx).2⟩
      · simpa [hxa] using h.accepting x hx
      · simp [hxa]
      · simpa [hxa] using h.down x hx
  | onDataNotify c rssi =>
      cases hq : s.toHub c with
      | nil => simp [systemStep, hq] at hst
      | cons e rest =>
          obtain ⟨sender, data⟩ := e
          simp only [systemStep, hq, Option.some.injEq] at hst
          have hreg := h.sent c (sender, data) (hq ▸ List.mem_cons_self)
          have htraced : Traced { s with toHub := update s.toHub c rest } := by
            refine { h with sent := fun d e he => ?_ }
            by_cases hdc : d = c
            · subst hdc
              simp only [update_self] at he
              exact h.sent d e (hq ▸ List.mem_cons_of_mem _ he)
            · simp only [update_of_ne hdc] at he
              exact h.sent d e he
          have hattr' : Attributed toText { s with toHub := update s.toHub c rest } := hattr.same rfl rfl
          subst hst
          exact ⟨{ htraced with }, hattr'.onDataNotify (source_eq_sender htraced hreg)⟩
  | bleGetPendingReport =>
      obtain ⟨⟨r, q⟩, hp, rfl⟩ := Option.map_eq_some_iff.mp hst
      have hcontents := ThreadSafeQueue.contents_popUnsafe hp
      exact ⟨{ h with }, { hattr with
        reports := fun x hx => hattr.reports x (hcontents ▸ List.mem_cons_of_mem _ hx) }⟩
  | bleGetPendingAck =>
      obtain ⟨⟨r, q⟩, hp, rfl⟩ := Option.map_eq_some_iff.mp hst
      have hcontents := ThreadSafeQueue.contents_popUnsafe hp
      exact ⟨{ h with }, { hattr with
        acks := fun x hx => hattr.acks x (hcontents ▸ List.mem_cons_of_mem _ hx) }⟩

end

omit [DecidableEq Addr] in
theorem traced_init [Inhabited Addr] (prefs : Addr → Option UInt16) :
    Traced (System.init prefs : System Addr) where
  wired := wired_init
  sent c e he := by cases he
  spoken x c hconn := by cases hconn
  accepting x hx := by cases hx
  down x _ := rfl
  fresh x _ := not_greeted_boot (Node.init (prefs x))

/-- The handshake guarantees attribution: whatever the hub, the nodes and the links between
them do, no notification is handled under another node's address, or under none. -/
theorem always_attributed [Inhabited Addr] (toText : Addr → List Char) (prefs : Addr → Option UInt16)
    (as : List (SystemAction Addr)) :
    Always (systemStep toText) (Attributed toText) (System.init prefs) as := by
  have hattr : Attributed toText (System.init prefs) := {
    source := fun e he => by cases he
    reports := fun r hr => by simp [System.init, Inbox.init] at hr
    acks := fun a ha => by simp [System.init, Inbox.init] at ha }
  exact always_of_invariant (fun _ _ _ => attributed_step) (fun _ h => h.2) ⟨traced_init prefs, hattr⟩

/-- One wake of a node: NODE_INFO, the acknowledgement of a command, and SENSOR_DATA, the
last two handled after the link is lost. -/
example :
    (exec (systemStep fun a => Nat.toDigits 10 a) (System.init fun _ => none)
      ([.node 7 .peripheralInit, .hub (.onResult 7), .hub .processNextPending, .hub .stopScan,
        .hub .findEmptySlot, .hub .findReusableClient, .hub (.createClient true), .connect .up,
        .node 7 .onConnect, .node 7 (.waitConnect false), .hub (.discoverAndSubscribe true)] ++
      List.replicate 5 (.hub (.assign true)) ++
      [.hub .writeHubReady, .node 7 (.onWrite hubReadyBytes), .node 7 (.waitHubReady false),
        .node 7 .sendNodeInfo, .onDataNotify 0 (-60), .bleSendToNode 7 (SetInterval.bytes ⟨3, 300⟩),
        .node 7 (.onWrite (SetInterval.bytes ⟨3, 300⟩)), .node 7 (.sendSensorData ⟨1, 2, 3, 4⟩),
        .hub (.loseLink 0), .onDataNotify 0 0, .onDataNotify 0 0, .hub (.onDisconnect 0)])).map
      (fun s => (s.handled.map (·.source), s.inbox.ackQueue.contents)) =
    some ([some 7, some 7, some 7], [⟨strlcpy 18 ['7'], 3, true⟩]) := by
  decide +kernel

end Tempio.EndToEnd
