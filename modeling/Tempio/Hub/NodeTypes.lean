import Tempio.Hub.DataNotify
import Tempio.Hub.Wiring

namespace Tempio.Hub.Ble

open Tempio.Lib.Transition Tempio.Protocol Function

/-- The BLE modules with the types of the nodes. The last four fields are auxiliary: the type
that the last NODE_INFO of each client's connection gave; for each slot, whether a NODE_INFO
was handled for it since it is used, and the type it held when it was taken; and the reports
enqueued for used slots, with what their connection had told before. -/
structure Typed (Addr : Type) where
  radio : Radio Addr
  inbox : Inbox
  info : Client → Option UInt8
  heard : Fin maxNodes → Bool
  leftover : Fin maxNodes → UInt8
  reports : List (SensorReport × Option UInt8)

inductive TypedAction (Addr : Type)
  | radio (a : RadioAction Addr)
  | onDataNotify (c : Client) (rssi : Int8) (data : List UInt8)
  | bleGetPendingReport
  | bleGetPendingAck

/-- The type in a NODE_INFO message. -/
def announced : List UInt8 → Option UInt8
  | [] => none
  | type :: rest =>
      if type = MsgType.nodeInfo.code then (NodeInfo.ofBytes (type :: rest)).map NodeInfo.nodeType
      else none

def reading : List UInt8 → Option SensorData
  | [] => none
  | type :: rest => if type = MsgType.sensorData.code then SensorData.ofBytes (type :: rest) else none

/-- The type of a node that has said so, or has said nothing. -/
def typeName (info : Option UInt8) : String :=
  if info = some NodeType.ir.code then "ir" else "sensor"

namespace Typed

variable {Addr : Type}

def init [Inhabited Addr] : Typed Addr :=
  ⟨Radio.init, Inbox.init, fun _ => none, fun _ => false, fun _ => NodeType.sensor.code, []⟩

/-- The radio has moved. A new connection has told nothing yet, and a slot keeps its type when
it is taken. -/
def moved (s : Typed Addr) (a : RadioAction Addr) (r : Radio Addr) : Typed Addr :=
  match a, s.radio.central.task with
  | .connect true, .connecting _ _ c => { s with radio := r, info := update s.info c none }
  | .assign _, .registering _ slot _ .used =>
      { s with
        radio := r
        heard := update s.heard slot false
        leftover := update s.leftover slot (s.inbox.nodeType slot) }
  | _, _ => { s with radio := r }

/-- The client's connection is there, or its loss is still to be reported. -/
def receives (s : Typed Addr) (c : Client) : Bool :=
  (s.radio.central.link c).isSome || decide (c ∈ s.radio.central.lost)

def dispatched (toText : Addr → List Char) (s : Typed Addr) (c : Client) (rssi : Int8)
    (data : List UInt8) : Inbox :=
  s.inbox.dispatch (s.radio.central.findSlotByClient c)
    (((s.radio.central.findSlotByClient c).map fun i =>
      toText (s.radio.central.nodes.get i).addr).getD "??".toList) rssi data

def onDataNotify (toText : Addr → List Char) (s : Typed Addr) (c : Client) (rssi : Int8)
    (data : List UInt8) : Typed Addr :=
  let inbox := s.dispatched toText c rssi data
  let enqueued := inbox.reportQueue.contents.drop s.inbox.reportQueue.contents.length
  { s with
    inbox := inbox
    info :=
      match announced data with
      | some type => update s.info c (some type)
      | none => s.info
    heard :=
      match announced data, s.radio.central.findSlotByClient c with
      | some _, some slot => update s.heard slot true
      | _, _ => s.heard
    reports := s.reports ++
      match s.radio.central.findSlotByClient c with
      | some _ => enqueued.map (·, s.info c)
      | none => [] }

end Typed

variable {Addr : Type}

/-- Every report carries the type that its own connection has told. -/
def OwnType (s : Typed Addr) : Prop :=
  ∀ e ∈ s.reports, e.1.nodeTypeStr = strlcpy 8 (typeName e.2).toList

instance decidableOwnType (s : Typed Addr) : Decidable (OwnType s) :=
  inferInstanceAs (Decidable (∀ e ∈ s.reports, _))

/-- When a reading of a used slot finds room, a NODE_INFO was handled for the slot since it is
used, or the type that the slot was taken with is the one its connection has told. -/
def NotInherited (s : Typed Addr) : TypedAction Addr → Prop
  | .onDataNotify c _ data => s.receives c = true → (reading data).isSome = true →
      s.inbox.reportQueue.contents.length < reportQueueMax →
      ∀ slot, s.radio.central.findSlotByClient c = some slot →
        s.heard slot = true ∨ typeName (some (s.leftover slot)) = typeName (s.info c)
  | _ => True

/-- A used slot has the type of its connection's last NODE_INFO, or the one that it was taken
with. -/
structure Sorted (s : Typed Addr) : Prop where
  wired : s.radio.Wired
  heard : ∀ i c, s.radio.central.view.used i = true → s.radio.central.view.client i = some c →
    s.heard i = true → s.info c = some (s.inbox.nodeType i)
  unheard : ∀ i, s.radio.central.view.used i = true → s.heard i = false →
    s.inbox.nodeType i = s.leftover i
  ownType : OwnType s

section

variable {s : Inbox} {slot : Option (Fin maxNodes)} {srcAddr : List Char} {rssi : Int8}
  {data : List UInt8}

theorem nodeType_dispatch : (s.dispatch slot srcAddr rssi data).nodeType =
    match announced data, slot with
    | some type, some i => update s.nodeType i type
    | _, _ => s.nodeType := by
  cases data with
  | nil => rfl
  | cons type rest =>
      simp only [Inbox.dispatch, announced]
      split_ifs
      · unfold Inbox.handleNodeInfo
        cases NodeInfo.ofBytes (type :: rest) with
        | none => rfl
        | some ni => cases slot <;> rfl
      · unfold Inbox.handleSensorData
        cases SensorData.ofBytes (type :: rest) <;> rfl
      · cases handleCmdAck (type :: rest) srcAddr <;> rfl
      · rfl

theorem contents_enqueueReport (s : Inbox) (rpt : SensorReport) :
    (s.enqueueReport rpt).reportQueue.contents =
      s.reportQueue.contents ++ if s.reportQueue.contents.length < reportQueueMax then [rpt] else [] := by
  unfold Inbox.enqueueReport ThreadSafeQueue.push
  cases hp : s.reportQueue.pushUnsafe rpt with
  | none =>
      rw [if_neg (Nat.not_lt.mpr (ThreadSafeQueue.pushUnsafe_eq_none.mp hp)), List.append_nil]
      rfl
  | some q =>
      have hroom : s.reportQueue.contents.length < reportQueueMax := by
        by_contra hfull
        rw [ThreadSafeQueue.pushUnsafe_eq_none.mpr (Nat.not_lt.mp hfull)] at hp
        cases hp
      rw [if_pos hroom]
      exact ThreadSafeQueue.contents_pushUnsafe hp

/-- What a message adds to the queue of the reports. -/
theorem reportQueue_dispatch : (s.dispatch slot srcAddr rssi data).reportQueue.contents =
    s.reportQueue.contents ++
      match reading data with
      | some sd =>
          if s.reportQueue.contents.length < reportQueueMax then [s.buildReport slot sd srcAddr rssi] else []
      | none => [] := by
  have hnone {inbox : Inbox} (hq : inbox.reportQueue = s.reportQueue) :
      inbox.reportQueue.contents = s.reportQueue.contents ++ [] := by
    rw [hq, List.append_nil]
  cases data with
  | nil => exact hnone rfl
  | cons type rest =>
      by_cases hsensor : type = MsgType.sensorData.code
      · have hinfo : type ≠ MsgType.nodeInfo.code := hsensor ▸ by decide
        simp only [Inbox.dispatch, reading, if_neg hinfo, if_pos hsensor, Inbox.handleSensorData]
        cases SensorData.ofBytes (type :: rest) with
        | none => exact hnone rfl
        | some sd => exact contents_enqueueReport s _
      · simp only [Inbox.dispatch, reading, if_neg hsensor]
        split_ifs
        · apply hnone
          unfold Inbox.handleNodeInfo
          cases NodeInfo.ofBytes (type :: rest) with
          | none => rfl
          | some ni => cases slot <;> rfl
        · apply hnone
          cases handleCmdAck (type :: rest) srcAddr <;> rfl
        · exact hnone rfl

end

section

variable {s : Typed Addr} {toText : Addr → List Char}

theorem used_of_setNode {u : Central Addr} {i j : Fin maxNodes} {n : ConnectedNode Addr}
    (hi : (u.setNode j n).view.used i = true) (hn : n.used = (u.nodes.get j).used) :
    u.view.used i = true := by
  rw [Central.view_setNode, hn] at hi
  rwa [← update_eq_self j u.view.used]

theorem typeName_eq_of_strlcpy {x y : Option UInt8}
    (h : strlcpy 8 (typeName x).toList = strlcpy 8 (typeName y).toList) : typeName x = typeName y := by
  unfold typeName at h ⊢
  split_ifs at h ⊢
  · rfl
  · exact absurd h (by decide)
  · exact absurd h (by decide)
  · rfl

theorem nodeTypeStr_buildReport (inbox : Inbox) (i : Fin maxNodes) (sd : SensorData) (srcAddr : List Char)
    (rssi : Int8) : (inbox.buildReport (some i) sd srcAddr rssi).nodeTypeStr =
      strlcpy 8 (typeName (some (inbox.nodeType i))).toList := by
  simp [Inbox.buildReport, typeName]

theorem client_of_findSlotByClient {u : Central Addr} {c : Client} {i : Fin maxNodes}
    (h : u.findSlotByClient c = some i) : u.view.client i = some c := by
  have hslot := Central.of_findSlotIndex h
  rw [Bool.and_eq_true, decide_eq_true_eq] at hslot
  exact hslot.2

theorem not_used_of_findSlotByClient {u : Central Addr} {c : Client} {i : Fin maxNodes}
    (h : u.findSlotByClient c = none) (hu : u.view.used i = true) : u.view.client i ≠ some c := by
  intro hc
  have hslot := Central.findSlotIndex_eq_none.mp h i
  have hu : (u.nodes.get i).used = true := hu
  have hc : (u.nodes.get i).client = some c := hc
  simp [hu, hc] at hslot

/-- The type of a used slot is the one its connection has told. -/
theorem Sorted.typeName_eq (h : Sorted s) {c : Client} {i : Fin maxNodes}
    (hi : s.radio.central.findSlotByClient c = some i)
    (hG : s.heard i = true ∨ typeName (some (s.leftover i)) = typeName (s.info c)) :
    typeName (some (s.inbox.nodeType i)) = typeName (s.info c) := by
  have hslot := Central.of_findSlotIndex hi
  simp only [Bool.and_eq_true, decide_eq_true_eq] at hslot
  cases hheard : s.heard i with
  | true => rw [h.heard i c hslot.1 hslot.2 hheard]
  | false =>
      rw [hheard] at hG
      rw [h.unheard i hslot.1 hheard]
      exact hG.resolve_left Bool.false_ne_true

/-- What a notification adds to the reports of its slot. -/
theorem reports_onDataNotify {c : Client} {rssi : Int8} {data : List UInt8} {i : Fin maxNodes}
    (hi : s.radio.central.findSlotByClient c = some i) :
    (s.onDataNotify toText c rssi data).reports = s.reports ++
      match reading data with
      | some sd =>
          if s.inbox.reportQueue.contents.length < reportQueueMax then
            [(s.inbox.buildReport (some i) sd (toText (s.radio.central.nodes.get i).addr) rssi, s.info c)]
          else []
      | none => [] := by
  simp only [Typed.onDataNotify, Typed.dispatched, reportQueue_dispatch, List.drop_left, hi,
    Option.map_some, Option.getD_some]
  cases reading data with
  | none => rfl
  | some sd =>
      simp only
      split_ifs <;> rfl

theorem Sorted.ownType_onDataNotify (h : Sorted s) {c : Client} {rssi : Int8} {data : List UInt8}
    (hreceives : s.receives c = true) (hG : NotInherited s (.onDataNotify c rssi data)) :
    OwnType (s.onDataNotify toText c rssi data) := by
  intro e he
  cases hi : s.radio.central.findSlotByClient c with
  | none =>
      simp only [Typed.onDataNotify, hi, List.append_nil] at he
      exact h.ownType e he
  | some i =>
      rw [reports_onDataNotify hi] at he
      rcases List.mem_append.mp he with he | he
      · exact h.ownType e he
      · cases hsd : reading data with
        | none => simp [hsd] at he
        | some sd =>
            simp only [hsd] at he
            split_ifs at he with hroom
            · rw [List.mem_singleton.mp he]
              have hknown := hG hreceives (hsd ▸ rfl) hroom i hi
              rw [nodeTypeStr_buildReport, h.typeName_eq hi hknown]
            · cases he

theorem Sorted.onDataNotify (h : Sorted s) {c : Client} {rssi : Int8} {data : List UInt8}
    (hreceives : s.receives c = true) (hG : NotInherited s (.onDataNotify c rssi data)) :
    Sorted (s.onDataNotify toText c rssi data) := by
  refine ⟨h.wired, fun i d hi hd hheard => ?_, fun i hi hheard => ?_,
    h.ownType_onDataNotify hreceives hG⟩
  · simp only [Typed.onDataNotify, Typed.dispatched, nodeType_dispatch] at hheard ⊢
    have hold := h.heard i d hi hd
    cases ha : announced data with
    | none =>
        simp only [ha] at hheard
        exact hold hheard
    | some type =>
        cases hj : s.radio.central.findSlotByClient c with
        | none =>
            simp only [ha, hj] at hheard ⊢
            have hdc : d ≠ c := fun hdc => not_used_of_findSlotByClient hj hi (hdc ▸ hd)
            rw [update_of_ne hdc]
            exact hold hheard
        | some j =>
            simp only [ha, hj] at hheard ⊢
            have hslot := client_of_findSlotByClient hj
            by_cases hij : i = j
            · subst hij
              obtain rfl : d = c := Option.some.inj (hd.symm.trans hslot)
              rw [update_self, update_self]
            · have hdc : d ≠ c := fun hdc => hij (h.wired.distinct i j c (hdc ▸ hd) hslot)
              rw [update_of_ne hij] at hheard
              rw [update_of_ne hdc, update_of_ne hij]
              exact hold hheard
  · simp only [Typed.onDataNotify, Typed.dispatched, nodeType_dispatch] at hheard ⊢
    have hold := h.unheard i hi
    cases ha : announced data with
    | none =>
        simp only [ha] at hheard
        exact hold hheard
    | some type =>
        cases hj : s.radio.central.findSlotByClient c with
        | none =>
            simp only [ha, hj] at hheard
            exact hold hheard
        | some j =>
            simp only [ha, hj] at hheard ⊢
            by_cases hij : i = j
            · simp [hij] at hheard
            · rw [update_of_ne hij] at hheard ⊢
              exact hold hheard

end

theorem sorted_init [Inhabited Addr] : Sorted (Typed.init : Typed Addr) := by
  have hused : ∀ i, (Typed.init : Typed Addr).radio.central.view.used i = false := fun i => by
    simp only [Typed.init, Radio.init, Central.view, Central.get_init]
  refine ⟨wired_init, fun i c hi => ?_, fun i hi => ?_, fun e he => absurd he List.not_mem_nil⟩
  · simp [hused] at hi
  · simp [hused] at hi

variable [DecidableEq Addr]

def typedStep (toText : Addr → List Char) (s : Typed Addr) : TypedAction Addr → Option (Typed Addr)
  | .radio a => (radioStep s.radio a).map (s.moved a)
  | .onDataNotify c rssi data =>
      if s.receives c then some (s.onDataNotify toText c rssi data) else none
  | .bleGetPendingReport =>
      s.inbox.reportQueue.pop.map fun x => { s with inbox := { s.inbox with reportQueue := x.2 } }
  | .bleGetPendingAck =>
      s.inbox.ackQueue.pop.map fun x => { s with inbox := { s.inbox with ackQueue := x.2 } }

section

variable {s t : Typed Addr} {r : Radio Addr} {toText : Addr → List Char}

/-- A slot becomes used by the last assignment of `registerNode` only. -/
theorem used_or_published {a : RadioAction Addr} (h : s.radio.Wired) (hst : radioStep s.radio a = some r)
    {i : Fin maxNodes} (hi : r.central.view.used i = true) : s.radio.central.view.used i = true ∨
      ∃ found addr c, a = .assign found ∧ s.radio.central.task = .registering addr i c .used := by
  cases moves_of_radioStep hst with
  | published addr slot c found hs ht =>
      by_cases his : i = slot
      · exact .inr ⟨found, addr, c, rfl, his ▸ ht⟩
      · left
        change (s.radio.central.setNode slot _).view.used i = true at hi
        rw [Central.view_setNode] at hi
        simpa only [update_of_ne his] using hi
  | assigned addr slot c next found hs ht hn =>
      left
      cases next with
      | used => exact absurd rfl hn
      | getCharacteristic => exact hi
      | client | configChar x | addr => exact used_of_setNode hi rfl
  | reused addr slot j c hs ht hu hc hfirst => exact .inl (used_of_setNode hi rfl)
  | stashed c j hs ht hu hc => exact .inl (used_of_setNode hi rfl)
  | cleanup hs ht =>
      have hv := Central.view_cleanupDisconnected s.radio.central
      exact .inl ((congrFun (congrArg Links.used hv) i).symm.trans hi)
  | disconnected c hs ht | lost c hl =>
      obtain ⟨link, lost, hdrop⟩ := Central.dropLink_eq s.radio.central c
      rw [hdrop] at hi
      exact .inl hi
  | found addr hs =>
      have hv := Central.view_onResult s.radio.central addr
      exact .inl ((congrFun (congrArg Links.used hv) i).symm.trans hi)
  | reported c hc =>
      have hv := Central.view_onDisconnect c (h.distinct · · c)
      have hi := (congrFun (congrArg Links.used hv) i).symm.trans hi
      simp only [Links.report, Bool.and_eq_true] at hi
      exact .inl hi.1
  | _ => exact .inl hi

/-- A used slot that was used before has kept its client. -/
theorem client_of_used {a : RadioAction Addr} (h : s.radio.Wired) (hst : radioStep s.radio a = some r)
    {i : Fin maxNodes} (hu : s.radio.central.view.used i = true) (hi : r.central.view.used i = true) :
    r.central.view.client i = s.radio.central.view.client i := by
  have hkeeps := keeps_step h hst hu fun c hc hclient => ?_
  · exact hkeeps.2.1
  · subst hc
    cases moves_of_radioStep hst with
    | reported _ hlost =>
        have hv := Central.view_onDisconnect c (h.distinct · · c)
        have hi := (congrFun (congrArg Links.used hv) i).symm.trans hi
        simp [Links.report, hclient] at hi

theorem Sorted.radio (h : Sorted s) {a : RadioAction Addr} (hst : radioStep s.radio a = some r) :
    Sorted (s.moved a r) := by
  have hwired := wired_step h.wired hst
  have hclient {i : Fin maxNodes} {c : Client} (hu : s.radio.central.view.used i = true)
      (hi : r.central.view.used i = true) (hc : r.central.view.client i = some c) :
      s.radio.central.view.client i = some c :=
    (client_of_used h.wired hst hu hi).symm.trans hc
  unfold Typed.moved
  split
  · rename_i addr slot c htask
    have hused {i : Fin maxNodes} (hi : r.central.view.used i = true) :
        s.radio.central.view.used i = true := by
      refine (used_or_published h.wired hst hi).resolve_right ?_
      rintro ⟨_, _, _, ha, _⟩
      cases ha
    refine ⟨hwired, fun i d hi hd hheard => ?_, fun i hi hheard => h.unheard i (hused hi) hheard,
      h.ownType⟩
    have hd := hclient (hused hi) hi hd
    -- the client that connects is in the task's hand, so it is in no slot
    have hdc : d ≠ c := fun hdc => h.wired.handFree c (congrArg ConnectTask.inHand htask) i (hdc ▸ hd)
    exact (update_of_ne hdc _ _).trans (h.heard i d (hused hi) hd hheard)
  · rename_i found addr slot c htask
    have hused {i : Fin maxNodes} (hi : r.central.view.used i = true) (his : i ≠ slot) :
        s.radio.central.view.used i = true := by
      refine (used_or_published h.wired hst hi).resolve_right ?_
      rintro ⟨_, _, _, _, ht⟩
      rw [htask] at ht
      cases ht
      exact his rfl
    refine ⟨hwired, fun i d hi hd hheard => ?_, fun i hi hheard => ?_, h.ownType⟩
    all_goals by_cases his : i = slot
    · simp [his] at hheard
    · simp only [update_of_ne his] at hheard
      exact h.heard i d (hused hi his) (hclient (hused hi his) hi hd) hheard
    · simp only [his, update_self]
    · simp only [update_of_ne his] at hheard
      exact (h.unheard i (hused hi his) hheard).trans (update_of_ne his _ _).symm
  · rename_i hother
    have hused {i : Fin maxNodes} (hi : r.central.view.used i = true) :
        s.radio.central.view.used i = true := by
      refine (used_or_published h.wired hst hi).resolve_right ?_
      rintro ⟨found, addr, c, rfl, ht⟩
      exact hother found addr i c rfl ht
    exact ⟨hwired, fun i d hi hd => h.heard i d (hused hi) (hclient (hused hi) hi hd),
      fun i hi => h.unheard i (hused hi), h.ownType⟩

theorem sorted_step {a : TypedAction Addr} (h : Sorted s) (hG : NotInherited s a)
    (hst : typedStep toText s a = some t) : Sorted t := by
  cases a with
  | radio a =>
      obtain ⟨r, hr, rfl⟩ := Option.map_eq_some_iff.mp hst
      exact h.radio hr
  | onDataNotify c rssi data =>
      simp only [typedStep] at hst
      split_ifs at hst with hreceives
      exact Option.some.inj hst ▸ h.onDataNotify hreceives hG
  | bleGetPendingReport =>
      obtain ⟨x, _, rfl⟩ := Option.map_eq_some_iff.mp hst
      exact ⟨h.wired, h.heard, h.unheard, h.ownType⟩
  | bleGetPendingAck =>
      obtain ⟨x, _, rfl⟩ := Option.map_eq_some_iff.mp hst
      exact ⟨h.wired, h.heard, h.unheard, h.ownType⟩

theorem inherited_of_not {a : TypedAction Addr} (h : Sorted s) (hG : ¬ NotInherited s a) :
    ∃ t, typedStep toText s a = some t ∧ ¬ OwnType t := by
  cases a with
  | onDataNotify c rssi data =>
      simp only [NotInherited, Classical.not_imp, not_forall, not_or] at hG
      obtain ⟨hreceives, hsome, hroom, i, hi, hheard, hne⟩ := hG
      obtain ⟨sd, hsd⟩ := Option.isSome_iff_exists.mp hsome
      refine ⟨s.onDataNotify toText c rssi data, if_pos hreceives, fun hown => hne ?_⟩
      have hslot := Central.of_findSlotIndex hi
      rw [Bool.and_eq_true] at hslot
      have htype := h.unheard i hslot.1 (Bool.eq_false_of_not_eq_true hheard)
      have hmem := hown (_, s.info c) (by
        rw [reports_onDataNotify hi, hsd]
        simp only [if_pos hroom]
        exact List.mem_append_right _ List.mem_cons_self)
      rw [nodeTypeStr_buildReport, htype] at hmem
      exact typeName_eq_of_strlcpy hmem
  | _ => exact absurd trivial hG

end

/-- The reports of a run all carry the type of their own node if and only if no reading takes
over the type of a former node of its slot. -/
theorem always_ownType_iff [Inhabited Addr] (toText : Addr → List Char) (as : List (TypedAction Addr)) :
    Always (typedStep toText) OwnType (Typed.init : Typed Addr) as ↔
      Along (typedStep toText) NotInherited (Typed.init : Typed Addr) as :=
  always_iff_along (fun _ _ _ => sorted_step) (fun _ => Sorted.ownType)
    (fun _ _ => inherited_of_not) sorted_init

/-- A node connects and is registered, with a new client or the one that is free. -/
def visit (addr : Nat) (client : List (RadioAction Nat)) : List (TypedAction Nat) :=
  let calls : List (RadioAction Nat) :=
    [.onResult addr, .processNextPending, .stopScan, .findEmptySlot] ++ client ++
      [.connect true, .discoverAndSubscribe true] ++ List.replicate 5 (.assign true) ++
      [.writeHubReady, .startScan]
  calls.map .radio

/-- An IR node leaves its slot to a sensor node whose NODE_INFO does not come. -/
def inheritedRun : List (TypedAction Nat) :=
  visit 7 [.findReusableClient, .createClient true] ++
    [.onDataNotify 0 0 (NodeInfo.bytes ⟨NodeType.ir.code, 3100, 0, 1⟩), .radio (.loseLink 0),
      .radio (.onDisconnect 0)] ++
    visit 8 [.findReusableClient] ++ [.onDataNotify 0 0 (SensorData.bytes ⟨1, 2, 3, 4⟩)]

theorem inheritedRun_shows_ir :
    ¬ Always (typedStep fun a => Nat.toDigits 10 a) OwnType (Typed.init : Typed Nat) inheritedRun := by
  decide +kernel

end Tempio.Hub.Ble
