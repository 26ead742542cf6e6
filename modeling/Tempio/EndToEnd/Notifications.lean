import Tempio.EndToEnd.Attribution
import Tempio.EndToEnd.CommandAck
import Tempio.EndToEnd.ReportPath

namespace Tempio.EndToEnd

open Tempio.Lib.Transition Tempio.Protocol Tempio.Hub Tempio.Hub.Ble Tempio.Sensor Function

/-- The command that a node finds in a write. -/
def commandOf (val : List UInt8) : Option NodeCommand :=
  match val with
  | [] => none
  | type :: _ =>
      if type = MsgType.setInterval.code then (SetInterval.ofBytes val).map .setInterval
      else if type = MsgType.resetNode.code then (ResetNode.ofBytes val).map .resetNode
      else if type = MsgType.testCmd.code then (TestCmd.ofBytes val).map .testCmd
      else none

section

variable {Addr : Type}

/-- What a step has the hub write to a node. -/
def SystemAction.written : SystemAction Addr → List (Addr × List UInt8)
  | .bleSendToNode addr data => [(addr, data)]
  | _ => []

/-- What a step has a node execute. -/
def SystemAction.executed : SystemAction Addr → List (Addr × NodeCommand)
  | .node addr (.onWrite val) => (commandOf val).toList.map fun c => (addr, c)
  | _ => []

/-- The acknowledgement of a command that a node has executed. -/
def ackOf (ble : NimBLEAddress Addr) (x : Addr × NodeCommand) : CmdAckReport :=
  ⟨ble.key x.1, x.2.cmdId, true⟩

/-- The report is made of a notification that the hub has handled. -/
def MadeOf (ble : NimBLEAddress Addr) (e : Notification Addr) (r : Hub.SensorReport) : Prop :=
  ∃ inbox slot rssi, reportOfNotify inbox slot (ble.toText e.sender) rssi e.data = some r

/-- Nothing between the nodes and the queues of the hub is made up: what a node executes the hub has
written to it, and what it acknowledges it has executed. -/
structure Backed (ble : NimBLEAddress Addr) (s : System Addr) (written : List (Addr × List UInt8))
    (executed : List (Addr × NodeCommand)) : Prop where
  traced : Traced s
  attributed : Attributed ble.toText s
  toNode : ∀ addr, ∀ val ∈ s.toNode addr, val = hubReadyBytes ∨ (addr, val) ∈ written
  asked : ∀ x ∈ executed, ∃ val, (x.1, val) ∈ written ∧ Carries val x.2
  toHub : ∀ c, ∀ e ∈ s.toHub c, ∀ r, ackOfNotify e.2 (ble.toText e.1) = some r →
    ∃ x ∈ executed, r = ackOf ble x
  acks : ∀ r ∈ s.inbox.ackQueue.contents, ∃ x ∈ executed, r = ackOf ble x
  reports : ∀ r ∈ s.inbox.reportQueue.contents, ∃ e ∈ s.handled, MadeOf ble e r

end

section

variable {p : Peripheral} {n m : Node} {a : NodeAction} {c : NodeCommand} {val data : List UInt8}
  {srcAddr : List Char} {rpt : CmdAckReport}

theorem commandOf_eq_some_iff : commandOf val = some c ↔ Carries val c := by
  cases val with
  | nil => exact iff_of_false nofun (not_carries_nil c)
  | cons type rest =>
      cases c with
      | setInterval m =>
          rw [carries_setInterval, commandOf]
          split_ifs with hset hreset htest <;> simp [hset]
      | resetNode m =>
          rw [carries_resetNode, commandOf]
          split_ifs with hset hreset htest
          · simp [hset, MsgType.code_inj]
          all_goals simp [hreset]
      | testCmd m =>
          rw [carries_testCmd, commandOf]
          split_ifs with hset hreset htest
          · simp [hset, MsgType.code_inj]
          · simp [hreset, MsgType.code_inj]
          all_goals simp [htest]

theorem commandOf_hubReadyBytes : commandOf hubReadyBytes = none := by decide

/-- A command is acknowledged at most once, and as a success. -/
theorem notified_run (p : Peripheral) (c : NodeCommand) : (c.run p).notified = p.notified ∨
    (c.run p).notified = p.notified ++ [CmdAck.bytes ⟨c.cmdId, 1⟩] := by
  cases c with
  | setInterval m =>
      simp only [NodeCommand.run, Peripheral.onSetInterval]
      split_ifs
      · exact .inr rfl
      · exact .inl rfl
  | resetNode m => exact .inl rfl
  | testCmd m =>
      simp only [NodeCommand.run, Peripheral.onTestCmd]
      split_ifs
      · exact .inr rfl
      · exact .inl rfl
      · exact .inr rfl
      · exact .inl rfl

theorem ack_of_onWrite (hdata : data ∈ (p.onWrite val).notified.drop p.notified.length)
    (hack : ackOfNotify data srcAddr = some rpt) :
    ∃ c, commandOf val = some c ∧ rpt = ⟨strlcpy 18 srcAddr, c.cmdId, true⟩ := by
  by_cases h : ∃ c, Carries val c
  · obtain ⟨c, hc⟩ := h
    refine ⟨c, commandOf_eq_some_iff.mpr hc, ?_⟩
    rw [onWrite_of_carries hc] at hdata
    rcases notified_run p c with hrun | hrun
    · rw [hrun, List.drop_length] at hdata
      cases hdata
    · rw [hrun, List.drop_left, List.mem_singleton] at hdata
      rw [hdata, ackOfNotify_bytes] at hack
      exact (Option.some.inj hack).symm
  · have hsame : (p.onWrite val).notified = p.notified := by
      rcases onWrite_of_not_carries (p := p) (not_exists.mp h) with hrun | hrun <;> rw [hrun]
    rw [hsame, List.drop_length] at hdata
    cases hdata

/-- A node acknowledges nothing but the command that it executes. -/
theorem ack_of_moves (h : NodeMoves n a m)
    (hdata : data ∈ m.peripheral.notified.drop n.peripheral.notified.length)
    (hack : ackOfNotify data srcAddr = some rpt) :
    ∃ val c, a = .onWrite val ∧ commandOf val = some c ∧ rpt = ⟨strlcpy 18 srcAddr, c.cmdId, true⟩ := by
  have hother {p q : Peripheral} {first : UInt8} {rest : List UInt8}
      (hfirst : first ≠ MsgType.cmdAck.code) (hq : q = p.notify (first :: rest) ∨ q = p)
      (hd : data ∈ q.notified.drop p.notified.length) : False := by
    rcases hq with rfl | rfl
    · rw [Peripheral.notify, List.drop_left, List.mem_singleton] at hd
      rw [hd, ackOfNotify, if_neg hfirst] at hack
      cases hack
    · rw [List.drop_length] at hd
      cases hd
  cases h with
  | written val hp hc =>
      rcases n.write_cases val with hw | ⟨n', hw⟩
      · rw [hw] at hdata
        obtain ⟨c, hc, hrpt⟩ := ack_of_onWrite hdata hack
        exact ⟨val, c, rfl, hc, hrpt⟩
      · rw [hw] at hdata
        exact absurd hdata (by simp [Node.boot, Peripheral.init])
  | sentNodeInfo hp =>
      have hsent : n.peripheral.sendNodeInfo = n.peripheral.notify _ ∨ _ = n.peripheral :=
        ite_eq_or_eq _ _ _
      exact (hother (by decide) hsent hdata).elim
  | sentSensorData sd hp =>
      have hsent : n.peripheral.sendSensorData sd = n.peripheral.notify _ ∨ _ = n.peripheral :=
        ite_eq_or_eq _ _ _
      exact (hother (by decide) hsent hdata).elim
  | booted hp => exact absurd hdata (by simp [Node.boot, Peripheral.init])
  | _ => exact absurd hdata (by simp [Peripheral.blePeripheralInit, Peripheral.endState,
      Peripheral.onConnect, Peripheral.onDisconnect])

end

section

variable {Addr : Type} [DecidableEq Addr] {toText : Addr → List Char} {s t : System Addr} {addr : Addr}
  {val : List UInt8} {r : CmdAckReport} {slot : Option (Fin maxNodes)} {rssi : Int8} {data : List UInt8}
  {srcAddr : List Char}

/-- An acknowledgement enters the queue for a message of its type only. -/
theorem ackOfNotify_of_dispatch {s : Inbox}
    (h : r ∈ (s.dispatch slot srcAddr rssi data).ackQueue.contents) :
    r ∈ s.ackQueue.contents ∨ ackOfNotify data srcAddr = some r := by
  cases data with
  | nil => exact .inl h
  | cons type rest =>
      by_cases htype : type = MsgType.cmdAck.code
      · rw [ackOfNotify, if_pos htype]
        exact ack_of_dispatch h
      · left
        simp only [Inbox.dispatch, if_neg htype] at h
        split_ifs at h
        · unfold Inbox.handleNodeInfo at h
          split at h <;> exact h
        · unfold Inbox.handleSensorData at h
          split at h <;> exact h
        · exact h

/-- A report enters the queue for a reading only. -/
theorem reportOfNotify_of_dispatch {s : Inbox} {r : Hub.SensorReport}
    (h : r ∈ (s.dispatch slot srcAddr rssi data).reportQueue.contents) :
    r ∈ s.reportQueue.contents ∨ reportOfNotify s slot srcAddr rssi data = some r := by
  rw [contents_dispatch] at h
  split_ifs at h
  · exact (List.mem_append.mp h).imp_right Option.mem_toList.mp
  · exact .inl h

theorem mem_toNode_writeValue {s : System Addr} {i : Fin maxNodes}
    (hwired : s.hub.Wired)
    (hval : val ∈ (s.writeValue i data).toNode addr) :
    val ∈ s.toNode addr ∨ val = data ∧
      ((s.hub.central.nodes.get i).used = true → (s.hub.central.nodes.get i).addr = addr) := by
  unfold System.writeValue at hval
  cases hc : (s.hub.central.nodes.get i).client with
  | none =>
      rw [hc] at hval
      exact .inl hval
  | some c =>
      cases hl : s.hub.central.link c with
      | none =>
          simp only [hc, hl] at hval
          exact .inl hval
      | some x =>
          simp only [hc, hl] at hval
          split_ifs at hval
          · by_cases hx : addr = x
            · subst hx
              simp only [update_self] at hval
              refine (List.mem_append.mp hval).imp_right fun h => ⟨List.mem_singleton.mp h, fun hu => ?_⟩
              have hreach := hwired.linked i c hu hc
              have hx : s.hub.central.view.link c = some addr := hl
              rw [Links.DownOrTo, hx] at hreach
              exact (Option.some.inj (hreach.resolve_left (Option.some_ne_none addr))).symm
            · simp only [update_of_ne hx] at hval
              exact .inl hval
          · exact .inl hval

theorem mem_toNode_sendHubReady {s : System Addr} (h : Traced s)
    (hval : val ∈ s.sendHubReady.toNode addr) : val ∈ s.toNode addr ∨ val = hubReadyBytes := by
  unfold System.sendHubReady at hval
  cases htask : s.hub.central.task with
  | greeting slot =>
      simp only [htask] at hval
      split_ifs at hval
      · exact (mem_toNode_writeValue h.wired hval).imp_right And.left
      · exact .inl hval
  | _ =>
      simp only [htask] at hval
      exact .inl hval

theorem mem_toNode_bleSendToNode {s : System Addr} (h : Traced s) {target : Addr}
    (hval : val ∈ (s.bleSendToNode target data).toNode addr) :
    val ∈ s.toNode addr ∨ val = data ∧ target = addr := by
  unfold System.bleSendToNode at hval
  cases hf : s.hub.central.findSlotIndex fun n => n.used && decide (n.addr = target) with
  | none =>
      rw [hf] at hval
      exact .inl hval
  | some i =>
      have hslot := Central.of_findSlotIndex hf
      simp only [Bool.and_eq_true, decide_eq_true_eq] at hslot
      simp only [hf] at hval
      split_ifs at hval
      · refine (mem_toNode_writeValue h.wired hval).imp_right fun hnew => ⟨hnew.1, ?_⟩
        exact hslot.2.symm.trans (hnew.2 hslot.1)
      · exact .inl hval

theorem connectStep_cases {contact : Contact} (h : connectStep s contact = some t) :
    t.inbox = s.inbox ∧ t.handled = s.handled ∧ t.toHub = s.toHub ∧
      ∀ x, ∀ val ∈ t.toNode x, val ∈ s.toNode x := by
  unfold connectStep at h
  cases htask : s.hub.central.task with
  | connecting target i c =>
      simp only [htask] at h
      cases contact with
      | refused =>
          obtain ⟨r, _, rfl⟩ := Option.map_eq_some_iff.mp h
          exact ⟨rfl, rfl, rfl, fun _ _ => id⟩
      | broken | up =>
          simp only at h
          split_ifs at h
          obtain ⟨r, _, rfl⟩ := Option.map_eq_some_iff.mp h
          refine ⟨rfl, rfl, rfl, fun x val hval => ?_⟩
          by_cases hx : x = target
          · simp [System.taken, hx] at hval
          · simpa [System.taken, hx] using hval
  | _ => simp [htask] at h

theorem hubStep_cases (h : Traced s) {a : RadioAction Addr} (hst : hubStep s a = some t) :
    t.inbox = s.inbox ∧ t.handled = s.handled ∧ t.toHub = s.toHub ∧
      ∀ x, ∀ val ∈ t.toNode x, val ∈ s.toNode x ∨ val = hubReadyBytes := by
  cases a with
  | connect ok => cases hst
  | onDisconnect c =>
      simp only [hubStep] at hst
      split_ifs at hst
      obtain ⟨r, _, rfl⟩ := Option.map_eq_some_iff.mp hst
      exact ⟨rfl, rfl, rfl, fun _ _ => .inl⟩
  | writeHubReady =>
      obtain ⟨r, _, rfl⟩ := Option.map_eq_some_iff.mp hst
      obtain ⟨q, hq⟩ := sendHubReady_eq s
      refine ⟨?_, ?_, ?_, fun x val => mem_toNode_sendHubReady h⟩
      all_goals simp only [hq]
  | _ =>
      obtain ⟨r, _, rfl⟩ := Option.map_eq_some_iff.mp hst
      exact ⟨rfl, rfl, rfl, fun _ _ => .inl⟩

theorem notifyHub_cases (s : System Addr) (addr : Addr) (sent : List (List UInt8)) :
    ∃ q, s.notifyHub addr sent = { s with toHub := q } ∧
      ∀ c, ∀ e ∈ q c, e ∈ s.toHub c ∨ e.1 = addr ∧ e.2 ∈ sent := by
  unfold System.notifyHub
  cases s.conn addr with
  | none => exact ⟨s.toHub, rfl, fun _ _ => .inl⟩
  | some c =>
      simp only
      split_ifs
      · refine ⟨_, rfl, fun d e he => ?_⟩
        by_cases hd : d = c
        · subst hd
          rw [update_self] at he
          rcases List.mem_append.mp he with he | he
          · exact .inl he
          · obtain ⟨data, hdata, rfl⟩ := List.mem_map.mp he
            exact .inr ⟨rfl, hdata⟩
        · rw [update_of_ne hd] at he
          exact .inl he
      · exact ⟨s.toHub, rfl, fun _ _ => .inl⟩

theorem nodeStep_cases {a : NodeAction} (h : nodeStep s addr a = some t) :
    t.inbox = s.inbox ∧ t.handled = s.handled ∧ (∀ x, ∀ val ∈ t.toNode x, val ∈ s.toNode x) ∧
      ∃ n, s.nodeReady addr a = true ∧ NodeMoves (s.node addr) a n ∧ ∀ c, ∀ e ∈ t.toHub c,
        e ∈ s.toHub c ∨ e.1 = addr ∧
          e.2 ∈ n.peripheral.notified.drop (s.node addr).peripheral.notified.length := by
  unfold nodeStep at h
  split_ifs at h with hready
  obtain ⟨n, hn, rfl⟩ := Option.map_eq_some_iff.mp h
  obtain ⟨q, hq, hsent⟩ := notifyHub_cases s addr
    (n.peripheral.notified.drop (s.node addr).peripheral.notified.length)
  rw [hq]
  refine ⟨rfl, rfl, fun x val hval => ?_, n, hready, moves_of_setupStep hn, hsent⟩
  by_cases hx : x = addr
  · subst hx
    simp only [System.nodeMoved, update_self] at hval
    cases a with
    | onWrite _ => exact List.mem_of_mem_tail hval
    | _ => exact hval
  · simpa only [System.nodeMoved, update_of_ne hx] using hval

variable {ble : NimBLEAddress Addr} {written : List (Addr × List UInt8)}
  {executed : List (Addr × NodeCommand)}

omit [DecidableEq Addr] in
/-- A step that tells the hub nothing new. -/
theorem Backed.quiet (h : Backed ble s written executed) (ht : Traced t ∧ Attributed ble.toText t)
    (hinbox : t.inbox = s.inbox) (hhandled : t.handled = s.handled)
    (hnode : ∀ x, ∀ val ∈ t.toNode x, val ∈ s.toNode x ∨ val = hubReadyBytes)
    (hhub : t.toHub = s.toHub) : Backed ble t written executed where
  traced := ht.1
  attributed := ht.2
  toNode x val hval := (hnode x val hval).elim (h.toNode x val) .inl
  asked := h.asked
  toHub := hhub ▸ h.toHub
  acks := hinbox ▸ h.acks
  reports := by
    rw [hinbox, hhandled]
    exact h.reports

theorem Backed.nodeStep (h : Backed ble s written executed) {a : NodeAction}
    (ht : Traced t ∧ Attributed ble.toText t) (hst : nodeStep s addr a = some t) :
    Backed ble t written (executed ++ SystemAction.executed (.node addr a)) := by
  obtain ⟨hinbox, hhandled, hnode, n, hready, hmoves, hsent⟩ := nodeStep_cases hst
  have hold : ∀ {r : CmdAckReport}, (∃ x ∈ executed, r = ackOf ble x) →
      ∃ x ∈ executed ++ SystemAction.executed (.node addr a), r = ackOf ble x :=
    fun ⟨x, hx, hr⟩ => ⟨x, List.mem_append_left _ hx, hr⟩
  refine ⟨ht.1, ht.2, fun x val hval => h.toNode x val (hnode x val hval), ?_, ?_, ?_, ?_⟩
  · intro x hx
    rcases List.mem_append.mp hx with hx | hx
    · exact h.asked x hx
    · cases a with
      | onWrite val =>
          obtain ⟨c, hc, rfl⟩ := List.mem_map.mp hx
          have hcarries : Carries val c := commandOf_eq_some_iff.mp (Option.mem_toList.mp hc)
          simp only [System.nodeReady, Bool.and_eq_true, decide_eq_true_eq] at hready
          rcases h.toNode addr val (List.mem_of_head? hready.2) with rfl | hwritten
          · rw [commandOf_hubReadyBytes] at hc
            cases hc
          · exact ⟨val, hwritten, hcarries⟩
      | _ => cases hx
  · intro c e he r hr
    rcases hsent c e he with he | ⟨rfl, hdata⟩
    · exact hold (h.toHub c e he r hr)
    · obtain ⟨val, cmd, rfl, hcmd, rfl⟩ := ack_of_moves hmoves hdata hr
      refine ⟨(e.1, cmd), List.mem_append_right _ ?_, rfl⟩
      exact List.mem_map.mpr ⟨cmd, Option.mem_toList.mpr hcmd, rfl⟩
  · rw [hinbox]
    exact fun r hr => hold (h.acks r hr)
  · rw [hinbox, hhandled]
    exact h.reports

theorem Backed.onDataNotify (h : Backed ble s written executed) {c : Client}
    (ht : Traced t ∧ Attributed ble.toText t)
    (hst : systemStep ble.toText s (.onDataNotify c rssi) = some t) : Backed ble t written executed := by
  cases hq : s.toHub c with
  | nil => simp [systemStep, hq] at hst
  | cons e rest =>
      have hsource := source_eq_sender h.traced (h.traced.sent c e (hq ▸ List.mem_cons_self))
      simp only [systemStep, hq, System.onDataNotify, hsource, Option.map_some, Option.getD_some,
        Option.some.injEq] at hst
      subst hst
      refine ⟨ht.1, ht.2, h.toNode, h.asked, fun d x hx => ?_, fun r hr => ?_, fun r hr => ?_⟩
      · apply h.toHub d x
        by_cases hd : d = c
        · subst hd
          simp only [update_self] at hx
          exact hq ▸ List.mem_cons_of_mem e hx
        · simpa only [update_of_ne hd] using hx
      · rcases ackOfNotify_of_dispatch hr with hr | hr
        · exact h.acks r hr
        · exact h.toHub c e (hq ▸ List.mem_cons_self) r hr
      · rcases reportOfNotify_of_dispatch hr with hr | hr
        · obtain ⟨x, hx, hmade⟩ := h.reports r hr
          exact ⟨x, List.mem_append_left _ hx, hmade⟩
        · exact ⟨_, List.mem_append_right _ List.mem_cons_self, _, _, _, hr⟩

theorem backed_step {a : SystemAction Addr} (h : Backed ble s written executed)
    (hst : systemStep ble.toText s a = some t) :
    Backed ble t (written ++ a.written) (executed ++ a.executed) := by
  have ht := attributed_step ⟨h.traced, h.attributed⟩ hst
  cases a with
  | hub a =>
      obtain ⟨hinbox, hhandled, hhub, hnode⟩ := hubStep_cases h.traced hst
      simpa only [SystemAction.written, SystemAction.executed, List.append_nil] using
        h.quiet ht hinbox hhandled hnode hhub
  | connect contact =>
      obtain ⟨hinbox, hhandled, hhub, hnode⟩ := connectStep_cases hst
      simpa only [SystemAction.written, SystemAction.executed, List.append_nil] using
        h.quiet ht hinbox hhandled (fun x val hval => .inl (hnode x val hval)) hhub
  | dropNode addr =>
      obtain rfl := Option.some.inj hst
      simpa only [SystemAction.written, SystemAction.executed, List.append_nil] using
        h.quiet ht rfl rfl (fun _ _ => .inl) rfl
  | node addr a =>
      simpa only [SystemAction.written, List.append_nil] using h.nodeStep ht hst
  | bleSendToNode target data =>
      obtain rfl := Option.some.inj hst
      obtain ⟨q, hq⟩ := bleSendToNode_eq s target data
      simp only [SystemAction.executed, List.append_nil]
      refine ⟨ht.1, ht.2, fun x val hval => ?_, fun x hx => ?_, ?_, ?_, ?_⟩
      · rcases mem_toNode_bleSendToNode h.traced hval with hval | ⟨rfl, rfl⟩
        · exact (h.toNode x val hval).imp_right (List.mem_append_left _)
        · exact .inr (List.mem_append_right _ List.mem_cons_self)
      · obtain ⟨val, hval, hcarries⟩ := h.asked x hx
        exact ⟨val, List.mem_append_left _ hval, hcarries⟩
      all_goals rw [hq]
      · exact h.toHub
      · exact h.acks
      · exact h.reports
  | onDataNotify c rssi =>
      simpa only [SystemAction.written, SystemAction.executed, List.append_nil] using
        h.onDataNotify ht hst
  | bleGetPendingReport =>
      obtain ⟨⟨r, q⟩, hp, rfl⟩ := Option.map_eq_some_iff.mp hst
      have hcontents := ThreadSafeQueue.contents_popUnsafe hp
      simp only [SystemAction.written, SystemAction.executed, List.append_nil]
      exact ⟨ht.1, ht.2, h.toNode, h.asked, h.toHub, h.acks,
        fun x hx => h.reports x (hcontents ▸ List.mem_cons_of_mem _ hx)⟩
  | bleGetPendingAck =>
      obtain ⟨⟨r, q⟩, hp, rfl⟩ := Option.map_eq_some_iff.mp hst
      have hcontents := ThreadSafeQueue.contents_popUnsafe hp
      simp only [SystemAction.written, SystemAction.executed, List.append_nil]
      exact ⟨ht.1, ht.2, h.toNode, h.asked, h.toHub,
        fun x hx => h.acks x (hcontents ▸ List.mem_cons_of_mem _ hx), h.reports⟩

theorem handled_systemStep (h : Traced s) {a : SystemAction Addr} (hst : systemStep toText s a = some t) :
    s.handled <+: t.handled := by
  have hsame (heq : t.handled = s.handled) : s.handled <+: t.handled := heq ▸ List.prefix_rfl
  cases a with
  | hub a => exact hsame (hubStep_cases h hst).2.1
  | connect contact => exact hsame (connectStep_cases hst).2.1
  | node addr a => exact hsame (nodeStep_cases hst).2.1
  | dropNode addr => exact hsame (Option.some.inj hst ▸ rfl)
  | bleSendToNode target data =>
      obtain rfl := Option.some.inj hst
      obtain ⟨q, hq⟩ := bleSendToNode_eq s target data
      exact hsame (by rw [hq])
  | onDataNotify c rssi =>
      cases hq : s.toHub c with
      | nil => simp [systemStep, hq] at hst
      | cons e rest =>
          simp only [systemStep, hq, Option.some.injEq] at hst
          exact hst ▸ List.prefix_append _ _
  | bleGetPendingReport | bleGetPendingAck =>
      obtain ⟨_, _, rfl⟩ := Option.map_eq_some_iff.mp hst
      exact hsame rfl

end

theorem backed_init {Addr : Type} [Inhabited Addr] (ble : NimBLEAddress Addr)
    (prefs : Addr → Option UInt16) : Backed ble (System.init prefs) [] [] where
  traced := traced_init prefs
  attributed := {
    source := fun e he => by cases he
    reports := fun r hr => by simp [System.init, Inbox.init] at hr
    acks := fun a ha => by simp [System.init, Inbox.init] at ha }
  toNode addr val hval := by cases hval
  asked x hx := by cases hx
  toHub c e he := by cases he
  acks r hr := by simp [System.init, Inbox.init] at hr
  reports r hr := by simp [System.init, Inbox.init] at hr

end Tempio.EndToEnd
