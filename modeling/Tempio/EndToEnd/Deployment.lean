import Tempio.EndToEnd.CommandPath
import Tempio.EndToEnd.Provenance
import Tempio.Hub.Invariant
import Tempio.Server.Routes

namespace Tempio.EndToEnd

open Tempio.Lib.Topic Tempio.Lib.Transition Tempio.Protocol Tempio.Hub Tempio.Hub.Ble Tempio.Sensor
  Tempio.Server

variable {Addr : Type}

/-- The world with what leads to a write of the hub: the requests that the server has let through, each
with its commands as they were published, the way of the envelopes, the commands of one that the MQTT
task has still to dispatch, and the tasks of the hub. -/
structure Deployment (Addr : Type) where
  world : World Addr
  counter : Nat
  served : List (Server.Request × List Command)
  path : CommandPath
  waiting : List MqttCommand
  hub : HubState

/-- `saveCommandLog` writes the row of one command of a request, `dispatchCommand` takes the next command
of an envelope. -/
inductive DeploymentAction (Addr : Type)
  | world (a : WorldAction Addr)
  | request (r : Server.Request)
  | saveCommandLog (call cmd : Nat)
  | restart
  | reboot (wifiConnected : Bool)
  | path (a : PathAction)
  | dispatchCommand (freeHeap : UInt32)
  | task (a : Hub.Action)

/-- The steps of the world that nothing in the deployment calls for. -/
def WorldAction.free : WorldAction Addr → Bool
  | .system (.bleSendToNode _ _) | .publishStatus _ _ | .reboot | .server (.saveCommandLog _ _ _) => false
  | _ => true

/-- The command that a step of the tasks hands to `trySend`. -/
def trying (s : HubState) : Hub.Action → Option MqttCommand
  | .send _ =>
      match s.mqtt with
      | .sending cmd => some cmd
      | _ => none
  | .resend _ =>
      match s.loop with
      | .sending _ cmd _ => some cmd
      | _ => none
  | _ => none

namespace Deployment

def init [Inhabited Addr] (prefs : Addr → Option UInt16) (wifiConnected : Bool) : Deployment Addr :=
  ⟨World.init prefs, 0, [], CommandPath.init wifiConnected, [], HubState.init⟩

/-- What `handleHubStatus` asks for. -/
def sources (s : Deployment Addr) (freeHeap : UInt32) : StatusSources Addr :=
  ⟨s.world.system.hub.central.nodes, freeHeap, s.hub.millis, s.path.session.connected⟩

/-- Only the MQTT task takes messages and dispatches commands. -/
def taskIdle (s : Deployment Addr) : Bool := s.hub.mqtt.inFlight.isEmpty

end Deployment

section

variable [DecidableEq Addr] [Inhabited Addr] (ble : NimBLEAddress Addr) (volt : VoltageText)
  (py : Pydantic) (sql : Sqlite) (mac : Mac) (json : ArduinoJson) (apiKey : Option String)

/-- `bleSendToNode` comes to its `writeValue`. -/
def System.reaches (s : System Addr) (addr : Addr) : Bool :=
  match s.hub.central.findSlotIndex fun n => n.used && decide (n.addr = addr) with
  | some slot => (s.hub.central.nodes.get slot).configChar
  | none => false

namespace Deployment

/-- A write needs the characteristic of the node. One that has come through may still be reported as
failed. -/
def mayAnswer (s : Deployment Addr) (link : Bool) (cmd : Option MqttCommand) : Bool :=
  cmd.all fun c => !link || s.world.system.reaches (ble.ofText c.target.chars)

/-- The answer of the BLE module to the task is one that it can give. -/
def answered (s : Deployment Addr) (a : Hub.Action) : Bool :=
  match a with
  | .send link | .resend link => s.mayAnswer ble link (trying s.hub a)
  | .connected answer =>
      match s.hub.loop with
      | .checking nodeId _ =>
          decide (answer = s.world.system.hub.central.isAlreadyConnected (ble.ofText nodeId.chars))
      | _ => true
  | .dispatch _ => false
  | _ => true

/-- `send_command` up to the end of `publish_commands`. -/
def request (s : Deployment Addr) (r : Server.Request) : Option (Deployment Addr) :=
  match getApiKeyVerifier apiKey r.xApiKey with
  | .allowed =>
      let assigned := assignCmdIds s.counter r.post.commands
      let path := if r.out then pathStep mac s.path (.publishCommands r.hubId assigned.2) else some s.path
      path.map fun path =>
        { s with counter := assigned.1, served := s.served ++ [(r, assigned.2)], path := path }
  | _ => some s

/-- The second loop of `send_command`, at one command. -/
def saveCommandLog (s : Deployment Addr) (call cmd : Nat) : Option (Deployment Addr) :=
  s.served[call]?.bind fun e =>
    if e.1.raised then none
    else e.2[cmd]?.bind fun c =>
      (worldStep ble volt py sql mac s.world (.server (.saveCommandLog e.1.hubId c e.1.now))).map
        fun world => { s with world := world }

/-- The MQTT task handles one event after the other. -/
def pathAction (s : Deployment Addr) : PathAction → Option (Deployment Addr)
  | .publishCommands _ _ => none
  | .deliver pieces =>
      if s.waiting.isEmpty && s.taskIdle then
        (pathStep mac s.path (.deliver pieces)).map fun path =>
          { s with
            path := path
            waiting := (path.dispatched.drop s.path.dispatched.length).flatMap (parseCommands json) }
      else none
  | a => (pathStep mac s.path a).map fun path => { s with path := path }

/-- The loop body of `parseAndDispatchCommands`, up to the first `trySend`. -/
def dispatchCommand (s : Deployment Addr) (freeHeap : UInt32) : Option (Deployment Addr) :=
  match s.waiting with
  | [] => none
  | cmd :: rest =>
      if cmd.forHub then
        if s.taskIdle then
          let text := (s.sources freeHeap).handleHubCommand s.hub.pool cmd
          some { s with world := text.elim s.world s.world.publish, waiting := rest }
        else none
      else (Hub.step json s.hub (.dispatch cmd)).map fun hub => { s with hub := hub, waiting := rest }

/-- The write that `trySend` makes. -/
def trySend (s : Deployment Addr) (cmd : MqttCommand) : Option (World Addr) :=
  match handle json cmd with
  | .write pkt =>
      worldStep ble volt py sql mac s.world (.system (.bleSendToNode (ble.ofText cmd.target.chars) pkt))
  | _ => some s.world

end Deployment

/-- Only the server publishes commands. The loop task calls `flushNodePending` for any node at any time,
which is more often than the source does. -/
def deploymentStep (s : Deployment Addr) : DeploymentAction Addr → Option (Deployment Addr)
  | .world a =>
      if a.free then
        (worldStep ble volt py sql mac s.world a).map fun world => { s with world := world }
      else none
  | .request r => s.request mac apiKey r
  | .saveCommandLog call cmd => s.saveCommandLog ble volt py sql mac call cmd
  | .restart => some { s with counter := 0 }
  | .reboot wifiConnected =>
      (worldStep ble volt py sql mac s.world .reboot).map fun world =>
        { s with
          world := world
          path := s.path.setSession (.mqttInit wifiConnected)
          waiting := []
          hub := HubState.init }
  | .path a => s.pathAction mac json a
  | .dispatchCommand freeHeap => s.dispatchCommand json freeHeap
  | .task a =>
      if s.answered ble a then
        (Hub.step json s.hub a).bind fun hub =>
          let world := (trying s.hub a).elim (some s.world) (s.trySend ble volt py sql mac json)
          world.map fun world => { s with hub := hub, world := world }
      else none

/-- The command stands in one of the texts. -/
def Parsed (texts : List (List Char)) (cmd : MqttCommand) : Prop :=
  ∃ text ∈ texts, cmd ∈ parseCommands json text

/-- A request asks for what the node has executed: the hub has made its packet of one of the commands that
were published for the request, with the stamp that the command had then. -/
def AskedFor (served : List (Server.Request × List Command)) (x : Addr × NodeCommand) : Prop :=
  ∃ e ∈ served, e.1.hubId = knownAs mac ∧ ∃ cmd ∈ parseCommands json (publishCommands e.2),
    ble.ofText cmd.target.chars = x.1 ∧
      ∃ stamp val, handle json (cmd.stamp stamp) = .write val ∧ Carries val x.2

/-- The row is the one of a command of a request. -/
def RowOf (served : List (Server.Request × List Command)) (log : CommandLog) : Prop :=
  ∃ e ∈ served, ∃ cmd ∈ e.2, (cmd.log e.1.hubId e.1.now).Follows log

/-- Nothing happens to a node or in the log without a request that has the key. -/
structure Traceable (s : Deployment Addr) : Prop where
  allowed : ∀ e ∈ s.served, (apiKey = none ∨ e.1.xApiKey = apiKey) ∧
    ∃ counter, e.2 = (assignCmdIds counter e.1.post.commands).2
  asked : ∀ x ∈ s.world.executed, AskedFor ble mac json s.served x
  logged : ∀ log ∈ s.world.server.logs, RowOf s.served log
  settled : ∀ log ∈ s.world.server.logs, log.hubId = knownAs mac → Settled s.world.executed log

end

section

variable {json : ArduinoJson} {texts texts' : List (List Char)} {cmd c d : MqttCommand}
  {served served' : List (Server.Request × List Command)} {log log' : CommandLog}

/-- The command as `parseAndDispatchCommands` has built it. -/
def order (json : ArduinoJson) (cmd : MqttCommand) : MqttCommand :=
  { cmd with queuedAt := json.unset, serial := 0 }

theorem order_eq_of_origin (h : c.origin = d.origin) : order json c = order json d :=
  calc
    order json c = order json c.origin := rfl
    _ = order json d.origin := congrArg (order json) h

theorem order_of_parsed (h : Parsed json texts cmd) : order json cmd = cmd := by
  obtain ⟨text, _, hcmd⟩ := h
  simp only [parseCommands] at hcmd
  split_ifs at hcmd
  · cases hcmd
  · cases hlist : asArray ((json.deserializeJson text).doc.get "commands") with
    | none => simp [hlist] at hcmd
    | some commands =>
        simp only [hlist] at hcmd
        obtain ⟨obj, _, rfl⟩ := List.mem_map.mp hcmd
        rfl

theorem Parsed.mono (h : Parsed json texts cmd) (htexts : texts ⊆ texts') : Parsed json texts' cmd :=
  have ⟨text, htext, hcmd⟩ := h
  ⟨text, htexts htext, hcmd⟩

theorem RowOf.mono (h : RowOf served log) (hserved : served ⊆ served') (hlog : log.Follows log') :
    RowOf served' log' :=
  have ⟨e, he, cmd, hcmd, hrow⟩ := h
  ⟨e, hserved he, cmd, hcmd, .trans _ _ _ hrow hlog⟩

/-- A request is let through for the key, or because none is set. -/
theorem xApiKey_of_allowed {apiKey xApiKey : Option String}
    (h : getApiKeyVerifier apiKey xApiKey = .allowed) : apiKey = none ∨ xApiKey = apiKey := by
  cases apiKey with
  | none => exact .inl rfl
  | some key =>
      cases xApiKey with
      | none => cases h
      | some x =>
          simp only [getApiKeyVerifier] at h
          split_ifs at h with _ _ hkey
          exact .inr (congrArg some hkey)

end

section

variable {mac : Mac} {p q : CommandPath} {hubId : String} {commands : List Command} {json : ArduinoJson}
  {s t : HubState} {cmd : MqttCommand} {a : Hub.Action}

theorem path_publishCommands (h : pathStep mac p (.publishCommands hubId commands) = some q) :
    q.dispatched = p.dispatched ∧
      ∀ text ∈ q.sent, text ∈ p.sent ∨ hubId = knownAs mac ∧ text = publishCommands commands := by
  by_cases hours : receives (Mqtt.topicCommands mac).chars (mqttTopicCommands hubId) = true
  · simp only [pathStep, if_pos hours, Option.some.injEq] at h
    subst h
    refine ⟨rfl, fun text htext => ?_⟩
    rcases List.mem_append.mp htext with htext | htext
    · exact .inl htext
    · exact .inr ⟨(receives_topicCommands_iff mac hubId).mp hours, List.mem_singleton.mp htext⟩
  · simp only [pathStep, if_neg hours, Option.some.injEq] at h
    exact h ▸ ⟨rfl, fun _ => .inl⟩

theorem path_deliver {pieces : List (List Char)} (h : pathStep mac p (.deliver pieces) = some q) :
    q.sent = p.sent ∧ p.dispatched <+: q.dispatched := by
  obtain ⟨_, hsent, _, _, hdispatched⟩ := deliver_cases h
  exact ⟨hsent, hdispatched ▸ List.prefix_append _ _⟩

theorem dispatched_of_dispatch (h : Hub.step json s (.dispatch cmd) = some t) :
    t.dispatched = s.dispatched ++ [(s.now, { cmd with serial := s.dispatched.length })] := by
  simp only [Hub.step] at h
  split at h
  · split_ifs at h
    exact Option.some.inj h ▸ rfl
  · cases h

/-- Only a dispatch adds to what was dispatched. -/
theorem dispatched_of_step (hs : Inv s) (h : Hub.step json s a = some t) (ha : ∀ cmd, a ≠ .dispatch cmd) :
    t.dispatched = s.dispatched := by
  cases Hub.moves_of_step hs.wf h with
  | dispatch cmd => exact absurd rfl (ha cmd)
  | _ => rfl

/-- The tasks try to send nothing but what was dispatched. -/
theorem known_of_trying (hs : Inv s) (h : trying s a = some cmd) :
    ∃ e ∈ s.dispatched, order json e.2 = order json cmd := by
  have hknown : ∃ e ∈ s.dispatched, e.2.origin = cmd.origin := by
    cases a with
    | send link =>
        cases hm : s.mqtt with
        | sending c =>
            simp only [trying, hm, Option.some.injEq] at h
            exact hs.known cmd (.inr (.inr (by simp [hm, h, MqttTask.inFlight])))
        | idle | pushing => simp [trying, hm] at h
    | resend link =>
        cases hl : s.loop with
        | sending n c resume =>
            simp only [trying, hl, Option.some.injEq] at h
            exact hs.known cmd (.inr (.inl (by simp [hl, h, LoopTask.held])))
        | _ => simp [trying, hl] at h
    | _ => cases h
  obtain ⟨e, he, horigin⟩ := hknown
  exact ⟨e, he, order_eq_of_origin horigin⟩

end

section

variable [DecidableEq Addr] [Inhabited Addr] {ble : NimBLEAddress Addr} {volt : VoltageText}
  {py : Pydantic} {sql : Sqlite} {mac : Mac} {s t : World Addr} {a : WorldAction Addr}

/-- A message moves rows on, and adds none. -/
theorem follows_of_message {server server' : Subscriber} {m : Message}
    (h : subscriberStep py sql server (.message m) = some server') :
    ∀ log ∈ server'.logs, ∃ old ∈ server.logs, old.Follows log := by
  obtain rfl := Option.some.inj h
  intro log hlog
  split_ifs at hlog
  · rw [onMessage_eq] at hlog
    obtain ⟨old, hold, rfl⟩ := List.mem_map.mp hlog
    exact ⟨old, hold, follows_ackRow sql m old⟩
  · exact ⟨log, hlog, .refl log⟩

/-- What is free to happen writes nothing to a node and adds no row to the log. -/
theorem worldStep_of_free (hfree : a.free = true) (h : worldStep ble volt py sql mac s a = some t) :
    t.written = s.written ∧ ∀ log ∈ t.server.logs, ∃ old ∈ s.server.logs, old.Follows log := by
  have hsame : ∀ log ∈ s.server.logs, ∃ old ∈ s.server.logs, old.Follows log :=
    fun log hlog => ⟨log, hlog, .refl log⟩
  cases a with
  | system a =>
      obtain ⟨u, _, rfl⟩ := Option.map_eq_some_iff.mp h
      cases a with
      | bleSendToNode _ _ => cases hfree
      | _ => exact ⟨List.append_nil _, hsame⟩
  | publishReport _ | publishAck =>
      obtain ⟨x, _, rfl⟩ := Option.map_eq_some_iff.mp h
      exact ⟨rfl, hsame⟩
  | publishStatus _ _ | reboot => cases hfree
  | deliver now ok =>
      cases htexts : s.texts with
      | nil => simp [worldStep, htexts] at h
      | cons text texts =>
          simp only [worldStep, htexts] at h
          obtain ⟨server, hserver, rfl⟩ := Option.map_eq_some_iff.mp h
          exact ⟨rfl, follows_of_message hserver⟩
  | lose => exact Option.some.inj h ▸ ⟨rfl, hsame⟩
  | server a =>
      simp only [worldStep] at h
      split_ifs at h
      obtain ⟨server, hserver, rfl⟩ := Option.map_eq_some_iff.mp h
      cases a with
      | connect _ | lost => exact Option.some.inj hserver ▸ ⟨rfl, hsame⟩
      | message m => exact ⟨rfl, follows_of_message hserver⟩
      | saveCommandLog _ _ _ => cases hfree

end

/-- Traceable, with what is on its way from the requests to the nodes. -/
structure Deployment.Sound (ble : NimBLEAddress Addr) (volt : VoltageText) (mac : Mac)
    (json : ArduinoJson) (apiKey : Option String) (s : Deployment Addr) : Prop where
  world : s.world.Sound ble volt mac
  allowed : ∀ e ∈ s.served, (apiKey = none ∨ e.1.xApiKey = apiKey) ∧
    ∃ counter, e.2 = (assignCmdIds counter e.1.post.commands).2
  path : Genuine s.path
  sent : ∀ text ∈ s.path.sent, ∃ e ∈ s.served, e.1.hubId = knownAs mac ∧ text = publishCommands e.2
  waiting : ∀ cmd ∈ s.waiting, Parsed json s.path.dispatched cmd
  hub : Inv s.hub
  dispatched : ∀ e ∈ s.hub.dispatched, Parsed json s.path.dispatched (order json e.2)
  written : ∀ x ∈ s.world.written, ∃ cmd stamp, Parsed json s.path.dispatched cmd ∧
    ble.ofText cmd.target.chars = x.1 ∧ handle json (cmd.stamp stamp) = .write x.2
  logged : ∀ log ∈ s.world.server.logs, RowOf s.served log

section

variable {ble : NimBLEAddress Addr} {volt : VoltageText} {mac : Mac} {json : ArduinoJson}
  {apiKey : Option String} {s t : Deployment Addr} {w : World Addr}

theorem Deployment.Sound.traceable (h : s.Sound ble volt mac json apiKey) :
    Traceable ble mac json apiKey s where
  allowed := h.allowed
  asked x hx := by
    obtain ⟨val, hwritten, hcarries⟩ := h.world.backed.asked x hx
    obtain ⟨cmd, stamp, ⟨text, htext, hcmd⟩, htarget, hpkt⟩ := h.written _ hwritten
    have hsent : text ∈ s.path.sent :=
      h.path.order.subset (List.mem_append_left _ htext)
    obtain ⟨e, he, hhub, rfl⟩ := h.sent text hsent
    exact ⟨e, he, hhub, cmd, hcmd, htarget, stamp, val, hpkt, hcarries⟩
  logged := h.logged
  settled := h.world.settled

/-- A step of the world alone. -/
theorem Deployment.Sound.setWorld (h : s.Sound ble volt mac json apiKey) (hw : w.Sound ble volt mac)
    (hwritten : w.written = s.world.written)
    (hlogs : ∀ log ∈ w.server.logs, ∃ old ∈ s.world.server.logs, old.Follows log) :
    Deployment.Sound ble volt mac json apiKey { s with world := w } :=
  { h with
    world := hw
    written := hwritten ▸ h.written
    logged := fun log hlog =>
      have ⟨old, hold, hfollows⟩ := hlogs log hlog
      (h.logged old hold).mono (List.Subset.refl _) hfollows }

/-- The way of the envelopes alone goes on. -/
theorem Deployment.Sound.setPath (h : s.Sound ble volt mac json apiKey) {path : CommandPath}
    (hgenuine : Genuine path) (hsent : path.sent = s.path.sent)
    (hdispatched : s.path.dispatched <+: path.dispatched) {waiting : List MqttCommand}
    (hwaiting : ∀ cmd ∈ waiting, Parsed json path.dispatched cmd) :
    Deployment.Sound ble volt mac json apiKey { s with path := path, waiting := waiting } :=
  { h with
    path := hgenuine
    sent := hsent ▸ h.sent
    waiting := hwaiting
    dispatched := fun e he => (h.dispatched e he).mono hdispatched.subset
    written := fun x hx =>
      have ⟨cmd, stamp, hcmd, hx⟩ := h.written x hx
      ⟨cmd, stamp, hcmd.mono hdispatched.subset, hx⟩ }

theorem Deployment.Sound.request (h : s.Sound ble volt mac json apiKey) {r : Server.Request}
    (hst : s.request mac apiKey r = some t) : t.Sound ble volt mac json apiKey := by
  simp only [Deployment.request] at hst
  cases hkey : getApiKeyVerifier apiKey r.xApiKey with
  | allowed =>
      simp only [hkey] at hst
      obtain ⟨path, hpath, rfl⟩ := Option.map_eq_some_iff.mp hst
      have hpath' : Genuine path ∧ path.dispatched = s.path.dispatched ∧ ∀ text ∈ path.sent,
          text ∈ s.path.sent ∨ r.hubId = knownAs mac ∧
            text = publishCommands (assignCmdIds s.counter r.post.commands).2 := by
        split_ifs at hpath with hout
        · exact ⟨genuine_step h.path hpath, path_publishCommands hpath⟩
        · exact Option.some.inj hpath ▸ ⟨h.path, rfl, fun _ => .inl⟩
      obtain ⟨hgenuine, hdispatched, hsent⟩ := hpath'
      refine { h with
        allowed := fun e he => ?_
        path := hgenuine
        sent := fun text htext => ?_
        waiting := hdispatched ▸ h.waiting
        dispatched := hdispatched ▸ h.dispatched
        written := hdispatched ▸ h.written
        logged := fun log hlog => (h.logged log hlog).mono (List.subset_append_left _ _) (.refl log) }
      · rcases List.mem_append.mp he with he | he
        · exact h.allowed e he
        · rw [List.mem_singleton.mp he]
          exact ⟨xApiKey_of_allowed hkey, s.counter, rfl⟩
      · rcases hsent text htext with htext | ⟨hhub, htext⟩
        · obtain ⟨e, he, hours⟩ := h.sent text htext
          exact ⟨e, List.mem_append_left _ he, hours⟩
        · exact ⟨_, List.mem_append_right _ List.mem_cons_self, hhub, htext⟩
  | invalidApiKey | error =>
      simp only [hkey, Option.some.injEq] at hst
      exact hst ▸ h

theorem Deployment.Sound.pathAction (h : s.Sound ble volt mac json apiKey) {a : PathAction}
    (hst : s.pathAction mac json a = some t) : t.Sound ble volt mac json apiKey := by
  cases a with
  | publishCommands _ _ => cases hst
  | deliver pieces =>
      simp only [Deployment.pathAction] at hst
      split_ifs at hst
      obtain ⟨path, hpath, rfl⟩ := Option.map_eq_some_iff.mp hst
      obtain ⟨hsent, hdispatched⟩ := path_deliver hpath
      refine h.setPath (genuine_step h.path hpath) hsent hdispatched fun cmd hcmd => ?_
      obtain ⟨text, htext, hcmd⟩ := List.mem_flatMap.mp hcmd
      exact ⟨text, List.mem_of_mem_drop htext, hcmd⟩
  | mqttLoop wifiNow =>
      simp only [Deployment.pathAction] at hst
      obtain ⟨path, hpath, rfl⟩ := Option.map_eq_some_iff.mp hst
      have hgenuine := genuine_step h.path hpath
      obtain rfl := Option.some.inj hpath
      exact h.setPath hgenuine rfl List.prefix_rfl h.waiting
  | onConnected _ | onDisconnected =>
      simp only [Deployment.pathAction] at hst
      obtain ⟨path, hpath, rfl⟩ := Option.map_eq_some_iff.mp hst
      have hgenuine := genuine_step h.path hpath
      simp only [pathStep] at hpath
      split_ifs at hpath
      obtain rfl := Option.some.inj hpath
      exact h.setPath hgenuine rfl List.prefix_rfl h.waiting

theorem Deployment.Sound.dispatchCommand (h : s.Sound ble volt mac json apiKey) {freeHeap : UInt32}
    (hst : s.dispatchCommand json freeHeap = some t) : t.Sound ble volt mac json apiKey := by
  cases hwaiting : s.waiting with
  | nil => simp [Deployment.dispatchCommand, hwaiting] at hst
  | cons cmd rest =>
      have hrest : ∀ c ∈ rest, Parsed json s.path.dispatched c :=
        fun c hc => h.waiting c (hwaiting ▸ List.mem_cons_of_mem cmd hc)
      simp only [Deployment.dispatchCommand, hwaiting] at hst
      split_ifs at hst
      · obtain rfl := Option.some.inj hst
        cases htext : (s.sources freeHeap).handleHubCommand s.hub.pool cmd with
        | none => exact { h with waiting := hrest }
        | some text =>
            have hstatus : Published ble volt s.world.executed s.world.system.handled text := by
              unfold StatusSources.handleHubCommand at htext
              split_ifs at htext
              exact Option.some.inj htext ▸ .status _ _
            exact { h with world := h.world.publish hstatus, waiting := hrest }
      · obtain ⟨hub, hhub, rfl⟩ := Option.map_eq_some_iff.mp hst
        refine { h with waiting := hrest, hub := inv_step h.hub hhub, dispatched := fun e he => ?_ }
        rw [dispatched_of_dispatch hhub] at he
        rcases List.mem_append.mp he with he | he
        · exact h.dispatched e he
        · have hcmd := h.waiting cmd (hwaiting ▸ List.mem_cons_self)
          rw [List.mem_singleton.mp he]
          exact order_of_parsed hcmd ▸ hcmd

end

section

variable [DecidableEq Addr] [Inhabited Addr] {ble : NimBLEAddress Addr} {volt : VoltageText}
  {py : Pydantic} {sql : Sqlite} {mac : Mac} {json : ArduinoJson} {apiKey : Option String}
  {s t : Deployment Addr} {w : World Addr} {cmd : MqttCommand}

theorem Deployment.Sound.saveCommandLog (h : s.Sound ble volt mac json apiKey) {call cmd : Nat}
    (hst : s.saveCommandLog ble volt py sql mac call cmd = some t) :
    t.Sound ble volt mac json apiKey := by
  obtain ⟨e, he, hst⟩ := Option.bind_eq_some_iff.mp hst
  split_ifs at hst
  obtain ⟨c, hc, hst⟩ := Option.bind_eq_some_iff.mp hst
  obtain ⟨w, hw, rfl⟩ := Option.map_eq_some_iff.mp hst
  have hsound := sound_worldStep h.world hw
  simp only [worldStep, foreign, if_true] at hw
  obtain ⟨server, hserver, rfl⟩ := Option.map_eq_some_iff.mp hw
  obtain rfl := Option.some.inj hserver
  refine { h with world := hsound, logged := fun log hlog => ?_ }
  rw [getD_saveCommandLog] at hlog
  rcases List.mem_append.mp hlog with hlog | hlog
  · exact h.logged log hlog
  · split_ifs at hlog
    · rw [List.mem_singleton.mp hlog]
      exact ⟨e, List.mem_of_getElem? he, c, List.mem_of_getElem? hc, .refl _⟩
    · cases hlog

theorem Deployment.Sound.trySend (h : s.Sound ble volt mac json apiKey)
    (hcmd : Parsed json s.path.dispatched (order json cmd))
    (hw : s.trySend ble volt py sql mac json cmd = some w) :
    Deployment.Sound ble volt mac json apiKey { s with world := w } := by
  unfold Deployment.trySend at hw
  cases hpkt : handle json cmd with
  | write pkt =>
      simp only [hpkt] at hw
      have hsound := sound_worldStep h.world hw
      simp only [worldStep] at hw
      obtain ⟨u, hu, rfl⟩ := Option.map_eq_some_iff.mp hw
      refine { h with world := hsound, written := fun x hx => ?_ }
      rcases List.mem_append.mp hx with hx | hx
      · exact h.written x hx
      · have hsame : handle json ((order json cmd).stamp cmd.queuedAt) = handle json cmd :=
          handle_congr rfl rfl rfl
        rw [List.mem_singleton.mp hx]
        exact ⟨order json cmd, cmd.queuedAt, hcmd, rfl, hsame.trans hpkt⟩
  | refused | overrun =>
      simp only [hpkt, Option.some.injEq] at hw
      exact hw ▸ h

theorem Deployment.Sound.task (h : s.Sound ble volt mac json apiKey) {a : Hub.Action}
    (hst : deploymentStep ble volt py sql mac json apiKey s (.task a) = some t) :
    t.Sound ble volt mac json apiKey := by
  simp only [deploymentStep] at hst
  split_ifs at hst with hanswer
  obtain ⟨hub, hhub, hst⟩ := Option.bind_eq_some_iff.mp hst
  obtain ⟨w, hw, rfl⟩ := Option.map_eq_some_iff.mp hst
  have hdispatched : hub.dispatched = s.hub.dispatched := by
    apply dispatched_of_step h.hub hhub
    rintro cmd rfl
    cases hanswer
  have hworld : Deployment.Sound ble volt mac json apiKey { s with world := w } := by
    cases htrying : trying s.hub a with
    | none =>
        simp only [htrying, Option.elim_none, Option.some.injEq] at hw
        exact hw ▸ h
    | some cmd =>
        simp only [htrying, Option.elim_some] at hw
        obtain ⟨e, he, horder⟩ := known_of_trying h.hub htrying
        exact h.trySend (horder ▸ h.dispatched e he) hw
  exact { hworld with hub := inv_step h.hub hhub, dispatched := hdispatched ▸ h.dispatched }

theorem sound_deploymentStep {a : DeploymentAction Addr} (h : s.Sound ble volt mac json apiKey)
    (hst : deploymentStep ble volt py sql mac json apiKey s a = some t) :
    t.Sound ble volt mac json apiKey := by
  cases a with
  | world a =>
      simp only [deploymentStep] at hst
      split_ifs at hst with hfree
      obtain ⟨w, hw, rfl⟩ := Option.map_eq_some_iff.mp hst
      obtain ⟨hwritten, hlogs⟩ := worldStep_of_free hfree hw
      exact h.setWorld (sound_worldStep h.world hw) hwritten hlogs
  | request r => exact h.request hst
  | saveCommandLog call cmd => exact h.saveCommandLog hst
  | restart => exact Option.some.inj hst ▸ { h with }
  | reboot wifiConnected =>
      simp only [deploymentStep] at hst
      obtain ⟨w, hw, rfl⟩ := Option.map_eq_some_iff.mp hst
      have hsound := sound_worldStep h.world hw
      obtain rfl := Option.some.inj hw
      exact {
        world := hsound
        allowed := h.allowed
        path := genuine_setSession h.path (Mqtt.Session.sound_mqttInit wifiConnected)
        sent := h.sent
        waiting := fun cmd hcmd => by cases hcmd
        hub := inv_init
        dispatched := fun e he => by cases he
        written := h.written
        logged := h.logged }
  | path a => exact h.pathAction hst
  | dispatchCommand freeHeap => exact h.dispatchCommand hst
  | task a => exact h.task hst

end

/-- Whatever comes between, a node executes nothing that a request with the key has not asked for, and
the log has no row for anything else, and none that says success for what no node has executed. -/
theorem always_traceable [DecidableEq Addr] [Inhabited Addr] (ble : NimBLEAddress Addr)
    (volt : VoltageText) (py : Pydantic) (sql : Sqlite) (mac : Mac) (json : ArduinoJson)
    (apiKey : Option String) (prefs : Addr → Option UInt16) (wifiConnected : Bool)
    (as : List (DeploymentAction Addr)) :
    Always (deploymentStep ble volt py sql mac json apiKey) (Traceable ble mac json apiKey)
      (Deployment.init prefs wifiConnected) as := by
  have hinit : (Deployment.init prefs wifiConnected).Sound ble volt mac json apiKey := {
    world := sound_init ble volt mac prefs
    allowed := fun e he => by cases he
    path := genuine_init wifiConnected
    sent := fun text htext => by cases htext
    waiting := fun cmd hcmd => by cases hcmd
    hub := inv_init
    dispatched := fun e he => by cases he
    written := fun x hx => by cases hx
    logged := fun log hlog => by cases hlog }
  exact always_of_invariant (fun _ _ _ => sound_deploymentStep) (fun _ h => h.traceable) hinit

/-- A database with ids that are integers. -/
def integerIds : Sqlite where
  equals
    | .int n => if Storable n then some fun m => decide (m = n) else none
    | _ => none
  equals_int _ := rfl

def hallNode : Mac := (1, 2, 3, 4, 5, 6)

def hallHub : Mac := (1, 2, 3, 4, 5, 7)

/-- The node wakes up, and the hub connects to it and greets it. -/
def greeting : List (SystemAction Mac) :=
  [.node hallNode .peripheralInit, .hub (.onResult hallNode), .hub .processNextPending, .hub .stopScan,
      .hub .findEmptySlot, .hub .findReusableClient, .hub (.createClient true), .connect .up,
      .node hallNode .onConnect, .node hallNode (.waitConnect false),
      .hub (.discoverAndSubscribe true)] ++
    List.replicate 5 (.hub (.assign true)) ++
    [.hub .writeHubReady, .node hallNode (.onWrite hubReadyBytes)]

/-- One test of the LED, from the request to its acknowledgement. -/
def testRun : List (DeploymentAction Mac) :=
  greeting.map (fun a => .world (.system a)) ++
    [.world (.server (.connect true)), .path (.onConnected true),
      .request ⟨knownAs hallHub, .test "01:02:03:04:05:06" true, some "key", true, false, "t0"⟩,
      .saveCommandLog 0 0,
      .path (.deliver [publishCommands [⟨"01:02:03:04:05:06", "TEST", .obj [("led", .bool true)], 1⟩]]),
      .dispatchCommand 0, .task (.send true),
      .world (.system (.node hallNode (.onWrite (TestCmd.bytes ⟨1, 0⟩)))),
      .world (.system (.onDataNotify 0 0)), .world .publishAck, .world (.deliver "t1" true)]

example : (exec (deploymentStep publicAddress wholeVolts fieldsOfNumbers integerIds hallHub .ofLoads
    (some "key")) (Deployment.init (fun _ => none) true) testRun).map
      (fun s => s.world.server.logs.map CommandLog.status) = some [.success] := by
  decide +kernel

end Tempio.EndToEnd
