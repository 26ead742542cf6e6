import Mathlib.Data.Nat.ModEq
import Tempio.Server.LogLifeCycle

namespace Tempio.Server

open Tempio.Lib Tempio.Lib.Json Tempio.Lib.Transition

/-- `app.state.api_key` -/
def configuredKey (apiKey : String) : Option String := if apiKey = "" then none else some apiKey

/-- What becomes of a request: the route, status 401, or the `TypeError` of `compare_digest`, which takes
no letters beyond ASCII. -/
inductive Access
  | allowed
  | invalidApiKey
  | error
deriving DecidableEq

def isAscii (s : String) : Bool := s.toList.all fun c => c.toNat < 128

def getApiKeyVerifier (apiKey xApiKey : Option String) : Access :=
  match apiKey, xApiKey with
  | none, _ => .allowed
  | some _, none => .invalidApiKey
  | some key, some x =>
      if x = "" then .invalidApiKey
      else if !(isAscii x && isAscii key) then .error
      else if x = key then .allowed
      else .invalidApiKey

/-- The routes that send commands. -/
inductive Post
  | command (commands : List Command)
  | status
  | test (target : String) (led : Bool)

def Post.commands : Post → List Command
  | .command commands => commands
  | .status => [⟨"", "HUB_STATUS", .obj [], 0⟩]
  | .test target led => [⟨target, "TEST", .obj [("led", .bool led)], 0⟩]

structure Request where
  hubId : String
  post : Post
  xApiKey : Option String
  out : Bool
  raised : Bool
  now : String

inductive ApiAction
  | request (r : Request)
  | saveLog (call : Nat) (ok : Bool)
  | processAck (hubId : String) (cmdId : Int) (success : Bool) (now : String)
  | restart

/-- The server when `send_command` is called by the routes only. -/
def apiStep (apiKey : Option String) (s : Service) : ApiAction → Option Service
  | .request r =>
      match getApiKeyVerifier apiKey r.xApiKey with
      | .allowed => logStep s (.serve (.sendCommand r.hubId r.post.commands r.out r.raised r.now))
      | _ => some s
  | .saveLog call ok => logStep s (.serve (.saveLog call ok))
  | .processAck hubId cmdId success now => logStep s (.processAck hubId cmdId success now)
  | .restart => logStep s (.serve .restart)

/-- The commands of a request that is let through, each with its hub. -/
def ApiAction.posted (apiKey : Option String) : ApiAction → List (String × Command)
  | .request r =>
      match getApiKeyVerifier apiKey r.xApiKey with
      | .allowed => r.post.commands.map fun cmd => (r.hubId, cmd)
      | _ => []
  | _ => []

def posted (apiKey : Option String) (as : List ApiAction) : List (String × Command) :=
  as.flatMap (ApiAction.posted apiKey)

def ApiAction.isRestart : ApiAction → Bool
  | .restart => true
  | _ => false

def autoCount (cmds : List Command) : Nat := cmds.countP fun cmd => cmd.cmdId = 0

/-- What the publisher has been handed since the server was started. -/
structure Served (posts : List (String × Command)) (sent : List Sent) : Prop where
  hubs : sent.map Sent.hubId = posts.map Prod.fst
  commands : sent.map Sent.command = (assignCmdIds 0 (posts.map Prod.snd)).2
  ids : ∀ (i j : Nat) (p q : Sent), i < j → sent[i]? = some p → sent[j]? = some q →
    (posts.map fun x => x.2.cmdId)[i]? = some 0 → (posts.map fun x => x.2.cmdId)[j]? = some 0 →
      (p.command.cmdId = q.command.cmdId ↔
        65535 ∣ autoCount (((posts.map Prod.snd).take j).drop i))

section

variable {c i : Nat} {cmds cmds' : List Command} {cmd : Command}

theorem assignCmdIds_append (c : Nat) (cmds cmds' : List Command) :
    assignCmdIds c (cmds ++ cmds') =
      ((assignCmdIds (assignCmdIds c cmds).1 cmds').1,
        (assignCmdIds c cmds).2 ++ (assignCmdIds (assignCmdIds c cmds).1 cmds').2) := by
  induction cmds generalizing c with
  | nil => rfl
  | cons cmd cmds ih =>
      simp only [List.cons_append, assignCmdIds]
      split_ifs <;> simp only [ih, List.cons_append]

/-- The id that a command without one gets is counted from those before it. -/
theorem getElem?_assignCmdIds (h : cmds[i]? = some cmd) :
    (assignCmdIds c cmds).2[i]? = some
      { cmd with
        cmdId := if cmd.cmdId = 0 then ((c + autoCount (cmds.take i)) % 65535 + 1 : Nat) else cmd.cmdId } := by
  induction cmds generalizing c i with
  | nil => cases h
  | cons first cmds ih =>
      cases i with
      | zero =>
          obtain rfl := Option.some.inj h
          simp only [assignCmdIds]
          split_ifs <;> rfl
      | succ i =>
          have hrest : cmds[i]? = some cmd := h
          by_cases h0 : first.cmdId = 0
          · have hcount : autoCount (first :: cmds.take i) = autoCount (cmds.take i) + 1 :=
              List.countP_cons_of_pos (by simpa using h0)
            have hmod : (nextCmdId c + autoCount (cmds.take i)) % 65535 =
                (c + (autoCount (cmds.take i) + 1)) % 65535 := by
              unfold nextCmdId
              omega
            simp only [assignCmdIds, if_pos h0, List.getElem?_cons_succ, ih hrest, List.take_succ_cons, hcount,
              hmod]
          · have hcount : autoCount (first :: cmds.take i) = autoCount (cmds.take i) :=
              List.countP_cons_of_neg (by simpa using h0)
            simp only [assignCmdIds, if_neg h0, List.getElem?_cons_succ, ih hrest, List.take_succ_cons, hcount]

/-- Two ids that the server has given are the same after each 65535 of them. -/
theorem autoIds_eq_iff {i j : Nat} {cmd cmd' : Command} (hij : i < j)
    (hi : (assignCmdIds 0 cmds).2[i]? = some cmd) (hj : (assignCmdIds 0 cmds).2[j]? = some cmd')
    (hi0 : (cmds.map Command.cmdId)[i]? = some 0) (hj0 : (cmds.map Command.cmdId)[j]? = some 0) :
    cmd.cmdId = cmd'.cmdId ↔ 65535 ∣ autoCount ((cmds.take j).drop i) := by
  rw [List.getElem?_map] at hi0 hj0
  obtain ⟨x, hx, hx0⟩ := Option.map_eq_some_iff.mp hi0
  obtain ⟨y, hy, hy0⟩ := Option.map_eq_some_iff.mp hj0
  rw [getElem?_assignCmdIds hx, if_pos hx0] at hi
  rw [getElem?_assignCmdIds hy, if_pos hy0] at hj
  obtain rfl := Option.some.inj hi
  obtain rfl := Option.some.inj hj
  have hcount : autoCount (cmds.take j) = autoCount (cmds.take i) + autoCount ((cmds.take j).drop i) := by
    have htake : (cmds.take j).take i = cmds.take i := by rw [List.take_take, Nat.min_eq_left hij.le]
    rw [← htake, autoCount, autoCount, autoCount, ← List.countP_append, List.take_append_drop]
  simp only [hcount, Nat.zero_add]
  omega

end

section

variable {apiKey : Option String} {s t : Service} {a : ApiAction}

theorem map_set_row {β : Type} {f : Sent → β} (hf : ∀ p row, f { p with row := row } = f p) {sent : List Sent}
    {j : Nat} {p : Sent} (hp : sent[j]? = some p) (row : Option Nat) :
    (sent.set j { p with row := row }).map f = sent.map f := by
  have hmap : (sent.map f)[j]? = some (f { p with row := row }) := by
    rw [List.getElem?_map, hp, hf]
    rfl
  obtain ⟨hj, hmap⟩ := List.getElem?_eq_some_iff.mp hmap
  rw [List.map_set, ← hmap, List.set_getElem_self]

/-- One step hands over what it posts. -/
theorem sent_apiStep (h : apiStep apiKey s a = some t) (ha : a.isRestart = false) :
    t.sent.map Sent.hubId = s.sent.map Sent.hubId ++ (a.posted apiKey).map Prod.fst ∧
      t.sent.map Sent.command =
        s.sent.map Sent.command ++ (assignCmdIds s.counter ((a.posted apiKey).map Prod.snd)).2 ∧
      t.counter = (assignCmdIds s.counter ((a.posted apiKey).map Prod.snd)).1 := by
  cases a with
  | request r =>
      cases hv : getApiKeyVerifier apiKey r.xApiKey with
      | allowed =>
          simp only [apiStep, hv, logStep, step, Option.some.injEq] at h
          subst h
          have hpairs : (ApiAction.posted apiKey (.request r)).map Prod.snd = r.post.commands := by
            simp [ApiAction.posted, hv]
          refine ⟨?_, ?_, by rw [hpairs]; rfl⟩
          · simp [Service.sendCommand, ApiAction.posted, hv, Function.comp_def, length_assignCmdIds]
          · rw [hpairs]
            simp [Service.sendCommand, Function.comp_def]
      | invalidApiKey | error =>
          simp only [apiStep, hv, Option.some.injEq] at h
          subst h
          simp [ApiAction.posted, hv, assignCmdIds]
  | saveLog call ok =>
      obtain ⟨c, j, rest, p, hcall, hrem, hp, ⟨_, _, rfl⟩ | ⟨_, rfl⟩⟩ := saveLog_cases h
      · simp [map_set_row (f := Sent.hubId) (fun _ _ => rfl) hp, map_set_row (f := Sent.command) (fun _ _ => rfl) hp,
          ApiAction.posted, assignCmdIds]
      · simp [Service.raise, ApiAction.posted, assignCmdIds]
  | processAck hubId cmdId success now =>
      obtain rfl := Option.some.inj h
      simp [Service.processAck, Function.comp_def, Sent.hubId_ack, Sent.command_ack, ApiAction.posted, assignCmdIds]
  | restart => cases ha

theorem sent_of_exec {as : List ApiAction} (h : exec (apiStep apiKey) s as = some t)
    (has : ∀ a ∈ as, a.isRestart = false) :
    t.sent.map Sent.hubId = s.sent.map Sent.hubId ++ (posted apiKey as).map Prod.fst ∧
      t.sent.map Sent.command =
        s.sent.map Sent.command ++ (assignCmdIds s.counter ((posted apiKey as).map Prod.snd)).2 := by
  induction as generalizing s with
  | nil =>
      obtain rfl := Option.some.inj h
      simp [posted, assignCmdIds]
  | cons a as ih =>
      obtain ⟨u, hu, hrest⟩ := exec_cons_eq_some.mp h
      obtain ⟨hhubs, hcommands, hcounter⟩ := sent_apiStep hu (has a List.mem_cons_self)
      obtain ⟨hhubs', hcommands'⟩ := ih hrest fun b hb => has b (List.mem_cons_of_mem a hb)
      have hposted : posted apiKey (a :: as) = a.posted apiKey ++ posted apiKey as := List.flatMap_cons
      rw [hposted, List.map_append, List.map_append, assignCmdIds_append]
      constructor
      · rw [hhubs', hhubs, List.append_assoc]
      · rw [hcommands', hcommands, hcounter, List.append_assoc]

end

/-- Until the server is started again it hands over the commands of the requests that have the key, in
their order and as if they were one list, and gives no id twice within 65535. -/
theorem served_of_exec (apiKey : Option String) (as : List ApiAction) (t : Service)
    (hrun : exec (apiStep apiKey) Service.init as = some t) (has : ∀ a ∈ as, a.isRestart = false) :
    Served (posted apiKey as) t.sent := by
  obtain ⟨hhubs, hcommands⟩ := sent_of_exec hrun has
  refine ⟨hhubs, hcommands, fun i j p q hij hp hq hi hj => ?_⟩
  have hid {k : Nat} {r : Sent} (hr : t.sent[k]? = some r) :
      (assignCmdIds 0 ((posted apiKey as).map Prod.snd)).2[k]? = some r.command := by
    have hcommand := congrArg (fun l => l[k]?) hcommands
    simpa [hr, Service.init] using hcommand.symm
  exact autoIds_eq_iff hij (hid hp) (hid hq) (by simpa using hi) (by simpa using hj)

/-- The second request has no key, the third one the wrong key. -/
def fourRequests : List ApiAction :=
  [.request ⟨"a1b2c3d4e5f6", .test "aa:bb:cc:dd:ee:ff" true, some "key", true, false, "t0"⟩,
    .request ⟨"a1b2c3d4e5f6", .status, none, true, false, "t1"⟩,
    .request ⟨"a1b2c3d4e5f6", .status, some "kez", true, false, "t2"⟩, .saveLog 0 true,
    .request ⟨"a1b2c3d4e5f6", .status, some "key", true, false, "t3"⟩]

theorem served_fourRequests : ∃ t, exec (apiStep (configuredKey "key")) Service.init fourRequests = some t ∧
    Served (posted (configuredKey "key") fourRequests) t.sent ∧ t.sent.length = 2 := by
  obtain ⟨t, ht⟩ : ∃ t, exec (apiStep (configuredKey "key")) Service.init fourRequests = some t := ⟨_, rfl⟩
  have hserved := served_of_exec (configuredKey "key") fourRequests t ht (by decide)
  have hlen := congrArg List.length hserved.hubs
  rw [List.length_map, List.length_map] at hlen
  exact ⟨t, ht, hserved, hlen.trans (by decide)⟩

end Tempio.Server
