import Tempio.Hub.AddressPlace

namespace Tempio.Hub.Ble

open Tempio.Lib.Search Tempio.Lib.Transition Function

variable {Addr : Type}

/-- The slot that is being registered. -/
def ConnectTask.registersAt : ConnectTask Addr → Option (Fin maxNodes)
  | .registering _ i _ _ => some i
  | _ => none

def Central.configChars (s : Central Addr) (i : Fin maxNodes) : Bool := (s.nodes.get i).configChar

namespace Links

/-- The client's link goes to the node, or is down. -/
def DownOrTo (v : Links Addr) (c : Client) (a : Addr) : Prop := v.link c = none ∨ v.link c = some a

def TaskWired (v : Links Addr) : Prop :=
  match v.task with
  | .discovering a _ c => v.DownOrTo c a
  | .registering a i c next =>
      v.DownOrTo c a ∧ (next ≠ .client → v.client i = some c) ∧ (next = .used → v.addr i = a)
  | _ => True

/-- Every link ends at the node of its slot, whenever and in which order losses are reported. -/
structure Wired (v : Links Addr) (configChar : Fin maxNodes → Bool) : Prop
    extends Held v.client v.created v.task where
  target : ∀ i, v.task.slot = some i → v.used i = false
  lostDown : ∀ c ∈ v.lost, v.link c = none
  linked : ∀ i c, v.used i = true → v.client i = some c → v.DownOrTo c (v.addr i)
  ready : ∀ i, configChar i = true → v.used i = true ∨ v.task.registersAt = some i
  taskWired : v.TaskWired

/-- The client stands in a used slot of the node. -/
def Registered (v : Links Addr) (c : Client) (a : Addr) : Prop :=
  ∃ i, v.used i = true ∧ v.client i = some c ∧ v.addr i = a

variable {v : Links Addr} {configChar : Fin maxNodes → Bool}

theorem Wired.retask (h : v.Wired configChar) (task : ConnectTask Addr)
    (hhand : ∀ c, task.inHand = some c → v.task.inHand = some c)
    (hslot : ∀ i, task.slot = some i → v.used i = false)
    (hready : ∀ i, v.task.registersAt = some i → task.registersAt = some i)
    (hlink : TaskWired { v with task := task }) : Wired { v with task := task } configChar :=
  { h with
    toHeld := h.toHeld.retask hhand
    target := hslot
    ready := fun i hi => (h.ready i hi).imp_right (hready i)
    taskWired := hlink }

/-- `connectToNode` is left, or goes on without a client. -/
theorem Wired.letGo (h : v.Wired configChar) (task : ConnectTask Addr) (hhand : task.inHand = none)
    (hslot : ∀ i, task.slot = some i → v.used i = false) (hready : v.task.registersAt = none)
    (hlink : TaskWired { v with task := task }) : Wired { v with task := task } configChar := by
  refine h.retask task (fun c hc => ?_) hslot (fun i hi => ?_) hlink
  · simp [hhand] at hc
  · simp [hready] at hi

theorem Wired.reuse (h : v.Wired configChar) {a : Addr} {slot i : Fin maxNodes} {c : Client}
    (ht : v.task = .acquiring a slot) (hc : v.client i = some c) :
    Wired { v with client := update v.client i none, task := .connecting a slot c } configChar := by
  exact { h with
    toHeld := h.toHeld.take hc rfl
    target := fun j hj => h.target j (by rw [ht]; exact hj)
    linked := fun j d hj hd => h.linked j d hj (of_update_none hd).2
    ready := fun j hj => (h.ready j hj).imp_right fun hr => by simp [ht, ConnectTask.registersAt] at hr
    taskWired := trivial }

theorem Wired.create (h : v.Wired configChar) {a : Addr} {slot : Fin maxNodes}
    (ht : v.task = .acquiring a slot) :
    Wired { v with created := v.created + 1, task := .connecting a slot v.created } configChar := by
  exact { h with
    toHeld := h.toHeld.create rfl
    target := fun j hj => h.target j (by rw [ht]; exact hj)
    ready := fun j hj => (h.ready j hj).imp_right fun hr => by simp [ht, ConnectTask.registersAt] at hr
    taskWired := trivial }

/-- No slot holds the client in hand, so its new link is nobody else's. -/
theorem Wired.connect (h : v.Wired configChar) {a : Addr} {slot : Fin maxNodes} {c : Client}
    (ht : v.task = .connecting a slot c) (hlost : c ∉ v.lost) :
    Wired { v with link := update v.link c (some a), task := .discovering a slot c } configChar := by
  have hhand : v.task.inHand = some c := by rw [ht]; rfl
  refine { h with
    toHeld := h.toHeld.retask fun d hd => hhand.trans hd
    target := fun i hi => h.target i (by rw [ht]; exact hi)
    lostDown := fun d hd => ?_
    linked := fun i d hi hd => ?_
    ready := fun j hj => (h.ready j hj).imp_right fun hr => by simp [ht, ConnectTask.registersAt] at hr
    taskWired := .inr (update_self _ _ _) }
  · exact (update_of_ne (fun hdc : d = c => hlost (hdc ▸ hd)) _ _).trans (h.lostDown d hd)
  · have hdc : d ≠ c := fun hdc => h.handFree c hhand i (hdc ▸ hd)
    simpa only [DownOrTo, update_of_ne hdc] using h.linked i d hi hd

theorem DownOrTo.drop {c d : Client} {a : Addr} (h : v.DownOrTo d a) :
    DownOrTo { v with link := update v.link c none, lost := v.lost ++ [c] } d a := by
  by_cases hdc : d = c
  · exact .inl (hdc ▸ update_self _ _ _)
  · simpa only [DownOrTo, update_of_ne hdc] using h

theorem Wired.drop (h : v.Wired configChar) (c : Client) :
    Wired { v with link := update v.link c none, lost := v.lost ++ [c] } configChar := by
  refine { h with
    lostDown := fun d hd => ?_
    linked := fun i d hi hd => (h.linked i d hi hd).drop
    taskWired := ?_ }
  · by_cases hdc : d = c
    · exact hdc ▸ update_self _ _ _
    · rcases List.mem_append.mp hd with hd | hd
      · exact (update_of_ne hdc _ _).trans (h.lostDown d hd)
      · exact absurd (List.mem_singleton.mp hd) hdc
  · have htask := h.taskWired
    unfold TaskWired at htask ⊢
    cases ht : v.task with
    | discovering a i d =>
        rw [ht] at htask
        exact htask.drop
    | registering a i d next =>
        rw [ht] at htask
        exact ⟨htask.1.drop, htask.2⟩
    | _ => trivial

/-- The client in the task's hand is put into an unused slot. -/
theorem Wired.place (h : v.Wired configChar) (task : ConnectTask Addr) {c : Client} {i : Fin maxNodes}
    (hhand : v.task.inHand = some c) (hu : v.used i = false) (hh : task.inHand = none)
    (hslot : ∀ j, task.slot = some j → v.used j = false)
    (hready : ∀ j, v.task.registersAt = some j → task.registersAt = some j)
    (hlink : TaskWired { v with client := update v.client i (some c), task := task }) :
    Wired { v with client := update v.client i (some c), task := task } configChar := by
  refine { h with
    toHeld := h.toHeld.place hhand hh i
    target := hslot
    linked := fun j d hj hd => ?_
    ready := fun j hj => (h.ready j hj).imp_right (hready j)
    taskWired := hlink }
  rcases eq_or_of_update_client hd with ⟨hji, _⟩ | ⟨_, hd⟩
  · rw [hji, hu] at hj
    cases hj
  · exact h.linked j d hj hd

theorem Wired.setConfigChar (h : v.Wired configChar) {slot : Fin maxNodes}
    (hr : v.task.registersAt = some slot) (found : Bool) :
    v.Wired (update configChar slot found) := by
  refine { h with ready := fun i hi => ?_ }
  by_cases his : i = slot
  · exact .inr (his ▸ hr)
  · exact h.ready i (by rwa [update_of_ne his] at hi)

theorem Wired.setAddr (h : v.Wired configChar) {a : Addr} {slot : Fin maxNodes} {c : Client}
    {next : Assignment} (ht : v.task = .registering a slot c next) :
    Wired { v with addr := update v.addr slot a } configChar := by
  have hu : v.used slot = false := h.target slot (by rw [ht]; rfl)
  have htask := h.taskWired
  rw [TaskWired, ht] at htask
  refine { h with linked := fun i d hi hd => ?_, taskWired := ?_ }
  · have his : i ≠ slot := fun his => by simp [his, hu] at hi
    simpa only [DownOrTo, update_of_ne his] using h.linked i d hi hd
  · rw [TaskWired, ht]
    exact ⟨htask.1, htask.2.1, fun _ => update_self _ _ _⟩

theorem Wired.publish (h : v.Wired configChar) {a : Addr} {slot : Fin maxNodes} {c : Client}
    (ht : v.task = .registering a slot c .used) :
    Wired { v with used := update v.used slot true, task := .greeting slot } configChar := by
  have htask := h.taskWired
  rw [TaskWired, ht] at htask
  obtain ⟨hup, hclient, haddr⟩ := htask
  refine { h with
    toHeld := h.toHeld.retask fun d hd => by cases hd
    target := fun i hi => by cases hi
    linked := fun i d hi hd => ?_
    ready := fun i hi => ?_
    taskWired := trivial }
  · by_cases his : i = slot
    · subst his
      have hcd : c = d := Option.some.inj ((hclient (by decide)).symm.trans hd)
      rw [← hcd, haddr rfl]
      exact hup
    · exact h.linked i d ((update_of_ne his true v.used).symm.trans hi) hd
  · by_cases his : i = slot
    · exact .inl (his ▸ update_self _ _ _)
    · refine (h.ready i hi).elim (fun hu => .inl ((update_of_ne his true v.used).trans hu)) fun hr => ?_
      rw [ht] at hr
      exact absurd (Option.some.inj hr).symm his

theorem Wired.forget (h : v.Wired configChar) {configChar' : Fin maxNodes → Bool}
    (hless : ∀ i, configChar' i = true → configChar i = true) : v.Wired configChar' :=
  { h with ready := fun i hi => h.ready i (hless i hi) }

theorem Wired.report (h : v.Wired configChar) (c : Client) {configChar' : Fin maxNodes → Bool}
    (hconfig : ∀ i, configChar' i = true → configChar i = true ∧
      (v.used i = true → v.client i ≠ some c)) : (v.report c).Wired configChar' := by
  refine { h with
    target := fun i hi => by simp [Links.report, h.target i hi]
    lostDown := fun d hd => h.lostDown d (List.mem_of_mem_erase hd)
    linked := fun i d hi hd => ?_
    ready := fun i hi => ?_
    taskWired := h.taskWired }
  · simp only [Links.report, Bool.and_eq_true] at hi
    exact h.linked i d hi.1 hd
  · obtain ⟨hi, hne⟩ := hconfig i hi
    refine (h.ready i hi).imp_left fun hu => ?_
    simp [Links.report, hu, hne hu]

end Links

def Radio.Wired (r : Radio Addr) : Prop := r.central.view.Wired r.central.configChars

namespace Central

theorem configChars_setNode (s : Central Addr) (i : Fin maxNodes) (n : ConnectedNode Addr) :
    (s.setNode i n).configChars = update s.configChars i n.configChar :=
  comp_get_setAt ConnectedNode.configChar s.nodes i n

theorem configChars_setNode_same {s : Central Addr} {i : Fin maxNodes} {n : ConnectedNode Addr}
    (h : n.configChar = (s.nodes.get i).configChar) : (s.setNode i n).configChars = s.configChars := by
  rw [configChars_setNode, h]
  exact update_eq_self i s.configChars

theorem configChars_setClient (s : Central Addr) (i : Fin maxNodes) (x : Option Client) :
    (s.setNode i { s.nodes.get i with client := x }).configChars = s.configChars :=
  configChars_setNode_same rfl

theorem configChars_setAddr (s : Central Addr) (i : Fin maxNodes) (x : Addr) :
    (s.setNode i { s.nodes.get i with addr := x }).configChars = s.configChars :=
  configChars_setNode_same rfl

theorem configChars_setUsed (s : Central Addr) (i : Fin maxNodes) (x : Bool) :
    (s.setNode i { s.nodes.get i with
      used := x, configChar := (s.nodes.get i).configChar }).configChars = s.configChars :=
  configChars_setNode_same rfl

theorem configChars_onResult [DecidableEq Addr] (s : Central Addr) (a : Addr) :
    (s.onResult a).configChars = s.configChars := by
  rcases onResult_cases s a with ⟨q, hr, _⟩ | ⟨hr, _⟩
  · rw [hr]
    rfl
  · rw [hr]

/-- `onDisconnect` clears the characteristic of the slot that it gives up. -/
theorem configChars_onDisconnect {s : Central Addr} {c : Client}
    (h : ∀ i j, s.view.client i = some c → s.view.client j = some c → i = j) {i : Fin maxNodes}
    (hi : (s.onDisconnect c).configChars i = true) :
    s.configChars i = true ∧ (s.view.used i = true → s.view.client i ≠ some c) := by
  unfold onDisconnect at hi
  cases hf : s.findSlotByClient c with
  | none =>
      simp only [hf] at hi
      refine ⟨hi, fun hu hc => ?_⟩
      have hmiss := findSlotIndex_eq_none.mp hf i
      have hu' : (s.nodes.get i).used = true := hu
      have hc' : (s.nodes.get i).client = some c := hc
      simp [hu', hc'] at hmiss
  | some j =>
      have hj := of_findSlotIndex hf
      simp only [Bool.and_eq_true, decide_eq_true_eq] at hj
      simp only [hf] at hi
      have hset := configChars_setNode s j { s.nodes.get j with used := false, configChar := false }
      have hupdate : update s.configChars j false i = true := (congrFun hset i).symm.trans hi
      by_cases hij : i = j
      · simp [hij] at hupdate
      · rw [update_of_ne hij] at hupdate
        exact ⟨hupdate, fun _ hc => hij (h i j hc hj.2)⟩

theorem configChars_cleanupDisconnected {s : Central Addr} {i : Fin maxNodes}
    (hi : s.cleanupDisconnected.configChars i = true) : s.configChars i = true := by
  simp only [configChars, cleanupDisconnected, get_map] at hi ⊢
  split_ifs at hi
  exact hi

end Central

theorem wired_dropLink {s : Central Addr} (h : s.view.Wired s.configChars) (c : Client) :
    (s.dropLink c).view.Wired (s.dropLink c).configChars := by
  cases hl : s.link c with
  | none => simpa only [Central.dropLink, hl] using h
  | some a =>
      simp only [Central.dropLink, hl]
      exact h.drop c

section

variable {r t : Radio Addr}

theorem wired_registerStep (h : r.Wired) {addr : Addr} {slot : Fin maxNodes} {c : Client}
    {next : Assignment} (found : Bool) (ht : r.central.task = .registering addr slot c next) :
    (registerStep r.central addr slot c found next).view.Wired
      (registerStep r.central addr slot c found next).configChars := by
  have hslot : ∀ i, some slot = some i → r.central.view.used i = false := by
    intro i hi
    apply h.target i
    rw [← hi]
    exact congrArg ConnectTask.slot ht
  have hreg : ∀ i, r.central.view.task.registersAt = some i → some slot = some i := by
    intro i hi
    rw [← hi]
    exact (congrArg ConnectTask.registersAt ht).symm
  have htask := h.taskWired
  rw [Links.TaskWired, show r.central.view.task = _ from ht] at htask
  obtain ⟨hup, hclient, haddr⟩ := htask
  cases next with
  | client =>
      change Links.Wired { (r.central.setNode slot { r.central.nodes.get slot with
        client := some c }).view with task := .registering addr slot c .getCharacteristic }
        (r.central.setNode slot { r.central.nodes.get slot with client := some c }).configChars
      rw [Central.view_setClient, Central.configChars_setClient]
      apply h.place
      · exact congrArg ConnectTask.inHand ht
      · exact hslot slot rfl
      · rfl
      · exact hslot
      · exact hreg
      · exact ⟨hup, fun _ => update_self _ _ _, fun hn => by cases hn⟩
  | getCharacteristic =>
      refine h.retask _ (fun d hd => by cases hd) hslot hreg ?_
      exact ⟨hup, fun _ => hclient (by decide), fun hn => by cases hn⟩
  | configChar x =>
      change Links.Wired { (r.central.setNode slot { r.central.nodes.get slot with
        configChar := x }).view with task := .registering addr slot c .addr }
        (r.central.setNode slot { r.central.nodes.get slot with configChar := x }).configChars
      rw [Central.view_setConfigChar, Central.configChars_setNode]
      have hset := h.setConfigChar (congrArg ConnectTask.registersAt ht) x
      refine hset.retask _ (fun d hd => by cases hd) hslot hreg ?_
      exact ⟨hup, fun _ => hclient (by simp), fun hn => by cases hn⟩
  | addr =>
      change Links.Wired { (r.central.setNode slot { r.central.nodes.get slot with
        addr := addr }).view with task := .registering addr slot c .used }
        (r.central.setNode slot { r.central.nodes.get slot with addr := addr }).configChars
      rw [Central.view_setAddr, Central.configChars_setAddr]
      have hset := Links.Wired.setAddr h ht
      refine hset.retask _ (fun d hd => by cases hd) hslot hreg ?_
      exact ⟨hup, fun _ => hclient (by decide), fun _ => update_self _ _ _⟩
  | used =>
      change Links.Wired { (r.central.setNode slot { r.central.nodes.get slot with
        used := true, configChar := (r.central.nodes.get slot).configChar }).view with
        task := .greeting slot }
        (r.central.setNode slot { r.central.nodes.get slot with
          used := true, configChar := (r.central.nodes.get slot).configChar }).configChars
      rw [Central.view_setUsed, Central.configChars_setUsed]
      exact Links.Wired.publish h ht

variable [DecidableEq Addr]

theorem wired_step {a : RadioAction Addr} (h : r.Wired) (hst : radioStep r a = some t) : t.Wired := by
  cases moves_of_radioStep hst with
  | cleanup hs ht =>
      have hcleanup := Links.Wired.forget h fun _ => Central.configChars_cleanupDisconnected
      rw [← Central.view_cleanupDisconnected] at hcleanup
      exact hcleanup
  | noPending hs ht hq => exact h
  | popped addr q hs ht hq =>
      exact h.letGo (.findingSlot addr) rfl (fun i hi => by cases hi)
        (congrArg ConnectTask.registersAt ht) trivial
  | stopScan hs | startScan hs => exact h
  | slotFound addr slot hs ht hu hfirst =>
      refine h.letGo (.acquiring addr slot) rfl (fun i hi => ?_)
        (congrArg ConnectTask.registersAt ht) trivial
      exact Option.some.inj hi ▸ hu
  | noSlot addr hs ht | notCreated addr slot hs ht | noPlace c hs ht hnone | greeted slot hs ht =>
      exact h.letGo .idle rfl (fun i hi => by cases hi) (congrArg ConnectTask.registersAt ht) trivial
  | reused addr slot i c hs ht hu hc hfirst =>
      change Links.Wired { (r.central.setNode i { r.central.nodes.get i with client := none }).view with
        task := .connecting addr slot c }
        (r.central.setNode i { r.central.nodes.get i with client := none }).configChars
      rw [Central.view_setClient, Central.configChars_setClient]
      exact Links.Wired.reuse h ht hc
  | noReusable addr slot hs ht hnone => exact h
  | created addr slot hs ht => exact Links.Wired.create h ht
  | connected addr slot c hs ht hl hlost => exact Links.Wired.connect h ht hlost
  | notConnected addr slot c hs ht | notDiscovered addr slot c ok hs ht hok =>
      refine h.retask (.disconnecting c) (fun d hd => ?_) (fun i hi => by cases hi) (fun i hi => ?_) trivial
      · exact (congrArg ConnectTask.inHand ht).trans hd
      · cases (congrArg ConnectTask.registersAt ht).symm.trans hi
  | discovered addr slot c hs ht hl =>
      have htask := h.taskWired
      rw [Links.TaskWired, show r.central.view.task = _ from ht] at htask
      refine h.retask (.registering addr slot c .client) (fun d hd => ?_) (fun i hi => ?_)
        (fun i hi => ?_) ⟨htask, fun hn => absurd rfl hn, fun hn => by cases hn⟩
      · exact (congrArg ConnectTask.inHand ht).trans hd
      · exact h.target i ((congrArg ConnectTask.slot ht).trans hi)
      · cases (congrArg ConnectTask.registersAt ht).symm.trans hi
  | disconnected c hs ht =>
      have hdrop := wired_dropLink h c
      have htask : (r.central.dropLink c).task = .disconnecting c := by
        obtain ⟨_, _, hlink⟩ := Central.dropLink_eq r.central c
        rw [hlink, ht]
      refine hdrop.retask (.stashing c) (fun d hd => ?_) (fun i hi => by cases hi) (fun i hi => ?_) trivial
      · exact (congrArg ConnectTask.inHand htask).trans hd
      · cases (congrArg ConnectTask.registersAt htask).symm.trans hi
  | stashed c i hs ht hu hc =>
      change Links.Wired { (r.central.setNode i { r.central.nodes.get i with client := some c }).view with
        task := .idle } (r.central.setNode i { r.central.nodes.get i with client := some c }).configChars
      rw [Central.view_setClient, Central.configChars_setClient]
      apply h.place
      · exact congrArg ConnectTask.inHand ht
      · exact hu
      · rfl
      · intro j hj
        cases hj
      · intro j hj
        cases (congrArg ConnectTask.registersAt ht).symm.trans hj
      · trivial
  | assigned addr slot c next found hs ht hn => exact wired_registerStep h found ht
  | published addr slot c found hs ht => exact wired_registerStep h found ht
  | found addr hs =>
      change (r.central.onResult addr).view.Wired (r.central.onResult addr).configChars
      rw [Central.view_onResult, Central.configChars_onResult]
      exact h
  | lost c hl => exact wired_dropLink h c
  | reported c hc =>
      change Links.Wired (Central.view { r.central.onDisconnect c with lost := r.central.lost.erase c })
        (r.central.onDisconnect c).configChars
      rw [Central.view_onDisconnect c (h.distinct · · c)]
      exact Links.Wired.report h c fun i hi => Central.configChars_onDisconnect (h.distinct · · c) hi

/-- A used slot keeps its client and its address until its client's loss is reported. -/
def Keeps (v w : Links Addr) (i : Fin maxNodes) : Prop :=
  w.used i = true ∧ w.client i = v.client i ∧ w.addr i = v.addr i

omit [DecidableEq Addr] in
theorem keeps_setNode {s : Central Addr} {i j : Fin maxNodes} {n : ConnectedNode Addr}
    (hi : s.view.used i = true) (hj : s.view.used j = false) : Keeps s.view (s.setNode j n).view i := by
  have hij : i ≠ j := fun hij => by simp [hij, hj] at hi
  rw [Central.view_setNode]
  exact ⟨(update_of_ne hij _ _).trans hi, update_of_ne hij _ _, update_of_ne hij _ _⟩

theorem keeps_step {a : RadioAction Addr} (h : r.Wired) (hst : radioStep r a = some t)
    {i : Fin maxNodes} (hi : r.central.view.used i = true)
    (ha : ∀ c, a = .onDisconnect c → r.central.view.client i ≠ some c) :
    Keeps r.central.view t.central.view i := by
  have hsame : Keeps r.central.view r.central.view i := ⟨hi, rfl, rfl⟩
  cases moves_of_radioStep hst with
  | cleanup hs ht =>
      have hv := Central.view_cleanupDisconnected r.central
      have hkeeps : Keeps r.central.view r.central.cleanupDisconnected.view i := by rwa [hv]
      exact hkeeps
  | noPending | popped | stopScan | slotFound | noSlot | noReusable | created | notCreated
  | connected | notConnected | discovered | notDiscovered | noPlace | greeted | startScan => exact hsame
  | reused addr slot j c hs ht hu hc hfirst => exact keeps_setNode hi hu
  | stashed c j hs ht hu hc => exact keeps_setNode hi hu
  | disconnected c hs ht | lost c hl =>
      obtain ⟨link, lost, hdrop⟩ := Central.dropLink_eq r.central c
      rw [hdrop]
      exact hsame
  | assigned addr slot c next found hs ht hn =>
      have hslot : r.central.view.used slot = false := h.target slot (congrArg ConnectTask.slot ht)
      cases next with
      | getCharacteristic => exact hsame
      | _ => exact keeps_setNode hi hslot
  | published addr slot c found hs ht =>
      have hslot : r.central.view.used slot = false := h.target slot (congrArg ConnectTask.slot ht)
      exact keeps_setNode hi hslot
  | found addr hs =>
      have hv := Central.view_onResult r.central addr
      have hkeeps : Keeps r.central.view (r.central.onResult addr).view i := by rwa [hv]
      exact hkeeps
  | reported c hc =>
      have hv := Central.view_onDisconnect c (h.distinct · · c)
      have hkeeps : Keeps r.central.view (r.central.view.report c) i :=
        ⟨by simp [Links.report, hi, ha c rfl], rfl, rfl⟩
      rwa [← hv] at hkeeps

/-- A link comes up in a successful `connect` only. -/
theorem link_step {a : RadioAction Addr} (hst : radioStep r a = some t) {c : Client} {x : Addr}
    (hl : t.central.link c = some x) :
    r.central.link c = some x ∨ a = .connect true ∧ ∃ i, r.central.task = .connecting x i c := by
  have hdrop : ∀ {d}, (r.central.dropLink d).link c = some x → r.central.link c = some x := by
    intro d hd
    unfold Central.dropLink at hd
    cases hld : r.central.link d with
    | none => simpa only [hld] using hd
    | some y =>
        simp only [hld] at hd
        by_cases hcd : c = d
        · simp [hcd] at hd
        · rwa [update_of_ne hcd] at hd
  cases moves_of_radioStep hst with
  | connected addr slot d hs ht hld hlost =>
      by_cases hcd : c = d
      · subst hcd
        have hl : update r.central.link c (some addr) c = some x := hl
        rw [update_self] at hl
        exact .inr ⟨rfl, slot, Option.some.inj hl ▸ ht⟩
      · have hl : update r.central.link d (some addr) c = some x := hl
        exact .inl (by rwa [update_of_ne hcd] at hl)
  | disconnected d hs ht => exact .inl (hdrop hl)
  | lost d hld => exact .inl (hdrop hl)
  | assigned addr slot d next found hs ht hn => cases next <;> exact .inl hl
  | found addr hs =>
      have hlink := congrArg Links.link (Central.view_onResult r.central addr)
      exact .inl ((congrFun hlink c).symm.trans hl)
  | reported d hd =>
      have hlink : (r.central.onDisconnect d).link = r.central.link := by
        unfold Central.onDisconnect
        cases r.central.findSlotByClient d <;> rfl
      exact .inl ((congrFun hlink c).symm.trans hl)
  | _ => exact .inl hl

end

theorem wired_init [Inhabited Addr] : (Radio.init : Radio Addr).Wired := by
  have hclient : ∀ i, (Radio.init : Radio Addr).central.view.client i = none := fun i => by
    simp only [Radio.init, Central.view, Central.get_init]
  have hconfig : ∀ i, (Radio.init : Radio Addr).central.configChars i = false := fun i => by
    simp only [Radio.init, Central.configChars, Central.get_init]
  exact {
    known := fun i c hc => by simp [hclient] at hc
    distinct := fun i j c hc => by simp [hclient] at hc
    knownHand := fun c hc => by cases hc
    handFree := fun c hc => by cases hc
    target := fun i hi => by cases hi
    lostDown := fun c hc => by cases hc
    linked := fun i c _ hc => by simp [hclient] at hc
    ready := fun i hi => by simp [hconfig] at hi
    taskWired := trivial }

end Tempio.Hub.Ble
