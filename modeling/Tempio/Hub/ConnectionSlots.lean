import Tempio.Hub.Links

namespace Tempio.Hub.Ble

open Tempio.Lib.Search Tempio.Lib.Transition Function

variable {Addr : Type}

namespace Central

def view (s : Central Addr) : Links Addr where
  client i := (s.nodes.get i).client
  used i := (s.nodes.get i).used
  addr i := (s.nodes.get i).addr
  created := s.created
  link := s.link
  lost := s.lost
  task := s.task

theorem view_setNode (s : Central Addr) (i : Fin maxNodes) (n : ConnectedNode Addr) :
    (s.setNode i n).view = { s.view with
      client := update s.view.client i n.client
      used := update s.view.used i n.used
      addr := update s.view.addr i n.addr } := by
  simp only [view, setNode, comp_get_setAt ConnectedNode.client, comp_get_setAt ConnectedNode.used,
    comp_get_setAt ConnectedNode.addr]

theorem view_setClient (s : Central Addr) (i : Fin maxNodes) (x : Option Client) :
    (s.setNode i { s.nodes.get i with client := x }).view =
      { s.view with client := update s.view.client i x } := by
  have hused : update s.view.used i (s.nodes.get i).used = s.view.used :=
    update_eq_self i s.view.used
  have haddr : update s.view.addr i (s.nodes.get i).addr = s.view.addr :=
    update_eq_self i s.view.addr
  rw [view_setNode, hused, haddr]

theorem view_setUsed (s : Central Addr) (i : Fin maxNodes) (x found : Bool) :
    (s.setNode i { s.nodes.get i with used := x, configChar := found }).view =
      { s.view with used := update s.view.used i x } := by
  have hclient : update s.view.client i (s.nodes.get i).client = s.view.client :=
    update_eq_self i s.view.client
  have haddr : update s.view.addr i (s.nodes.get i).addr = s.view.addr :=
    update_eq_self i s.view.addr
  rw [view_setNode, hclient, haddr]

theorem view_setAddr (s : Central Addr) (i : Fin maxNodes) (x : Addr) :
    (s.setNode i { s.nodes.get i with addr := x }).view =
      { s.view with addr := update s.view.addr i x } := by
  have hclient : update s.view.client i (s.nodes.get i).client = s.view.client :=
    update_eq_self i s.view.client
  have hused : update s.view.used i (s.nodes.get i).used = s.view.used :=
    update_eq_self i s.view.used
  rw [view_setNode, hclient, hused]

theorem view_setConfigChar (s : Central Addr) (i : Fin maxNodes) (x : Bool) :
    (s.setNode i { s.nodes.get i with configChar := x }).view = s.view := by
  have hused : update s.view.used i (s.nodes.get i).used = s.view.used :=
    update_eq_self i s.view.used
  exact (view_setUsed s i (s.nodes.get i).used x).trans (by rw [hused])

theorem view_cleanupDisconnected (s : Central Addr) : s.cleanupDisconnected.view = s.view := by
  have hget : ∀ i, (s.cleanupDisconnected.nodes.get i).client = (s.nodes.get i).client ∧
      (s.cleanupDisconnected.nodes.get i).used = (s.nodes.get i).used ∧
      (s.cleanupDisconnected.nodes.get i).addr = (s.nodes.get i).addr := by
    intro i
    simp only [cleanupDisconnected, get_map]
    split_ifs <;> exact ⟨rfl, rfl, rfl⟩
  simp only [view, hget]
  rfl

theorem of_findSlotIndex {s : Central Addr} {pred : ConnectedNode Addr → Bool} {i : Fin maxNodes}
    (h : s.findSlotIndex pred = some i) : pred (s.nodes.get i) = true :=
  of_firstIndex h

theorem findSlotIndex_eq_none {s : Central Addr} {pred : ConnectedNode Addr → Bool} :
    s.findSlotIndex pred = none ↔ ∀ i, pred (s.nodes.get i) = false :=
  firstIndex_eq_none

theorem isSome_findSlotIndex {s : Central Addr} {pred : ConnectedNode Addr → Bool} :
    (s.findSlotIndex pred).isSome = true ↔ ∃ i, pred (s.nodes.get i) = true := by
  rw [Option.isSome_iff_exists]
  constructor
  · rintro ⟨i, hi⟩
    exact ⟨i, of_findSlotIndex hi⟩
  · rintro ⟨i, hi⟩
    apply Option.ne_none_iff_exists'.mp
    intro hnone
    simpa [hi] using findSlotIndex_eq_none.mp hnone i

theorem isAlreadyConnected_iff [DecidableEq Addr] {s : Central Addr} {a : Addr} :
    s.isAlreadyConnected a = true ↔ ∃ i, s.view.used i = true ∧ s.view.addr i = a := by
  simp only [isAlreadyConnected, isSome_findSlotIndex, Bool.and_eq_true, decide_eq_true_eq, view]

/-- Where clients stand in one slot each, the slot of a client is the one that is found. -/
theorem findSlotByClient_of_distinct {s : Central Addr} {c : Client} {i : Fin maxNodes}
    (h : ∀ j, s.view.client j = some c → j = i) (hu : s.view.used i = true)
    (hc : s.view.client i = some c) : s.findSlotByClient c = some i := by
  unfold findSlotByClient findSlotIndex
  apply firstIndex_of_unique
  · rw [Bool.and_eq_true, decide_eq_true_eq]
    exact ⟨hu, hc⟩
  · intro j hj
    rw [Bool.and_eq_true, decide_eq_true_eq] at hj
    exact h j hj.2

/-- The slots at the start. -/
theorem get_init [Inhabited Addr] (i : Fin maxNodes) :
    (Central.init : Central Addr).nodes.get i = ⟨none, false, default, false⟩ :=
  Vector.getElem_replicate i.isLt

theorem view_onResult [DecidableEq Addr] (s : Central Addr) (a : Addr) : (s.onResult a).view = s.view := by
  unfold onResult
  split_ifs
  · rfl
  · rfl
  · rfl
  · rfl
  · cases s.pendingQueue.push a <;> rfl

theorem owned_dropLink {s : Central Addr} (h : s.view.Owned) (c : Client) :
    (s.dropLink c).view.Owned := by
  cases hl : s.link c with
  | none => simpa only [dropLink, hl] using h
  | some a =>
      simp only [dropLink, hl]
      exact h.drop (c := c) hl

/-- A link loss touches no slot, and not the task. -/
theorem dropLink_eq (s : Central Addr) (c : Client) :
    ∃ link lost, s.dropLink c = { s with link := link, lost := lost } := by
  unfold dropLink
  cases s.link c with
  | none => exact ⟨s.link, s.lost, rfl⟩
  | some a => exact ⟨_, _, rfl⟩

theorem link_dropLink (s : Central Addr) (c : Client) : (s.dropLink c).link c = none := by
  cases hl : s.link c with
  | none => simp only [dropLink, hl]
  | some a => simp only [dropLink, hl, update_self]

theorem view_onDisconnect {s : Central Addr} (c : Client)
    (h : ∀ i j, s.view.client i = some c → s.view.client j = some c → i = j) :
    Central.view { s.onDisconnect c with lost := s.lost.erase c } = s.view.report c := by
  unfold onDisconnect
  cases hf : s.findSlotByClient c with
  | none =>
      have hnone : ∀ i, (s.view.used i && decide (s.view.client i ≠ some c)) = s.view.used i := by
        intro i
        have := findSlotIndex_eq_none.mp hf i
        simp only [Bool.and_eq_false_iff, decide_eq_false_iff_not] at this
        cases hu : s.view.used i with
        | false => rfl
        | true =>
            have hne : s.view.client i ≠ some c := this.resolve_left (by simpa [view] using hu)
            simp [hne]
      simp only [Links.report, hnone]
      rfl
  | some i =>
      have hi := of_findSlotIndex hf
      simp only [Bool.and_eq_true, decide_eq_true_eq] at hi
      have hused : update s.view.used i false =
          fun j => s.view.used j && decide (s.view.client j ≠ some c) := by
        funext j
        by_cases hj : j = i
        · subst hj
          have : s.view.client j = some c := hi.2
          simp [this]
        · have : s.view.client j ≠ some c := fun hc => hj (h j i hc hi.2)
          simp [update_of_ne hj, this]
      have hv := view_setUsed s i false false
      rw [hused] at hv
      exact congrArg (fun v : Links Addr => { v with lost := s.lost.erase c }) hv

end Central

/-- With no connection being set up and every loss reported, the used slots are
those whose link is up, and `isAlreadyConnected` knows the nodes behind them. -/
structure NoZombie [DecidableEq Addr] (s : Central Addr) : Prop where
  slots : s.task = .idle → s.lost = [] →
    ∀ i, (s.nodes.get i).used = true ↔ ∃ c, (s.nodes.get i).client = some c ∧ s.link c ≠ none
  connected : s.task = .idle → s.lost = [] → ∀ a, s.isAlreadyConnected a = true ↔
    ∃ i c, (s.nodes.get i).client = some c ∧ s.link c = some a

/-- No `onDisconnect` runs for the client that is being registered. -/
def SeesLoss (s : Central Addr) : Action Addr → Prop
  | .onDisconnect c =>
      match s.task with
      | .registering _ _ c' _ => c' ≠ c
      | _ => True
  | _ => True

theorem owned_acquireClient {s s' : Central Addr} {created : Bool} {a : Addr} {slot : Fin maxNodes}
    {c : Client} (h : s.view.Owned) (ht : s.task = .acquiring a slot)
    (hr : s.acquireClient created = some (c, s')) :
    Links.Owned { s'.view with task := .connecting a slot c } := by
  unfold Central.acquireClient at hr
  cases hf : s.findReusableClient with
  | some r =>
      simp only [hf, Option.some.injEq] at hr
      subst hr
      obtain ⟨i, hi, hri⟩ := Option.bind_eq_some_iff.mp hf
      obtain ⟨d, hd, hpair⟩ := Option.map_eq_some_iff.mp hri
      obtain ⟨rfl, rfl⟩ := Prod.mk.inj hpair
      have hunused := Central.of_findSlotIndex hi
      simp only [Bool.and_eq_true, Bool.not_eq_true'] at hunused
      rw [Central.view_setClient]
      exact h.reuse ht hunused.1 hd
  | none =>
      simp only [hf] at hr
      split_ifs at hr
      obtain ⟨rfl, rfl⟩ := Prod.mk.inj (Option.some.inj hr)
      exact h.create ht

theorem owned_registerStep {s : Central Addr} (h : s.view.Owned) {a : Addr} {slot : Fin maxNodes}
    {c : Client} {next : Assignment} (found : Bool) (ht : s.task = .registering a slot c next) :
    (registerStep s a slot c found next).view.Owned := by
  cases next with
  | client =>
      change Links.Owned { (s.setNode slot { s.nodes.get slot with client := some c }).view with
        task := .registering a slot c .getCharacteristic }
      rw [Central.view_setClient]
      exact h.assignClient ht
  | getCharacteristic => exact h.advance ht (by decide) (by simp) (by simp)
  | configChar found =>
      change Links.Owned { (s.setNode slot { s.nodes.get slot with configChar := found }).view with
        task := .registering a slot c .addr }
      rw [Central.view_setConfigChar]
      exact h.advance ht (by simp) (by simp) (by simp)
  | addr =>
      change Links.Owned { (s.setNode slot { s.nodes.get slot with addr := a }).view with
        task := .registering a slot c .used }
      rw [Central.view_setAddr]
      exact (h.assignAddr ht).advance ht (by decide) (by decide) (fun _ => update_self _ _ _)
  | used =>
      change Links.Owned { (s.setNode slot { s.nodes.get slot with
        used := true, configChar := (s.nodes.get slot).configChar }).view with task := .greeting slot }
      rw [Central.view_setUsed]
      exact h.publish ht

theorem owned_disconnecting {s : Central Addr} (h : s.view.Owned) {c : Client}
    (hhand : s.view.task.inHand = some c) (ha : s.view.task.assigned = none) :
    Links.Owned { s.view with task := .disconnecting c } := by
  apply h.carry (.disconnecting c) hhand ha rfl
  · intro i hi
    cases hi
  · trivial

/-- The link is up when the discovery succeeds, and only its loss can follow. -/
theorem owned_discovered {s : Central Addr} (h : s.view.Owned) {a : Addr} {slot : Fin maxNodes} {c : Client}
    (ht : s.task = .discovering a slot c) (hl : (s.link c).isSome = true) :
    Links.Owned { s.view with task := .registering a slot c .client } := by
  have hup : s.view.UpOrLost c a := by
    have hlink := h.taskLink
    simp only [Links.TaskLink, Central.view, ht] at hlink
    left
    apply hlink.resolve_right
    intro hnone
    simp [hnone] at hl
  apply h.carry (.registering a slot c .client) (c := c)
  · simp [Central.view, ht, ConnectTask.inHand]
  · simp [Central.view, ht, ConnectTask.assigned]
  · rfl
  · intro i hi
    simpa [Central.view, ht, ConnectTask.slot] using hi
  · exact ⟨hup, fun hn => absurd rfl hn, fun hn => by cases hn⟩

theorem owned_disconnected {s : Central Addr} (h : s.view.Owned) {c : Client}
    (ht : s.task = .disconnecting c) : Links.Owned { (s.dropLink c).view with task := .stashing c } := by
  have htask : (s.dropLink c).task = .disconnecting c := by
    obtain ⟨_, _, hdrop⟩ := Central.dropLink_eq s c
    rw [hdrop, ht]
  apply (Central.owned_dropLink h c).carry (.stashing c) (c := c)
  · simp [Central.view, htask, ConnectTask.inHand]
  · simp [Central.view, htask, ConnectTask.assigned]
  · rfl
  · intro i hi
    cases hi
  · exact Central.link_dropLink s c

theorem owned_stashClient {s : Central Addr} (h : s.view.Owned) {c : Client} (ht : s.task = .stashing c) :
    Links.Owned { (s.stashClient c).view with task := .idle } := by
  unfold Central.stashClient
  cases hf : s.findSlotIndex fun n => !n.used && n.client.isNone with
  | none => exact h.finish (by simp [Central.view, ht, ConnectTask.assigned])
  | some i =>
      have hunused := Central.of_findSlotIndex hf
      simp only [Bool.and_eq_true, Bool.not_eq_true'] at hunused
      change Links.Owned { (s.setNode i { s.nodes.get i with client := some c }).view with task := .idle }
      rw [Central.view_setClient]
      exact h.stash ht hunused.1

variable [DecidableEq Addr]

theorem owned_step (s : Central Addr) (a : Action Addr) (t : Central Addr) (h : s.view.Owned)
    (hg : SeesLoss s a) (hst : step s a = some t) : t.view.Owned := by
  cases a with
  | cleanup =>
      cases ht : s.task with
      | idle =>
          simp only [step, ht, Option.some.injEq] at hst
          subst hst
          change s.cleanupDisconnected.view.Owned
          rwa [Central.view_cleanupDisconnected]
      | _ => simp [step, ht] at hst
  | processNextPending =>
      cases ht : s.task with
      | idle =>
          simp only [step, ht] at hst
          cases hp : s.pendingQueue.pop with
          | none => exact Option.some.inj (by simpa only [hp] using hst) ▸ h
          | some r =>
              simp only [hp, Option.some.injEq] at hst
              subst hst
              apply h.rest (.findingSlot r.1)
              · simp [Central.view, ht, ConnectTask.assigned]
              · rfl
              · intro i hi
                cases hi
              · trivial
      | _ => simp [step, ht] at hst
  | findEmptySlot =>
      cases ht : s.task with
      | findingSlot addr =>
          have ha : s.view.task.assigned = none := by simp [Central.view, ht, ConnectTask.assigned]
          simp only [step, ht] at hst
          cases hf : s.findEmptySlot with
          | none =>
              simp only [hf, Option.some.injEq] at hst
              subst hst
              exact h.finish ha
          | some slot =>
              simp only [hf, Option.some.injEq] at hst
              subst hst
              apply h.rest (.acquiring addr slot) ha rfl
              · intro i hi
                cases hi
                have hunused := Central.of_findSlotIndex hf
                rwa [Bool.not_eq_true'] at hunused
              · trivial
      | _ => simp [step, ht] at hst
  | acquireClient created =>
      cases ht : s.task with
      | acquiring addr slot =>
          simp only [step, ht] at hst
          cases hr : s.acquireClient created with
          | none =>
              simp only [hr, Option.some.injEq] at hst
              subst hst
              exact h.finish (by simp [Central.view, ht, ConnectTask.assigned])
          | some r =>
              obtain ⟨c, s'⟩ := r
              simp only [hr, Option.some.injEq] at hst
              have hown := owned_acquireClient h ht hr
              exact hst ▸ hown
      | _ => simp [step, ht] at hst
  | connect ok =>
      cases ht : s.task with
      | connecting addr slot c =>
          simp only [step, ht] at hst
          split_ifs at hst with hok hfree
          · exact Option.some.inj hst ▸ h.connect ht hfree.2
          · have hown := owned_disconnecting h (c := c) (by simp [Central.view, ht, ConnectTask.inHand])
              (by simp [Central.view, ht, ConnectTask.assigned])
            exact Option.some.inj hst ▸ hown
      | _ => simp [step, ht] at hst
  | discoverAndSubscribe ok =>
      cases ht : s.task with
      | discovering addr slot c =>
          simp only [step, ht] at hst
          split_ifs at hst with hok
          · have hown := owned_discovered h ht (Bool.and_eq_true_iff.mp hok).2
            exact Option.some.inj hst ▸ hown
          · have hown := owned_disconnecting h (c := c) (by simp [Central.view, ht, ConnectTask.inHand])
              (by simp [Central.view, ht, ConnectTask.assigned])
            exact Option.some.inj hst ▸ hown
      | _ => simp [step, ht] at hst
  | disconnect =>
      cases ht : s.task with
      | disconnecting c =>
          simp only [step, ht, Option.some.injEq] at hst
          have hown := owned_disconnected h ht
          exact hst ▸ hown
      | _ => simp [step, ht] at hst
  | stashClient =>
      cases ht : s.task with
      | stashing c =>
          simp only [step, ht, Option.some.injEq] at hst
          have hown := owned_stashClient h ht
          exact hst ▸ hown
      | _ => simp [step, ht] at hst
  | assign found =>
      cases ht : s.task with
      | registering addr slot c next =>
          simp only [step, ht, Option.some.injEq] at hst
          exact hst ▸ owned_registerStep h found ht
      | _ => simp [step, ht] at hst
  | writeHubReady =>
      cases ht : s.task with
      | greeting slot =>
          simp only [step, ht, Option.some.injEq] at hst
          exact hst ▸ h.finish (by simp [Central.view, ht, ConnectTask.assigned])
      | _ => simp [step, ht] at hst
  | onResult addr =>
      simp only [step, Option.some.injEq] at hst
      rwa [← hst, Central.view_onResult]
  | loseLink c =>
      simp only [step] at hst
      split_ifs at hst
      exact Option.some.inj hst ▸ Central.owned_dropLink h c
  | onDisconnect c =>
      simp only [step] at hst
      split_ifs at hst with hlost
      rw [← Option.some.inj hst, Central.view_onDisconnect c (h.distinct · · c)]
      apply h.report hlost
      intro a slot next ht
      simp only [SeesLoss, show s.task = .registering a slot c next from ht] at hg
      exact hg rfl

omit [DecidableEq Addr] in
theorem owned_init [Inhabited Addr] : (Central.init : Central Addr).view.Owned := by
  have hclient : ∀ i, (Central.init : Central Addr).view.client i = none := fun i => by
    simp only [Central.view, Central.get_init]
  have hused : ∀ i, (Central.init : Central Addr).view.used i = false := fun i => by
    simp only [Central.view, Central.get_init]
  exact {
    fresh := fun c _ => ⟨rfl, List.not_mem_nil⟩
    upNotLost := fun c hc => absurd hc List.not_mem_nil
    known := fun i c hc => by simp [hclient] at hc
    distinct := fun i j c hc => by simp [hclient] at hc
    knownHand := fun c hc => by cases hc
    handFree := fun c hc => by cases hc
    target := fun i _ => hused i
    usedLink := fun i hi => by simp [hused] at hi
    restLink := fun i c _ hc => by simp [hclient] at hc
    taskLink := trivial }

theorem noZombie_of_owned (s : Central Addr) (h : s.view.Owned) : NoZombie s := by
  have hup : s.lost = [] → ∀ i, (s.nodes.get i).used = true →
      ∃ c, (s.nodes.get i).client = some c ∧ s.link c = some (s.nodes.get i).addr := by
    intro hlost i hi
    obtain ⟨c, hc, hl | ⟨_, hl⟩⟩ := h.usedLink i hi
    · exact ⟨c, hc, hl⟩
    · exact absurd (show c ∈ s.lost from hl) (by simp [hlost])
  have hused : s.task = .idle → ∀ i c, (s.nodes.get i).client = some c → s.link c ≠ none →
      (s.nodes.get i).used = true := by
    intro ht i c hc hl
    cases hu : (s.nodes.get i).used with
    | true => rfl
    | false => exact absurd (h.restLink i c hu hc (by simp [Central.view, ht, ConnectTask.assigned])) hl
  refine ⟨fun ht hlost i => ⟨fun hi => ?_, ?_⟩, fun ht hlost a => ?_⟩
  · obtain ⟨c, hc, hl⟩ := hup hlost i hi
    exact ⟨c, hc, by simp [hl]⟩
  · rintro ⟨c, hc, hl⟩
    exact hused ht i c hc hl
  · rw [Central.isAlreadyConnected_iff]
    constructor
    · rintro ⟨i, hi, rfl⟩
      obtain ⟨c, hc, hl⟩ := hup hlost i hi
      exact ⟨i, c, hc, hl⟩
    · rintro ⟨i, c, hc, hl⟩
      have hi := hused ht i c hc (by simp [hl])
      obtain ⟨d, hd, hdl⟩ := hup hlost i hi
      have hcd : d = c := Option.some.inj (hd.symm.trans hc)
      exact ⟨i, hi, Option.some.inj (hdl.symm.trans (hcd ▸ hl))⟩

/-- No connection slot is left behind in a run in which no link loss is reported
between the discovery and the last assignment of its registration. -/
theorem always_noZombie [Inhabited Addr] (as : List (Action Addr))
    (h : Along step SeesLoss (Central.init : Central Addr) as) :
    Always step NoZombie (Central.init : Central Addr) as :=
  always_of_along owned_step noZombie_of_owned owned_init h

def discovered (a : Nat) : List (Action Nat) :=
  [.onResult a, .processNextPending, .findEmptySlot, .acquireClient true, .connect true,
    .discoverAndSubscribe true]

def registered : List (Action Nat) := List.replicate 5 (.assign true) ++ [.writeHubReady]

instance (s : Central Addr) : (a : Action Addr) → Decidable (SeesLoss s a)
  | .onDisconnect c => by unfold SeesLoss; cases s.task <;> infer_instance
  | .cleanup | .processNextPending | .findEmptySlot | .acquireClient _ | .connect _
  | .discoverAndSubscribe _ | .disconnect | .stashClient | .assign _ | .writeHubReady | .onResult _
  | .loseLink _ => .isTrue trivial

def reconnectRun : List (Action Nat) :=
  discovered 7 ++ [.assign true, .loseLink 0] ++ List.replicate 4 (.assign true) ++
    [.onDisconnect 0, .writeHubReady, .cleanup] ++ discovered 7 ++ registered

theorem reconnectRun_noZombie :
    (exec step Central.init reconnectRun).map
        (fun s => (s.task, s.lost, s.created, s.isAlreadyConnected 7)) =
      some (.idle, [], 1, true) ∧
      Always step NoZombie (Central.init : Central Nat) reconnectRun :=
  ⟨by decide +kernel, always_noZombie reconnectRun (by decide +kernel)⟩

/-- The loss is reported while the slot is not marked used yet. -/
def zombieRun : List (Action Nat) :=
  discovered 7 ++ [.loseLink 0, .onDisconnect 0] ++ registered

theorem zombieRun_zombie : ¬ Always step NoZombie (Central.init : Central Nat) zombieRun := by
  intro h
  have hrun : (exec step Central.init zombieRun).map
      (fun s => (s.task, s.lost, (s.nodes.get ⟨0, by decide⟩).used,
        (s.nodes.get ⟨0, by decide⟩).client, s.link 0)) =
      some (.idle, [], true, some 0, none) := by
    decide +kernel
  obtain ⟨t, hx, ht⟩ := Option.map_eq_some_iff.mp hrun
  simp only [Prod.mk.injEq] at ht
  obtain ⟨hidle, hlost, hused, hclient, hlink⟩ := ht
  obtain ⟨c, hc, hup⟩ := ((h.at_end hx).slots hidle hlost ⟨0, by decide⟩).mp hused
  rw [hclient] at hc
  exact hup (Option.some.inj hc ▸ hlink)

end Tempio.Hub.Ble
