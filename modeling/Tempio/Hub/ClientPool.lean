import Mathlib.Data.Fintype.EquivFin
import Tempio.Hub.BleTasks

namespace Tempio.Hub.Ble

open Tempio.Lib.Search Tempio.Lib.Transition Function

variable {Addr : Type}

/-- Every client object that was created stands in one slot or is the one `connectToNode`
works with, and there is always a place for it and a client for an empty slot. -/
structure ClientsConserved (r : Radio Addr) : Prop where
  placed : ∀ c < r.central.created,
    (∃ i, (r.central.nodes.get i).client = some c) ∨ r.central.task.inHand = some c
  once : ∀ i j c, (r.central.nodes.get i).client = some c → (r.central.nodes.get j).client = some c → i = j
  hand : ∀ c, r.central.task.inHand = some c → ∀ i, (r.central.nodes.get i).client ≠ some c
  bound : r.central.created ≤ maxNodes
  register : ∀ a i c, r.central.task = .registering a i c .client → (r.central.nodes.get i).client = none
  stash : ∀ c, r.central.task = .stashing c →
    ∃ i, (r.central.nodes.get i).used = false ∧ (r.central.nodes.get i).client = none
  acquire : ∀ a i, r.central.task = .acquiring a i →
    (∃ j, (r.central.nodes.get j).used = false ∧ (r.central.nodes.get j).client ≠ none) ∨
      r.central.created < maxNodes
  create : r.stage = .creating → r.central.created < maxNodes

/-- While `connectToNode` holds an empty slot with a stored client and has not taken a client
yet, no slot before it becomes empty. -/
def NoEarlierSlotFreed (r : Radio Addr) : RadioAction Addr → Prop
  | .onDisconnect c =>
      match r.central.task with
      | .acquiring _ slot => (r.central.nodes.get slot).client ≠ none →
          ∀ i, (r.central.nodes.get i).used = true → (r.central.nodes.get i).client = some c → slot < i
      | _ => True
  | _ => True

section

variable {client : Fin maxNodes → Option Client} {used : Fin maxNodes → Bool} {created : Nat}
  {task : ConnectTask Addr}

/-- The slot or the place that the client in hand will go to is free. -/
def TargetFree (client : Fin maxNodes → Option Client) (used : Fin maxNodes → Bool) :
    ConnectTask Addr → Prop
  | .acquiring _ i => client i = none ∨ ∀ j < i, used j = true
  | .connecting _ i _ | .discovering _ i _ | .registering _ i _ .client => client i = none
  | .disconnecting _ | .stashing _ => ∃ i, used i = false ∧ client i = none
  | _ => True

structure Kept (client : Fin maxNodes → Option Client) (used : Fin maxNodes → Bool) (created : Nat)
    (task : ConnectTask Addr) : Prop where
  known : ∀ i c, client i = some c → c < created
  distinct : ∀ i j c, client i = some c → client j = some c → i = j
  knownHand : ∀ c, task.inHand = some c → c < created
  handFree : ∀ c, task.inHand = some c → ∀ i, client i ≠ some c
  placed : ∀ c < created, (∃ i, client i = some c) ∨ task.inHand = some c
  bound : created ≤ maxNodes
  target : ∀ i, task.slot = some i → used i = false
  free : TargetFree client used task

theorem Kept.held (h : Kept client used created task) : Held client created task :=
  ⟨h.known, h.distinct, h.knownHand, h.handFree⟩

theorem Kept.retask (h : Kept client used created task) (task' : ConnectTask Addr)
    (hhand : task'.inHand = task.inHand) (hslot : ∀ i, task'.slot = some i → used i = false)
    (hfree : TargetFree client used task') : Kept client used created task' :=
  { h.held.retask fun _ hc => hhand ▸ hc with
    placed := fun c hc => by rw [hhand]; exact h.placed c hc
    bound := h.bound
    target := hslot
    free := hfree }

/-- The clients in the slots are all there are, and they leave one slot out. -/
theorem Kept.created_lt (h : Kept client used created task) (hhand : task.inHand = none)
    {i : Fin maxNodes} (hi : client i = none) : created < maxNodes := by
  have hslot : ∀ c : Fin created, ∃ j, client j = some c.val := by
    intro c
    apply (h.placed c.val c.isLt).resolve_right
    simp [hhand]
  choose f hf using hslot
  have hinj : Function.Injective f := by
    intro c d hcd
    have hc := hf c
    rw [hcd, hf d] at hc
    exact Fin.ext (Option.some.inj hc).symm
  have hmiss : ¬ Function.Surjective f := by
    intro hsurj
    obtain ⟨c, hc⟩ := hsurj i
    have := hf c
    rw [hc, hi] at this
    cases this
  simpa using Fintype.card_lt_of_injective_not_surjective f hinj hmiss

theorem Kept.reuse (h : Kept client used created task) {a : Addr} {slot i : Fin maxNodes} {c : Client}
    (ht : task = .acquiring a slot) (hu : used i = false) (hc : client i = some c)
    (hfirst : ∀ j < i, used j = false → client j = none) :
    Kept (update client i none) used created (.connecting a slot c) := by
  have hheld : Held (update client i none) created (.connecting a slot c) := h.held.take hc rfl
  refine { hheld with
    placed := fun d hd => ?_
    bound := h.bound
    target := fun j hj => h.target j (ht ▸ hj)
    free := ?_ }
  · by_cases hdc : d = c
    · exact .inr (hdc ▸ rfl)
    · left
      obtain ⟨j, hj⟩ | hd := h.placed d hd
      · have hji : j ≠ i := by
          rintro rfl
          exact hdc (Option.some.inj (hj.symm.trans hc))
        exact ⟨j, by rw [update_of_ne hji, hj]⟩
      · rw [ht] at hd
        cases hd
  · -- the client comes from the chosen slot unless that slot has none
    have hfree := h.free
    rw [ht] at hfree
    show update client i none slot = none
    by_cases hsi : slot = i
    · rw [hsi, update_self]
    · rw [update_of_ne hsi]
      have htarget : used slot = false := h.target slot (by rw [ht]; rfl)
      rcases hfree with hnone | hall
      · exact hnone
      · rcases lt_or_gt_of_ne hsi with hlt | hgt
        · exact hfirst slot hlt htarget
        · rw [hall i hgt] at hu
          cases hu

theorem Kept.create (h : Kept client used created task) {a : Addr} {slot : Fin maxNodes}
    (ht : task = .acquiring a slot) (hnone : client slot = none) :
    Kept client used (created + 1) (.connecting a slot created) := by
  have hlt := h.created_lt (by rw [ht]; rfl) hnone
  have hheld : Held client (created + 1) (.connecting a slot created) := h.held.create rfl
  refine { hheld with
    placed := fun c hc => ?_
    bound := hlt
    target := fun j hj => h.target j (ht ▸ hj)
    free := hnone }
  rcases Nat.lt_succ_iff_lt_or_eq.mp hc with hc | rfl
  · left
    apply (h.placed c hc).resolve_right
    simp [ht, ConnectTask.inHand]
  · exact .inr rfl

/-- The client in hand goes into a slot without one. -/
theorem Kept.place (h : Kept client used created task) (task' : ConnectTask Addr) {c : Client}
    {i : Fin maxNodes} (hc : task.inHand = some c) (hi : client i = none) (hhand : task'.inHand = none)
    (hslot : ∀ j, task'.slot = some j → used j = false)
    (hfree : TargetFree (update client i (some c)) used task') :
    Kept (update client i (some c)) used created task' := by
  have hheld : Held (update client i (some c)) created task' := h.held.place hc hhand i
  refine { hheld with
    placed := fun d hd => ?_
    bound := h.bound
    target := hslot
    free := hfree }
  left
  obtain ⟨j, hj⟩ | hd := h.placed d hd
  · have hji : j ≠ i := by
      rintro rfl
      rw [hi] at hj
      cases hj
    exact ⟨j, by rw [update_of_ne hji, hj]⟩
  · rw [hc] at hd
    exact ⟨i, by rw [update_self]; exact hd⟩

/-- A slot is given up; where the chosen slot has a client, it is not one before it. -/
theorem Kept.release (h : Kept client used created task) (c : Client)
    (hearly : ∀ a slot, task = .acquiring a slot → client slot ≠ none →
      ∀ i, used i = true → client i = some c → slot < i) :
    Kept client (fun i => used i && decide (client i ≠ some c)) created task := by
  have hless : ∀ i, used i = false → (used i && decide (client i ≠ some c)) = false := by
    intro i hi
    rw [hi, Bool.false_and]
  refine { h with target := fun i hi => hless i (h.target i hi), free := ?_ }
  have hfree := h.free
  cases htask : task with
  | acquiring a slot =>
      rw [htask] at hfree
      by_cases hnone : client slot = none
      · exact .inl hnone
      · right
        intro j hj
        have huj := (hfree.resolve_left hnone) j hj
        have hne : client j ≠ some c :=
          fun hc => absurd (hearly a slot htask hnone j huj hc) (not_lt_of_gt hj)
        simp [huj, hne]
  | disconnecting d | stashing d =>
      rw [htask] at hfree
      obtain ⟨i, hu, hi⟩ := hfree
      exact ⟨i, hless i hu, hi⟩
  | connecting a i d | discovering a i d =>
      rw [htask] at hfree
      exact hfree
  | registering a i d next =>
      rw [htask] at hfree
      cases next <;> exact hfree
  | idle | findingSlot | greeting => trivial

end

structure Radio.Kept (r : Radio Addr) : Prop where
  clients : Ble.Kept r.central.view.client r.central.view.used r.central.created r.central.task
  creating : r.stage = .creating → ∃ a i, r.central.task = .acquiring a i ∧ r.central.view.client i = none

theorem conserved_of_kept {r : Radio Addr} (h : r.Kept) : ClientsConserved r where
  placed := h.clients.placed
  once := h.clients.distinct
  hand := h.clients.handFree
  bound := h.clients.bound
  register a i c ht := by
    have hfree := h.clients.free
    rw [ht] at hfree
    exact hfree
  stash c ht := by
    have hfree := h.clients.free
    rw [ht] at hfree
    exact hfree
  acquire a i ht := by
    have hu := h.clients.target i (by rw [ht]; rfl)
    by_cases hc : r.central.view.client i = none
    · exact .inr (h.clients.created_lt (by rw [ht]; rfl) hc)
    · exact .inl ⟨i, hu, hc⟩
  create hs := by
    obtain ⟨a, i, ht, hi⟩ := h.creating hs
    exact h.clients.created_lt (by rw [ht]; rfl) hi

section

variable {r t : Radio Addr}

/-- A call that goes on to another point of `connectToNode` and leaves the clients alone. -/
theorem Radio.Kept.go (h : r.Kept) (hclient : t.central.view.client = r.central.view.client)
    (hused : t.central.view.used = r.central.view.used) (hcreated : t.central.created = r.central.created)
    (hhand : t.central.task.inHand = r.central.task.inHand)
    (hslot : ∀ i, t.central.task.slot = some i → r.central.view.used i = false)
    (hfree : TargetFree r.central.view.client r.central.view.used t.central.task)
    (hstage : t.stage ≠ .creating) : t.Kept where
  clients := by
    rw [hclient, hused, hcreated]
    exact h.clients.retask _ hhand hslot hfree
  creating hs := absurd hs hstage

/-- `connectToNode` is entered or left without a client. -/
theorem Radio.Kept.without (h : r.Kept) (hclient : t.central.view.client = r.central.view.client)
    (hused : t.central.view.used = r.central.view.used) (hcreated : t.central.created = r.central.created)
    (hbefore : r.central.task.inHand = none) (hhand : t.central.task.inHand = none)
    (hslot : t.central.task.slot = none)
    (hfree : TargetFree r.central.view.client r.central.view.used t.central.task)
    (hstage : t.stage ≠ .creating) : t.Kept := by
  refine h.go hclient hused hcreated (hhand.trans hbefore.symm) (fun i hi => ?_) hfree hstage
  rw [hslot] at hi
  cases hi

/-- Neither task nor clients change. -/
theorem Radio.Kept.same (h : r.Kept) (hclient : t.central.view.client = r.central.view.client)
    (hused : t.central.view.used = r.central.view.used) (hcreated : t.central.created = r.central.created)
    (htask : t.central.task = r.central.task) (hstage : t.stage = .creating → r.stage = .creating) :
    t.Kept where
  clients := by
    rw [hclient, hused, hcreated, htask]
    exact h.clients
  creating hs := by
    rw [hclient, htask]
    exact h.creating (hstage hs)

theorem kept_registerStep (h : r.Kept) {addr : Addr} {slot : Fin maxNodes} {c : Client}
    {next : Assignment} (found : Bool) (hs : r.stage = .task)
    (ht : r.central.task = .registering addr slot c next) :
    Radio.Kept { r with central := registerStep r.central addr slot c found next } := by
  have hslot : r.central.view.used slot = false := h.clients.target slot (by rw [ht]; rfl)
  have hstage : r.stage ≠ .creating := by simp [hs]
  have hfree := h.clients.free
  rw [ht] at hfree
  cases next with
  | client =>
      refine ⟨?_, fun hc => absurd hc hstage⟩
      change Ble.Kept (Central.view (r.central.setNode slot
        { r.central.nodes.get slot with client := some c })).client
        (Central.view (r.central.setNode slot
        { r.central.nodes.get slot with client := some c })).used r.central.created
        (.registering addr slot c .getCharacteristic)
      rw [Central.view_setClient]
      apply h.clients.place
      · rw [ht]
        rfl
      · exact hfree
      · rfl
      · intro j hj
        cases hj
        exact hslot
      · trivial
  | getCharacteristic =>
      refine h.go rfl rfl rfl ?_ ?_ ?_ ?_
      · rw [ht]
        rfl
      · intro i hi
        cases hi
        exact hslot
      · trivial
      · exact hstage
  | configChar x =>
      have hv := Central.view_setConfigChar r.central slot x
      have hclient := congrArg Links.client hv
      have hused := congrArg Links.used hv
      refine h.go hclient hused rfl ?_ ?_ ?_ ?_
      · rw [ht]
        rfl
      · intro i hi
        cases hi
        exact hslot
      · trivial
      · exact hstage
  | addr =>
      have hv := Central.view_setAddr r.central slot addr
      have hclient := congrArg Links.client hv
      have hused := congrArg Links.used hv
      refine h.go hclient hused rfl ?_ ?_ ?_ ?_
      · rw [ht]
        rfl
      · intro i hi
        cases hi
        exact hslot
      · trivial
      · exact hstage
  | used =>
      refine ⟨?_, fun hc => absurd hc hstage⟩
      have hv := Central.view_setUsed r.central slot true (r.central.nodes.get slot).configChar
      change Ble.Kept (Central.view (r.central.setNode slot
        { r.central.nodes.get slot with
          used := true, configChar := (r.central.nodes.get slot).configChar })).client
        (Central.view (r.central.setNode slot
        { r.central.nodes.get slot with
          used := true, configChar := (r.central.nodes.get slot).configChar })).used
        r.central.created (.greeting slot)
      rw [hv]
      refine { h.clients with
        knownHand := fun c hc => by cases hc
        handFree := fun c hc => by cases hc
        placed := fun c hc => ?_
        target := fun i hi => by cases hi
        free := trivial }
      have := h.clients.placed c hc
      rwa [ht] at this

variable [DecidableEq Addr]

theorem kept_step {a : RadioAction Addr} (h : r.Kept) (hg : NoEarlierSlotFreed r a)
    (hst : radioStep r a = some t) : t.Kept := by
  cases moves_of_radioStep hst with
  | cleanup hs ht =>
      have hv := Central.view_cleanupDisconnected r.central
      exact h.same (congrArg Links.client hv) (congrArg Links.used hv) rfl rfl id
  | noPending hs ht hq => exact h
  | popped addr q hs ht hq =>
      exact h.without rfl rfl rfl (congrArg ConnectTask.inHand ht) rfl rfl trivial Stage.noConfusion
  | stopScan hs | startScan hs =>
      refine h.same rfl rfl rfl rfl ?_
      exact Stage.noConfusion
  | slotFound addr slot hs ht hu hfirst =>
      refine h.go rfl rfl rfl (congrArg ConnectTask.inHand ht).symm (fun i hi => ?_) (.inr hfirst) ?_
      · cases hi
        exact hu
      · simp [hs]
  | noSlot addr hs ht =>
      exact h.without rfl rfl rfl (congrArg ConnectTask.inHand ht) rfl rfl trivial Stage.noConfusion
  | reused addr slot i c hs ht hu hc hfirst =>
      refine ⟨?_, fun hcr => by simp [hs] at hcr⟩
      change Ble.Kept (Central.view (r.central.setNode i
        { r.central.nodes.get i with client := none })).client
        (Central.view (r.central.setNode i
        { r.central.nodes.get i with client := none })).used r.central.created (.connecting addr slot c)
      rw [Central.view_setClient]
      exact h.clients.reuse ht hu hc hfirst
  | noReusable addr slot hs ht hnone =>
      have hu := h.clients.target slot (by rw [ht]; rfl)
      exact ⟨h.clients, fun _ => ⟨addr, slot, ht, hnone slot hu⟩⟩
  | created addr slot hs ht =>
      obtain ⟨a, i, ht', hi⟩ := h.creating hs
      rw [ht] at ht'
      cases ht'
      exact ⟨h.clients.create ht hi, fun hcr => by cases hcr⟩
  | notCreated addr slot hs ht =>
      exact h.without rfl rfl rfl (congrArg ConnectTask.inHand ht) rfl rfl trivial Stage.noConfusion
  | connected addr slot c hs ht hl hlost | discovered addr slot c hs ht hl =>
      have hfree := h.clients.free
      have hu := h.clients.target slot (by rw [ht]; rfl)
      rw [ht] at hfree
      refine h.go rfl rfl rfl (congrArg ConnectTask.inHand ht).symm (fun i hi => ?_) hfree ?_
      · cases hi
        exact hu
      · simp [hs]
  | notConnected addr slot c hs ht | notDiscovered addr slot c ok hs ht hok =>
      have hfree := h.clients.free
      have hu := h.clients.target slot (by rw [ht]; rfl)
      rw [ht] at hfree
      refine h.go rfl rfl rfl (congrArg ConnectTask.inHand ht).symm (fun i hi => ?_) ⟨slot, hu, hfree⟩ ?_
      · cases hi
      · simp [hs]
  | disconnected c hs ht =>
      obtain ⟨link, lost, hdrop⟩ := Central.dropLink_eq r.central c
      have hfree := h.clients.free
      rw [ht] at hfree
      rw [hdrop]
      refine h.go rfl rfl rfl (congrArg ConnectTask.inHand ht).symm (fun i hi => ?_) hfree ?_
      · cases hi
      · simp [hs]
  | stashed c i hs ht hu hc =>
      refine ⟨?_, fun hcr => by cases hcr⟩
      change Ble.Kept (Central.view (r.central.setNode i
        { r.central.nodes.get i with client := some c })).client
        (Central.view (r.central.setNode i
        { r.central.nodes.get i with client := some c })).used r.central.created .idle
      rw [Central.view_setClient]
      apply h.clients.place
      · rw [ht]
        rfl
      · exact hc
      · rfl
      · intro j hj
        cases hj
      · trivial
  | noPlace c hs ht hnone =>
      have hfree := h.clients.free
      rw [ht] at hfree
      obtain ⟨i, hu, hi⟩ := hfree
      exact absurd hi (hnone i hu)
  | assigned addr slot c next found hs ht hn => exact kept_registerStep h found hs ht
  | published addr slot c found hs ht =>
      have := kept_registerStep h found hs ht
      exact ⟨this.clients, this.creating⟩
  | greeted slot hs ht =>
      exact h.without rfl rfl rfl (congrArg ConnectTask.inHand ht) rfl rfl trivial Stage.noConfusion
  | found addr hs =>
      have hv := Central.view_onResult r.central addr
      exact h.same (congrArg Links.client hv) (congrArg Links.used hv) (congrArg Links.created hv)
        (congrArg Links.task hv) id
  | lost c hl =>
      obtain ⟨link, lost, hdrop⟩ := Central.dropLink_eq r.central c
      rw [hdrop]
      exact h.same rfl rfl rfl rfl id
  | reported c hc =>
      have hv := Central.view_onDisconnect c (h.clients.distinct · · c)
      have htask := congrArg Links.task hv
      refine ⟨?_, fun hcr => ?_⟩
      · change Ble.Kept (Central.view { r.central.onDisconnect c with lost := r.central.lost.erase c }).client
          (Central.view { r.central.onDisconnect c with lost := r.central.lost.erase c }).used
          (Central.view { r.central.onDisconnect c with lost := r.central.lost.erase c }).created
          (Central.view { r.central.onDisconnect c with lost := r.central.lost.erase c }).task
        rw [hv]
        apply h.clients.release
        intro a slot ht
        simp only [NoEarlierSlotFreed, show r.central.task = .acquiring a slot from ht] at hg
        exact hg
      · obtain ⟨a, i, ht, hi⟩ := h.creating hcr
        refine ⟨a, i, htask.trans ht, ?_⟩
        show (Central.view { r.central.onDisconnect c with lost := r.central.lost.erase c }).client i = none
        rw [hv]
        exact hi

end

theorem kept_init [Inhabited Addr] : (Radio.init : Radio Addr).Kept := by
  have hclient : ∀ i, (Radio.init : Radio Addr).central.view.client i = none := fun i => by
    simp only [Radio.init, Central.view, Central.get_init]
  exact {
    clients := {
      known := fun i c hc => by simp [hclient] at hc
      distinct := fun i j c hc => by simp [hclient] at hc
      knownHand := fun c hc => by cases hc
      handFree := fun c hc => by cases hc
      placed := fun c hc => absurd hc (Nat.not_lt_zero c)
      bound := Nat.zero_le _
      target := fun i hi => by cases hi
      free := trivial }
    creating := fun hs => by cases hs }

/-- No client object is lost, shared or overwritten in a run in which no slot before the
chosen one is given up between `findEmptySlot` and `findReusableClient`, unless the chosen
slot has no stored client. -/
theorem always_clientsConserved [DecidableEq Addr] [Inhabited Addr] (as : List (RadioAction Addr))
    (h : Along radioStep NoEarlierSlotFreed (Radio.init : Radio Addr) as) :
    Always radioStep ClientsConserved (Radio.init : Radio Addr) as :=
  always_of_along (fun _ _ _ => kept_step) (fun _ => conserved_of_kept) kept_init h

instance decidableNoEarlierSlotFreed (r : Radio Addr) : (a : RadioAction Addr) → Decidable (NoEarlierSlotFreed r a)
  | .onDisconnect c => by unfold NoEarlierSlotFreed; cases r.central.task <;> infer_instance
  | .cleanup | .processNextPending | .stopScan | .findEmptySlot | .findReusableClient | .createClient _
  | .connect _ | .discoverAndSubscribe _ | .disconnect | .stashClient | .assign _ | .writeHubReady
  | .startScan | .onResult _ | .loseLink _ => .isTrue trivial

/-- A node is found and a slot chosen for it. -/
def slotChosen (a : Nat) : List (RadioAction Nat) :=
  [.onResult a, .processNextPending, .stopScan, .findEmptySlot]

def connectedBy (acquire : List (RadioAction Nat)) : List (RadioAction Nat) :=
  acquire ++ [.connect true, .discoverAndSubscribe true] ++ List.replicate 5 (.assign true) ++
    [.writeHubReady, .startScan]

def firstNode (a : Nat) : List (RadioAction Nat) :=
  slotChosen a ++ connectedBy [.findReusableClient, .createClient true]

def reuseRun : List (RadioAction Nat) :=
  firstNode 7 ++ [.loseLink 0, .onDisconnect 0, .cleanup] ++ slotChosen 8 ++
    connectedBy [.findReusableClient]

theorem reuseRun_clientsConserved :
    (exec radioStep Radio.init reuseRun).map
        (fun r => (r.central.created, r.central.isAlreadyConnected 8)) = some (1, true) ∧
      Always radioStep ClientsConserved (Radio.init : Radio Nat) reuseRun :=
  ⟨by decide +kernel, always_clientsConserved reuseRun (by decide +kernel)⟩

/-- Slot 1 is chosen, slot 0 is given up, and its client is taken and put into slot 1, over
the client that is stored there. -/
def overwriteRun : List (RadioAction Nat) :=
  firstNode 7 ++ firstNode 8 ++ [.loseLink 1, .onDisconnect 1, .cleanup] ++ slotChosen 9 ++
    [.loseLink 0, .onDisconnect 0] ++ connectedBy [.findReusableClient]

theorem overwriteRun_leaks :
    ¬ Always radioStep ClientsConserved (Radio.init : Radio Nat) overwriteRun := by
  intro h
  have hrun : (exec radioStep Radio.init overwriteRun).map
      (fun r => (r.central.created, decide (∀ i, (r.central.nodes.get i).client ≠ some 1),
        r.central.task.inHand)) = some (2, true, none) := by
    decide +kernel
  obtain ⟨r, hx, hr⟩ := Option.map_eq_some_iff.mp hrun
  simp only [Prod.mk.injEq, decide_eq_true_eq] at hr
  obtain ⟨hcreated, hnowhere, hhand⟩ := hr
  rcases (h.at_end hx).placed 1 (by rw [hcreated]; decide) with ⟨i, hi⟩ | hi
  · exact hnowhere i hi
  · rw [hhand] at hi
    cases hi

end Tempio.Hub.Ble
