import Tempio.Hub.BleConnection

namespace Tempio.Hub.Ble

open Function

variable {Addr : Type}

namespace ConnectTask

/-- The client that the task has taken and that stands in no slot. -/
def inHand : ConnectTask Addr → Option Client
  | .connecting _ _ c | .discovering _ _ c | .disconnecting c | .stashing c
  | .registering _ _ c .client => some c
  | _ => none

/-- The client that the task has put into its slot, which is not marked used yet. -/
def assigned : ConnectTask Addr → Option Client
  | .registering _ _ _ .client => none
  | .registering _ _ c _ => some c
  | _ => none

def slot : ConnectTask Addr → Option (Fin maxNodes)
  | .acquiring _ i | .connecting _ i _ | .discovering _ i _ | .registering _ i _ _ => some i
  | _ => none

end ConnectTask

/-- No client stands in two slots, or in a slot and in the task's hand. -/
structure Held (client : Fin maxNodes → Option Client) (created : Nat) (task : ConnectTask Addr) :
    Prop where
  known : ∀ i c, client i = some c → c < created
  distinct : ∀ i j c, client i = some c → client j = some c → i = j
  knownHand : ∀ c, task.inHand = some c → c < created
  handFree : ∀ c, task.inHand = some c → ∀ i, client i ≠ some c

section

variable {client : Fin maxNodes → Option Client} {created : Nat} {task task' : ConnectTask Addr}
  {i j : Fin maxNodes} {c d : Client}

theorem of_update_none (h : update client i none j = some d) : j ≠ i ∧ client j = some d := by
  by_cases hji : j = i
  · subst hji
    simp at h
  · exact ⟨hji, by rwa [update_of_ne hji] at h⟩

theorem eq_or_of_update_client (h : update client i (some c) j = some d) :
    j = i ∧ d = c ∨ j ≠ i ∧ client j = some d := by
  by_cases hji : j = i
  · rw [hji, update_self] at h
    exact .inl ⟨hji, (Option.some.inj h).symm⟩
  · exact .inr ⟨hji, by rwa [update_of_ne hji] at h⟩

theorem Held.retask (h : Held client created task)
    (hhand : ∀ c, task'.inHand = some c → task.inHand = some c) : Held client created task' :=
  { h with
    knownHand := fun c hc => h.knownHand c (hhand c hc)
    handFree := fun c hc => h.handFree c (hhand c hc) }

/-- A client is taken out of its slot. -/
theorem Held.take (h : Held client created task) (hc : client i = some c)
    (hhand : task'.inHand = some c) : Held (update client i none) created task' where
  known j d hd := h.known j d (of_update_none hd).2
  distinct j k d hj hk := h.distinct j k d (of_update_none hj).2 (of_update_none hk).2
  knownHand d hd := by
    rw [hhand] at hd
    exact Option.some.inj hd ▸ h.known i c hc
  handFree d hd j hj := by
    rw [hhand] at hd
    obtain ⟨hne, hj⟩ := of_update_none hj
    exact hne (h.distinct j i c (hj.trans hd.symm) hc)

theorem Held.create (h : Held client created task) (hhand : task'.inHand = some created) :
    Held client (created + 1) task' where
  known i c hc := Nat.lt_succ_of_lt (h.known i c hc)
  distinct := h.distinct
  knownHand c hc := by
    rw [hhand] at hc
    exact Option.some.inj hc ▸ Nat.lt_succ_self _
  handFree c hc i hi := by
    rw [hhand] at hc
    exact Nat.lt_irrefl _ (h.known i created (hi.trans hc.symm))

/-- The client in the task's hand is put into a slot. -/
theorem Held.place (h : Held client created task) (hc : task.inHand = some c)
    (hhand : task'.inHand = none) (i : Fin maxNodes) :
    Held (update client i (some c)) created task' := by
  refine ⟨fun j d hd => ?_, fun j k d hj hk => ?_, fun d hd => ?_, fun d hd => ?_⟩
  · rcases eq_or_of_update_client hd with ⟨_, rfl⟩ | ⟨_, hd⟩
    · exact h.knownHand d hc
    · exact h.known j d hd
  · rcases eq_or_of_update_client hj with ⟨hji, hdc⟩ | ⟨_, hj'⟩ <;>
      rcases eq_or_of_update_client hk with ⟨hki, hdc'⟩ | ⟨_, hk'⟩
    · rw [hji, hki]
    · exact absurd (hdc ▸ hk') (h.handFree c hc k)
    · exact absurd (hdc' ▸ hj') (h.handFree c hc j)
    · exact h.distinct j k d hj' hk'
  · rw [hhand] at hd
    cases hd
  · rw [hhand] at hd
    cases hd

end

/-- Who owns which client and which link: the slots as functions of their index,
without the characteristics and the scan. -/
structure Links (Addr : Type) where
  client : Fin maxNodes → Option Client
  used : Fin maxNodes → Bool
  addr : Fin maxNodes → Addr
  created : Nat
  link : Client → Option Addr
  lost : List Client
  task : ConnectTask Addr

namespace Links

/-- The link of a registered client is up to the node of the slot, or its loss
is still to be reported. -/
def UpOrLost (v : Links Addr) (c : Client) (a : Addr) : Prop :=
  v.link c = some a ∨ v.link c = none ∧ c ∈ v.lost

/-- What each point of `connectToNode` knows about the link of its client. -/
def TaskLink (v : Links Addr) : Prop :=
  match v.task with
  | .connecting _ _ c | .stashing c => v.link c = none
  | .discovering a _ c => v.link c = some a ∨ v.link c = none
  | .registering a i c next =>
      v.UpOrLost c a ∧ (next ≠ .client → v.client i = some c) ∧ (next = .used → v.addr i = a)
  | _ => True

/-- Every client is owned once, and the link of a slot's client is up, or lost
and still to be reported, exactly if the slot is used. -/
structure Owned (v : Links Addr) : Prop where
  fresh : ∀ c, v.created ≤ c → v.link c = none ∧ c ∉ v.lost
  upNotLost : ∀ c ∈ v.lost, v.link c = none
  known : ∀ i c, v.client i = some c → c < v.created
  distinct : ∀ i j c, v.client i = some c → v.client j = some c → i = j
  knownHand : ∀ c, v.task.inHand = some c → c < v.created
  handFree : ∀ c, v.task.inHand = some c → ∀ i, v.client i ≠ some c
  target : ∀ i, v.task.slot = some i → v.used i = false
  usedLink : ∀ i, v.used i = true → ∃ c, v.client i = some c ∧ v.UpOrLost c (v.addr i)
  restLink : ∀ i c, v.used i = false → v.client i = some c → v.task.assigned ≠ some c →
    v.link c = none
  taskLink : v.TaskLink

variable {v : Links Addr}

theorem Owned.held (h : v.Owned) : Held v.client v.created v.task :=
  ⟨h.known, h.distinct, h.knownHand, h.handFree⟩

theorem Owned.rest (h : v.Owned) (task : ConnectTask Addr) (ha : v.task.assigned = none)
    (hh : task.inHand = none) (hslot : ∀ i, task.slot = some i → v.used i = false)
    (hlink : TaskLink { v with task := task }) : Owned { v with task := task } :=
  { h with
    knownHand := fun c hc => by simp [hh] at hc
    handFree := fun c hc => by simp [hh] at hc
    target := hslot
    restLink := fun i c hu hc _ => h.restLink i c hu hc (by simp [ha])
    taskLink := hlink }

theorem Owned.finish (h : v.Owned) (ha : v.task.assigned = none) :
    Owned { v with task := .idle } := by
  apply h.rest .idle ha rfl
  · intro i hi
    cases hi
  · trivial

theorem Owned.carry (h : v.Owned) (task : ConnectTask Addr) {c : Client}
    (hhand : v.task.inHand = some c) (ha : v.task.assigned = none) (hh : task.inHand = some c)
    (hslot : ∀ i, task.slot = some i → v.task.slot = some i)
    (hlink : TaskLink { v with task := task }) : Owned { v with task := task } :=
  { h with
    knownHand := fun d hd => h.knownHand d (hhand.trans (hh.symm.trans hd))
    handFree := fun d hd => h.handFree d (hhand.trans (hh.symm.trans hd))
    target := fun i hi => h.target i (hslot i hi)
    restLink := fun i d hu hd _ => h.restLink i d hu hd (by simp [ha])
    taskLink := hlink }

theorem Owned.reuse (h : v.Owned) {a : Addr} {slot i : Fin maxNodes} {c : Client}
    (ht : v.task = .acquiring a slot) (hu : v.used i = false) (hc : v.client i = some c) :
    Owned { v with client := update v.client i none, task := .connecting a slot c } := by
  have hheld : Held (update v.client i none) v.created (.connecting a slot c) := h.held.take hc rfl
  have ha : v.task.assigned ≠ some c := by rw [ht]; simp [ConnectTask.assigned]
  refine { hheld, h with
    target := fun j hj => h.target j (by rw [ht]; exact hj)
    usedLink := fun j hj => ?_
    restLink := fun j d hj hd _ => h.restLink j d hj (of_update_none hd).2 (by simp [ht, ConnectTask.assigned])
    taskLink := h.restLink i c hu hc ha }
  · have hji : j ≠ i := fun hji => by simp [hji, hu] at hj
    obtain ⟨d, hd, hl⟩ := h.usedLink j hj
    exact ⟨d, (update_of_ne hji _ _).trans hd, hl⟩

theorem Owned.create (h : v.Owned) {a : Addr} {slot : Fin maxNodes} (ht : v.task = .acquiring a slot) :
    Owned { v with created := v.created + 1, task := .connecting a slot v.created } := by
  have hheld : Held v.client (v.created + 1) (.connecting a slot v.created) := h.held.create rfl
  exact { hheld, h with
    fresh := fun c hc => h.fresh c (Nat.le_of_succ_le hc)
    target := fun j hj => h.target j (by rw [ht]; exact hj)
    restLink := fun i c hu hc _ => h.restLink i c hu hc (by simp [ht, ConnectTask.assigned])
    taskLink := (h.fresh v.created (Nat.le_refl _)).1 }

theorem Owned.connect (h : v.Owned) {a : Addr} {slot : Fin maxNodes} {c : Client}
    (ht : v.task = .connecting a slot c) (hlost : c ∉ v.lost) :
    Owned { v with link := update v.link c (some a), task := .discovering a slot c } := by
  have hhand : v.task.inHand = some c := by rw [ht]; rfl
  have hother : ∀ {i d}, v.client i = some d → update v.link c (some a) d = v.link d := by
    intro i d hd
    exact update_of_ne (fun hdc : d = c => h.handFree c hhand i (hdc ▸ hd)) _ _
  refine { h with
    fresh := fun d hd => ?_
    upNotLost := fun d hd => ?_
    knownHand := fun d hd => h.knownHand d (by rw [ht]; exact hd)
    handFree := fun d hd => h.handFree d (by rw [ht]; exact hd)
    target := fun i hi => h.target i (by rw [ht]; exact hi)
    usedLink := fun i hi => ?_
    restLink := fun i d hu hd _ => ?_
    taskLink := .inl (update_self _ _ _) }
  · have hdc : d ≠ c := fun hdc => Nat.not_lt.mpr hd (hdc ▸ h.knownHand c hhand)
    exact ⟨(update_of_ne hdc _ _).trans (h.fresh d hd).1, (h.fresh d hd).2⟩
  · exact (update_of_ne (fun hdc : d = c => hlost (hdc ▸ hd)) _ _).trans (h.upNotLost d hd)
  · obtain ⟨d, hd, hl⟩ := h.usedLink i hi
    refine ⟨d, hd, ?_⟩
    simpa only [UpOrLost, hother hd] using hl
  · exact (hother hd).trans (h.restLink i d hu hd (by simp [ht, ConnectTask.assigned]))

theorem Owned.drop (h : v.Owned) {c : Client} {a : Addr} (hl : v.link c = some a) :
    Owned { v with link := update v.link c none, lost := v.lost ++ [c] } := by
  have hnone : ∀ {d}, v.link d = none → update v.link c none d = none := by
    intro d hd
    by_cases hdc : d = c
    · rw [hdc, update_self]
    · rwa [update_of_ne hdc]
  have hup : ∀ {d b}, v.UpOrLost d b →
      UpOrLost { v with link := update v.link c none, lost := v.lost ++ [c] } d b := by
    intro d b hd
    by_cases hdc : d = c
    · exact .inr ⟨hdc ▸ update_self _ _ _, hdc ▸ List.mem_append_right _ (List.mem_singleton_self _)⟩
    · exact hd.imp (fun hd => (update_of_ne hdc _ _).trans hd)
        fun hd => ⟨hnone hd.1, List.mem_append_left _ hd.2⟩
  have hc : c < v.created := Nat.lt_of_not_le fun hge => by
    rw [(h.fresh c hge).1] at hl
    cases hl
  refine { h with
    fresh := fun d hd => ?_
    upNotLost := fun d hd => ?_
    usedLink := fun i hi => ?_
    restLink := fun i d hu hd ha => hnone (h.restLink i d hu hd ha)
    taskLink := ?_ }
  · have hdc : d ≠ c := fun hdc => Nat.not_lt.mpr hd (hdc ▸ hc)
    refine ⟨hnone (h.fresh d hd).1, ?_⟩
    simpa [hdc] using (h.fresh d hd).2
  · rcases List.mem_append.mp hd with hd | hd
    · exact hnone (h.upNotLost d hd)
    · rw [List.mem_singleton.mp hd]
      exact update_self _ _ _
  · obtain ⟨d, hd, hdl⟩ := h.usedLink i hi
    exact ⟨d, hd, hup hdl⟩
  · have htask := h.taskLink
    unfold TaskLink at htask ⊢
    cases ht : v.task with
    | connecting _ _ d | stashing d =>
        rw [ht] at htask
        exact hnone htask
    | discovering b _ d =>
        rw [ht] at htask
        by_cases hdc : d = c
        · exact .inr (hdc ▸ update_self _ _ _)
        · exact htask.imp (fun hd => (update_of_ne hdc _ _).trans hd) hnone
    | registering b i d next =>
        rw [ht] at htask
        exact ⟨hup htask.1, htask.2⟩
    | _ => trivial

/-- The client in the task's hand is put into an unused slot. -/
theorem Owned.place (h : v.Owned) (task : ConnectTask Addr) {c : Client} {i : Fin maxNodes}
    (hhand : v.task.inHand = some c) (ha : v.task.assigned = none) (hu : v.used i = false)
    (hh : task.inHand = none) (hslot : ∀ j, task.slot = some j → v.used j = false)
    (hrest : task.assigned ≠ some c → v.link c = none)
    (hlink : TaskLink { v with client := update v.client i (some c), task := task }) :
    Owned { v with client := update v.client i (some c), task := task } := by
  have hheld : Held (update v.client i (some c)) v.created task := h.held.place hhand hh i
  refine { hheld, h with
    target := hslot
    usedLink := fun j hj => ?_
    restLink := fun j d hj hd hdc => ?_
    taskLink := hlink }
  · have hji : j ≠ i := fun hji => by simp [hji, hu] at hj
    obtain ⟨d, hd, hl⟩ := h.usedLink j hj
    exact ⟨d, (update_of_ne hji _ _).trans hd, hl⟩
  · rcases eq_or_of_update_client hd with ⟨_, rfl⟩ | ⟨_, hd⟩
    · exact hrest hdc
    · exact h.restLink j d hj hd (by simp [ha])

theorem Owned.stash (h : v.Owned) {c : Client} (ht : v.task = .stashing c) {i : Fin maxNodes}
    (hu : v.used i = false) : Owned { v with client := update v.client i (some c), task := .idle } := by
  have hlink : v.link c = none := by
    have := h.taskLink
    rwa [TaskLink, ht] at this
  apply h.place
  · rw [ht]
    rfl
  · rw [ht]
    rfl
  · exact hu
  · rfl
  · intro j hj
    cases hj
  · exact fun _ => hlink
  · trivial

theorem Owned.assignClient (h : v.Owned) {a : Addr} {slot : Fin maxNodes} {c : Client}
    (ht : v.task = .registering a slot c .client) :
    Owned { v with
      client := update v.client slot (some c)
      task := .registering a slot c .getCharacteristic } := by
  have hu : v.used slot = false := h.target slot (by rw [ht]; rfl)
  have hlink : v.UpOrLost c a := by
    have := h.taskLink
    rw [TaskLink, ht] at this
    exact this.1
  apply h.place
  · rw [ht]
    rfl
  · rw [ht]
    rfl
  · exact hu
  · rfl
  · intro j hj
    cases hj
    exact hu
  · intro hn
    exact absurd rfl hn
  · exact ⟨hlink, fun _ => update_self _ _ _, fun hn => by cases hn⟩

theorem assigned_registering {a : Addr} {slot : Fin maxNodes} {c : Client} {next : Assignment}
    (hn : next ≠ .client) : (ConnectTask.registering a slot c next).assigned = some c := by
  cases next <;> first | rfl | exact absurd rfl hn

theorem inHand_registering {a : Addr} {slot : Fin maxNodes} {c : Client} {next : Assignment}
    (hn : next ≠ .client) : (ConnectTask.registering a slot c next).inHand = none := by
  cases next <;> first | rfl | exact absurd rfl hn

theorem Owned.advance (h : v.Owned) {a : Addr} {slot : Fin maxNodes} {c : Client}
    {next next' : Assignment} (ht : v.task = .registering a slot c next) (hn : next ≠ .client)
    (hn' : next' ≠ .client) (haddr : next' = .used → v.addr slot = a) :
    Owned { v with task := .registering a slot c next' } := by
  have hlink := h.taskLink
  rw [TaskLink, ht] at hlink
  exact { h with
    knownHand := fun d hd => by simp [inHand_registering hn'] at hd
    handFree := fun d hd => by simp [inHand_registering hn'] at hd
    target := fun i hi => h.target i (by rw [ht]; exact hi)
    restLink := fun i d hu hd ha => h.restLink i d hu hd (by
      rw [ht, assigned_registering hn]
      rwa [assigned_registering hn'] at ha)
    taskLink := ⟨hlink.1, fun _ => hlink.2.1 hn, haddr⟩ }

theorem Owned.assignAddr (h : v.Owned) {a : Addr} {slot : Fin maxNodes} {c : Client}
    {next : Assignment} (ht : v.task = .registering a slot c next) :
    Owned { v with addr := update v.addr slot a } := by
  have hu : v.used slot = false := h.target slot (by rw [ht]; rfl)
  have hlink := h.taskLink
  rw [TaskLink, ht] at hlink
  refine { h with usedLink := fun i hi => ?_, taskLink := ?_ }
  · have his : i ≠ slot := fun his => by simp [his, hu] at hi
    obtain ⟨d, hd, hl⟩ := h.usedLink i hi
    exact ⟨d, hd, by simpa only [UpOrLost, update_of_ne his] using hl⟩
  · rw [TaskLink, ht]
    exact ⟨hlink.1, hlink.2.1, fun _ => update_self _ _ _⟩

theorem Owned.publish (h : v.Owned) {a : Addr} {slot : Fin maxNodes} {c : Client}
    (ht : v.task = .registering a slot c .used) :
    Owned { v with used := update v.used slot true, task := .greeting slot } := by
  have hlink := h.taskLink
  rw [TaskLink, ht] at hlink
  obtain ⟨hup, hclient, haddr⟩ := hlink
  refine { h with
    knownHand := fun d hd => by cases hd
    handFree := fun d hd => by cases hd
    target := fun i hi => by cases hi
    usedLink := fun i hi => ?_
    restLink := fun i d hu hd _ => ?_
    taskLink := trivial }
  · by_cases his : i = slot
    · subst his
      exact ⟨c, hclient (by decide), (haddr rfl).symm ▸ hup⟩
    · exact h.usedLink i ((update_of_ne his true v.used).symm.trans hi)
  · have his : i ≠ slot := fun his => by simp [his] at hu
    apply h.restLink i d ((update_of_ne his true v.used).symm.trans hu) hd
    intro hdc
    apply his
    have hcd : c = d := Option.some.inj (by rw [← hdc, ht]; rfl)
    exact h.distinct i slot d hd (hcd ▸ hclient (by decide))

/-- What `onDisconnect` does: no used slot keeps the client. -/
def report (v : Links Addr) (c : Client) : Links Addr :=
  { v with used := fun i => v.used i && decide (v.client i ≠ some c), lost := v.lost.erase c }

theorem Owned.report (h : v.Owned) {c : Client} (hc : c ∈ v.lost)
    (hreg : ∀ a slot next, v.task ≠ .registering a slot c next) : (v.report c).Owned := by
  have hup : ∀ {d a}, d ≠ c → v.UpOrLost d a → (v.report c).UpOrLost d a := by
    intro d a hdc hd
    exact hd.imp_right fun hd => ⟨hd.1, (List.mem_erase_of_ne hdc).mpr hd.2⟩
  refine { h with
    fresh := fun d hd => ⟨(h.fresh d hd).1, fun hm => (h.fresh d hd).2 (List.mem_of_mem_erase hm)⟩
    upNotLost := fun d hd => h.upNotLost d (List.mem_of_mem_erase hd)
    target := fun i hi => by simp [Links.report, h.target i hi]
    usedLink := fun i hi => ?_
    restLink := fun i d hu hd ha => ?_
    taskLink := ?_ }
  · simp only [Links.report, Bool.and_eq_true, decide_eq_true_eq] at hi
    obtain ⟨d, hd, hl⟩ := h.usedLink i hi.1
    exact ⟨d, hd, hup (fun hdc => hi.2 (hdc ▸ hd)) hl⟩
  · simp only [Links.report, Bool.and_eq_false_iff, decide_eq_false_iff_not, not_not] at hu
    rcases hu with hu | hdc
    · exact h.restLink i d hu hd ha
    · exact h.upNotLost d (Option.some.inj (hd.symm.trans hdc) ▸ hc)
  · have htask := h.taskLink
    unfold TaskLink at htask ⊢
    cases ht : v.task with
    | registering a i d next =>
        simp only [Links.report, ht] at htask ⊢
        exact ⟨hup (fun hdc => hreg a i next (hdc ▸ ht)) htask.1, htask.2⟩
    | connecting | stashing | discovering =>
        simp only [Links.report, ht] at htask ⊢
        exact htask
    | _ => simp only [Links.report, ht]

end Links

end Tempio.Hub.Ble
