import Tempio.Hub.ClientPool

namespace Tempio.Hub.Ble

open Tempio.Lib.Search Tempio.Lib.Transition Function

variable {Addr : Type}

/-- Every address is in one place at most: a position of the queue, the one `connectToNode`
works on, or a used slot. -/
structure OnePlace (used : Fin maxNodes → Bool) (addr : Fin maxNodes → Addr) (queue : List Addr)
    (working : Option Addr) : Prop where
  queued : queue.Nodup
  slots : ∀ i j, used i = true → used j = true → addr i = addr j → i = j
  apart : ∀ i, used i = true → addr i ∉ queue
  workingQueue : ∀ a, working = some a → a ∉ queue
  workingSlot : ∀ a, working = some a → ∀ i, used i = true → addr i ≠ a

def Radio.InOnePlace (r : Radio Addr) : Prop :=
  OnePlace r.central.view.used r.central.view.addr r.central.pendingQueue.contents r.working

section

variable {used : Fin maxNodes → Bool} {addr : Fin maxNodes → Addr} {queue : List Addr}
  {working : Option Addr}

theorem OnePlace.returned (h : OnePlace used addr queue working) : OnePlace used addr queue none :=
  { h with
    workingQueue := fun a ha => by cases ha
    workingSlot := fun a ha => by cases ha }

theorem OnePlace.pop {a : Addr} (h : OnePlace used addr (a :: queue) working) :
    OnePlace used addr queue (some a) where
  queued := (List.nodup_cons.mp h.queued).2
  slots := h.slots
  apart i hi hmem := h.apart i hi (List.mem_cons_of_mem _ hmem)
  workingQueue b hb := by
    obtain rfl := Option.some.inj hb
    exact (List.nodup_cons.mp h.queued).1
  workingSlot b hb i hi he := by
    obtain rfl := Option.some.inj hb
    exact h.apart i hi (he ▸ List.mem_cons_self)

theorem OnePlace.push {a : Addr} (h : OnePlace used addr queue working) (hqueue : a ∉ queue)
    (hslots : ∀ i, used i = true → addr i ≠ a) (hworking : working ≠ some a) :
    OnePlace used addr (queue ++ [a]) working where
  queued := List.nodup_append.mpr ⟨h.queued, List.nodup_singleton a, fun b hb c hc hbc =>
    hqueue (List.mem_singleton.mp hc ▸ hbc ▸ hb)⟩
  slots := h.slots
  apart i hi hmem := by
    rcases List.mem_append.mp hmem with hmem | hmem
    · exact h.apart i hi hmem
    · exact hslots i hi (List.mem_singleton.mp hmem)
  workingQueue b hb hmem := by
    rcases List.mem_append.mp hmem with hmem | hmem
    · exact h.workingQueue b hb hmem
    · exact hworking (List.mem_singleton.mp hmem ▸ hb)
  workingSlot := h.workingSlot

theorem OnePlace.fewer {used' : Fin maxNodes → Bool} (h : OnePlace used addr queue working)
    (hless : ∀ i, used' i = true → used i = true) : OnePlace used' addr queue working where
  queued := h.queued
  slots i j hi hj := h.slots i j (hless i hi) (hless j hj)
  apart i hi := h.apart i (hless i hi)
  workingQueue := h.workingQueue
  workingSlot a ha i hi := h.workingSlot a ha i (hless i hi)

theorem OnePlace.setAddr {i : Fin maxNodes} (h : OnePlace used addr queue working) (hi : used i = false)
    (a : Addr) : OnePlace used (update addr i a) queue working := by
  have hsame : ∀ j, used j = true → update addr i a j = addr j := by
    intro j hj
    apply update_of_ne
    rintro rfl
    rw [hi] at hj
    cases hj
  refine ⟨h.queued, fun j k hj hk => ?_, fun j hj => ?_, h.workingQueue, fun b hb j hj => ?_⟩
  · rw [hsame j hj, hsame k hk]
    exact h.slots j k hj hk
  · rw [hsame j hj]
    exact h.apart j hj
  · rw [hsame j hj]
    exact h.workingSlot b hb j hj

theorem OnePlace.congr {used' : Fin maxNodes → Bool} {addr' : Fin maxNodes → Addr}
    (h : OnePlace used addr queue working) (hused : used' = used) (haddr : addr' = addr) :
    OnePlace used' addr' queue working := by
  rw [hused, haddr]
  exact h

/-- The address goes from `connectToNode` to the slot that holds it. -/
theorem OnePlace.publish {i : Fin maxNodes} (h : OnePlace used addr queue (some (addr i))) :
    OnePlace (update used i true) addr queue none := by
  have hused : ∀ {j}, update used i true j = true → j = i ∨ used j = true := by
    intro j hj
    by_cases hji : j = i
    · exact .inl hji
    · exact .inr (by rwa [update_of_ne hji] at hj)
  refine ⟨h.queued, fun j k hj hk he => ?_, fun j hj => ?_, fun a ha => (by cases ha),
    fun a ha => (by cases ha)⟩
  · rcases hused hj with hji | hju <;> rcases hused hk with hki | hku
    · rw [hji, hki]
    · exact absurd (hji ▸ he).symm (h.workingSlot _ rfl k hku)
    · exact absurd (hki ▸ he) (h.workingSlot _ rfl j hju)
    · exact h.slots j k hju hku he
  · rcases hused hj with rfl | hj
    · exact h.workingQueue _ rfl
    · exact h.apart j hj

end

/-- The address that the task works on until it is registered. -/
def ConnectTask.address : ConnectTask Addr → Option Addr
  | .findingSlot a | .acquiring a _ | .connecting a _ _ | .discovering a _ _
  | .registering a _ _ _ => some a
  | _ => none

structure Radio.Tracked (r : Radio Addr) : Prop where
  place : r.InOnePlace
  quiet : r.working ≠ none → r.stage ≠ .stoppingScan → r.scanning = false
  tracks : ∀ a, r.central.task.address = some a → r.working = some a
  rest : r.central.task = .idle → r.working = none
  returning : r.stage = .startingScan → r.central.task = .idle
  target : ∀ i, r.central.task.slot = some i → r.central.view.used i = false
  registered : ∀ a i c, r.central.task = .registering a i c .used → r.central.view.addr i = a

variable [DecidableEq Addr]

/-- The address that was popped is not queued again before the scan is stopped: every slot
is used or the queue is full, should its node be heard once more. -/
def NotQueuedAgain (r : Radio Addr) : RadioAction Addr → Prop
  | .onResult a => r.scanning = true → r.stage = .stoppingScan → r.working = some a →
      r.central.findEmptySlot = none ∨ r.central.pendingQueue.full = true
  | _ => True

theorem isAlreadyPending_iff {s : Central Addr} {a : Addr} :
    s.isAlreadyPending a = true ↔ a ∈ s.pendingQueue.contents := by
  simp [Central.isAlreadyPending, ThreadSafeQueue.contains]

/-- A node that is heard is queued when it is in no slot and not queued yet, and there is
room for it; else nothing happens. -/
theorem onResult_cases (s : Central Addr) (a : Addr) :
    (∃ q : ThreadSafeQueue Addr pendingMax, s.onResult a = { s with pendingQueue := q } ∧
      q.contents = s.pendingQueue.contents ++ [a] ∧ a ∉ s.pendingQueue.contents ∧
      (∀ i, s.view.used i = true → s.view.addr i ≠ a) ∧
      ¬ (s.findEmptySlot = none ∨ s.pendingQueue.full = true)) ∨
    (s.onResult a = s ∧ (a ∈ s.pendingQueue.contents ∨
      (∃ i, s.view.used i = true ∧ s.view.addr i = a) ∨
      s.findEmptySlot = none ∨ s.pendingQueue.full = true)) := by
  unfold Central.onResult
  split_ifs with hcon hpend hempty hfull
  · exact .inr ⟨rfl, .inr (.inl (Central.isAlreadyConnected_iff.mp hcon))⟩
  · exact .inr ⟨rfl, .inl (isAlreadyPending_iff.mp hpend)⟩
  · exact .inr ⟨rfl, .inr (.inr (.inl (Option.isNone_iff_eq_none.mp hempty)))⟩
  · exact .inr ⟨rfl, .inr (.inr (.inr hfull))⟩
  · cases hp : s.pendingQueue.push a with
    | some q =>
        refine .inl ⟨q, rfl, ThreadSafeQueue.contents_pushUnsafe hp, ?_, fun i hu ha => ?_, ?_⟩
        · exact fun hmem => hpend (isAlreadyPending_iff.mpr hmem)
        · exact hcon (Central.isAlreadyConnected_iff.mpr ⟨i, hu, ha⟩)
        · rintro (hnone | hroom)
          · exact hempty (Option.isNone_iff_eq_none.mpr hnone)
          · exact hfull hroom
    | none =>
        have hlen := ThreadSafeQueue.pushUnsafe_eq_none.mp hp
        rw [ThreadSafeQueue.length_contents] at hlen
        exact absurd (decide_eq_true hlen) hfull

omit [DecidableEq Addr] in
theorem onDisconnect_slots (s : Central Addr) (c : Client) :
    (∀ i, (s.onDisconnect c).view.used i = true → s.view.used i = true) ∧
      (s.onDisconnect c).view.addr = s.view.addr ∧
      (s.onDisconnect c).pendingQueue = s.pendingQueue ∧ (s.onDisconnect c).task = s.task := by
  unfold Central.onDisconnect
  cases hf : s.findSlotByClient c with
  | none => exact ⟨fun i hi => hi, rfl, rfl, rfl⟩
  | some i =>
      have hv := Central.view_setUsed s i false false
      have haddr := congrArg Links.addr hv
      refine ⟨fun j hj => ?_, haddr, rfl, rfl⟩
      have hu : (s.setNode i { s.nodes.get i with used := false, configChar := false }).view.used j = true :=
        hj
      rw [hv] at hu
      by_cases hji : j = i
      · simp [hji] at hu
      · simpa [update_of_ne hji] using hu

section

variable {r t : Radio Addr}

omit [DecidableEq Addr] in
/-- A call that goes on with the same address in hand. -/
theorem Radio.Tracked.go (h : r.Tracked) (hplace : t.InOnePlace) (hworking : t.working = r.working)
    (hscan : t.scanning = r.scanning) (hs : r.stage ≠ .stoppingScan) (hstage : t.stage ≠ .startingScan)
    (haddress : ∀ a, t.central.task.address = some a → r.central.task.address = some a)
    (hne : t.central.task ≠ .idle)
    (htarget : ∀ i, t.central.task.slot = some i → t.central.view.used i = false)
    (hreg : ∀ a i c, t.central.task = .registering a i c .used → t.central.view.addr i = a) :
    t.Tracked where
  place := hplace
  quiet hw _ := by
    rw [hscan]
    exact h.quiet (hworking ▸ hw) hs
  tracks a ha := by
    rw [hworking]
    exact h.tracks a (haddress a ha)
  rest ht := absurd ht hne
  returning ht := absurd ht hstage
  target := htarget
  registered := hreg

omit [DecidableEq Addr] in
/-- A call of `connectToNode` that keeps the address and the slot it works on. -/
theorem Radio.Tracked.goOn (h : r.Tracked) (hplace : t.InOnePlace) (hworking : t.working = r.working)
    (hscan : t.scanning = r.scanning) (hs : r.stage ≠ .stoppingScan) (hstage : t.stage = .task)
    (haddress : t.central.task.address = r.central.task.address)
    (hslot : t.central.task.slot = r.central.task.slot) (hne : t.central.task ≠ .idle)
    (hused : t.central.view.used = r.central.view.used)
    (hreg : ∀ a i c, t.central.task ≠ .registering a i c .used) : t.Tracked := by
  apply h.go hplace hworking hscan hs (by simp [hstage]) ?_ hne
  · intro i hi
    rw [hused]
    apply h.target i
    rwa [← hslot]
  · intro a i c ht
    exact absurd ht (hreg a i c)
  · intro a ha
    rwa [← haddress]

omit [DecidableEq Addr] in
/-- A call that leaves the address, with the client still in hand. -/
theorem Radio.Tracked.giveUp (h : r.Tracked) (hplace : t.InOnePlace) (hworking : t.working = r.working)
    (hscan : t.scanning = r.scanning) (hs : r.stage ≠ .stoppingScan) (hstage : t.stage = .task)
    (haddress : t.central.task.address = none) (hslot : t.central.task.slot = none)
    (hne : t.central.task ≠ .idle) : t.Tracked := by
  apply h.go hplace hworking hscan hs (by simp [hstage]) ?_ hne
  · intro i hi
    simp [hslot] at hi
  · intro a i c ht
    simp [ht, ConnectTask.address] at haddress
  · intro a ha
    simp [haddress] at ha

omit [DecidableEq Addr] in
/-- `connectToNode` returns, or the address has found its slot. -/
theorem Radio.Tracked.letGo (hplace : t.InOnePlace) (hworking : t.working = none)
    (haddress : t.central.task.address = none) (hslot : t.central.task.slot = none)
    (hreturn : t.stage = .startingScan → t.central.task = .idle) : t.Tracked where
  place := hplace
  quiet hw _ := absurd hworking hw
  tracks a ha := by simp [haddress] at ha
  rest _ := hworking
  returning := hreturn
  target i hi := by simp [hslot] at hi
  registered a i c ht := by simp [ht, ConnectTask.address] at haddress

omit [DecidableEq Addr] in
/-- The other task changes no slot but to give it up. -/
theorem Radio.Tracked.aside (h : r.Tracked) (hplace : t.InOnePlace) (hworking : t.working = r.working)
    (hscan : t.scanning = r.scanning) (hstage : t.stage = r.stage)
    (htask : t.central.task = r.central.task)
    (hused : ∀ i, t.central.view.used i = true → r.central.view.used i = true)
    (haddr : t.central.view.addr = r.central.view.addr) : t.Tracked where
  place := hplace
  quiet hw hst := by
    rw [hscan]
    exact h.quiet (hworking ▸ hw) (hstage ▸ hst)
  tracks a ha := by
    rw [hworking]
    exact h.tracks a (htask ▸ ha)
  rest ht := hworking.trans (h.rest (htask ▸ ht))
  returning ht := htask.trans (h.returning (hstage ▸ ht))
  target i hi := by
    have hfalse := h.target i (htask ▸ hi)
    cases hu : t.central.view.used i with
    | false => rfl
    | true =>
        rw [hused i hu] at hfalse
        cases hfalse
  registered a i c ht := by
    rw [haddr]
    exact h.registered a i c (htask ▸ ht)

omit [DecidableEq Addr] in
theorem tracked_registerStep (h : r.Tracked) {addr : Addr} {slot : Fin maxNodes} {c : Client}
    {next : Assignment} (found : Bool) (hs : r.stage = .task)
    (ht : r.central.task = .registering addr slot c next) (hn : next ≠ .used) :
    Radio.Tracked { r with central := registerStep r.central addr slot c found next } := by
  have hslot : r.central.view.used slot = false := h.target slot (by rw [ht]; rfl)
  have hstop : r.stage ≠ .stoppingScan := by simp [hs]
  have hstart : r.stage ≠ .startingScan := by simp [hs]
  have haddress : ∀ a, some addr = some a → r.central.task.address = some a := by
    intro a ha
    rw [ht]
    exact ha
  have htarget : ∀ i, some slot = some i → r.central.view.used i = false := by
    intro i hi
    exact Option.some.inj hi ▸ hslot
  have hidle : ∀ n, ConnectTask.registering addr slot c n ≠ .idle := by
    intro n hn
    cases hn
  cases next with
  | client =>
      have hv := Central.view_setClient r.central slot (some c)
      have hused := congrArg Links.used hv
      have haddr := congrArg Links.addr hv
      refine h.go ?_ rfl rfl hstop hstart haddress (hidle _) ?_ ?_
      · exact OnePlace.congr h.place hused haddr
      · exact fun i hi => (congrFun hused i).trans (htarget i hi)
      · exact fun a i d hreg => by cases hreg
  | getCharacteristic =>
      refine h.go h.place rfl rfl hstop hstart haddress (hidle _) htarget ?_
      exact fun a i d hreg => by cases hreg
  | configChar x =>
      have hv := Central.view_setConfigChar r.central slot x
      have hused := congrArg Links.used hv
      have haddr := congrArg Links.addr hv
      refine h.go ?_ rfl rfl hstop hstart haddress (hidle _) ?_ ?_
      · exact OnePlace.congr h.place hused haddr
      · exact fun i hi => (congrFun hused i).trans (htarget i hi)
      · exact fun a i d hreg => by cases hreg
  | addr =>
      have hv := Central.view_setAddr r.central slot addr
      have hused := congrArg Links.used hv
      have haddr := congrArg Links.addr hv
      refine h.go ?_ rfl rfl hstop hstart haddress (hidle _) ?_ ?_
      · exact OnePlace.congr (h.place.setAddr hslot addr) hused haddr
      · exact fun i hi => (congrFun hused i).trans (htarget i hi)
      · intro a i d hreg
        cases hreg
        exact (congrFun haddr slot).trans (update_self _ _ _)
  | used => exact absurd rfl hn

theorem tracked_step {a : RadioAction Addr} (h : r.Tracked) (hg : NotQueuedAgain r a)
    (hst : radioStep r a = some t) : t.Tracked := by
  cases moves_of_radioStep hst with
  | cleanup hs ht =>
      have hv := Central.view_cleanupDisconnected r.central
      have hused := congrArg Links.used hv
      have haddr := congrArg Links.addr hv
      refine .letGo ?_ (h.rest ht) ?_ ?_ ?_
      · exact OnePlace.congr h.place hused haddr
      · exact congrArg ConnectTask.address ht
      · exact congrArg ConnectTask.slot ht
      · exact fun _ => ht
  | noPending hs ht hq => exact h
  | popped addr q hs ht hq =>
      have hplace := h.place
      rw [Radio.InOnePlace, hq] at hplace
      exact {
        place := hplace.pop
        quiet := fun _ hst => absurd rfl hst
        tracks := fun a ha => ha
        rest := fun ht => by cases ht
        returning := fun hst => by cases hst
        target := fun i hi => by cases hi
        registered := fun a i c ht => by cases ht }
  | stopScan hs =>
      exact { h with
        quiet := fun _ _ => rfl
        returning := fun hst => by cases hst }
  | slotFound addr slot hs ht hu hfirst =>
      refine h.go h.place rfl rfl (by simp [hs]) (by simp [hs]) ?_ ?_ ?_ ?_
      · intro a ha
        rw [ht]
        exact ha
      · intro hidle
        cases hidle
      · intro i hi
        cases hi
        exact hu
      · exact fun a i c hreg => by cases hreg
  | noSlot addr hs ht | notCreated addr slot hs ht | noPlace addr hs ht hnone | greeted slot hs ht =>
      exact .letGo h.place.returned rfl rfl rfl fun _ => rfl
  | reused addr slot i c hs ht hu hc hfirst =>
      have hv := Central.view_setClient r.central i none
      have hused := congrArg Links.used hv
      have haddr := congrArg Links.addr hv
      refine h.goOn ?_ rfl rfl (by simp [hs]) hs ?_ ?_ nofun hused nofun
      · exact OnePlace.congr h.place hused haddr
      · rw [ht]
        rfl
      · rw [ht]
        rfl
  | noReusable addr slot hs ht hnone =>
      refine h.go h.place rfl rfl (by simp [hs]) Stage.noConfusion ?_ ?_ h.target h.registered
      · exact fun a ha => ha
      · simp [ht]
  | created addr slot hs ht =>
      refine h.goOn h.place rfl rfl (by simp [hs]) rfl ?_ ?_ nofun rfl nofun
      · rw [ht]
        rfl
      · rw [ht]
        rfl
  | connected addr slot c hs ht hl hlost | discovered addr slot c hs ht hl =>
      refine h.goOn h.place rfl rfl (by simp [hs]) hs ?_ ?_ nofun rfl nofun
      · rw [ht]
        rfl
      · rw [ht]
        rfl
  | notConnected addr slot c hs ht | notDiscovered addr slot c ok hs ht hok =>
      exact h.giveUp h.place rfl rfl (by simp [hs]) hs rfl rfl nofun
  | disconnected c hs ht =>
      obtain ⟨link, lost, hdrop⟩ := Central.dropLink_eq r.central c
      rw [hdrop]
      exact h.giveUp h.place rfl rfl (by simp [hs]) hs rfl rfl nofun
  | stashed c i hs ht hu hc =>
      have hv := Central.view_setClient r.central i (some c)
      have hused := congrArg Links.used hv
      have haddr := congrArg Links.addr hv
      refine .letGo ?_ rfl rfl rfl fun _ => rfl
      exact OnePlace.congr h.place.returned hused haddr
  | assigned addr slot c next found hs ht hn => exact tracked_registerStep h found hs ht hn
  | published addr slot c found hs ht =>
      have hv := Central.view_setUsed r.central slot true (r.central.nodes.get slot).configChar
      have hused := congrArg Links.used hv
      have haddr := congrArg Links.addr hv
      have hworking : r.working = some (r.central.view.addr slot) := by
        rw [h.registered addr slot c ht]
        apply h.tracks
        rw [ht]
        rfl
      have hplace := h.place
      rw [Radio.InOnePlace, hworking] at hplace
      refine .letGo ?_ rfl rfl rfl fun hst => ?_
      · exact OnePlace.congr hplace.publish hused haddr
      · rw [hs] at hst
        cases hst
  | startScan hs =>
      have hidle := h.returning hs
      refine .letGo h.place (h.rest hidle) ?_ ?_ fun hst => by cases hst
      · exact congrArg ConnectTask.address hidle
      · exact congrArg ConnectTask.slot hidle
  | found addr hs =>
      have hv := Central.view_onResult r.central addr
      have hused := congrArg Links.used hv
      have haddr := congrArg Links.addr hv
      have htask := congrArg Links.task hv
      refine h.aside ?_ rfl rfl rfl htask (fun i hi => (congrFun hused i).symm.trans hi) haddr
      rcases onResult_cases r.central addr with ⟨q, hr, hq, hqueue, hslots, hroom⟩ | ⟨hr, _⟩
      · have hworking : r.working ≠ some addr := by
          intro hw
          apply hroom
          apply hg hs _ hw
          by_contra hstop
          have hquiet := h.quiet (by simp [hw]) hstop
          rw [hs] at hquiet
          cases hquiet
        have hpush := h.place.push hqueue hslots hworking
        rw [← hq] at hpush
        simp only [Radio.InOnePlace, hr]
        exact hpush
      · simp only [Radio.InOnePlace, hr]
        exact h.place
  | lost c hl =>
      obtain ⟨link, lost, hdrop⟩ := Central.dropLink_eq r.central c
      rw [hdrop]
      exact h.aside h.place rfl rfl rfl rfl (fun _ hi => hi) rfl
  | reported c hc =>
      obtain ⟨hless, haddr, hqueue, htask⟩ := onDisconnect_slots r.central c
      refine h.aside ?_ rfl rfl rfl htask hless haddr
      have hplace := OnePlace.congr (h.place.fewer hless) rfl haddr
      rwa [← hqueue] at hplace

/-- The popped address is queued once more. -/
theorem not_inOnePlace_of_queuedAgain {a : RadioAction Addr} (h : r.Tracked) (hg : ¬ NotQueuedAgain r a) :
    ∃ t, radioStep r a = some t ∧ ¬ t.InOnePlace := by
  cases a with
  | onResult addr =>
      simp only [NotQueuedAgain, not_forall] at hg
      obtain ⟨hscan, _, hw, hroom⟩ := hg
      refine ⟨{ r with central := r.central.onResult addr }, ?_, fun hplace => ?_⟩
      · simp [radioStep, hscan, step]
      · rcases onResult_cases r.central addr with ⟨q, hr, hq, _⟩ | ⟨_, hmem | ⟨i, hu, ha⟩ | hnone⟩
        · simp only [Radio.InOnePlace, hr] at hplace
          apply hplace.workingQueue addr hw
          rw [hq]
          exact List.mem_append_right _ List.mem_cons_self
        · exact h.place.workingQueue addr hw hmem
        · exact h.place.workingSlot addr hw i hu ha
        · exact hroom hnone
  | _ => exact absurd trivial hg

end

omit [DecidableEq Addr] in
theorem tracked_init [Inhabited Addr] : (Radio.init : Radio Addr).Tracked := by
  have hused : ∀ i, (Radio.init : Radio Addr).central.view.used i = false := fun i => by
    simp only [Radio.init, Central.view, Central.get_init]
  have hqueue : (Radio.init : Radio Addr).central.pendingQueue.contents = [] :=
    ThreadSafeQueue.contents_init
  refine .letGo ⟨?_, ?_, ?_, ?_, ?_⟩ rfl rfl rfl fun _ => rfl
  · rw [hqueue]
    exact List.nodup_nil
  · exact fun i j hi => by simp [hused] at hi
  · exact fun i hi => by simp [hused] at hi
  · exact fun a ha => by cases ha
  · exact fun a ha => by cases ha

/-- Every address is in one place at most exactly in the runs in which no popped address is
queued again before the scan is stopped. -/
theorem always_inOnePlace_iff [Inhabited Addr] (as : List (RadioAction Addr)) :
    Always radioStep Radio.InOnePlace (Radio.init : Radio Addr) as ↔
      Along radioStep NotQueuedAgain (Radio.init : Radio Addr) as :=
  always_iff_along (fun _ _ _ => tracked_step) (fun _ => Radio.Tracked.place)
    (fun _ _ => not_inOnePlace_of_queuedAgain) tracked_init

/-- The popped node is heard again while the scan is still running, so it is popped once more
when its slot is already used. -/
def heardAgainRun : List (RadioAction Nat) :=
  [.onResult 7, .processNextPending, .onResult 7, .stopScan, .findEmptySlot] ++
    connectedBy [.findReusableClient, .createClient true] ++ [.processNextPending]

theorem heardAgainRun_twice :
    ¬ Always radioStep Radio.InOnePlace (Radio.init : Radio Nat) heardAgainRun := by
  intro h
  have hrun : (exec radioStep Radio.init heardAgainRun).map
      (fun r => (r.working, r.central.isAlreadyConnected 7)) = some (some 7, true) := by
    decide +kernel
  obtain ⟨r, hx, hr⟩ := Option.map_eq_some_iff.mp hrun
  obtain ⟨hw, hconnected⟩ := Prod.mk.inj hr
  obtain ⟨i, hu, ha⟩ := Central.isAlreadyConnected_iff.mp hconnected
  exact (h.at_end hx).workingSlot 7 hw i hu ha

end Tempio.Hub.Ble
