import Tempio.Hub.AddressPlace

namespace Tempio.Hub.Ble

open Tempio.Lib.Transition

/-- The BLE modules with the addresses that the scan has reported since it was last started. -/
structure Discovery (Addr : Type) where
  radio : Radio Addr
  seen : List Addr

def Discovery.init {Addr : Type} [Inhabited Addr] : Discovery Addr := ⟨.init, []⟩

variable {Addr : Type} [DecidableEq Addr]

/-- `start(0, false)` drops the results of the scan before it, and one scan reports a device once.
`onResult` is an advertisement here, which the scan may keep to itself. -/
def discoveryStep (d : Discovery Addr) (a : RadioAction Addr) : Option (Discovery Addr) :=
  (radioStep d.radio a).map fun r =>
    match a with
    | .onResult addr => if addr ∈ d.seen then d else ⟨r, d.seen ++ [addr]⟩
    | .startScan => ⟨r, []⟩
    | .cleanup => ⟨r, if d.radio.central.doScan then [] else d.seen⟩
    | _ => ⟨r, d.seen⟩

omit [DecidableEq Addr] in
/-- Between two passes of `connectToNode`. -/
def Radio.AtRest (r : Radio Addr) : Prop := r.stage = .task ∧ r.central.task = .idle

/-- Why a node that has been reported may be left alone for now. -/
def Radio.Accounted (r : Radio Addr) (a : Addr) : Prop :=
  a ∈ r.central.pendingQueue.contents ∨ r.central.isAlreadyConnected a = true ∨
    r.central.findEmptySlot = none ∨ r.central.pendingQueue.full = true ∨ r.central.doScan = true

structure Discovery.Watching (d : Discovery Addr) : Prop where
  stopping : d.radio.stage = .stoppingScan → d.radio.central.task ≠ .idle
  scans : d.radio.AtRest → d.radio.scanning = true
  accounted : d.radio.AtRest → ∀ a ∈ d.seen, d.radio.Accounted a

omit [DecidableEq Addr] in
theorem findEmptySlot_eq_none {s : Central Addr} :
    s.findEmptySlot = none ↔ ∀ i, s.view.used i = true := by
  rw [Central.findEmptySlot, Central.findSlotIndex_eq_none]
  simp [Central.view]

section

variable {r t : Radio Addr} {d e : Discovery Addr} {a : Addr} {seen : List Addr}

theorem Radio.Accounted.congr (h : r.Accounted a) (hq : t.central.pendingQueue = r.central.pendingQueue)
    (hused : t.central.view.used = r.central.view.used) (haddr : t.central.view.addr = r.central.view.addr)
    (hscan : t.central.doScan = r.central.doScan) : t.Accounted a := by
  rcases h with h | h | h | h | h
  · exact .inl (by rwa [hq])
  · obtain ⟨i, hi, ha⟩ := Central.isAlreadyConnected_iff.mp h
    refine .inr (.inl (Central.isAlreadyConnected_iff.mpr ⟨i, ?_, ?_⟩))
    · rwa [hused]
    · rwa [haddr]
  · refine .inr (.inr (.inl (findEmptySlot_eq_none.mpr fun i => ?_)))
    rw [hused]
    exact findEmptySlot_eq_none.mp h i
  · exact .inr (.inr (.inr (.inl (by rwa [hq]))))
  · exact .inr (.inr (.inr (.inr (by rwa [hscan]))))

/-- What `onResult` leaves undone has a reason. -/
theorem Radio.accounted_onResult (r : Radio Addr) (a : Addr) :
    ({ r with central := r.central.onResult a } : Radio Addr).Accounted a := by
  rcases onResult_cases r.central a with ⟨q, hr, hq, _⟩ | ⟨hr, h⟩
  · refine .inl ?_
    simp only [hr, hq]
    exact List.mem_append_right _ List.mem_cons_self
  · simp only [hr]
    rcases h with h | ⟨i, hi, ha⟩ | h | h
    · exact .inl h
    · exact .inr (.inl (Central.isAlreadyConnected_iff.mpr ⟨i, hi, ha⟩))
    · exact .inr (.inr (.inl h))
    · exact .inr (.inr (.inr (.inl h)))

theorem Radio.Accounted.onResult (h : r.Accounted a) (b : Addr) :
    ({ r with central := r.central.onResult b } : Radio Addr).Accounted a := by
  have hv := Central.view_onResult r.central b
  rcases onResult_cases r.central b with ⟨q, hr, hq, _, _, hroom⟩ | ⟨hr, _⟩
  · rcases h with h | h | h | h | h
    · refine .inl ?_
      simp only [hr, hq]
      exact List.mem_append_left _ h
    · obtain ⟨i, hi, ha⟩ := Central.isAlreadyConnected_iff.mp h
      rw [← hv] at hi ha
      exact .inr (.inl (Central.isAlreadyConnected_iff.mpr ⟨i, hi, ha⟩))
    · exact absurd (.inl h) hroom
    · exact absurd (.inr h) hroom
    · exact .inr (.inr (.inr (.inr (by rw [hr]; exact h))))
  · rwa [hr]

/-- The loop task is inside `connectToNode`, or about to start the scan again. -/
theorem Discovery.Watching.busy (hstop : t.stage = .stoppingScan → t.central.task ≠ .idle)
    (hrest : ¬ t.AtRest) : (⟨t, seen⟩ : Discovery Addr).Watching :=
  ⟨hstop, fun h => absurd h hrest, fun h => absurd h hrest⟩

omit [DecidableEq Addr] in
theorem Radio.not_atRest_returned (r : Radio Addr) (s : Central Addr) : ¬ (r.returned s).AtRest :=
  fun h => by cases h.1

theorem Discovery.Watching.returned (r : Radio Addr) (s : Central Addr) :
    (⟨r.returned s, seen⟩ : Discovery Addr).Watching :=
  .busy (fun h => by cases h) (r.not_atRest_returned s)

omit [DecidableEq Addr] in
theorem task_registerStep_ne_idle (s : Central Addr) (addr : Addr) (slot : Fin maxNodes) (c : Client)
    (found : Bool) (next : Assignment) : (registerStep s addr slot c found next).task ≠ .idle := by
  cases next <;> exact nofun

theorem watching_step {a : RadioAction Addr} (h : d.Watching) (hst : discoveryStep d a = some e) :
    e.Watching := by
  obtain ⟨t, hr, rfl⟩ := Option.map_eq_some_iff.mp hst
  have hgo {u : Radio Addr} (hs : u.stage = .task) (ht : u.central.task ≠ .idle) :
      (⟨u, d.seen⟩ : Discovery Addr).Watching := by
    apply Discovery.Watching.busy
    · intro hstop
      rw [hs] at hstop
      cases hstop
    · exact fun hrest => ht hrest.2
  cases moves_of_radioStep hr with
  | cleanup hs ht =>
      have hv := Central.view_cleanupDisconnected d.radio.central
      refine ⟨fun hstop => ?_, fun _ => ?_, fun _ b hb => ?_⟩
      · rw [show d.radio.stage = .stoppingScan from hstop] at hs
        cases hs
      · simp only [h.scans ⟨hs, ht⟩, Bool.true_or]
      · split_ifs at hb with hscan
        · cases hb
        · refine (h.accounted ⟨hs, ht⟩ b hb).congr rfl (congrArg Links.used hv) (congrArg Links.addr hv) ?_
          exact (eq_false_of_ne_true hscan).symm
  | noPending hs ht hq => exact h
  | popped addr q hs ht hq => exact .busy (fun _ => nofun) fun hrest => by cases hrest.1
  | stopScan hs => exact hgo rfl (h.stopping hs)
  | slotFound addr slot hs ht hu hfirst => exact hgo hs nofun
  | noSlot addr hs ht | notCreated addr slot hs ht | stashed c i hs ht hu hc | noPlace c hs ht hnone
  | greeted slot hs ht => exact .returned _ _
  | reused addr slot i c hs ht hu hc hfirst => exact hgo hs nofun
  | noReusable addr slot hs ht hnone => exact .busy (fun hstop => by cases hstop) fun hrest => by cases hrest.1
  | created addr slot hs ht => exact hgo rfl nofun
  | connected addr slot c hs ht hl hlost | notConnected addr slot c hs ht
  | discovered addr slot c hs ht hl | notDiscovered addr slot c ok hs ht hok => exact hgo hs nofun
  | disconnected c hs ht => exact hgo hs nofun
  | assigned addr slot c next found hs ht hn => exact hgo hs (task_registerStep_ne_idle _ _ _ _ _ _)
  | published addr slot c found hs ht => exact hgo hs nofun
  | startScan hs => exact ⟨nofun, fun _ => rfl, nofun⟩
  | found addr hs =>
      have hv := Central.view_onResult d.radio.central addr
      have htask : (d.radio.central.onResult addr).task = d.radio.central.task := congrArg Links.task hv
      by_cases hseen : addr ∈ d.seen
      · simp only [if_pos hseen]
        exact h
      · simp only [if_neg hseen]
        refine ⟨fun hstop => htask ▸ h.stopping hstop, fun hrest => hs, fun hrest b hb => ?_⟩
        rcases List.mem_append.mp hb with hb | hb
        · exact (h.accounted ⟨hrest.1, htask ▸ hrest.2⟩ b hb).onResult addr
        · rw [List.mem_singleton.mp hb]
          exact d.radio.accounted_onResult addr
  | lost c hl =>
      obtain ⟨link, lost, hdrop⟩ := Central.dropLink_eq d.radio.central c
      rw [hdrop]
      exact ⟨h.stopping, h.scans, fun hrest b hb => (h.accounted hrest b hb).congr rfl rfl rfl rfl⟩
  | reported c hc =>
      obtain ⟨_, _, _, htask⟩ := onDisconnect_slots d.radio.central c
      refine ⟨fun hstop => ?_, fun hrest => ?_, fun _ b _ => .inr (.inr (.inr (.inr ?_)))⟩
      · exact htask ▸ h.stopping hstop
      · exact h.scans ⟨hrest.1, htask ▸ hrest.2⟩
      · unfold Central.onDisconnect
        cases d.radio.central.findSlotByClient c <;> rfl

theorem watching_init [Inhabited Addr] : (Discovery.init : Discovery Addr).Watching :=
  ⟨nofun, fun _ => rfl, fun _ => nofun⟩

end

/-- Between two connection attempts the hub scans, and a node that it has heard and left alone is
queued or connected, or there is no room, or the scan will report the node again. -/
theorem always_watching [Inhabited Addr] (as : List (RadioAction Addr)) :
    Always discoveryStep (fun d : Discovery Addr => d.radio.AtRest →
      d.radio.scanning = true ∧ ∀ a ∈ d.seen, d.radio.Accounted a) Discovery.init as :=
  always_of_invariant (fun _ _ _ => watching_step) (fun _ h hrest => ⟨h.scans hrest, h.accounted hrest⟩)
    watching_init

section

variable {r t : Radio Addr} {d e : Discovery Addr} {a : Addr}

/-- Addresses leave the queue at its head, one for each call that finds it not empty. -/
theorem queue_cases {x : RadioAction Addr} (h : RadioMoves r x t) :
    (x = .processNextPending ∧ ∃ b, r.central.pendingQueue.contents = b :: t.central.pendingQueue.contents ∧
      t.working = some b) ∨
    (x = .processNextPending ∧ r.central.pendingQueue.contents = []) ∨
    (x ≠ .processNextPending ∧
      ∃ more, t.central.pendingQueue.contents = r.central.pendingQueue.contents ++ more) := by
  have hsame {y : RadioAction Addr} {u : Radio Addr} (hy : y ≠ .processNextPending)
      (hq : u.central.pendingQueue = r.central.pendingQueue) :
      y ≠ .processNextPending ∧
        ∃ more, u.central.pendingQueue.contents = r.central.pendingQueue.contents ++ more :=
    ⟨hy, [], by rw [hq, List.append_nil]⟩
  cases h with
  | popped addr q hs ht hq => exact .inl ⟨rfl, addr, hq, rfl⟩
  | noPending hs ht hq => exact .inr (.inl ⟨rfl, hq⟩)
  | found addr hs =>
      refine .inr (.inr ⟨by simp, ?_⟩)
      rcases onResult_cases r.central addr with ⟨q, hr, hq, _⟩ | ⟨hr, _⟩
      · exact ⟨[addr], by simp only [hr, hq]⟩
      · exact ⟨[], by simp only [hr, List.append_nil]⟩
  | lost c hl =>
      obtain ⟨link, lost, hdrop⟩ := Central.dropLink_eq r.central c
      exact .inr (.inr (hsame (by simp) (by rw [hdrop])))
  | disconnected c hs ht =>
      obtain ⟨link, lost, hdrop⟩ := Central.dropLink_eq r.central c
      exact .inr (.inr (hsame (by simp) (by rw [hdrop])))
  | reported c hc =>
      obtain ⟨_, _, hqueue, _⟩ := onDisconnect_slots r.central c
      exact .inr (.inr (hsame (by simp) hqueue))
  | assigned addr slot c next found hs ht hn =>
      exact .inr (.inr (hsame (by simp) (by cases next <;> rfl)))
  | _ => exact .inr (.inr (hsame (by simp) rfl))

/-- Of the node that advertises, `discoveryStep` keeps a result at most. -/
theorem radio_discoveryStep {x : RadioAction Addr} (h : discoveryStep d x = some e) :
    e.radio = d.radio ∧ x ≠ .processNextPending ∨ RadioMoves d.radio x e.radio := by
  obtain ⟨t, hr, rfl⟩ := Option.map_eq_some_iff.mp h
  have hmoves := moves_of_radioStep hr
  cases x with
  | onResult addr =>
      by_cases hseen : addr ∈ d.seen
      · refine .inl ⟨?_, nofun⟩
        simp only [if_pos hseen]
      · simp only [if_neg hseen]
        exact .inr hmoves
  | _ => exact .inr hmoves

/-- Whether a call looks into the queue. -/
def RadioAction.isPass : RadioAction Addr → Bool
  | .processNextPending => true
  | _ => false

/-- A node that waits behind `ahead` others is worked on after as many more calls, whatever the
other nodes and the links do. -/
theorem attempted_of_queued (d : Discovery Addr) (a : Addr) (ahead behind : List Addr)
    (hqueue : d.radio.central.pendingQueue.contents = ahead ++ a :: behind)
    (as : List (RadioAction Addr)) (e : Discovery Addr) (hrun : exec discoveryStep d as = some e)
    (hpasses : ahead.length < as.countP RadioAction.isPass) :
    ∃ bs, bs <+: as ∧ ∃ t, exec discoveryStep d bs = some t ∧ t.radio.working = some a := by
  induction as generalizing d ahead behind with
  | nil => cases hpasses
  | cons x xs ih =>
      obtain ⟨u, hu, hrest⟩ := exec_cons_eq_some.mp hrun
      have hlift {bs : List (RadioAction Addr)} (h : bs <+: xs ∧ ∃ t, exec discoveryStep u bs = some t ∧
          t.radio.working = some a) :
          ∃ bs, bs <+: x :: xs ∧ ∃ t, exec discoveryStep d bs = some t ∧ t.radio.working = some a := by
        obtain ⟨hbs, t, ht, hw⟩ := h
        exact ⟨x :: bs, (List.prefix_cons_inj x).mpr hbs, t, exec_cons_eq_some.mpr ⟨u, hu, ht⟩, hw⟩
      have hkeep (hx : x ≠ .processNextPending) (more : List Addr)
          (hq : u.radio.central.pendingQueue.contents = d.radio.central.pendingQueue.contents ++ more) :
          ∃ bs, bs <+: x :: xs ∧ ∃ t, exec discoveryStep d bs = some t ∧ t.radio.working = some a := by
        have hcount : (x :: xs).countP RadioAction.isPass = xs.countP RadioAction.isPass := by
          cases x <;> first | rfl | exact absurd rfl hx
        obtain ⟨bs, hbs⟩ := ih u ahead (behind ++ more) (by rw [hq, hqueue]; simp) hrest (hcount ▸ hpasses)
        exact hlift hbs
      rcases radio_discoveryStep hu with ⟨hsame, hx⟩ | hmoves
      · exact hkeep hx [] (by rw [hsame, List.append_nil])
      · rcases queue_cases hmoves with ⟨rfl, b, hpop, hw⟩ | ⟨rfl, hempty⟩ | ⟨hx, more, hq⟩
        · rw [hqueue] at hpop
          cases ahead with
          | nil =>
              obtain ⟨rfl, _⟩ := List.cons.inj hpop
              exact ⟨[.processNextPending], ⟨xs, rfl⟩, u, exec_cons_eq_some.mpr ⟨u, hu, rfl⟩, hw⟩
          | cons c cs =>
              obtain ⟨_, htail⟩ := List.cons.inj hpop
              have hcount : (RadioAction.processNextPending :: xs).countP RadioAction.isPass =
                  xs.countP RadioAction.isPass + 1 :=
                List.countP_cons_of_pos rfl
              rw [hcount, List.length_cons] at hpasses
              obtain ⟨bs, hbs⟩ := ih u cs behind htail.symm hrest (by omega)
              exact hlift hbs
        · rw [hqueue] at hempty
          simp at hempty
        · exact hkeep hx more hq

/-- While it has no slot, one is free and the queue has room, an advertising node is queued after the
next `cleanupDisconnected`: a result that the scan keeps to itself would be of a queued node. -/
theorem queued_of_advertising (hwatch : d.Watching) (hrest : d.radio.AtRest)
    (hout : d.radio.central.isAlreadyConnected a = false) (hslot : d.radio.central.findEmptySlot ≠ none)
    (hroom : d.radio.central.pendingQueue.full = false) :
    ∃ e, exec discoveryStep d [.cleanup, .onResult a] = some e ∧
      a ∈ e.radio.central.pendingQueue.contents := by
  have hclean : ∃ u, discoveryStep d .cleanup = some u ∧ u.radio.AtRest ∧
      u.radio.central.view = d.radio.central.view ∧ u.radio.central.doScan = false ∧
      u.radio.central.pendingQueue.full = false := by
    obtain ⟨hs, ht⟩ := hrest
    refine ⟨⟨{ d.radio with
      central := { d.radio.central.cleanupDisconnected with doScan := false }
      scanning := d.radio.scanning || d.radio.central.doScan },
      if d.radio.central.doScan then [] else d.seen⟩, ?_, ⟨hs, ht⟩,
      Central.view_cleanupDisconnected d.radio.central, rfl, hroom⟩
    simp only [discoveryStep, radioStep, step, hs, ht, Option.map_some]
  obtain ⟨u, hu, hrest', hview, hscan, hroom'⟩ := hclean
  have hwatch' := watching_step hwatch hu
  have hscans := hwatch'.scans hrest'
  have hout' : ¬ ∃ i, u.radio.central.view.used i = true ∧ u.radio.central.view.addr i = a := by
    rw [hview]
    exact fun hcon => ne_true_of_eq_false hout (Central.isAlreadyConnected_iff.mpr hcon)
  have hslot' : u.radio.central.findEmptySlot ≠ none := by
    rw [ne_eq, findEmptySlot_eq_none, hview]
    exact fun hall => hslot (findEmptySlot_eq_none.mpr hall)
  have hresult : discoveryStep u (.onResult a) = some (if a ∈ u.seen then u
      else ⟨{ u.radio with central := u.radio.central.onResult a }, u.seen ++ [a]⟩) := by
    simp only [discoveryStep, radioStep, step, hscans, if_true, Option.map_some]
  refine ⟨_, exec_cons_eq_some.mpr ⟨u, hu, exec_cons_eq_some.mpr ⟨_, hresult, rfl⟩⟩, ?_⟩
  split_ifs with hseen
  · rcases hwatch'.accounted hrest' a hseen with h | h | h | h | h
    · exact h
    · exact absurd (Central.isAlreadyConnected_iff.mp h) hout'
    · exact absurd h hslot'
    · exact absurd h (ne_true_of_eq_false hroom')
    · exact absurd h (ne_true_of_eq_false hscan)
  · rcases onResult_cases u.radio.central a with ⟨q, hr, hq, _⟩ | ⟨hr, h | h | h | h⟩
    · simp only [hr, hq]
      exact List.mem_append_right _ List.mem_cons_self
    · simpa only [hr] using h
    · exact absurd h hout'
    · exact absurd h hslot'
    · exact absurd h (ne_true_of_eq_false hroom')

end

end Tempio.Hub.Ble
