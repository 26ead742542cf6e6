import Tempio.Hub.ConnectionSlots

namespace Tempio.Hub.Ble

open Tempio.Lib.Search Tempio.Lib.Transition Function

/-- Where the loop task stands between the calls that `Central.task` does not tell
apart: before the scan is stopped, before `createClient`, and before the scan is
started again. -/
inductive Stage
  | task
  | stoppingScan
  | creating
  | startingScan
deriving DecidableEq

/-- The BLE modules with the scan. `working` is the address that `connectToNode` works on
and has not put into a used slot yet. -/
structure Radio (Addr : Type) where
  central : Central Addr
  scanning : Bool
  stage : Stage
  working : Option Addr

/-- The calls and callbacks one by one; `acquireClient` is two of them. -/
inductive RadioAction (Addr : Type)
  | cleanup
  | processNextPending
  | stopScan
  | findEmptySlot
  | findReusableClient
  | createClient (created : Bool)
  | connect (ok : Bool)
  | discoverAndSubscribe (ok : Bool)
  | disconnect
  | stashClient
  | assign (found : Bool)
  | writeHubReady
  | startScan
  | onResult (addr : Addr)
  | loseLink (c : Client)
  | onDisconnect (c : Client)

namespace Radio

variable {Addr : Type}

/-- `bleCentralInit` starts the scan. -/
def init [Inhabited Addr] : Radio Addr := ⟨Central.init, true, .task, none⟩

/-- `connectToNode` has returned. -/
def returned (r : Radio Addr) (s : Central Addr) : Radio Addr :=
  { r with central := s, stage := .startingScan, working := none }

/-- The state after a call inside `connectToNode`. -/
def after (r : Radio Addr) (s : Central Addr) : Radio Addr :=
  match s.task with
  | .idle => r.returned s
  | .greeting _ => { r with central := s, working := none }
  | _ => { r with central := s }

end Radio

variable {Addr : Type} [DecidableEq Addr]

/-- A call of the loop task inside `connectToNode`. -/
def callStep (r : Radio Addr) (a : Action Addr) : Option (Radio Addr) :=
  match r.stage with
  | .task => (step r.central a).map r.after
  | _ => none

def radioStep (r : Radio Addr) : RadioAction Addr → Option (Radio Addr)
  | .cleanup =>
      match r.stage with
      | .task =>
          (step r.central .cleanup).map fun s =>
            { r with central := s, scanning := r.scanning || r.central.doScan }
      | _ => none
  | .processNextPending =>
      match r.stage, r.central.pendingQueue.pop with
      | .task, some (addr, _) =>
          (step r.central .processNextPending).map fun s =>
            { r with central := s, stage := .stoppingScan, working := some addr }
      | .task, none => (step r.central .processNextPending).map fun s => { r with central := s }
      | _, _ => none
  | .stopScan =>
      match r.stage with
      | .stoppingScan => some { r with scanning := false, stage := .task }
      | _ => none
  | .findEmptySlot => callStep r .findEmptySlot
  | .findReusableClient =>
      match r.stage, r.central.task with
      | .task, .acquiring addr slot =>
          match r.central.findReusableClient with
          | some (c, s) => some { r with central := { s with task := .connecting addr slot c } }
          | none => some { r with stage := .creating }
      | _, _ => none
  | .createClient created =>
      match r.stage, r.central.task with
      | .creating, .acquiring addr slot =>
          if created then
            some { r with
              central := { r.central with
                created := r.central.created + 1, task := .connecting addr slot r.central.created }
              stage := .task }
          else some (r.returned { r.central with task := .idle })
      | _, _ => none
  | .connect ok => callStep r (.connect ok)
  | .discoverAndSubscribe ok => callStep r (.discoverAndSubscribe ok)
  | .disconnect => callStep r .disconnect
  | .stashClient => callStep r .stashClient
  | .assign found => callStep r (.assign found)
  | .writeHubReady => callStep r .writeHubReady
  | .startScan =>
      match r.stage with
      | .startingScan => some { r with scanning := true, stage := .task }
      | _ => none
  | .onResult addr =>
      if r.scanning then (step r.central (.onResult addr)).map fun s => { r with central := s } else none
  | .loseLink c => (step r.central (.loseLink c)).map fun s => { r with central := s }
  | .onDisconnect c => (step r.central (.onDisconnect c)).map fun s => { r with central := s }

/-- Everything a step of the two tasks can do. -/
inductive RadioMoves (r : Radio Addr) : RadioAction Addr → Radio Addr → Prop
  | cleanup (hs : r.stage = .task) (ht : r.central.task = .idle) :
      RadioMoves r .cleanup { r with
        central := { r.central.cleanupDisconnected with doScan := false }
        scanning := r.scanning || r.central.doScan }
  | noPending (hs : r.stage = .task) (ht : r.central.task = .idle)
      (hq : r.central.pendingQueue.contents = []) : RadioMoves r .processNextPending r
  | popped (addr) (q) (hs : r.stage = .task) (ht : r.central.task = .idle)
      (hq : r.central.pendingQueue.contents = addr :: ThreadSafeQueue.contents q) :
      RadioMoves r .processNextPending { r with
        central := { r.central with pendingQueue := q, task := .findingSlot addr }
        stage := .stoppingScan
        working := some addr }
  | stopScan (hs : r.stage = .stoppingScan) :
      RadioMoves r .stopScan { r with scanning := false, stage := .task }
  | slotFound (addr) (slot) (hs : r.stage = .task) (ht : r.central.task = .findingSlot addr)
      (hu : (r.central.nodes.get slot).used = false)
      (hfirst : ∀ j < slot, (r.central.nodes.get j).used = true) :
      RadioMoves r .findEmptySlot
        { r with central := { r.central with task := .acquiring addr slot } }
  | noSlot (addr) (hs : r.stage = .task) (ht : r.central.task = .findingSlot addr) :
      RadioMoves r .findEmptySlot (r.returned { r.central with task := .idle })
  | reused (addr) (slot i) (c) (hs : r.stage = .task) (ht : r.central.task = .acquiring addr slot)
      (hu : (r.central.nodes.get i).used = false) (hc : (r.central.nodes.get i).client = some c)
      (hfirst : ∀ j < i, (r.central.nodes.get j).used = false → (r.central.nodes.get j).client = none) :
      RadioMoves r .findReusableClient { r with
        central := { r.central.setNode i { r.central.nodes.get i with client := none } with
          task := .connecting addr slot c } }
  | noReusable (addr) (slot) (hs : r.stage = .task) (ht : r.central.task = .acquiring addr slot)
      (hnone : ∀ j, (r.central.nodes.get j).used = false → (r.central.nodes.get j).client = none) :
      RadioMoves r .findReusableClient { r with stage := .creating }
  | created (addr) (slot) (hs : r.stage = .creating) (ht : r.central.task = .acquiring addr slot) :
      RadioMoves r (.createClient true) { r with
        central := { r.central with
          created := r.central.created + 1, task := .connecting addr slot r.central.created }
        stage := .task }
  | notCreated (addr) (slot) (hs : r.stage = .creating) (ht : r.central.task = .acquiring addr slot) :
      RadioMoves r (.createClient false) (r.returned { r.central with task := .idle })
  | connected (addr) (slot) (c) (hs : r.stage = .task) (ht : r.central.task = .connecting addr slot c)
      (hl : r.central.link c = none) (hlost : c ∉ r.central.lost) :
      RadioMoves r (.connect true) { r with
        central := { r.central with
          link := update r.central.link c (some addr), task := .discovering addr slot c } }
  | notConnected (addr) (slot) (c) (hs : r.stage = .task)
      (ht : r.central.task = .connecting addr slot c) :
      RadioMoves r (.connect false)
        { r with central := { r.central with task := .disconnecting c } }
  | discovered (addr) (slot) (c) (hs : r.stage = .task)
      (ht : r.central.task = .discovering addr slot c) (hl : (r.central.link c).isSome = true) :
      RadioMoves r (.discoverAndSubscribe true)
        { r with central := { r.central with task := .registering addr slot c .client } }
  | notDiscovered (addr) (slot) (c) (ok) (hs : r.stage = .task)
      (ht : r.central.task = .discovering addr slot c) (hok : (ok && (r.central.link c).isSome) = false) :
      RadioMoves r (.discoverAndSubscribe ok)
        { r with central := { r.central with task := .disconnecting c } }
  | disconnected (c) (hs : r.stage = .task) (ht : r.central.task = .disconnecting c) :
      RadioMoves r .disconnect { r with central := { r.central.dropLink c with task := .stashing c } }
  | stashed (c) (i) (hs : r.stage = .task) (ht : r.central.task = .stashing c)
      (hu : (r.central.nodes.get i).used = false) (hc : (r.central.nodes.get i).client = none) :
      RadioMoves r .stashClient (r.returned
        { r.central.setNode i { r.central.nodes.get i with client := some c } with task := .idle })
  | noPlace (c) (hs : r.stage = .task) (ht : r.central.task = .stashing c)
      (hnone : ∀ j, (r.central.nodes.get j).used = false → (r.central.nodes.get j).client ≠ none) :
      RadioMoves r .stashClient (r.returned { r.central with task := .idle })
  | assigned (addr) (slot) (c) (next) (found) (hs : r.stage = .task)
      (ht : r.central.task = .registering addr slot c next) (hn : next ≠ .used) :
      RadioMoves r (.assign found) { r with central := registerStep r.central addr slot c found next }
  | published (addr) (slot) (c) (found) (hs : r.stage = .task)
      (ht : r.central.task = .registering addr slot c .used) :
      RadioMoves r (.assign found) { r with
        central := registerStep r.central addr slot c found .used, working := none }
  | greeted (slot) (hs : r.stage = .task) (ht : r.central.task = .greeting slot) :
      RadioMoves r .writeHubReady (r.returned { r.central with task := .idle })
  | startScan (hs : r.stage = .startingScan) :
      RadioMoves r .startScan { r with scanning := true, stage := .task }
  | found (addr) (hs : r.scanning = true) :
      RadioMoves r (.onResult addr) { r with central := r.central.onResult addr }
  | lost (c) (hl : (r.central.link c).isSome = true) :
      RadioMoves r (.loseLink c) { r with central := r.central.dropLink c }
  | reported (c) (hc : c ∈ r.central.lost) :
      RadioMoves r (.onDisconnect c) { r with
        central := { r.central.onDisconnect c with lost := r.central.lost.erase c } }

theorem callStep_eq_some {r t : Radio Addr} {a : Action Addr} (h : callStep r a = some t) :
    r.stage = .task ∧ ∃ s, step r.central a = some s ∧ r.after s = t := by
  cases hs : r.stage with
  | task =>
      simp only [callStep, hs] at h
      obtain ⟨s, hst, ht⟩ := Option.map_eq_some_iff.mp h
      exact ⟨rfl, s, hst, ht⟩
  | _ => simp [callStep, hs] at h

theorem moves_of_findReusableClient {r t : Radio Addr}
    (h : radioStep r .findReusableClient = some t) : RadioMoves r .findReusableClient t := by
  obtain ⟨s, scanning, stage, working⟩ := r
  cases stage with
  | task =>
      cases ht : s.task with
      | acquiring addr slot =>
          simp only [radioStep, ht] at h
          cases hf : s.findReusableClient with
          | some x =>
              obtain ⟨i, hi, hri⟩ := Option.bind_eq_some_iff.mp hf
              obtain ⟨c, hc, hpair⟩ := Option.map_eq_some_iff.mp hri
              have hunused := Central.of_findSlotIndex hi
              simp only [Bool.and_eq_true, Bool.not_eq_true'] at hunused
              simp only [hf, ← hpair, Option.some.injEq] at h
              subst h
              apply RadioMoves.reused addr slot i c rfl ht hunused.1 hc
              intro j hj hu
              simpa [hu] using lt_of_firstIndex hi hj
          | none =>
              simp only [hf, Option.some.injEq] at h
              subst h
              apply RadioMoves.noReusable addr slot rfl ht
              intro j hu
              by_contra hne
              obtain ⟨c, hc⟩ := Option.ne_none_iff_exists'.mp hne
              cases hi : s.findSlotIndex fun n => !n.used && n.client.isSome with
              | none => simpa [hu, hc] using Central.findSlotIndex_eq_none.mp hi j
              | some i =>
                  have hsome := Central.of_findSlotIndex hi
                  simp only [Bool.and_eq_true] at hsome
                  obtain ⟨d, hd⟩ := Option.isSome_iff_exists.mp hsome.2
                  simp [Central.findReusableClient, hi, hd] at hf
      | _ => simp [radioStep, ht] at h
  | _ => simp [radioStep] at h

theorem moves_of_radioStep {r t : Radio Addr} {a : RadioAction Addr} (h : radioStep r a = some t) :
    RadioMoves r a t := by
  obtain ⟨s, scanning, stage, working⟩ := r
  cases a with
  | cleanup =>
      cases stage with
      | task =>
          cases ht : s.task with
          | idle =>
              simp only [radioStep, step, ht, Option.map_some, Option.some.injEq] at h
              exact h ▸ .cleanup rfl ht
          | _ => simp [radioStep, step, ht] at h
      | _ => simp [radioStep] at h
  | processNextPending =>
      cases stage with
      | task =>
          cases ht : s.task with
          | idle =>
              cases hp : s.pendingQueue.pop with
              | none =>
                  simp only [radioStep, hp, step, ht, Option.map_some, Option.some.injEq] at h
                  exact h ▸ .noPending rfl ht (ThreadSafeQueue.popUnsafe_eq_none.mp hp)
              | some x =>
                  obtain ⟨addr, q⟩ := x
                  simp only [radioStep, hp, step, ht, Option.map_some, Option.some.injEq] at h
                  exact h ▸ .popped addr q rfl ht (ThreadSafeQueue.contents_popUnsafe hp)
          | _ => cases hp : s.pendingQueue.pop <;> simp [radioStep, hp, step, ht] at h
      | _ => simp [radioStep] at h
  | stopScan =>
      cases stage with
      | stoppingScan =>
          exact Option.some.inj h ▸ .stopScan rfl
      | _ => simp [radioStep] at h
  | findEmptySlot =>
      obtain ⟨hs, u, hst, rfl⟩ := callStep_eq_some h
      cases ht : s.task with
      | findingSlot addr =>
          cases hf : s.findEmptySlot with
          | some slot =>
              simp only [step, ht, hf, Option.some.injEq] at hst
              subst hst
              apply RadioMoves.slotFound addr slot hs ht
              · simpa using Central.of_findSlotIndex hf
              · intro j hj
                simpa using lt_of_firstIndex (p := fun n : ConnectedNode Addr => !n.used) hf hj
          | none =>
              simp only [step, ht, hf, Option.some.injEq] at hst
              subst hst
              exact .noSlot addr hs ht
      | _ => simp [step, ht] at hst
  | findReusableClient => exact moves_of_findReusableClient h
  | createClient created =>
      cases stage with
      | creating =>
          cases ht : s.task with
          | acquiring addr slot =>
              cases created with
              | true =>
                  simp only [radioStep, ht, if_true, Option.some.injEq] at h
                  exact h ▸ .created addr slot rfl ht
              | false =>
                  simp only [radioStep, ht, Bool.false_eq_true, if_false, Option.some.injEq] at h
                  exact h ▸ .notCreated addr slot rfl ht
          | _ => simp [radioStep, ht] at h
      | _ => simp [radioStep] at h
  | connect ok =>
      obtain ⟨hs, u, hst, rfl⟩ := callStep_eq_some h
      cases ht : s.task with
      | connecting addr slot c =>
          cases ok with
          | true =>
              simp only [step, ht, if_true] at hst
              split_ifs at hst with hfree
              exact Option.some.inj hst ▸ .connected addr slot c hs ht hfree.1 hfree.2
          | false =>
              simp only [step, ht, Bool.false_eq_true, if_false, Option.some.injEq] at hst
              exact hst ▸ .notConnected addr slot c hs ht
      | _ => simp [step, ht] at hst
  | discoverAndSubscribe ok =>
      obtain ⟨hs, u, hst, rfl⟩ := callStep_eq_some h
      cases ht : s.task with
      | discovering addr slot c =>
          simp only [step, ht] at hst
          split_ifs at hst with hok
          · rw [Bool.and_eq_true] at hok
            obtain rfl := hok.1
            exact Option.some.inj hst ▸ .discovered addr slot c hs ht hok.2
          · exact Option.some.inj hst ▸ .notDiscovered addr slot c ok hs ht (by simpa using hok)
      | _ => simp [step, ht] at hst
  | disconnect =>
      obtain ⟨hs, u, hst, rfl⟩ := callStep_eq_some h
      cases ht : s.task with
      | disconnecting c =>
          simp only [step, ht, Option.some.injEq] at hst
          exact hst ▸ .disconnected c hs ht
      | _ => simp [step, ht] at hst
  | stashClient =>
      obtain ⟨hs, u, hst, rfl⟩ := callStep_eq_some h
      cases ht : s.task with
      | stashing c =>
          simp only [step, ht, Option.some.injEq] at hst
          subst hst
          cases hf : s.findSlotIndex fun n => !n.used && n.client.isNone with
          | some i =>
              have hi := Central.of_findSlotIndex hf
              simp only [Bool.and_eq_true, Bool.not_eq_true', Option.isNone_iff_eq_none] at hi
              simp only [Central.stashClient, hf]
              exact .stashed c i hs ht hi.1 hi.2
          | none =>
              simp only [Central.stashClient, hf]
              apply RadioMoves.noPlace c hs ht
              intro j hu hn
              simpa [hu, hn] using Central.findSlotIndex_eq_none.mp hf j
      | _ => simp [step, ht] at hst
  | assign found =>
      obtain ⟨hs, u, hst, rfl⟩ := callStep_eq_some h
      cases ht : s.task with
      | registering addr slot c next =>
          simp only [step, ht, Option.some.injEq] at hst
          subst hst
          cases next with
          | used => exact .published addr slot c found hs ht
          | client => exact .assigned addr slot c .client found hs ht (by decide)
          | getCharacteristic => exact .assigned addr slot c .getCharacteristic found hs ht (by decide)
          | configChar x => exact .assigned addr slot c (.configChar x) found hs ht (by simp)
          | addr => exact .assigned addr slot c .addr found hs ht (by decide)
      | _ => simp [step, ht] at hst
  | writeHubReady =>
      obtain ⟨hs, u, hst, rfl⟩ := callStep_eq_some h
      cases ht : s.task with
      | greeting slot =>
          simp only [step, ht, Option.some.injEq] at hst
          exact hst ▸ .greeted slot hs ht
      | _ => simp [step, ht] at hst
  | startScan =>
      cases stage with
      | startingScan =>
          exact Option.some.inj h ▸ .startScan rfl
      | _ => simp [radioStep] at h
  | onResult addr =>
      simp only [radioStep] at h
      split_ifs at h with hs
      exact Option.some.inj h ▸ .found addr hs
  | loseLink c =>
      obtain ⟨u, hst, rfl⟩ := Option.map_eq_some_iff.mp h
      simp only [step] at hst
      split_ifs at hst with hl
      exact Option.some.inj hst ▸ .lost c hl
  | onDisconnect c =>
      obtain ⟨u, hst, rfl⟩ := Option.map_eq_some_iff.mp h
      simp only [step] at hst
      split_ifs at hst with hc
      exact Option.some.inj hst ▸ .reported c hc

end Tempio.Hub.Ble
