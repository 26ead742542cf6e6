import Tempio.Hub.Delivery

namespace Tempio.Hub

open Tempio.Lib Tempio.Lib.Search Tempio.Lib.Transition PendingPool

/-- What the hub relies on in `NimBLEAddress`, for addresses of the type that `bleSendToNode`
assumes: `toString` writes 17 printable bytes, which are read back as the address. -/
structure NimBLEAddress (Addr : Type) where
  ofText : List Char → Addr
  toText : Addr → List Char
  length_toText : ∀ a, (toText a).length = 17
  le_toNat : ∀ a, ∀ c ∈ toText a, 32 ≤ c.toNat
  ofText_toText : ∀ a, ofText (toText a) = a

/-- The target string of a command as the hub gets it, in bytes and not yet cut. -/
def targetText (obj : Json) : List Char := orStr (obj.get "target") ""

/-- 17 characters, which are too many bytes for the field. -/
example : (targetText (.obj [("target", .str "aa:bb:cc:dd:ee:f\u00e9")])).length = 18 := by decide

/-- The hub, with the whole target strings of the commands in the order of their dispatch. -/
structure Texts where
  hub : HubState
  texts : List (List Char)

inductive TextAction
  | command (obj : Json)
  | hub (a : Action)

namespace Texts

def init : Texts := ⟨HubState.init, []⟩

def textOf (s : Texts) (cmd : MqttCommand) : List Char := (s.texts[cmd.serial]?).getD []

/-- The address that the whole target string of a command denotes. -/
def node {Addr : Type} (ble : NimBLEAddress Addr) (s : Texts) (cmd : MqttCommand) : Addr :=
  ble.ofText (s.textOf cmd)

end Texts

/-- A pass of `parseAndDispatchCommands` for one command, or any other step of the hub. -/
def textStep (json : ArduinoJson) (s : Texts) : TextAction → Option Texts
  | .command obj =>
      (step json s.hub (.dispatch ((parseCommand obj).stamp json.unset))).map fun h =>
        ⟨h, s.texts ++ [targetText obj]⟩
  | .hub (.dispatch _) => none
  | .hub a => (step json s.hub a).map fun h => { s with hub := h }

section

variable {Addr : Type}

/-- `flushNodePending(addr.toString())` looks here. -/
def NimBLEAddress.key (ble : NimBLEAddress Addr) (a : Addr) : NodeId := strlcpy 18 (ble.toText a)

/-- One pending queue for each physical node. -/
structure OnePerNode [DecidableEq Addr] (ble : NimBLEAddress Addr) (s : Texts) : Prop where
  shares : ∀ i j, ∀ c ∈ (s.hub.pool.slots.get i).stored, ∀ d ∈ (s.hub.pool.slots.get j).stored,
    (i = j ↔ s.node ble c = s.node ble d)
  bounded : ∀ a, s.hub.pool.stored.countP (fun c => decide (s.node ble c = a)) ≤ cmdPendingPerNode
  found : ∀ c ∈ s.hub.pool.stored, c ∈ s.hub.pool.queueOf (ble.key (s.node ble c))
  own : ∀ a, ∀ c ∈ s.hub.pool.queueOf (ble.key a), s.node ble c = a
  reached : ∀ e ∈ s.hub.transmitted, ble.ofText e.2.target.chars = s.node ble e.2

/-- What is queued has the target that `toString` writes for its node, and what is written at
once goes to the node that the whole target string denotes. -/
def Canonical (json : ArduinoJson) (ble : NimBLEAddress Addr) (s : Texts) : TextAction → Prop
  | .hub .push =>
      match s.hub.mqtt with
      | .pushing cmd => ¬ s.hub.pool.Refuses cmd.target → cmd.target = ble.key (s.node ble cmd)
      | _ => True
  | .hub (.send link) =>
      match s.hub.mqtt with
      | .sending cmd => trySend json (fun _ _ => link) cmd = true →
          ble.ofText cmd.target.chars = s.node ble cmd
      | _ => True
  | _ => True

/-- What every command that the hub still has, or has sent, knows of its target. -/
structure Spelled (ble : NimBLEAddress Addr) (s : Texts) : Prop extends Inv s.hub where
  length : s.texts.length = s.hub.dispatched.length
  queuedKey : ∀ n, ∀ c ∈ s.hub.pool.queueOf n, c.target = ble.key (s.node ble c)
  heldKey : ∀ c ∈ s.hub.loop.held, c.target = ble.key (s.node ble c)
  reached : ∀ e ∈ s.hub.transmitted, ble.ofText e.2.target.chars = s.node ble e.2

variable {ble : NimBLEAddress Addr} {json : ArduinoJson} {s t : Texts}

theorem NimBLEAddress.noNul (a : Addr) : nul ∉ ble.toText a :=
  fun h => absurd (ble.le_toNat a nul h) (by decide)

theorem NimBLEAddress.chars_key (a : Addr) : (ble.key a).chars = ble.toText a :=
  chars_strlcpy (NimBLEAddress.noNul a) (by rw [ble.length_toText]; decide)

theorem NimBLEAddress.key_inj {a b : Addr} : ble.key a = ble.key b ↔ a = b := by
  refine ⟨fun h => ?_, congrArg _⟩
  have hchars := congrArg CStr.chars h
  rw [chars_key, chars_key] at hchars
  rw [← ble.ofText_toText a, hchars, ble.ofText_toText]

/-- The strings of the commands dispatched so far stay as they are. -/
theorem node_append {c : MqttCommand} {h : HubState} {text : List Char} (hc : c.serial < s.texts.length) :
    Texts.node ble ⟨h, s.texts ++ [text]⟩ c = s.node ble c := by
  rw [Texts.node, Texts.node, Texts.textOf, Texts.textOf, List.getElem?_append_left hc]

theorem spelled_init : Spelled ble Texts.init where
  toInv := inv_init
  length := rfl
  queuedKey n c hc := by simp [Texts.init, queueOf_init] at hc
  heldKey c hc := absurd hc List.not_mem_nil
  reached e he := absurd he List.not_mem_nil

/-- A command in a slot waits under its own target. -/
theorem mem_stored_slot (hs : Inv s.hub) {i : Fin maxNodes} {c : MqttCommand}
    (hc : c ∈ (s.hub.pool.slots.get i).stored) : (s.hub.pool.slots.get i).used = true ∧
      (s.hub.pool.slots.get i).nodeId = c.target ∧ c ∈ s.hub.pool.queueOf c.target := by
  unfold Slot.stored at hc
  split_ifs at hc with hu
  · have hq : c ∈ s.hub.pool.queueOf (s.hub.pool.slots.get i).nodeId := by
      rw [queueOf, hs.wf.lookup_iff.mpr ⟨i, hu, rfl, rfl⟩]
      exact hc
    have htarget := hs.queued _ c hq
    exact ⟨hu, htarget.symm, htarget ▸ hq⟩
  · cases hc

theorem Spelled.shares (hs : Spelled ble s) {i j : Fin maxNodes} {c d : MqttCommand}
    (hc : c ∈ (s.hub.pool.slots.get i).stored) (hd : d ∈ (s.hub.pool.slots.get j).stored) :
    i = j ↔ s.node ble c = s.node ble d := by
  obtain ⟨hui, hi, hqc⟩ := mem_stored_slot hs.toInv hc
  obtain ⟨huj, hj, hqd⟩ := mem_stored_slot hs.toInv hd
  rw [← ble.key_inj, ← hs.queuedKey _ c hqc, ← hs.queuedKey _ d hqd, ← hi, ← hj]
  exact ⟨fun h => h ▸ rfl, hs.wf.distinct i j hui huj⟩

/-- All commands of a node are in one slot. -/
theorem Spelled.bounded [DecidableEq Addr] (hs : Spelled ble s) (a : Addr) :
    s.hub.pool.stored.countP (fun c => decide (s.node ble c = a)) ≤ cmdPendingPerNode := by
  by_cases h : ∃ c ∈ s.hub.pool.stored, s.node ble c = a
  · obtain ⟨c, hc, rfl⟩ := h
    obtain ⟨i, hi⟩ := mem_collect.mp hc
    have hsum := countP_collect_setAt (fun d => decide (s.node ble d = s.node ble c)) Slot.stored
      s.hub.pool.slots i { s.hub.pool.slots.get i with used := false }
    have hrest : (collect Slot.stored
        (setAt s.hub.pool.slots i { s.hub.pool.slots.get i with used := false })).countP
          (fun d => decide (s.node ble d = s.node ble c)) = 0 := by
      rw [List.countP_eq_zero]
      intro d hd hnode
      obtain ⟨j, hj⟩ := mem_collect.mp hd
      by_cases hij : i = j
      · subst hij
        rw [get_setAt_self] at hj
        cases hj
      · rw [get_setAt_of_ne _ _ hij] at hj
        exact hij ((hs.shares hi hj).mpr (of_decide_eq_true hnode).symm)
    have hlen : (s.hub.pool.slots.get i).stored.length ≤ cmdPendingPerNode := by
      rw [Slot.stored, if_pos (mem_stored_slot hs.toInv hi).1]
      exact ThreadSafeQueue.length_contents_le _
    have hle := (List.countP_le_length (p := fun d => decide (s.node ble d = s.node ble c))).trans hlen
    have hnil : Slot.stored { s.hub.pool.slots.get i with used := false } = [] := rfl
    rw [hrest, hnil, List.countP_nil, Nat.zero_add, Nat.add_zero] at hsum
    exact hsum ▸ hle
  · have hnone : s.hub.pool.stored.countP (fun c => decide (s.node ble c = a)) = 0 := by
      rw [List.countP_eq_zero]
      intro c hc hnode
      exact h ⟨c, hc, of_decide_eq_true hnode⟩
    rw [hnone]
    exact Nat.zero_le _

theorem onePerNode_of_spelled [DecidableEq Addr] (hs : Spelled ble s) : OnePerNode ble s where
  shares _ _ _ hc _ hd := hs.shares hc hd
  bounded := hs.bounded
  found c hc := by
    obtain ⟨n, hn⟩ := hs.wf.mem_stored.mp hc
    rw [← hs.queuedKey n c hn, hs.queued n c hn]
    exact hn
  own a c hc := by
    rw [← ble.key_inj, ← hs.queuedKey _ c hc]
    exact hs.queued _ c hc
  reached := hs.reached

theorem Spelled.command (hs : Spelled ble s) {obj : Json} {h : HubState}
    (hst : step json s.hub (.dispatch ((parseCommand obj).stamp json.unset)) = some h) :
    Spelled ble ⟨h, s.texts ++ [targetText obj]⟩ := by
  have hinv := inv_step hs.toInv hst
  have hnode {c : MqttCommand} (hk : ∃ d ∈ s.hub.dispatched, d.2.origin = c.origin) :
      Texts.node ble ⟨h, s.texts ++ [targetText obj]⟩ c = s.node ble c :=
    node_append (hs.length ▸ hs.serial_lt hk)
  cases moves_of_step hs.wf hst with
  | dispatch _ hm ht =>
      refine ⟨hinv, ?_, fun n c hc => ?_, fun c hc => ?_, fun e he => ?_⟩
      · simp [hs.length]
      · rw [hnode (hs.known c (.inl ⟨n, hc⟩))]
        exact hs.queuedKey n c hc
      · rw [hnode (hs.known c (.inr (.inl hc)))]
        exact hs.heldKey c hc
      · rw [hnode (hs.sentKnown e he)]
        exact hs.reached e he

/-- A step of the two tasks, with what it puts into the pool, takes out of it and writes. -/
theorem Spelled.hub (hs : Spelled ble s) {a : Action} {h : HubState} (hG : Canonical json ble s (.hub a))
    (hst : step json s.hub a = some h) (ha : ∀ cmd, a ≠ .dispatch cmd) :
    Spelled ble { s with hub := h } := by
  have hinv := inv_step hs.toInv hst
  cases moves_of_step hs.wf hst with
  | dispatch cmd hm ht => exact absurd rfl (ha cmd)
  | sent link cmd hm hsend =>
      refine { hs with toInv := hinv, reached := fun e he => ?_ }
      rcases List.mem_append.mp he with he | he
      · exact hs.reached e he
      · simp only [Canonical, hm] at hG
        rw [List.mem_singleton.mp he]
        exact hG hsend
  | pushed cmd p hm hr hu =>
      refine { hs with toInv := hinv, queuedKey := hu.forall_queueOf hs.queuedKey fun c hc => ?_ }
      rcases List.mem_append.mp hc with hc | hc
      · exact hs.queuedKey _ c hc
      · simp only [Canonical, hm] at hG
        rw [List.mem_singleton.mp hc]
        exact hG hr
  | popped nodeId resume cmd rest p hl hq hu =>
      refine { hs with
        toInv := hinv
        queuedKey := hu.forall_queueOf hs.queuedKey fun c hc => ?_
        heldKey := fun c hc => ?_ }
      · exact hs.queuedKey _ c (mem_of_unexpired hq (List.mem_cons_of_mem _ hc))
      · rw [List.mem_singleton.mp hc]
        exact hs.queuedKey _ cmd (mem_of_unexpired hq List.mem_cons_self)
  | drained nodeId resume p hl hq hu =>
      exact { hs with
        toInv := hinv
        queuedKey := hu.forall_queueOf hs.queuedKey fun c hc => absurd hc List.not_mem_nil
        heldKey := fun c hc => by simp at hc }
  | resent link nodeId cmd resume hl hsend =>
      refine { hs with
        toInv := hinv
        heldKey := fun c hc => absurd hc List.not_mem_nil
        reached := fun e he => ?_ }
      rcases List.mem_append.mp he with he | he
      · exact hs.reached e he
      · rw [List.mem_singleton.mp he]
        have hkey := hs.heldKey cmd (by simp [hl, LoopTask.held])
        change ble.ofText cmd.target.chars = s.node ble cmd
        rw [hkey, ble.chars_key, ble.ofText_toText]
  | unresent link nodeId cmd resume hl hsend =>
      refine { hs with toInv := hinv, heldKey := fun c hc => hs.heldKey c ?_ }
      simpa [hl, LoopTask.held] using hc
  | putBack nodeId cmd resume p hl hr hu =>
      refine { hs with
        toInv := hinv
        queuedKey := hu.forall_queueOf hs.queuedKey fun c hc => ?_
        heldKey := fun c hc => by simp at hc }
      rcases List.mem_cons.mp hc with rfl | hc
      · exact hs.heldKey cmd (by simp [hl, LoopTask.held])
      · exact hs.queuedKey _ c hc
  | tick ms | unsent link cmd hm hsend | refused cmd hm hr => exact { hs with toInv := hinv }
  | flushNode | flushAll | scanEnd | scanSkip | scanFound | connected =>
      exact { hs with toInv := hinv, heldKey := fun c hc => absurd hc List.not_mem_nil }
  | notConnected | lost => exact { hs with toInv := hinv, heldKey := fun c hc => by simp at hc }

theorem textStep_hub {a : Action} (hst : textStep json s (.hub a) = some t) :
    (∀ cmd, a ≠ .dispatch cmd) ∧ ∃ h, step json s.hub a = some h ∧ { s with hub := h } = t := by
  cases a with
  | dispatch cmd => cases hst
  | _ =>
      simp only [textStep] at hst
      obtain ⟨h, hh, ht⟩ := Option.map_eq_some_iff.mp hst
      refine ⟨fun cmd hcmd => ?_, h, hh, ht⟩
      cases hcmd

theorem spelled_step {a : TextAction} (hs : Spelled ble s) (hG : Canonical json ble s a)
    (hst : textStep json s a = some t) : Spelled ble t := by
  cases a with
  | command obj =>
      obtain ⟨h, hh, rfl⟩ := Option.map_eq_some_iff.mp hst
      exact hs.command hh
  | hub a =>
      obtain ⟨ha, h, hh, rfl⟩ := textStep_hub hst
      exact hs.hub hG hh ha

theorem split_of_not_canonical [DecidableEq Addr] {a : TextAction} (hs : Spelled ble s)
    (hG : ¬ Canonical json ble s a) : ∃ t, textStep json s a = some t ∧ ¬ OnePerNode ble t := by
  cases a with
  | command obj => exact absurd trivial hG
  | hub a =>
      cases a with
      | push =>
          cases hm : s.hub.mqtt with
          | pushing cmd =>
              simp only [Canonical, hm, Classical.not_imp] at hG
              obtain ⟨hr, hkey⟩ := hG
              obtain ⟨p, hpush, _, hu⟩ := (push_cases hs.wf s.hub.millis cmd.target cmd).resolve_right
                fun h => hr h.2
              have hst : step json s.hub .push =
                  some { s.hub with mqtt := .idle, pool := p, accepted := s.hub.accepted ++ [cmd] } := by
                simp only [step, hm, hpush]
              refine ⟨_, congrArg (Option.map _) hst, fun hone => hkey ?_⟩
              have hmem : cmd.stamp s.hub.millis ∈ p.queueOf cmd.target := by
                rw [hu.queueOf_self]
                exact List.mem_append_right _ List.mem_cons_self
              have hfound := hone.found _ (hu.wf.mem_stored.mpr ⟨_, hmem⟩)
              exact (inv_step hs.toInv hst).queued (ble.key (s.node ble cmd)) (cmd.stamp s.hub.millis)
                hfound
          | _ => simp [Canonical, hm] at hG
      | send link =>
          cases hm : s.hub.mqtt with
          | sending cmd =>
              simp only [Canonical, hm, Classical.not_imp] at hG
              obtain ⟨hsend, hne⟩ := hG
              have hst : step json s.hub (.send link) = some { s.hub with
                  mqtt := .idle, transmitted := s.hub.transmitted ++ [(s.hub.now, cmd)] } := by
                simp only [step, hm, hsend, if_true]
              refine ⟨_, congrArg (Option.map _) hst, fun hone => hne ?_⟩
              exact hone.reached (s.hub.now, cmd) (List.mem_append_right _ List.mem_cons_self)
          | _ => simp [Canonical, hm] at hG
      | _ => exact absurd trivial hG

end

/-- Each node has one pending queue in every state of a run if and only if every command that is
queued has its node's canonical target, and none is written to another node than it names. -/
theorem always_onePerNode_iff {Addr : Type} [DecidableEq Addr] (json : ArduinoJson)
    (ble : NimBLEAddress Addr) (as : List TextAction) :
    Always (textStep json) (OnePerNode ble) Texts.init as ↔
      Along (textStep json) (Canonical json ble) Texts.init as :=
  always_iff_along (fun _ _ _ => spelled_step) (fun _ => onePerNode_of_spelled)
    (fun _ _ => split_of_not_canonical) spelled_init

section Mac

/-- The six bytes of a public address. -/
abbrev Mac := UInt8 × UInt8 × UInt8 × UInt8 × UInt8 × UInt8

/-- The value of a hexadecimal digit of either case. -/
def hexValue (c : Char) : Option Nat :=
  if '0' ≤ c ∧ c ≤ '9' then some (c.toNat - '0'.toNat)
  else if 'a' ≤ c.toLower ∧ c.toLower ≤ 'f' then some (c.toLower.toNat - 'a'.toNat + 10)
  else none

def hexByte (hi lo : Char) : Option UInt8 :=
  (hexValue hi).bind fun x => (hexValue lo).map fun y => UInt8.ofNat (16 * x + y)

def hexPair (b : UInt8) : List Char := [Nat.digitChar (b.toNat / 16), Nat.digitChar (b.toNat % 16)]

/-- A string of another form gives the null address. -/
def macOfText : List Char → Mac
  | [a, b, ':', c, d, ':', e, f, ':', g, h, ':', i, j, ':', k, l] =>
      match hexByte a b, hexByte c d, hexByte e f, hexByte g h, hexByte i j, hexByte k l with
      | some u, some v, some w, some x, some y, some z => (u, v, w, x, y, z)
      | _, _, _, _, _, _ => (0, 0, 0, 0, 0, 0)
  | _ => (0, 0, 0, 0, 0, 0)

def macToText : Mac → List Char
  | (u, v, w, x, y, z) =>
      hexPair u ++ ':' :: (hexPair v ++ ':' :: (hexPair w ++ ':' :: (hexPair x ++ ':' ::
        (hexPair y ++ ':' :: hexPair z))))

theorem hexByte_hexPair (b : UInt8) :
    hexByte (Nat.digitChar (b.toNat / 16)) (Nat.digitChar (b.toNat % 16)) = some b := by
  have hall : ∀ n < 256, hexByte (Nat.digitChar (n / 16)) (Nat.digitChar (n % 16)) =
      some (UInt8.ofNat n) := by
    decide +kernel
  rw [hall b.toNat b.toNat_lt, UInt8.ofNat_toNat]

theorem le_toNat_hexPair (b : UInt8) : ∀ c ∈ hexPair b, 32 ≤ c.toNat := by
  have hdigit : ∀ d < 16, 32 ≤ (Nat.digitChar d).toNat := by decide
  have hlt := b.toNat_lt
  intro c hc
  rcases List.mem_pair.mp hc with rfl | rfl
  · exact hdigit _ (by omega)
  · exact hdigit _ (by omega)

/-- `NimBLEAddress` as far as the strings here go. -/
def publicAddress : NimBLEAddress Mac where
  ofText := macOfText
  toText := macToText
  length_toText _ := rfl
  le_toNat a := by
    have hcolon : 32 ≤ ':'.toNat := by decide
    simp only [macToText, List.forall_mem_append, List.forall_mem_cons]
    exact ⟨le_toNat_hexPair _, hcolon, le_toNat_hexPair _, hcolon, le_toNat_hexPair _, hcolon,
      le_toNat_hexPair _, hcolon, le_toNat_hexPair _, hcolon, le_toNat_hexPair _⟩
  ofText_toText a := by
    simp [macToText, macOfText, hexPair, hexByte_hexPair]

end Mac

/-- A TEST command arrives for the target and cannot be written. -/
def unwritten (target : String) : List TextAction :=
  [.command (.obj [("target", .str target), ("type", .str "TEST"), ("cmd_id", .int 1)]),
    .hub (.send false), .hub .push]

/-- One node, spelled in capital letters and in small ones. -/
def letterCaseRun : List TextAction := unwritten "AA:BB:CC:DD:EE:FF" ++ unwritten "aa:bb:cc:dd:ee:ff"

def firstSlot : Fin maxNodes := ⟨0, by decide⟩

def secondSlot : Fin maxNodes := ⟨1, by decide⟩

theorem letterCaseRun_splits :
    ¬ Always (textStep emptyObjectJson) (OnePerNode publicAddress) Texts.init letterCaseRun := by
  intro h
  have hsome : (exec (textStep emptyObjectJson) Texts.init letterCaseRun).isSome = true := by
    decide +kernel
  obtain ⟨s, hs⟩ := Option.isSome_iff_exists.mp hsome
  have htwo : ∀ s ∈ exec (textStep emptyObjectJson) Texts.init letterCaseRun,
      ∃ c ∈ (s.hub.pool.slots.get firstSlot).stored, ∃ d ∈ (s.hub.pool.slots.get secondSlot).stored,
        s.node publicAddress c = s.node publicAddress d := by
    decide +kernel
  obtain ⟨c, hc, d, hd, hnode⟩ := htwo s hs
  exact absurd (((h.at_end hs).shares firstSlot secondSlot c hc d hd).mpr hnode) (by decide)

end Tempio.Hub
