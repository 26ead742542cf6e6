import Mathlib.Data.List.DropRight
import Tempio.Hub.MqttCommand
import Tempio.Lib.Transition

namespace Tempio.Hub.Wifi

open Tempio.Lib.Transition

structure Credentials where
  ssid : List Char
  password : List Char
deriving DecidableEq

/-- `isspace` -/
def isSpace (c : Char) : Bool := c ∈ [' ', '\t', '\n', '\x0b', '\x0c', '\r']

def trim (line : List Char) : List Char := (line.dropWhile isSpace).rdropWhile isSpace

/-- What follows the words of the command, cut at its first space. -/
def parseArgs (args : List Char) : Option Credentials :=
  if ' ' ∈ args then some ⟨args.takeWhile (· ≠ ' '), (args.dropWhile (· ≠ ' ')).tail⟩ else none

def wifiSet : List Char := "wifi set ".toList

/-- What `wifiProcessSerial` saves for a line; of the other lines it takes no notice but to print. -/
def processLine (line : List Char) : Option Credentials :=
  if wifiSet.isPrefixOf (trim line) then parseArgs ((trim line).drop wifiSet.length) else none

/-- What the serial port hands over for a line; a NUL would end the text before its length. -/
def Typed (line : List Char) : Prop := '\n' ∉ line ∧ nul ∉ line

/-- Credentials that a line can set. -/
structure Credentials.Settable (c : Credentials) : Prop where
  ssid : ' ' ∉ c.ssid
  password : ∃ h : c.password ≠ [], isSpace (c.password.getLast h) = false
  typed : Typed (c.ssid ++ c.password)

/-- The stored credentials, those in memory while the hub is on, and those that `WiFi.begin` was called
with last. `entered` is the last pair of which at least one part was stored. -/
structure Manager where
  stored : Credentials
  memory : Option Credentials
  begun : Option Credentials
  entered : Credentials

def Manager.init (stored : Credentials) : Manager := ⟨stored, none, none, stored⟩

inductive Action
  | wifiInit
  | processSerial (line : List Char)
  | powerOff
  | powerCut (line : List Char) (puts : Fin 3)

/-- The two `putString` calls of `save_credentials`, of which the power lets `puts` pass. A call stores a
text of any length. -/
def putStrings (stored c : Credentials) (puts : Fin 3) : Credentials where
  ssid := if 1 ≤ puts then c.ssid else stored.ssid
  password := if 2 ≤ puts then c.password else stored.password

def step (s : Manager) : Action → Option Manager
  | .wifiInit =>
      match s.memory with
      | some _ => none
      | none => some { s with
          memory := some s.stored
          begun := if s.stored.ssid = [] then s.begun else some s.stored }
  | .processSerial line =>
      match s.memory with
      | none => none
      | some _ =>
          match processLine line with
          | none => some s
          | some c => some ⟨putStrings s.stored c 2, some c, some c, c⟩
  | .powerOff => some { s with memory := none }
  | .powerCut line puts =>
      match s.memory with
      | none => none
      | some _ =>
          match processLine line with
          | none => some { s with memory := none }
          | some c => some { s with
              stored := putStrings s.stored c puts
              memory := none
              entered := if 1 ≤ puts then c else s.entered }

/-- No power cut between the two calls, unless they store the same password. -/
def NotTorn (s : Manager) : Action → Prop
  | .powerCut line puts => ∀ c ∈ processLine line, s.memory.isSome = true → puts = 1 →
      c.password = s.stored.password
  | _ => True

section

variable {line : List Char} {c : Credentials}

theorem trim_of_ends {x : Char} {xs : List Char} (hfirst : isSpace x = false)
    (hlast : isSpace ((x :: xs).getLast (List.cons_ne_nil x xs)) = false) : trim (x :: xs) = x :: xs := by
  rw [trim, List.dropWhile_cons_of_neg (by simp [hfirst]), List.rdropWhile_eq_self_iff]
  exact fun _ => by simp [hlast]

theorem trim_last (line : List Char) (h : trim line ≠ []) : isSpace ((trim line).getLast h) = false := by
  exact eq_false_of_ne_true (List.rdropWhile_last_not isSpace (line.dropWhile isSpace) h)

theorem mem_of_mem_trim {x : Char} (h : x ∈ trim line) : x ∈ line :=
  (List.dropWhile_sublist isSpace).subset ((List.rdropWhile_prefix isSpace _).sublist.subset h)

theorem parseArgs_append {ssid password : List Char} (h : ' ' ∉ ssid) :
    parseArgs (ssid ++ ' ' :: password) = some ⟨ssid, password⟩ := by
  have hkeep : ∀ x ∈ ssid, decide (x ≠ ' ') = true := fun x hx => by
    rw [decide_eq_true_iff]
    rintro rfl
    exact h hx
  rw [parseArgs, if_pos (by simp), List.takeWhile_append_of_pos hkeep, List.dropWhile_append_of_pos hkeep]
  simp

theorem parseArgs_eq_some {args : List Char} (h : parseArgs args = some c) :
    args = c.ssid ++ ' ' :: c.password ∧ ' ' ∉ c.ssid := by
  unfold parseArgs at h
  split_ifs at h with hspace
  obtain rfl := Option.some.inj h
  have hne : args.dropWhile (· ≠ ' ') ≠ [] := by
    rw [ne_eq, List.dropWhile_eq_nil_iff]
    exact fun hall => by simpa using hall ' ' hspace
  obtain ⟨x, rest, hdrop⟩ := List.exists_cons_of_ne_nil hne
  have happend := List.takeWhile_append_dropWhile (p := (· ≠ ' ')) (l := args)
  have hx : x = ' ' := by
    have hhead := List.head_dropWhile_not (· ≠ ' ') hne
    simpa only [hdrop, List.head_cons, decide_eq_false_iff_not, not_not] using hhead
  rw [hdrop, hx] at happend
  refine ⟨?_, fun hmem => ?_⟩
  · simp only [hdrop, List.tail_cons]
    exact happend.symm
  · simpa using List.mem_takeWhile_imp hmem

/-- The credentials that can be set: a name without a space, and a password that does not end in one
and is not empty. -/
theorem settable_iff (c : Credentials) :
    (∃ line, Typed line ∧ processLine line = some c) ↔ c.Settable := by
  constructor
  · rintro ⟨line, htyped, h⟩
    unfold processLine at h
    split_ifs at h with hprefix
    obtain ⟨args, hargs⟩ := List.isPrefixOf_iff_prefix.mp hprefix
    rw [← hargs, List.drop_left] at h
    obtain ⟨rfl, hssid⟩ := parseArgs_eq_some h
    have hmem : ∀ x ∈ c.ssid ++ c.password, x ∈ line := fun x hx => by
      apply mem_of_mem_trim
      rw [← hargs]
      simp only [List.mem_append, List.mem_cons] at hx ⊢
      tauto
    refine ⟨hssid, ?_, fun h => htyped.1 (hmem _ h), fun h => htyped.2 (hmem _ h)⟩
    have hne : trim line ≠ [] := by simp [← hargs]
    have hlast := trim_last line hne
    simp only [← hargs] at hlast
    have hpassword : c.password ≠ [] := by
      intro hnil
      simp [hnil, isSpace] at hlast
    refine ⟨hpassword, ?_⟩
    rwa [List.getLast_append_of_right_ne_nil _ _ (by simp), List.getLast_append_of_right_ne_nil _ _ (by simp),
      List.getLast_cons hpassword] at hlast
  · rintro ⟨hssid, ⟨hne, hlast⟩, htyped⟩
    have hend (h : wifiSet ++ (c.ssid ++ ' ' :: c.password) ≠ []) :
        isSpace ((wifiSet ++ (c.ssid ++ ' ' :: c.password)).getLast h) = false := by
      rwa [List.getLast_append_of_right_ne_nil _ _ (by simp), List.getLast_append_of_right_ne_nil _ _ (by simp),
        List.getLast_cons hne]
    have hline : trim (wifiSet ++ (c.ssid ++ ' ' :: c.password)) = wifiSet ++ (c.ssid ++ ' ' :: c.password) :=
      trim_of_ends (by decide) (hend _)
    have hnot {x : Char} (hset : x ∉ wifiSet) (hx : x ≠ ' ') (hc : x ∉ c.ssid ++ c.password) :
        x ∉ wifiSet ++ (c.ssid ++ ' ' :: c.password) := by
      simp only [List.mem_append, List.mem_cons, not_or] at hc ⊢
      exact ⟨hset, hc.1, hx, hc.2⟩
    refine ⟨wifiSet ++ (c.ssid ++ ' ' :: c.password), ⟨?_, ?_⟩, ?_⟩
    · exact hnot (by decide) (by decide) htyped.1
    · exact hnot (by decide) (by decide) htyped.2
    · rw [processLine, hline, if_pos (List.isPrefixOf_iff_prefix.mpr (List.prefix_append _ _)),
        List.drop_left, parseArgs_append hssid]

end

/-- What is stored is what was entered last, and what the hub connects with while it is on. -/
structure Manager.AsEntered (s : Manager) : Prop where
  stored : s.stored = s.entered
  memory : ∀ c ∈ s.memory, c = s.stored
  begun : ∀ c ∈ s.memory, c.ssid ≠ [] → s.begun = some c

section

variable {s t : Manager} {a : Action}

theorem putStrings_cases (stored c : Credentials) (puts : Fin 3) :
    puts = 0 ∧ putStrings stored c puts = stored ∨ puts = 1 ∧ putStrings stored c puts = ⟨c.ssid, stored.password⟩ ∨
      puts = 2 ∧ putStrings stored c puts = c := by
  have hall : ∀ n : Fin 3, n = 0 ∨ n = 1 ∨ n = 2 := by decide
  rcases hall puts with rfl | rfl | rfl
  · exact .inl ⟨rfl, rfl⟩
  · exact .inr (.inl ⟨rfl, rfl⟩)
  · exact .inr (.inr ⟨rfl, rfl⟩)

theorem asEntered_step (h : s.AsEntered) (hg : NotTorn s a) (hst : step s a = some t) : t.AsEntered := by
  cases a with
  | wifiInit =>
      cases hm : s.memory with
      | none =>
          simp only [step, hm, Option.some.injEq] at hst
          subst hst
          refine ⟨h.stored, fun c hc => (Option.some.inj hc).symm, fun c hc hne => ?_⟩
          obtain rfl := Option.some.inj hc
          exact if_neg hne
      | some _ => simp [step, hm] at hst
  | processSerial line =>
      cases hm : s.memory with
      | none => simp [step, hm] at hst
      | some _ =>
          cases hp : processLine line with
          | none =>
              simp only [step, hm, hp, Option.some.injEq] at hst
              exact hst ▸ h
          | some c =>
              simp only [step, hm, hp, Option.some.injEq] at hst
              subst hst
              exact ⟨rfl, fun d hd => (Option.some.inj hd).symm, fun d hd _ => hd⟩
  | powerOff => exact Option.some.inj hst ▸ ⟨h.stored, nofun, nofun⟩
  | powerCut line puts =>
      cases hm : s.memory with
      | none => simp [step, hm] at hst
      | some _ =>
          cases hp : processLine line with
          | none =>
              simp only [step, hm, hp, Option.some.injEq] at hst
              exact hst ▸ ⟨h.stored, nofun, nofun⟩
          | some c =>
              simp only [step, hm, hp, Option.some.injEq] at hst
              subst hst
              refine ⟨?_, nofun, nofun⟩
              rcases putStrings_cases s.stored c puts with ⟨rfl, hput⟩ | ⟨rfl, hput⟩ | ⟨rfl, hput⟩
              · exact hput.trans h.stored
              · rw [hput, ← hg c hp (by simp [hm]) rfl]
                rfl
              · exact hput

theorem torn_of_not_notTorn (hg : ¬ NotTorn s a) : ∃ t, step s a = some t ∧ ¬ t.AsEntered := by
  cases a with
  | powerCut line puts =>
      simp only [NotTorn, not_forall] at hg
      obtain ⟨c, hp, hm, rfl, hne⟩ := hg
      obtain ⟨d, hm⟩ := Option.isSome_iff_exists.mp hm
      have hst : step s (.powerCut line 1) = some { s with
          stored := ⟨c.ssid, s.stored.password⟩
          memory := none
          entered := c } := by
        simp only [step, hm, Option.mem_def.mp hp]
        rfl
      refine ⟨_, hst, fun h => hne ?_⟩
      exact (congrArg Credentials.password h.stored).symm
  | _ => exact absurd trivial hg

end

/-- In every state the hub has what was entered last exactly in the runs in which no write is torn. -/
theorem always_asEntered_iff (stored : Credentials) (as : List Action) :
    Always step Manager.AsEntered (Manager.init stored) as ↔ Along step NotTorn (Manager.init stored) as :=
  always_iff_along (fun _ _ _ => asEntered_step) (fun _ => id) (fun _ _ _ => torn_of_not_notTorn)
    ⟨rfl, nofun, nofun⟩

end Tempio.Hub.Wifi
