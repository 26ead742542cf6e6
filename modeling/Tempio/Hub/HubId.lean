import Tempio.Hub.OneQueue
import Tempio.Lib.Topic

namespace Tempio.Hub.Mqtt

open Tempio.Lib.Topic

instance neZeroClientIdSize : NeZero 32 := ⟨by decide⟩

instance neZeroTopicSize : NeZero 48 := ⟨by decide⟩

/-- `WiFi.macAddress()`, which is written in capital letters. -/
def wifiMacAddress (mac : Mac) : List Char := (macToText mac).map Char.toUpper

/-- The loop of `hubIdInit`; `j` is how many characters it has written. -/
def hubIdLoop : List Char → Nat → List Char
  | [], _ => []
  | c :: mac, j =>
      if j < 12 then
        if c ≠ ':' then c.toLower :: hubIdLoop mac (j + 1) else hubIdLoop mac j
      else []

/-- `getHubId()` after `hubIdInit`. -/
def hubId (mac : Mac) : CStr 16 := strlcpy 16 (hubIdLoop (wifiMacAddress mac) 0)

/-- `snprintf` with one `%s`. -/
def snprintf (size : Nat) [NeZero size] (before : String) (arg : CStr 16) (after : String) : CStr size :=
  strlcpy size (before.toList ++ (arg.chars ++ after.toList))

def topicReport (mac : Mac) : CStr 48 := snprintf 48 "tempio/" (hubId mac) "/report"

def topicCommands (mac : Mac) : CStr 48 := snprintf 48 "tempio/" (hubId mac) "/commands"

def clientId (mac : Mac) : CStr 32 := snprintf 32 "tempio-hub-" (hubId mac) ""

/-- The twelve digits of an address. -/
def macDigits : Mac → List Char
  | (u, v, w, x, y, z) =>
      hexPair u ++ (hexPair v ++ (hexPair w ++ (hexPair x ++ (hexPair y ++ hexPair z))))

section

variable {mac mac' : Mac}

theorem digitChar_facts {d : Nat} (h : d < 16) :
    (Nat.digitChar d).toUpper ≠ ':' ∧ (Nat.digitChar d).toUpper.toLower = Nat.digitChar d ∧
      Nat.digitChar d ∉ ['/', '+', '#', nul] := by
  have hall : ∀ d < 16, (Nat.digitChar d).toUpper ≠ ':' ∧
      (Nat.digitChar d).toUpper.toLower = Nat.digitChar d ∧
        Nat.digitChar d ∉ ['/', '+', '#', nul] := by
    decide
  exact hall d h

theorem hubIdLoop_hexPair (b : UInt8) (rest : List Char) {j : Nat} (hj : j + 1 < 12) :
    hubIdLoop ((hexPair b).map Char.toUpper ++ rest) j = hexPair b ++ hubIdLoop rest (j + 2) := by
  have hlt := b.toNat_lt
  obtain ⟨hhi, hhi', _⟩ := digitChar_facts (d := b.toNat / 16) (by omega)
  obtain ⟨hlo, hlo', _⟩ := digitChar_facts (d := b.toNat % 16) (by omega)
  simp only [hexPair, List.map_cons, List.map_nil, List.cons_append, List.nil_append, hubIdLoop,
    ne_eq, hhi, hlo, not_false_eq_true, if_true, hhi', hlo', hj, show j < 12 by omega]

theorem hubIdLoop_colon (rest : List Char) {j : Nat} (hj : j < 12) :
    hubIdLoop (':' :: rest) j = hubIdLoop rest j := by
  simp [hubIdLoop, hj]

theorem hubIdLoop_wifiMacAddress (mac : Mac) : hubIdLoop (wifiMacAddress mac) 0 = macDigits mac := by
  obtain ⟨u, v, w, x, y, z⟩ := mac
  have hcolon : ':'.toUpper = ':' := by decide
  have hlast (b : UInt8) : hubIdLoop ((hexPair b).map Char.toUpper) 10 = hexPair b := by
    have h := hubIdLoop_hexPair b [] (j := 10) (by decide)
    rwa [List.append_nil, hubIdLoop, List.append_nil] at h
  simp only [wifiMacAddress, macToText, List.map_append, List.map_cons, hcolon]
  rw [hubIdLoop_hexPair u _ (by decide), hubIdLoop_colon _ (by decide),
    hubIdLoop_hexPair v _ (by decide), hubIdLoop_colon _ (by decide),
    hubIdLoop_hexPair w _ (by decide), hubIdLoop_colon _ (by decide),
    hubIdLoop_hexPair x _ (by decide), hubIdLoop_colon _ (by decide),
    hubIdLoop_hexPair y _ (by decide), hubIdLoop_colon _ (by decide), hlast, macDigits]

theorem not_mem_macDigits {c : Char} (hc : c ∈ ['/', '+', '#', nul]) (mac : Mac) : c ∉ macDigits mac := by
  have hpair (b : UInt8) : c ∉ hexPair b := by
    intro h
    have hlt := b.toNat_lt
    rcases List.mem_pair.mp h with rfl | rfl
    · exact (digitChar_facts (by omega)).2.2 hc
    · exact (digitChar_facts (by omega)).2.2 hc
  obtain ⟨u, v, w, x, y, z⟩ := mac
  simp only [macDigits, List.mem_append, hpair, or_self, not_false_eq_true]

theorem length_macDigits (mac : Mac) : (macDigits mac).length = 12 := rfl

theorem chars_hubId (mac : Mac) : (hubId mac).chars = macDigits mac := by
  have hlen : (macDigits mac).length < 16 := by rw [length_macDigits]; decide
  rw [hubId, hubIdLoop_wifiMacAddress, chars_strlcpy (not_mem_macDigits (by decide) mac) hlen]

theorem hexPair_inj {b c : UInt8} : hexPair b = hexPair c ↔ b = c := by
  refine ⟨fun h => ?_, congrArg _⟩
  obtain ⟨hhi, hlo⟩ : Nat.digitChar (b.toNat / 16) = Nat.digitChar (c.toNat / 16) ∧
      Nat.digitChar (b.toNat % 16) = Nat.digitChar (c.toNat % 16) := by
    simpa [hexPair] using h
  have hb := hexByte_hexPair b
  rw [hhi, hlo, hexByte_hexPair] at hb
  exact (Option.some.inj hb).symm

theorem macDigits_inj : macDigits mac = macDigits mac' ↔ mac = mac' := by
  refine ⟨fun h => ?_, congrArg _⟩
  obtain ⟨u, v, w, x, y, z⟩ := mac
  obtain ⟨u', v', w', x', y', z'⟩ := mac'
  have hlen (b c : UInt8) : (hexPair b).length = (hexPair c).length := rfl
  obtain ⟨hu, h⟩ := List.append_inj h (hlen u u')
  obtain ⟨hv, h⟩ := List.append_inj h (hlen v v')
  obtain ⟨hw, h⟩ := List.append_inj h (hlen w w')
  obtain ⟨hx, h⟩ := List.append_inj h (hlen x x')
  obtain ⟨hy, hz⟩ := List.append_inj h (hlen y y')
  rw [hexPair_inj.mp hu, hexPair_inj.mp hv, hexPair_inj.mp hw, hexPair_inj.mp hx, hexPair_inj.mp hy,
    hexPair_inj.mp hz]

theorem chars_snprintf {size : Nat} [NeZero size] {before after : String} {mac : Mac}
    (hbefore : nul ∉ before.toList) (hafter : nul ∉ after.toList)
    (hfit : before.length + after.length + 12 < size) :
    (snprintf size before (hubId mac) after).chars = before.toList ++ (macDigits mac ++ after.toList) := by
  have hdigits := not_mem_macDigits (c := nul) (by decide) mac
  have hlen := length_macDigits mac
  rw [snprintf, chars_hubId]
  apply chars_strlcpy
  · simp [hbefore, hafter, hdigits]
  · simp only [List.length_append, String.length_toList, hlen]
    omega

theorem chars_topicReport (mac : Mac) :
    (topicReport mac).chars = "tempio/".toList ++ (macDigits mac ++ "/report".toList) :=
  chars_snprintf (by decide) (by decide) (by decide)

theorem chars_topicCommands (mac : Mac) :
    (topicCommands mac).chars = "tempio/".toList ++ (macDigits mac ++ "/commands".toList) :=
  chars_snprintf (by decide) (by decide) (by decide)

theorem chars_clientId (mac : Mac) : (clientId mac).chars = "tempio-hub-".toList ++ macDigits mac := by
  rw [clientId, chars_snprintf (by decide) (by decide) (by decide)]
  simp

end

end Tempio.Hub.Mqtt
