import Tempio.Hub.DataNotify
import Tempio.Lib.JsonNumber
import Tempio.Lib.Rounding

namespace Tempio.Hub

open Tempio.Lib Tempio.Lib.Json Tempio.Lib.Rounding Float.Model

/-- What `"%.1f"` prints. -/
inductive Printed
  | nan
  | inf (neg : Bool)
  | decimal (neg : Bool) (whole : Nat) (tenth : Fin 10)
deriving DecidableEq

def Printed.text : Printed → List Char
  | .nan => "nan".toList
  | .inf neg => minus neg ++ "inf".toList
  | .decimal neg whole tenth => tenthsText neg whole tenth

def printUnpacked : UnpackedFloat → Printed
  | .notANumber => .nan
  | .infinity sign => .inf (sign == .negative)
  | .zero sign => .decimal (sign == .negative) 0 0
  | .finite sign mantissa exponent _ =>
      let tenths := (roundEven (10 * (mantissa * 2 ^ exponent))).toNat
      .decimal (sign == .negative) (tenths / 10) (Fin.ofNat 10 tenths)

/-- The float is given by its bits. -/
def printed (bits : UInt32) : Printed :=
  printUnpacked (UnpackedFloat.unpack Format.binary32 bits.toBitVec)

/-- `snprintf` with `"%.1f"` into a buffer. -/
def snprintf1f (size : Nat) (bits : UInt32) : List Char := (printed bits).text.take (size - 1)

/-- How the JSON library, which is not part of the repository, writes `battery_mv / 1000.0f`. -/
structure VoltageText where
  voltage : UInt16 → Json
  isNumber : ∀ mv, (∃ n : Int, voltage mv = .int n ∧ n.natAbs ≤ 65) ∨
    ∃ text, voltage mv = .real text ∧ RealText text
  short : ∀ mv, (voltage mv).compact.length ≤ 24

/-- The state of the hub that `loop` adds to a report. -/
structure HubStatus where
  wifiRssi : Int16
  freeHeap : UInt32
  uptimeMs : UInt32

def reportJsonBufSize : Nat := 512

namespace SensorReport

variable (volt : VoltageText) (r : SensorReport) (hub : HubStatus)

/-- The members that `toJson` sets, with what it writes for the two readings. -/
def fields (temperature humidity : Json) : List (String × Json) :=
  [("node_id", .str (String.ofList r.nodeId.chars)),
    ("node_type", .str (String.ofList r.nodeTypeStr.chars)), ("temperature", temperature),
    ("humidity", humidity)] ++
    (if 0 < r.ldr then [("lux", .int r.ldr.toNat)] else []) ++
    [("battery_voltage", volt.voltage r.batteryMv), ("ble_rssi", .int r.bleRssi.toInt),
      ("wifi_rssi", .int hub.wifiRssi.toInt), ("free_heap", .int hub.freeHeap.toNat),
      ("uptime_ms", .int hub.uptimeMs.toNat)]

/-- `serialized` puts a text into the document as it is. -/
def doc : Json :=
  .obj (r.fields volt hub (.real (snprintf1f 8 r.temperature)) (.real (snprintf1f 8 r.humidity)))

def toJson (bufSize : Nat) : List Char := serializeJson (r.doc volt hub) bufSize

end SensorReport

/-- The decimal is the float to the nearest tenth. -/
theorem abs_sub_le_of_printUnpacked {sign : UnpackedFloat.Sign} {m : Nat} {e : Int} (hm : 0 < m)
    {neg : Bool} {n : Nat} {t : Fin 10} (h : printUnpacked (.finite sign m e hm) = .decimal neg n t) :
    |n + (t.val : ℚ) / 10 - m * 2 ^ e| ≤ 1 / 20 := by
  have hround := abs_roundEven_sub_le (10 * (m * 2 ^ e))
  have hnonneg : 0 ≤ roundEven (10 * (m * 2 ^ e)) := by
    have hpos : (0 : ℚ) < 10 * (m * 2 ^ e) :=
      mul_pos (by norm_num) (mul_pos (by exact_mod_cast hm) (zpow_pos two_pos e))
    have hlt : (-1 : ℚ) < roundEven (10 * (m * 2 ^ e)) := by linarith [(abs_le.mp hround).1]
    have : -1 < roundEven (10 * (m * 2 ^ e)) := by exact_mod_cast hlt
    omega
  obtain ⟨k, hk⟩ := Int.eq_ofNat_of_zero_le hnonneg
  rw [hk, Int.cast_natCast] at hround
  obtain ⟨_, hn, ht⟩ := Printed.decimal.inj h
  rw [hk, Int.toNat_natCast] at hn ht
  subst hn ht
  have hparts : ((k / 10 : Nat) : ℚ) + ((Fin.ofNat 10 k).val : ℚ) / 10 = k / 10 := by
    have hdiv : (10 * (k / 10 : Nat) + (k % 10 : Nat) : ℚ) = k := by exact_mod_cast Nat.div_add_mod k 10
    rw [Fin.val_ofNat, ← hdiv]
    ring
  rw [hparts, abs_le]
  rw [abs_le] at hround
  constructor <;> linarith [hround.1, hround.2]

example : (printed 0x41bc0000).text = "23.5".toList := by decide +kernel

section

variable {neg : Bool} {n : Nat} {t : Fin 10}

theorem length_tenthsText (neg : Bool) (n : Nat) (t : Fin 10) :
    (tenthsText neg n t).length = (minus neg).length + (Nat.toDigits 10 n).length + 2 := by
  rw [tenthsText, List.length_append, List.length_append]
  rfl

theorem length_minus_le (neg : Bool) : (minus neg).length ≤ 1 := by cases neg <;> decide

theorem take_of_length_eq_eight (h : (tenthsText neg n t).length = 8) :
    (tenthsText neg n t).take 7 = minus neg ++ (Nat.toDigits 10 n ++ ['.']) := by
  rw [length_tenthsText] at h
  have hsplit : tenthsText neg n t =
      (minus neg ++ (Nat.toDigits 10 n ++ ['.'])) ++ [t.val.digitChar] := by
    simp [tenthsText]
  rw [hsplit]
  exact List.take_left' (by simp; omega)

/-- What the buffer holds of a number with too many digits. -/
def leading (n len : Nat) : Nat := n / 10 ^ (len - 9)

theorem take_toDigits_leading (h : 9 ≤ (tenthsText neg n t).length) :
    (Nat.toDigits 10 n).take (7 - (minus neg).length) =
      Nat.toDigits 10 (leading n (tenthsText neg n t).length) := by
  have hneg := length_minus_le neg
  have hlen := length_tenthsText neg n t
  have hcut : (Nat.toDigits 10 n).length - (7 - (minus neg).length) =
      (tenthsText neg n t).length - 9 := by
    omega
  rw [take_toDigits (by omega) (by omega), hcut, leading]

theorem length_toDigits_leading (h : 9 ≤ (tenthsText neg n t).length) :
    (Nat.toDigits 10 (leading n (tenthsText neg n t).length)).length = 7 - (minus neg).length := by
  have hneg := length_minus_le neg
  have hlen := length_tenthsText neg n t
  rw [← take_toDigits_leading h, List.length_take]
  omega

theorem leading_pos (h : 9 ≤ (tenthsText neg n t).length) :
    0 < leading n (tenthsText neg n t).length := by
  have hneg := length_minus_le neg
  have hlen := length_toDigits_leading h
  rw [Nat.pos_iff_ne_zero]
  intro h0
  rw [h0, Nat.toDigits_zero] at hlen
  simp at hlen
  omega

theorem leading_lt (h : 9 ≤ (tenthsText neg n t).length) :
    leading n (tenthsText neg n t).length < 10 ^ 7 := by
  rw [← Nat.length_toDigits_le_iff (by decide) (by decide), length_toDigits_leading h]
  exact Nat.sub_le 7 _

theorem take_of_nine_le_length (h : 9 ≤ (tenthsText neg n t).length) :
    (tenthsText neg n t).take 7 =
      intText (signed neg (leading n (tenthsText neg n t).length)) := by
  have hneg := length_minus_le neg
  have hlen := length_tenthsText neg n t
  rw [intText_of_pos (leading_pos h), ← take_toDigits_leading h, tenthsText, List.take_append,
    List.take_of_length_le (by omega), List.take_append_of_le_length (by omega)]

/-- 1234567.8 -/
example : snprintf1f 8 0x4996b43e = "1234567".toList := by decide +kernel

end

section

variable (volt : VoltageText) {r : SensorReport} (hub : HubStatus)

theorem length_strText_le {size : Nat} [NeZero size] (s : CStr size) :
    (compactStyle.strText (String.ofList s.chars)).length ≤ 2 * size := by
  have hchars := length_flatMap_escape_le s.noNul
  have hfits := s.fits
  have hescape : compactStyle.escape = escape := rfl
  rw [Style.strText, String.toList_ofList, hescape, List.length_cons, List.length_append,
    List.length_singleton]
  omega

theorem length_compact_doc_le : (r.doc volt hub).compact.length ≤ reportJsonBufSize := by
  have hnode := length_strText_le r.nodeId
  have htype := length_strText_le r.nodeTypeStr
  have htemp : (snprintf1f 8 r.temperature).length ≤ 7 := List.length_take_le _ _
  have hhum : (snprintf1f 8 r.humidity).length ≤ 7 := List.length_take_le _ _
  have hldr : (intText (r.ldr.toNat : Int)).length ≤ 6 :=
    length_intText_le (by decide) (r.ldr.toNat_lt.trans (by decide))
  have hbat := volt.short r.batteryMv
  have hrssi : (intText r.bleRssi.toInt).length ≤ 6 :=
    length_intText_le (by decide) (by have := r.bleRssi.toInt_lt; have := r.bleRssi.le_toInt; omega)
  have hwifi : (intText hub.wifiRssi.toInt).length ≤ 6 :=
    length_intText_le (by decide) (by have := hub.wifiRssi.toInt_lt; have := hub.wifiRssi.le_toInt; omega)
  have hheap : (intText (hub.freeHeap.toNat : Int)).length ≤ 11 :=
    length_intText_le (by decide) (hub.freeHeap.toNat_lt.trans (by decide))
  have hup : (intText (hub.uptimeMs.toNat : Int)).length ≤ 11 :=
    length_intText_le (by decide) (hub.uptimeMs.toNat_lt.trans (by decide))
  have hkeys : (["node_id", "node_type", "temperature", "humidity", "lux", "battery_voltage", "ble_rssi",
      "wifi_rssi", "free_heap", "uptime_ms"].map fun k => (compactStyle.strText k).length) =
      [9, 11, 13, 10, 5, 17, 10, 11, 11, 11] := by
    decide
  simp only [List.map_cons, List.map_nil, List.cons.injEq, and_true] at hkeys
  have hfields := length_writeFields_le
    (r.fields volt hub (.real (snprintf1f 8 r.temperature)) (.real (snprintf1f 8 r.humidity)))
  rw [SensorReport.doc, compact, Style.write, List.length_cons, List.length_append, List.length_singleton]
  simp only [SensorReport.fields] at hfields ⊢
  split_ifs at hfields ⊢ with hlux
  all_goals
    simp only [List.map_append, List.map_cons, List.map_nil, List.sum_append, List.sum_cons, List.sum_nil,
      compact, Style.write, hkeys, reportJsonBufSize] at hfields ⊢
    simp only [compact] at hbat
    omega

theorem SensorReport.toJson_eq : r.toJson volt hub reportJsonBufSize = (r.doc volt hub).compact :=
  List.take_of_length_le (length_compact_doc_le volt hub)

namespace SensorReport

variable {temperature humidity : Json}

/-- Only the texts of the readings count. -/
theorem compact_fields {x y : Json} (ht : temperature.compact = x.compact)
    (hh : humidity.compact = y.compact) :
    (Json.obj (r.fields volt hub temperature humidity)).compact =
      (Json.obj (r.fields volt hub x y)).compact := by
  simp only [compact] at ht hh ⊢
  simp only [fields]
  split_ifs <;> simp only [List.cons_append, List.nil_append, Style.write, Style.writeFields, ht, hh]

theorem writable_voltage (mv : UInt16) : compactStyle.Writable (volt.voltage mv) := by
  rcases volt.isNumber mv with ⟨n, hn, _⟩ | ⟨text, ht, hreal⟩
  · rw [hn]
    trivial
  · rw [ht]
    exact hreal

theorem keepsAll_of_printable {s : String} (h : printable s.toList = true) : compactStyle.KeepsAll s :=
  fun c hc => keeps_compactStyle (le_toNat_of_printable h c hc)

theorem keepsAll_ofList {cs : List Char} (h : printable cs = true) :
    compactStyle.KeepsAll (String.ofList cs) :=
  keepsAll_of_printable (by rwa [String.toList_ofList])

/-- The members before the two readings, which are followed by others. -/
def head (r : SensorReport) : List (String × Json) :=
  [("node_id", .str (String.ofList r.nodeId.chars)),
    ("node_type", .str (String.ofList r.nodeTypeStr.chars))]

theorem writable_head (hid : printable r.nodeId.chars = true)
    (htype : printable r.nodeTypeStr.chars = true) :
    compactStyle.WritableFields r.head :=
  ⟨keepsAll_of_printable (by decide), keepsAll_ofList hid, keepsAll_of_printable (by decide),
    keepsAll_ofList htype, trivial⟩

theorem fields_eq (temperature humidity : Json) : ∃ f fs, r.fields volt hub temperature humidity =
    r.head ++ ("temperature", temperature) :: ("humidity", humidity) :: f :: fs := by
  unfold fields
  split_ifs <;> exact ⟨_, _, rfl⟩

theorem toJson_of_texts (htemp : temperature.compact = snprintf1f 8 r.temperature)
    (hhum : humidity.compact = snprintf1f 8 r.humidity) :
    r.toJson volt hub reportJsonBufSize = (Json.obj (r.fields volt hub temperature humidity)).compact := by
  rw [toJson_eq, doc]
  refine compact_fields volt hub ?_ ?_
  · rw [htemp, compact, Style.write]
  · rw [hhum, compact, Style.write]

theorem loads_toJson (ht : compactStyle.Writable temperature) (hh : compactStyle.Writable humidity)
    (htemp : temperature.compact = snprintf1f 8 r.temperature)
    (hhum : humidity.compact = snprintf1f 8 r.humidity) (hid : printable r.nodeId.chars = true)
    (htype : printable r.nodeTypeStr.chars = true) :
    loads (r.toJson volt hub reportJsonBufSize) = some (.obj (r.fields volt hub temperature humidity)) := by
  rw [toJson_of_texts volt hub htemp hhum]
  refine loads_compact ⟨?_, ?_⟩
  · unfold fields
    split_ifs <;> simp
  · refine writableFields_append (writableFields_append ?_ ?_) ?_
    · exact writableFields_append (writable_head hid htype)
        ⟨keepsAll_of_printable (by decide), ht, keepsAll_of_printable (by decide), hh, trivial⟩
    · split_ifs
      · exact ⟨keepsAll_of_printable (by decide), trivial, trivial⟩
      · trivial
    · exact ⟨keepsAll_of_printable (by decide), writable_voltage volt r.batteryMv,
        keepsAll_of_printable (by decide), trivial, keepsAll_of_printable (by decide), trivial,
        keepsAll_of_printable (by decide), trivial, keepsAll_of_printable (by decide), trivial, trivial⟩

theorem loads_toJson_of_temperature (h : Broken (snprintf1f 8 r.temperature))
    (hid : printable r.nodeId.chars = true) (htype : printable r.nodeTypeStr.chars = true) :
    loads (r.toJson volt hub reportJsonBufSize) = none := by
  obtain ⟨f, fs, hfields⟩ := r.fields_eq volt hub (.real (snprintf1f 8 r.temperature))
    (.real (snprintf1f 8 r.humidity))
  rw [toJson_eq, doc, hfields]
  exact loads_write_broken plain_compactStyle h (keepsAll_of_printable (by decide))
    (writable_head hid htype) _ _

theorem loads_toJson_of_humidity (ht : compactStyle.Writable temperature)
    (htemp : temperature.compact = snprintf1f 8 r.temperature) (h : Broken (snprintf1f 8 r.humidity))
    (hid : printable r.nodeId.chars = true) (htype : printable r.nodeTypeStr.chars = true) :
    loads (r.toJson volt hub reportJsonBufSize) = none := by
  obtain ⟨f, fs, hfields⟩ := r.fields_eq volt hub temperature (.real (snprintf1f 8 r.humidity))
  have hcut : (Json.real (snprintf1f 8 r.humidity)).compact = snprintf1f 8 r.humidity := by
    rw [compact, Style.write]
  have hdone : compactStyle.WritableFields (r.head ++ [("temperature", temperature)]) :=
    writableFields_append (writable_head hid htype) ⟨keepsAll_of_printable (by decide), ht, trivial⟩
  have hnone := loads_write_broken plain_compactStyle h (k := "humidity")
    (keepsAll_of_printable (by decide)) hdone f fs
  rw [toJson_of_texts volt hub htemp hcut, hfields]
  rwa [List.append_assoc, List.singleton_append] at hnone

end SensorReport

end

end Tempio.Hub
