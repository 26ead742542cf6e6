import Tempio.Hub.OneQueue
import Tempio.Hub.ReportJson
import Tempio.Server.Reports

namespace Tempio.EndToEnd

open Tempio.Lib Tempio.Lib.Json Tempio.Protocol Tempio.Hub Tempio.Server

/-- A part of a topic. -/
structure HubId where
  text : List Char
  noSlash : '/' ∉ text

/-- What a notification of a registered node meets at the hub: the slot of the node and its
address, and the state that the report is sent with. -/
structure Surroundings (Addr : Type) where
  inbox : Inbox
  slot : Fin maxNodes
  addr : Addr
  rssi : Int8
  hub : HubStatus
  hubId : HubId
  now : String

/-- The one-decimal value of a reading, if it is a number. -/
def oneDecimal : Printed → Option PyFloat
  | .decimal neg whole tenth => some (.nearest neg (whole + (tenth.val : ℚ) / 10))
  | _ => none

/-- A number of at most seven characters, or of seven before its point and only a zero behind. -/
def Kept : Printed → Prop
  | .decimal neg whole tenth =>
      (tenthsText neg whole tenth).length ≤ 7 ∨ (tenthsText neg whole tenth).length = 9 ∧ tenth.val = 0
  | _ => False

instance decidableKept : ∀ p, Decidable (Kept p)
  | .decimal _ _ _ => inferInstanceAs (Decidable (_ ∨ _))
  | .nan | .inf _ => inferInstanceAs (Decidable False)

section

variable {Addr : Type}

/-- The report that the hub makes of a message. -/
def Surroundings.report (ble : NimBLEAddress Addr) (c : Surroundings Addr) (sd : SensorData) :
    Hub.SensorReport :=
  c.inbox.buildReport (some c.slot) sd (ble.toText c.addr) c.rssi

/-- What the server makes of a notification that the hub forwards. -/
def stored (ble : NimBLEAddress Addr) (volt : VoltageText) (py : Pydantic) (c : Surroundings Addr)
    (data : List UInt8) : Option Server.SensorReport :=
  (SensorData.ofBytes data).bind fun sd =>
    reported py (topicReport c.hubId.text) ((c.report ble sd).toJson volt c.hub reportJsonBufSize) c.now

/-- The server's record says what the notification says. -/
structure Tells (ble : NimBLEAddress Addr) (c : Surroundings Addr) (sd : SensorData)
    (record : Server.SensorReport) : Prop where
  hubId : record.hubId = String.ofList c.hubId.text
  nodeId : record.nodeId = String.ofList (ble.toText c.addr)
  nodeType : record.nodeType = if c.inbox.nodeType c.slot = NodeType.ir.code then "ir" else "sensor"
  bleRssi : record.bleRssi = some c.rssi.toInt
  lux : record.lux = if sd.ldr = 0 then none else some (.ofInt sd.ldr.toNat)
  temperature : record.temperature = oneDecimal (printed sd.temp)
  humidity : record.humidity = oneDecimal (printed sd.humidity)

def Readable (ble : NimBLEAddress Addr) (volt : VoltageText) (py : Pydantic) (c : Surroundings Addr)
    (sd : SensorData) : Prop :=
  ∃ record, stored ble volt py c sd.bytes = some record ∧ Tells ble c sd record

end

section

variable {neg : Bool} {n : Nat} {t : Fin 10}

theorem ofInt_signed (h : 0 < n) : PyFloat.ofInt (signed neg n) = .nearest neg n := by
  cases neg with
  | false =>
      have hneg : ¬ (n : Int) < 0 := by omega
      simp [PyFloat.ofInt, signed, hneg]
  | true => simp [PyFloat.ofInt, signed, h]

theorem natAbs_signed : (signed neg n).natAbs = n := by cases neg <;> simp [signed]

/-- The whole part cut to its first digits is another number, unless nothing but a zero is cut. -/
theorem nearest_leading_iff (h : 9 ≤ (tenthsText neg n t).length) :
    PyFloat.nearest neg (leading n (tenthsText neg n t).length) = .nearest neg (n + (t.val : ℚ) / 10) ↔
      (tenthsText neg n t).length = 9 ∧ t.val = 0 := by
  have hpos := leading_pos h
  have hlt := leading_lt h
  constructor
  · intro heq
    by_contra hne
    refine PyFloat.nearest_ne (Nat.cast_nonneg _) (by exact_mod_cast hlt.le) ?_ heq
    have ht : (0 : ℚ) ≤ (t.val : ℚ) / 10 := by positivity
    by_cases hlen : (tenthsText neg n t).length = 9
    · have htenth : (1 : ℚ) ≤ t.val := by
        have : t.val ≠ 0 := fun h0 => hne ⟨hlen, h0⟩
        exact_mod_cast Nat.one_le_iff_ne_zero.mpr this
      have hwhole : leading n (tenthsText neg n t).length = n := by
        rw [leading, hlen, Nat.sub_self, pow_zero, Nat.div_one]
      rw [hwhole]
      linarith
    · have hpow : 10 ≤ 10 ^ ((tenthsText neg n t).length - 9) :=
        Nat.le_self_pow (by omega) 10
      have hle : leading n (tenthsText neg n t).length * 10 ≤ n :=
        (Nat.mul_le_mul_left _ hpow).trans (Nat.div_mul_le_self n _)
      have hsucc : ((leading n (tenthsText neg n t).length + 1 : Nat) : ℚ) ≤ n := by
        exact_mod_cast (by omega)
      push_cast at hsucc
      linarith
  · rintro ⟨hlen, ht⟩
    rw [leading, hlen, Nat.sub_self, pow_zero, Nat.div_one, ht]
    simp

end

variable (py : Pydantic)

/-- What is left of a printed reading spoils the report, or is read as a number, and as the
right one just when it is kept. -/
theorem reading_cases (p : Printed) :
    ¬ Kept p ∧ Broken (p.text.take 7) ∨
      ∃ j v, compactStyle.Writable j ∧ j.compact = p.text.take 7 ∧ py.optionalFloat j = some (some v) ∧
        (some v = oneDecimal p ↔ Kept p) := by
  cases p with
  | nan => exact .inl ⟨id, broken_nan⟩
  | inf neg =>
      refine .inl ⟨id, ?_⟩
      have := broken_inf neg
      cases neg <;> exact this
  | decimal neg n t =>
      rcases Nat.lt_trichotomy (tenthsText neg n t).length 8 with hlen | hlen | hlen
      · have hle : (tenthsText neg n t).length ≤ 7 := by omega
        refine .inr ⟨.real (tenthsText neg n t), _, realText_tenthsText t, ?_,
          py.optionalFloat_real _, ?_⟩
        · rw [compact, Style.write, Printed.text, List.take_of_length_le hle]
        · rw [PyFloat.ofText_tenthsText]
          exact ⟨fun _ => .inl hle, fun _ => rfl⟩
      · refine .inl ⟨?_, ?_⟩
        · simp [Kept, hlen]
        · rw [Printed.text, take_of_length_eq_eight hlen]
          exact broken_point neg n
      · have hpos := leading_pos hlen
        have hlt := leading_lt hlen
        refine .inr ⟨.int (signed neg (leading n (tenthsText neg n t).length)), _, trivial, ?_,
          py.optionalFloat_int _ ?_, ?_⟩
        · rw [compact, Style.write, Printed.text, take_of_nine_le_length hlen]
        · rw [natAbs_signed]
          exact hlt.trans (by decide)
        · rw [ofInt_signed hpos, oneDecimal, Option.some.injEq, nearest_leading_iff hlen]
          simp only [Kept]
          omega

section

variable (py : Pydantic) (volt : VoltageText) (r : Hub.SensorReport) (hub : HubStatus)
  {temperature humidity : Json}

theorem getD_lux : getD (r.fields volt hub temperature humidity) "lux" .null =
    if r.ldr = 0 then .null else .int r.ldr.toNat := by
  by_cases h : r.ldr = 0 <;> simp [getD, Hub.SensorReport.fields, h, UInt16.pos_iff_ne_zero]

theorem optionalFloat_lux :
    py.optionalFloat (getD (r.fields volt hub temperature humidity) "lux" .null) =
      some (if r.ldr = 0 then none else some (.ofInt r.ldr.toNat)) := by
  rw [getD_lux]
  split_ifs
  · exact py.optionalFloat_null
  · exact py.optionalFloat_int _ (r.ldr.toNat_lt.trans (by decide))

theorem optionalFloat_voltage (mv : UInt16) : ∃ v, py.optionalFloat (volt.voltage mv) = some v := by
  rcases volt.isNumber mv with ⟨n, hn, hle⟩ | ⟨text, ht, _⟩
  · exact ⟨_, by rw [hn, py.optionalFloat_int n (by omega)]⟩
  · exact ⟨_, by rw [ht, py.optionalFloat_real]⟩

theorem fromMqttPayload_fields (hubId : List Char) (now : String) {vt vh : Option PyFloat}
    (ht : py.optionalFloat temperature = some vt) (hh : py.optionalFloat humidity = some vh) :
    ∃ v, fromMqttPayload py hubId (r.fields volt hub temperature humidity) now =
      some ⟨String.ofList hubId, String.ofList r.nodeId.chars, String.ofList r.nodeTypeStr.chars, vt, vh,
        if r.ldr = 0 then none else some (.ofInt r.ldr.toNat), v, some r.bleRssi.toInt,
        some hub.wifiRssi.toInt, some hub.freeHeap.toNat, some hub.uptimeMs.toNat, some now⟩ := by
  obtain ⟨v, hv⟩ := optionalFloat_voltage py volt r.batteryMv
  have hrssi := py.optionalInt_int r.bleRssi.toInt
    (by have := r.bleRssi.toInt_lt; have := r.bleRssi.le_toInt; omega)
  have hwifi := py.optionalInt_int hub.wifiRssi.toInt
    (by have := hub.wifiRssi.toInt_lt; have := hub.wifiRssi.le_toInt; omega)
  have hheap := py.optionalInt_int hub.freeHeap.toNat (hub.freeHeap.toNat_lt.trans (by decide))
  have hup := py.optionalInt_int hub.uptimeMs.toNat (hub.uptimeMs.toNat_lt.trans (by decide))
  refine ⟨v, ?_⟩
  unfold fromMqttPayload
  rw [optionalFloat_lux]
  unfold Hub.SensorReport.fields
  split_ifs <;> simp [getD, py.str_str, ht, hh, hv, hrssi, hwifi, hheap, hup]

/-- The report has no `type`, by which the other messages are told. -/
theorem reported_fields {hubId : HubId} {payload : List Char} {now : String}
    (h : loads payload = some (.obj (r.fields volt hub temperature humidity))) :
    reported py (topicReport hubId.text) payload now =
      fromMqttPayload py hubId.text (r.fields volt hub temperature humidity) now := by
  have htype : getD (r.fields volt hub temperature humidity) "type" .null = .null := by
    unfold Hub.SensorReport.fields
    split_ifs <;> simp [getD]
  rw [reported, handleMessage, splitOn_topicReport hubId.noSlash]
  simp [h, htype, isStr]

theorem reported_of_loads_eq_none {hubId : HubId} {payload : List Char} {now : String}
    (h : loads payload = none) : reported py (topicReport hubId.text) payload now = none := by
  rw [reported, handleMessage, splitOn_topicReport hubId.noSlash]
  simp [h]

end

section

variable {Addr : Type} {ble : NimBLEAddress Addr} {volt : VoltageText} {py : Pydantic}
  {c : Surroundings Addr} {sd : SensorData}

/-- A message of thirteen bytes is made into one report. -/
theorem dispatch_bytes : c.inbox.dispatch (some c.slot) (ble.toText c.addr) c.rssi sd.bytes =
    c.inbox.enqueueReport (c.report ble sd) := by
  have hread := SensorData.ofBytes_bytes sd
  rw [SensorData.bytes] at hread ⊢
  rw [Inbox.dispatch, if_neg (by decide), if_pos rfl, Inbox.handleSensorData, hread]
  rfl

theorem stored_bytes : stored ble volt py c sd.bytes =
    reported py (topicReport c.hubId.text) ((c.report ble sd).toJson volt c.hub reportJsonBufSize)
      c.now := by
  rw [stored, SensorData.ofBytes_bytes, Option.bind_some]

theorem nodeId_report : (c.report ble sd).nodeId.chars = ble.toText c.addr :=
  NimBLEAddress.chars_key c.addr

theorem nodeTypeStr_report : (c.report ble sd).nodeTypeStr.chars =
    (if c.inbox.nodeType c.slot = NodeType.ir.code then "ir" else "sensor").toList := by
  have hir : (strlcpy 8 "ir".toList).chars = "ir".toList := by decide
  have hsensor : (strlcpy 8 "sensor".toList).chars = "sensor".toList := by decide
  simp only [Surroundings.report, Inbox.buildReport, Option.any_some, decide_eq_true_eq]
  split_ifs
  · exact hir
  · exact hsensor

theorem printable_report : printable (c.report ble sd).nodeId.chars = true ∧
    printable (c.report ble sd).nodeTypeStr.chars = true := by
  rw [nodeId_report, nodeTypeStr_report]
  refine ⟨List.all_eq_true.mpr fun x hx => decide_eq_true (ble.le_toNat c.addr x hx), ?_⟩
  split_ifs <;> decide

/-- When both readings are read as numbers, the record says the rest of the message. -/
theorem readable_of_numbers {t h : Json} {v w : PyFloat} (ht : compactStyle.Writable t)
    (hh : compactStyle.Writable h) (htemp : t.compact = snprintf1f 8 sd.temp)
    (hhum : h.compact = snprintf1f 8 sd.humidity) (hv : py.optionalFloat t = some (some v))
    (hw : py.optionalFloat h = some (some w)) :
    Readable ble volt py c sd ↔
      some v = oneDecimal (printed sd.temp) ∧ some w = oneDecimal (printed sd.humidity) := by
  have hload := (c.report ble sd).loads_toJson volt c.hub ht hh htemp hhum
    printable_report.1 printable_report.2
  obtain ⟨b, hrecord⟩ := fromMqttPayload_fields py volt (c.report ble sd) c.hub c.hubId.text c.now hv hw
  rw [Readable, stored_bytes, reported_fields py volt _ c.hub hload, hrecord]
  constructor
  · rintro ⟨_, ⟨⟩, htells⟩
    exact ⟨htells.temperature, htells.humidity⟩
  · rintro ⟨hvt, hwt⟩
    refine ⟨_, rfl, ⟨rfl, ?_, ?_, rfl, rfl, hvt, hwt⟩⟩
    · rw [nodeId_report]
    · rw [nodeTypeStr_report, String.ofList_toList]

/-- The server gets a reading as it was sent exactly when the hub's buffer keeps both numbers. -/
theorem readable_iff_kept (ble : NimBLEAddress Addr) (volt : VoltageText) (py : Pydantic)
    (c : Surroundings Addr) (sd : SensorData) :
    Readable ble volt py c sd ↔ Kept (printed sd.temp) ∧ Kept (printed sd.humidity) := by
  have hlost (h : loads ((c.report ble sd).toJson volt c.hub reportJsonBufSize) = none) :
      ¬ Readable ble volt py c sd := by
    rintro ⟨record, hrecord, _⟩
    rw [stored_bytes, reported_of_loads_eq_none py h] at hrecord
    cases hrecord
  rcases reading_cases py (printed sd.temp) with ⟨hkept, hbroken⟩ | ⟨t, v, ht, htemp, hv, hvt⟩
  · have hnone := (c.report ble sd).loads_toJson_of_temperature volt c.hub hbroken
      printable_report.1 printable_report.2
    exact iff_of_false (hlost hnone) fun h => hkept h.1
  · rcases reading_cases py (printed sd.humidity) with ⟨hkept, hbroken⟩ | ⟨h, w, hh, hhum, hw, hwt⟩
    · have hnone := (c.report ble sd).loads_toJson_of_humidity volt c.hub ht htemp hbroken
        printable_report.1 printable_report.2
      exact iff_of_false (hlost hnone) fun h => hkept h.2
    · rw [readable_of_numbers ht hh htemp hhum hv hw, hvt, hwt]

end

theorem natAbs_volts_le (mv : UInt16) : (↑(mv.toNat / 1000) : Int).natAbs ≤ 65 := by
  have := mv.toNat_lt
  omega

theorem length_volts_le (mv : UInt16) : (Json.int ↑(mv.toNat / 1000)).compact.length ≤ 24 := by
  have hle := natAbs_volts_le mv
  rw [compact, Style.write]
  exact (length_intText_le (k := 2) (by decide) (by omega)).trans (by decide)

/-- The library on a number of whole volts. -/
def wholeVolts : VoltageText where
  voltage mv := .int ↑(mv.toNat / 1000)
  isNumber mv := .inl ⟨_, rfl, natAbs_volts_le mv⟩
  short := length_volts_le

/-- The library on what is no string of digits. -/
def fieldsOfNumbers : Pydantic where
  str
    | .str s => some s
    | _ => none
  optionalFloat
    | .null => some none
    | .bool b => some (some (.ofInt b.toNat))
    | .int n => some (some (.ofInt n))
    | .real text => some (some (.ofText text))
    | _ => none
  optionalInt
    | .null => some none
    | .bool b => some (some b.toNat)
    | .int n => some (some n)
    | _ => none
  str_str _ := rfl
  str_null := rfl
  optionalFloat_null := rfl
  optionalFloat_int _ _ := rfl
  optionalFloat_real _ := rfl
  optionalInt_null := rfl
  optionalInt_int _ _ := rfl

def livingRoom : Surroundings Mac where
  inbox := Inbox.init
  slot := firstSlot
  addr := (0xaa, 0xbb, 0xcc, 0xdd, 0xee, 0x01)
  rssi := -60
  hub := ⟨-55, 150000, 3600000⟩
  hubId := ⟨"24a1605b3c10".toList, by decide⟩
  now := "2025-01-01T00:00:00"

/-- The temperature is not a number, and the humidity 45. -/
def failedRead : SensorData := ⟨0x7fc00000, 0x42340000, 500, 3000⟩

theorem failedRead_not_readable :
    ¬ Readable publicAddress wholeVolts fieldsOfNumbers livingRoom failedRead := by
  rintro ⟨record, hrecord, _⟩
  have hlost :
      (stored publicAddress wholeVolts fieldsOfNumbers livingRoom failedRead.bytes).isSome = false := by
    decide +kernel
  rw [hrecord] at hlost
  cases hlost

end Tempio.EndToEnd
