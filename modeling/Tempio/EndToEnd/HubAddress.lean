import Tempio.Hub.HubId
import Tempio.Server.Subscriber

namespace Tempio.EndToEnd

open Tempio.Lib.Topic Tempio.Hub Tempio.Server

def mqttTopicReportPattern : List Char := "tempio/+/report".toList

/-- `MQTT_TOPIC_COMMANDS_TEMPLATE.format(hub_id=...)` -/
def mqttTopicCommands (hubId : String) : List Char :=
  "tempio".toList ++ '/' :: (hubId.toList ++ '/' :: "commands".toList)

/-- The id that the server knows a hub by. -/
def knownAs (mac : Mac) : String := String.ofList (Mqtt.hubId mac).chars

/-- How two hubs and the server find each other. -/
structure Addressed (mac mac' : Mac) : Prop where
  heard : receives mqttTopicReportPattern (Mqtt.topicReport mac).chars = true
  named : ∀ payload now ok, Message.hubId ⟨(Mqtt.topicReport mac).chars, payload, now, ok⟩ = some (knownAs mac)
  answered : receives (Mqtt.topicCommands mac').chars (mqttTopicCommands (knownAs mac)) = true ↔ mac = mac'
  unshared : ∀ hubId, receives (Mqtt.topicCommands mac).chars (mqttTopicCommands hubId) = true →
    receives (Mqtt.topicCommands mac').chars (mqttTopicCommands hubId) = true → mac = mac'
  told : Mqtt.clientId mac = Mqtt.clientId mac' ↔ mac = mac'

section

variable {mac mac' : Mac}

theorem toList_knownAs (mac : Mac) : (knownAs mac).toList = Mqtt.macDigits mac := by
  rw [knownAs, String.toList_ofList, Mqtt.chars_hubId]

theorem chars_topicReport_eq (mac : Mac) :
    (Mqtt.topicReport mac).chars = Server.topicReport (Mqtt.macDigits mac) :=
  Mqtt.chars_topicReport mac

theorem chars_topicCommands_eq (mac : Mac) : (Mqtt.topicCommands mac).chars =
    "tempio".toList ++ '/' :: (Mqtt.macDigits mac ++ '/' :: "commands".toList) :=
  Mqtt.chars_topicCommands mac

theorem levels_topicCommands (mac : Mac) : levels (Mqtt.topicCommands mac).chars =
    ["tempio".toList, Mqtt.macDigits mac, "commands".toList] := by
  have hslash : '/' ∉ Mqtt.macDigits mac := Mqtt.not_mem_macDigits (List.mem_cons_self) mac
  rw [chars_topicCommands_eq, levels, splitOn_three (by decide) hslash (by decide)]

theorem plain_topicCommands (mac : Mac) : Plain (Mqtt.topicCommands mac).chars := by
  intro f hf
  rw [levels_topicCommands] at hf
  have hplus := Mqtt.not_mem_macDigits (c := '+') (by simp) mac
  have hhash := Mqtt.not_mem_macDigits (c := '#') (by simp) mac
  simp only [List.mem_cons, List.not_mem_nil, or_false] at hf
  rcases hf with rfl | rfl | rfl
  · decide
  · exact ⟨fun h => hplus (h ▸ List.mem_cons_self), fun h => hhash (h ▸ List.mem_cons_self)⟩
  · decide

/-- A hub gets the commands that are sent to its id, whatever the id is. -/
theorem receives_topicCommands_iff (mac : Mac) (hubId : String) :
    receives (Mqtt.topicCommands mac).chars (mqttTopicCommands hubId) = true ↔ hubId = knownAs mac := by
  have htopic : mqttTopicCommands hubId =
      "tempio".toList ++ '/' :: (hubId.toList ++ '/' :: "commands".toList) := rfl
  rw [receives_iff_of_plain (plain_topicCommands mac), chars_topicCommands_eq, htopic,
    List.append_right_inj, List.cons_inj_right, List.append_left_inj, ← toList_knownAs, String.toList_inj,
    eq_comm]

theorem knownAs_inj : knownAs mac = knownAs mac' ↔ mac = mac' := by
  rw [← String.toList_inj, toList_knownAs, toList_knownAs, Mqtt.macDigits_inj]

/-- The subscription brings the messages that the loop does not skip for their topic, if the other
two levels are the expected ones, and no others. -/
theorem receives_mqttTopicReportPattern_iff (topic : List Char) :
    receives mqttTopicReportPattern topic = true ↔
      ∃ hubId, '/' ∉ hubId ∧ topic = Server.topicReport hubId := by
  have hpattern : levels mqttTopicReportPattern = ["tempio".toList, ['+'], "report".toList] := by decide
  have hmatch : receives mqttTopicReportPattern topic = true ↔
      ∃ hubId, levels topic = ["tempio".toList, hubId, "report".toList] := by
    have hhead : mqttTopicReportPattern.head? = some 't' := by decide
    rw [receives, hpattern, hhead, Bool.and_eq_true, matchLevels_between (by decide) (by decide)]
    simp
  rw [hmatch]
  constructor
  · rintro ⟨hubId, h⟩
    have hlevel : hubId ∈ levels topic := by simp [h]
    have hslash : '/' ∉ hubId := slash_not_mem_of_mem_levels hlevel
    refine ⟨hubId, hslash, levels_inj.mp ?_⟩
    rw [h, levels, splitOn_topicReport hslash]
  · rintro ⟨hubId, hslash, rfl⟩
    exact ⟨hubId, splitOn_topicReport hslash⟩

end

/-- Every hub is heard under an id of its own, and a command sent to that id reaches it alone. -/
theorem hubs_addressed (mac mac' : Mac) : Addressed mac mac' where
  heard := by
    rw [receives_mqttTopicReportPattern_iff, chars_topicReport_eq]
    exact ⟨_, Mqtt.not_mem_macDigits (by simp) mac, rfl⟩
  named payload now ok := by
    have hslash := Mqtt.not_mem_macDigits (c := '/') (by simp) mac
    simp only [Message.hubId, chars_topicReport_eq, splitOn_topicReport hslash, knownAs, Mqtt.chars_hubId]
  answered := by rw [receives_topicCommands_iff, knownAs_inj]
  unshared hubId h h' := by
    rw [receives_topicCommands_iff] at h h'
    exact knownAs_inj.mp (h.symm.trans h')
  told := by
    rw [CStr.ext_iff, Mqtt.chars_clientId, Mqtt.chars_clientId, List.append_right_inj, Mqtt.macDigits_inj]

end Tempio.EndToEnd
