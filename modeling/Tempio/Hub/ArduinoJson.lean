import Tempio.Lib.JsonRead
import Mathlib.Data.UInt

namespace Tempio.Hub

open Tempio.Lib

/-- What `deserializeJson` returns and leaves in the document. -/
structure Parsed where
  err : Bool
  doc : Json

/-- The JSON library of the firmware, which is not part of the repository, and the memory that it may come
to read: `unset` is the `queued_at` of a command before its first push, `behind` are the bytes that follow
a command. -/
structure ArduinoJson where
  deserializeJson : List Char → Parsed
  asUInt16 : Json → UInt16
  unset : UInt32
  behind : List UInt8

/-- A byte of a `char` array. Every `Char` of the hub is one. -/
def byteChar (b : UInt8) : Char := Char.ofNat b.toNat

/-- The bytes of a text, as the hub receives and keeps it. -/
def utf8 (text : List Char) : List Char := text.flatMap fun c => (String.utf8EncodeChar c).map byteChar

theorem utf8_of_ascii {text : List Char} (h : ∀ c ∈ text, c.toNat < 128) : utf8 text = text := by
  induction text with
  | nil => rfl
  | cons c cs ih =>
      obtain ⟨hc, hcs⟩ := List.forall_mem_cons.mp h
      have hlow : c.val.toNat ≤ 127 := Nat.le_of_lt_succ hc
      have hone : String.utf8EncodeChar c = [UInt8.ofNat c.toNat] := if_pos hlow
      have hbyte : byteChar (UInt8.ofNat c.toNat) = c := by
        rw [byteChar, UInt8.toNat_ofNat_of_lt' (Nat.lt_trans hc (by decide)), Char.ofNat_toNat]
      rw [utf8, List.flatMap_cons, hone, List.map_cons, List.map_nil, hbyte]
      exact congrArg (c :: ·) (ih hcs)

/-- Text that begins with the document is read as the document: the library stops behind the last
brace. -/
def ArduinoJson.Reads (json : ArduinoJson) (doc : Json) : Prop :=
  ∀ rest, json.deserializeJson (utf8 doc.compact ++ rest) = ⟨false, doc⟩

/-- The library on the texts of the given documents; every other text is an error. -/
def ArduinoJson.ofDocuments (docs : List Json) : ArduinoJson where
  deserializeJson text :=
    match docs.find? fun doc => (utf8 doc.compact).isPrefixOf text with
    | some doc => ⟨false, doc⟩
    | none => ⟨true, .null⟩
  asUInt16 v :=
    match v with
    | .int n => if 0 ≤ n ∧ n < 2 ^ 16 then UInt16.ofInt n else 0
    | _ => 0
  unset := 0
  behind := []

theorem ArduinoJson.deserializeJson_ofDocuments {docs : List Json} {text : List Char} {doc : Json}
    (h : (docs.find? fun doc => (utf8 doc.compact).isPrefixOf text) = some doc) :
    (ofDocuments docs).deserializeJson text = ⟨false, doc⟩ := by
  simp only [ofDocuments, h]

/-- The library as a reader of every JSON text. -/
def ArduinoJson.ofLoads : ArduinoJson where
  deserializeJson text :=
    match Json.loads text with
    | some doc => ⟨false, doc⟩
    | none => ⟨true, .null⟩
  asUInt16 := (ofDocuments []).asUInt16
  unset := 0
  behind := []

/-- `v | d` with an `int` default. -/
def orInt (v : Json) (d : Int) : Int :=
  match v with
  | .int n => if -2 ^ 31 ≤ n ∧ n < 2 ^ 31 then n else d
  | _ => d

/-- `v | d` with a string default: the bytes of the string. -/
def orStr (v : Json) (d : String) : List Char :=
  match v with
  | .str s => utf8 s.toList
  | _ => utf8 d.toList

/-- `v.as<JsonArray>()`; `none` is the null array. -/
def asArray (v : Json) : Option (List Json) :=
  match v with
  | .arr items => some items
  | _ => none

def isObject (v : Json) : Bool :=
  match v with
  | .obj _ => true
  | _ => false

/-- `serializeJson` into a buffer: the compact text, cut to the buffer's size. The strings of a document
that the hub has made are bytes already. -/
def serializeJson (v : Json) (size : Nat) : List Char := v.compact.take size

/-- `serializeJson` of a part of a document that was read, whose strings are texts. -/
def serializeRead (v : Json) (size : Nat) : List Char := (utf8 v.compact).take size

/-- The text begins with a document whose `timings` are these values, as many of them as a `uint16_t`
can count. -/
def ArduinoJson.Spells (json : ArduinoJson) (text : List Char) (timings : List UInt16) : Prop :=
  ∃ doc items, json.deserializeJson text = ⟨false, doc⟩ ∧ asArray (doc.get "timings") = some items ∧
    items ≠ [] ∧ (items.take (items.length % 2 ^ 16)).map json.asUInt16 = timings

theorem ArduinoJson.Spells.unique {json : ArduinoJson} {text : List Char} {l m : List UInt16}
    (hl : json.Spells text l) (hm : json.Spells text m) : l = m := by
  obtain ⟨doc, items, hdoc, hitems, _, rfl⟩ := hl
  obtain ⟨doc', items', hdoc', hitems', _, rfl⟩ := hm
  obtain rfl : doc = doc' := (Parsed.mk.inj (hdoc.symm.trans hdoc')).2
  obtain rfl : items = items' := Option.some.inj (hitems.symm.trans hitems')
  rfl

end Tempio.Hub
