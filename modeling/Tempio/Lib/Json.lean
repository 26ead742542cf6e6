import Mathlib.Data.List.Basic

namespace Tempio.Lib

/-- A JSON document. A number that is not an integer is kept as its text. -/
inductive Json
  | null
  | bool (b : Bool)
  | int (n : Int)
  | real (text : List Char)
  | str (s : String)
  | arr (items : List Json)
  | obj (fields : List (String × Json))

namespace Json

def get : Json → String → Json
  | .obj fields, key => ((fields.find? fun f => f.1 = key).map Prod.snd).getD .null
  | _, _ => .null

def intText : Int → List Char
  | .ofNat n => Nat.toDigits 10 n
  | .negSucc n => '-' :: Nat.toDigits 10 (n + 1)

def quoteMark : Char := Char.ofNat 34

def shortEscape (c : Char) : Option Char :=
  if c = quoteMark then some quoteMark
  else if c = '\\' then some '\\'
  else if c.toNat = 8 then some 'b'
  else if c.toNat = 9 then some 't'
  else if c.toNat = 10 then some 'n'
  else if c.toNat = 12 then some 'f'
  else if c.toNat = 13 then some 'r'
  else none

def hexText (n : Nat) : List Char :=
  '\\' :: 'u' :: [n / 4096 % 16, n / 256 % 16, n / 16 % 16, n % 16].map Nat.digitChar

/-- Of the other characters only the terminator is escaped. -/
def escape (c : Char) : List Char :=
  match shortEscape c with
  | some d => ['\\', d]
  | none => if c.toNat = 0 then hexText 0 else [c]

/-- Every character outside printable ASCII as one escape, or two beyond the
16-bit range. -/
def escapeAscii (c : Char) : List Char :=
  match shortEscape c with
  | some d => ['\\', d]
  | none =>
      if 32 ≤ c.toNat ∧ c.toNat < 127 then [c]
      else if c.toNat < 0x10000 then hexText c.toNat
      else hexText (0xd800 + (c.toNat - 0x10000) / 1024) ++ hexText (0xdc00 + c.toNat % 1024)

/-- How a writer separates members and writes the characters of a string. -/
structure Style where
  comma : List Char
  colon : List Char
  escape : Char → List Char

namespace Style

variable (st : Style)

def strText (s : String) : List Char := quoteMark :: (s.toList.flatMap st.escape ++ [quoteMark])

mutual

def write : Json → List Char
  | .null => "null".toList
  | .bool true => "true".toList
  | .bool false => "false".toList
  | .int n => intText n
  | .real text => text
  | .str s => st.strText s
  | .arr items => '[' :: (writeItems items ++ [']'])
  | .obj fields => '{' :: (writeFields fields ++ ['}'])

def writeItems : List Json → List Char
  | [] => []
  | [x] => write x
  | x :: y :: xs => write x ++ (st.comma ++ writeItems (y :: xs))

def writeFields : List (String × Json) → List Char
  | [] => []
  | [(k, x)] => st.strText k ++ (st.colon ++ write x)
  | (k, x) :: f :: fs => st.strText k ++ (st.colon ++ (write x ++ (st.comma ++ writeFields (f :: fs))))

end

end Style

def compactStyle : Style := ⟨[','], [':'], escape⟩

def spacedStyle : Style := ⟨[',', ' '], [':', ' '], escapeAscii⟩

def compact (j : Json) : List Char := compactStyle.write j

/-- Python's `json.dumps`. -/
def dumps (j : Json) : List Char := spacedStyle.write j

@[simp]
theorem get_cons_self (key : String) (x : Json) (fields : List (String × Json)) :
    (obj ((key, x) :: fields)).get key = x := by
  simp [get]

theorem get_cons_of_ne {k key : String} (h : k ≠ key) (x : Json) (fields : List (String × Json)) :
    (obj ((k, x) :: fields)).get key = (obj fields).get key := by
  simp [get, h]

theorem length_intText_pos (n : Int) : 0 < (intText n).length := by
  cases n with
  | ofNat n => exact Nat.length_toDigits_pos
  | negSucc n => exact Nat.succ_pos _

theorem le_length_writeItems_int (ns : List Int) :
    2 * ns.length ≤ (compactStyle.writeItems (ns.map .int)).length + 1 := by
  induction ns with
  | nil => simp
  | cons n ns ih =>
      have hn := length_intText_pos n
      cases ns with
      | nil =>
          simp only [List.map_cons, List.map_nil, Style.writeItems, Style.write, List.length_cons,
            List.length_nil]
          omega
      | cons m ms =>
          simp only [List.map_cons, Style.writeItems, Style.write, compactStyle, List.length_append,
            List.length_cons, List.length_nil] at ih ⊢
          omega

end Json

end Tempio.Lib
