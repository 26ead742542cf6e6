import Mathlib.Data.List.TakeWhile
import Mathlib.Tactic.Common
import Tempio.Lib.Json

namespace Tempio.Lib.Json

def isBlank (c : Char) : Bool := c = ' ' ∨ c = '\t' ∨ c = '\n' ∨ c = '\r'

def skipBlanks (cs : List Char) : List Char := cs.dropWhile isBlank

def hexValue (c : Char) : Option Nat :=
  if c.isDigit then some (c.toNat - 48)
  else if 97 ≤ c.toNat ∧ c.toNat ≤ 102 then some (c.toNat - 87)
  else if 65 ≤ c.toNat ∧ c.toNat ≤ 70 then some (c.toNat - 55)
  else none

def readHex : List Char → Option (Nat × List Char)
  | a :: b :: c :: d :: cs =>
      match hexValue a, hexValue b, hexValue c, hexValue d with
      | some a, some b, some c, some d => some (a * 4096 + b * 256 + c * 16 + d, cs)
      | _, _, _, _ => none
  | _ => none

/-- Stands for half of a surrogate pair, for which there is no `Char`. -/
def loneSurrogate : Char := Char.ofNat 0xfffd

/-- The part of an escape behind its backslash and `u`. Half of a surrogate pair
alone is read all the same. -/
def readUnicode (cs : List Char) : Option (Char × List Char) :=
  match readHex cs with
  | none => none
  | some (n, rest) =>
      if 0xd800 ≤ n ∧ n < 0xdc00 then
        match rest with
        | '\\' :: 'u' :: next =>
            match readHex next with
            | none => none
            | some (m, next) =>
                if 0xdc00 ≤ m ∧ m < 0xe000 then
                  some (Char.ofNat (0x10000 + (n - 0xd800) * 1024 + (m - 0xdc00)), next)
                else some (loneSurrogate, rest)
        | _ => some (loneSurrogate, rest)
      else if 0xdc00 ≤ n ∧ n < 0xe000 then some (loneSurrogate, rest)
      else some (Char.ofNat n, rest)

def readEscape : List Char → Option (Char × List Char)
  | [] => none
  | c :: cs =>
      if c = 'u' then readUnicode cs
      else if c = quoteMark ∨ c = '\\' ∨ c = '/' then some (c, cs)
      else if c = 'b' then some (Char.ofNat 8, cs)
      else if c = 't' then some (Char.ofNat 9, cs)
      else if c = 'n' then some (Char.ofNat 10, cs)
      else if c = 'f' then some (Char.ofNat 12, cs)
      else if c = 'r' then some (Char.ofNat 13, cs)
      else none

/-- One character of a string. A control character has to be escaped. -/
def readChar : List Char → Option (Char × List Char)
  | [] => none
  | c :: cs =>
      if c = '\\' then readEscape cs
      else if c.toNat < 32 then none
      else some (c, cs)

/-- The rest of a string behind its opening mark. -/
def readChars : Nat → List Char → Option (List Char × List Char)
  | n + 1, c :: cs =>
      if c = quoteMark then some ([], cs)
      else (readChar (c :: cs)).bind fun p => (readChars n p.2).map fun q => (p.1 :: q.1, q.2)
  | _, _ => none

def fracText : List Char → List Char
  | '.' :: cs => if cs.takeWhile Char.isDigit = [] then [] else '.' :: cs.takeWhile Char.isDigit
  | _ => []

def signText : List Char → List Char
  | '+' :: _ => ['+']
  | '-' :: _ => ['-']
  | _ => []

def expText : List Char → List Char
  | [] => []
  | e :: cs =>
      let digits := (cs.drop (signText cs).length).takeWhile Char.isDigit
      if (e = 'e' ∨ e = 'E') ∧ digits ≠ [] then e :: (signText cs ++ digits) else []

def minusText : List Char → List Char
  | '-' :: _ => ['-']
  | _ => []

def wholeText : List Char → List Char
  | '0' :: _ => ['0']
  | cs => cs.takeWhile Char.isDigit

def readNumber (cs : List Char) : Option (Json × List Char) :=
  let minus := minusText cs
  let cs := cs.drop minus.length
  let whole := wholeText cs
  let cs := cs.drop whole.length
  let frac := fracText cs
  let cs := cs.drop frac.length
  let exp := expText cs
  let cs := cs.drop exp.length
  if whole = [] then none
  else if frac = [] ∧ exp = [] then
    let value : Int := Nat.ofDigitChars 10 whole 0
    some (.int (if minus = [] then value else -value), cs)
  else some (.real (minus ++ whole ++ frac ++ exp), cs)

def literals : List (String × Json) :=
  [("null", .null), ("true", .bool true), ("false", .bool false), ("NaN", .real "NaN".toList),
    ("Infinity", .real "Infinity".toList), ("-Infinity", .real "-Infinity".toList)]

def readScalar (cs : List Char) : Option (Json × List Char) :=
  match literals.find? fun l => l.1.toList.isPrefixOf cs with
  | some l => some (l.2, cs.drop l.1.toList.length)
  | none => readNumber cs

/-- A member replaces an earlier one of the same name, in its place. -/
def insertField (fields : List (String × Json)) (k : String) (x : Json) : List (String × Json) :=
  if k ∈ fields.map Prod.fst then fields.map fun f => if f.1 = k then (k, x) else f
  else fields ++ [(k, x)]

def dict (pairs : List (String × Json)) : List (String × Json) :=
  pairs.foldl (fun fields p => insertField fields p.1 p.2) []

mutual

def readValue : Nat → List Char → Option (Json × List Char)
  | n + 1, c :: cs =>
      if c = quoteMark then
        (readChars (cs.length + 1) cs).map fun p => (.str (String.ofList p.1), p.2)
      else if c = '[' then
        match skipBlanks cs with
        | ']' :: rest => some (.arr [], rest)
        | rest => (readItems n rest).map fun p => (.arr p.1, p.2)
      else if c = '{' then
        match skipBlanks cs with
        | '}' :: rest => some (.obj [], rest)
        | rest => (readFields n rest).map fun p => (.obj (dict p.1), p.2)
      else readScalar (c :: cs)
  | _, _ => none

def readItems : Nat → List Char → Option (List Json × List Char)
  | 0, _ => none
  | n + 1, cs =>
      match readValue n cs with
      | none => none
      | some (x, rest) =>
          match skipBlanks rest with
          | ']' :: rest => some ([x], rest)
          | ',' :: rest => (readItems n (skipBlanks rest)).map fun p => (x :: p.1, p.2)
          | _ => none

def readFields : Nat → List Char → Option (List (String × Json) × List Char)
  | n + 1, c :: cs =>
      if c = quoteMark then
        match readChars (cs.length + 1) cs with
        | none => none
        | some (k, rest) =>
            match skipBlanks rest with
            | ':' :: rest =>
                match readValue n (skipBlanks rest) with
                | none => none
                | some (x, rest) =>
                    match skipBlanks rest with
                    | '}' :: rest => some ([(String.ofList k, x)], rest)
                    | ',' :: rest =>
                        (readFields n (skipBlanks rest)).map fun p => ((String.ofList k, x) :: p.1, p.2)
                    | _ => none
            | _ => none
      else none
  | _, _ => none

end

/-- Python's `json.loads`; `none` is a `JSONDecodeError`. -/
def loads (text : List Char) : Option Json :=
  match readValue (text.length + 1) (skipBlanks text) with
  | some (j, rest) => if skipBlanks rest = [] then some j else none
  | none => none

end Tempio.Lib.Json
