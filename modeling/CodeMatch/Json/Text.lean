import CodeMatch.Bytes
import CodeMatch.Json.Basic
import CodeMatch.Text

/-!
# The text of documents

A text is read as one value with white space around it: no comments, no trailing commas, no leading zeros, no
raw control characters in strings, and an escaped surrogate only as half of a pair.  The numbers `NaN`,
`Infinity` and `-Infinity` are read, too.  Of two members with one key the later one is kept, at the place of
the first.  Each reader takes what it needs from the front of the text and hands back the rest.

Texts are written in ASCII, on one line (`compact`) or with a line for each item and member (`pretty`).
-/

namespace CodeMatch.Json

/-! ## reading -/

/-- how deep values may nest and how long integers may be -/
structure Limits where
  depth : Nat
  digits : Nat

def Limits.standard : Limits := ⟨200, Text.longestNumeral⟩

/-- the four characters of white space between tokens -/
def isGap (c : Char) : Bool := c = ' ' || c = '\t' || c = '\n' || c = '\r'

def skipGap (s : List Char) : List Char := s.dropWhile isGap

def hex4? (a b c d : Char) : Option Nat :=
  match Hex.digit? a, Hex.digit? b, Hex.digit? c, Hex.digit? d with
  | some a, some b, some c, some d => some (((a * 16 + b) * 16 + c) * 16 + d)
  | _, _, _, _ => none

/-- the character that an escape letter stands for -/
def escape? (c : Char) : Option Char :=
  if c = '"' || c = '\\' || c = '/' then some c
  else if c = 'b' then some '\x08'
  else if c = 'f' then some '\x0c'
  else if c = 'n' then some '\n'
  else if c = 'r' then some '\r'
  else if c = 't' then some '\t'
  else none

def pairChar? (high low : Nat) : Option Char :=
  if 0xD800 ≤ high && high < 0xDC00 && 0xDC00 ≤ low && low < 0xE000 then
    some (Char.ofNat (0x10000 + (high - 0xD800) * 0x400 + (low - 0xDC00)))
  else none

def string : List Char → Option (List Char × List Char)
  | [] => none
  | '"' :: s => some ([], s)
  | '\\' :: 'u' :: a :: b :: c :: d :: s =>
    match hex4? a b c d with
    | none => none
    | some n =>
      if 0xD800 ≤ n && n < 0xE000 then
        match s with
        | '\\' :: 'u' :: e :: f :: g :: h :: s =>
          match (hex4? e f g h).bind (pairChar? n), string s with
          | some x, some (t, r) => some (x :: t, r)
          | _, _ => none
        | _ => none
      else (string s).map fun (t, r) => (Char.ofNat n :: t, r)
  | '\\' :: c :: s =>
    match escape? c, string s with
    | some x, some (t, r) => some (x :: t, r)
    | _, _ => none
  | c :: s =>
    if c.toNat < 0x20 || c = '\\' then none
    else (string s).map fun (t, r) => (c :: t, r)

def digitRun (s : List Char) : List Char × List Char :=
  (s.takeWhile Text.isAsciiDigit, s.dropWhile Text.isAsciiDigit)

/-- an optional fraction: its digits, which are none exactly when there is no point -/
def fraction? : List Char → Option (List Char × List Char)
  | '.' :: s =>
    let (ds, r) := digitRun s
    if ds.isEmpty then none else some (ds, r)
  | s => some ([], s)

def exponent? : List Char → Option (Option Int × List Char)
  | c :: s =>
    if c = 'e' || c = 'E' then
      let (negative, body) := Text.signed s
      let (ds, r) := digitRun body
      (Text.value? Text.ascii? ds).map fun n => (some (Text.withSign negative n), r)
    else some (none, c :: s)
  | [] => some (none, [])

def unsigned (lim : Limits) (negative : Bool) (s : List Char) : Option (Json × List Char) :=
  let (whole, r) := digitRun s
  if whole.isEmpty || (whole.length > 1 && whole.head? = some '0') then none
  else
    match fraction? r with
    | none => none
    | some (frac, r) =>
      match exponent? r with
      | none => none
      | some (exp, r) =>
        if frac.isEmpty && exp.isNone then
          if whole.length > lim.digits then none
          else (Text.value? Text.ascii? whole).map fun n => (.int (Text.withSign negative n), r)
        else
          let all := whole ++ frac
          let significant := all.dropWhile (· = '0')
          (Text.value? Text.ascii? all).map fun m =>
            (.float (.ofDecimal negative m significant.length (exp.getD 0 - frac.length)), r)

def afterWord? (w : String) (s : List Char) : Option (List Char) := w.toList.isPrefixOf? s

def number (lim : Limits) : List Char → Option (Json × List Char)
  | '-' :: s =>
    match afterWord? "Infinity" s with
    | some r => some (.float (.infinite true), r)
    | none => unsigned lim true s
  | s => unsigned lim false s

def words : List (String × Json) :=
  [("null", .null), ("true", .bool true), ("false", .bool false), ("NaN", .float .notNumber),
   ("Infinity", .float (.infinite false))]

def scalar (lim : Limits) (s : List Char) : Option (Json × List Char) :=
  match s with
  | '"' :: r => (string r).map fun (t, r) => (.text (String.ofList t), r)
  | _ =>
    match words.findSome? fun (w, v) => (afterWord? w s).map fun r => (v, r) with
    | some found => some found
    | none => number lim s

/-- the rest of a list after its opening bracket or a comma; `n` bounds the number of items -/
def items (p : List Char → Option (Json × List Char)) :
    Nat → List Char → Option (List Json × List Char)
  | 0, _ => none
  | n + 1, s =>
    match p (skipGap s) with
    | none => none
    | some (v, r) =>
      match skipGap r with
      | ',' :: r => (items p n r).map fun (vs, r) => (v :: vs, r)
      | ']' :: r => some ([v], r)
      | _ => none

/-- one member: a string, a colon and a value -/
def memberOf (p : List Char → Option (Json × List Char)) :
    List Char → Option ((String × Json) × List Char)
  | '"' :: s =>
    match string s with
    | none => none
    | some (key, r) =>
      match skipGap r with
      | ':' :: r => (p (skipGap r)).map fun (v, r) => ((String.ofList key, v), r)
      | _ => none
  | _ => none

/-- the rest of an object after its opening brace or a comma; `n` bounds the number of members -/
def members (p : List Char → Option (Json × List Char)) :
    Nat → List Char → Option (List (String × Json) × List Char)
  | 0, _ => none
  | n + 1, s =>
    match memberOf p (skipGap s) with
    | none => none
    | some (m, r) =>
      match skipGap r with
      | ',' :: r => (members p n r).map fun (ms, r) => (m :: ms, r)
      | '}' :: r => some ([m], r)
      | _ => none

/-- the members with each key once, the last value of a key at its first place -/
def merged (ms : List (String × Json)) : List (String × Json) := (Dict.ofList ms).toList

/-- a value with `d` levels of nesting to go -/
def value (lim : Limits) : Nat → List Char → Option (Json × List Char)
  | 0, s => scalar lim s
  | d + 1, s =>
    match s with
    | '[' :: s =>
      match skipGap s with
      | ']' :: r => some (.list [], r)
      | s => (items (value lim d) s.length s).map fun (vs, r) => (.list vs, r)
    | '{' :: s =>
      match skipGap s with
      | '}' :: r => some (.object [], r)
      | s => (members (value lim d) s.length s).map fun (ms, r) => (.object (merged ms), r)
    | s => scalar lim s

def parse (lim : Limits) (text : String) : Option Json :=
  match value lim lim.depth (skipGap text.toList) with
  | some (v, r) => if (skipGap r).isEmpty then some v else none
  | none => none

/-! ## writing -/

def unicodeEscape (n : Nat) : List Char := '\\' :: 'u' :: Text.hexDigits 4 n

def escaped (c : Char) : List Char :=
  if c = '"' then ['\\', '"']
  else if c = '\\' then ['\\', '\\']
  else if c = '\n' then ['\\', 'n']
  else if c = '\r' then ['\\', 'r']
  else if c = '\t' then ['\\', 't']
  else if c = '\x0c' then ['\\', 'f']
  else if c = '\x08' then ['\\', 'b']
  else
    let n := c.toNat
    if 0x20 ≤ n && n ≤ 0x7E then [c]
    else if n < 0x10000 then unicodeEscape n
    else
      unicodeEscape (0xD800 + (n - 0x10000) / 0x400) ++
        unicodeEscape (0xDC00 + (n - 0x10000) % 0x400)

def stringText (s : String) : List Char := '"' :: s.toList.flatMap escaped ++ ['"']

/-- a value without parts -/
def scalarText : Json → List Char
  | .bool true => "true".toList
  | .bool false => "false".toList
  | .int n => Text.integer n
  | .float x => x.text
  | .text s => stringText s
  | _ => "null".toList

mutual

/-- the value on one line -/
def compactChars : Json → List Char
  | .list vs => '[' :: compactItems vs ++ [']']
  | .object ms => '{' :: compactMembers ms ++ ['}']
  | v => scalarText v

def compactItems : List Json → List Char
  | [] => []
  | [v] => compactChars v
  | v :: vs => compactChars v ++ ',' :: compactItems vs

def compactMembers : List (String × Json) → List Char
  | [] => []
  | [(k, v)] => stringText k ++ ':' :: compactChars v
  | (k, v) :: ms => stringText k ++ ':' :: compactChars v ++ ',' :: compactMembers ms

end

def compact (v : Json) : String := String.ofList (compactChars v)

/-- a line end and the margin `n` levels deep -/
def newline (n : Nat) : List Char := '\n' :: List.replicate (2 * n) ' '

mutual

def indented (n : Nat) : Json → List Char
  | .list [] => ['[', ']']
  | .object [] => ['{', '}']
  | .list vs => '[' :: indentedItems (n + 1) vs ++ newline n ++ [']']
  | .object ms => '{' :: indentedMembers (n + 1) ms ++ newline n ++ ['}']
  | v => scalarText v

def indentedItems (n : Nat) : List Json → List Char
  | [] => []
  | [v] => newline n ++ indented n v
  | v :: vs => newline n ++ indented n v ++ ',' :: indentedItems n vs

def indentedMembers (n : Nat) : List (String × Json) → List Char
  | [] => []
  | [(k, v)] => newline n ++ stringText k ++ ':' :: ' ' :: indented n v
  | (k, v) :: ms =>
    newline n ++ stringText k ++ ':' :: ' ' :: indented n v ++ ',' :: indentedMembers n ms

end

def pretty (v : Json) : String := String.ofList (indented 0 v)

end CodeMatch.Json
