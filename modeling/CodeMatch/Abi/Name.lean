import CodeMatch.Abi.Codec
import CodeMatch.Text

/-!
# Names of types

Compiler output names a type by a text such as `uint256`, `bytes32[2][]` or `(address,string)[]`: a
base of letters with a size, or a list of types in parentheses, and then any number of array
dimensions, the outermost last.

A name is taken apart (`parse`), its short forms are spelled out (`canonical`: `int` is `int256`), its sizes
are judged (`check`) and its bases are looked up (`resolve`).  A lone base is looked up as it is written, so
the short form `byte` is a type only inside a longer name.
-/

namespace CodeMatch.Abi

inductive Suffix where
  | none
  | bits (n : Nat)
  | scaled (n places : Nat)
deriving DecidableEq, Repr

inductive TypeName where
  | basic (base : String) (suffix : Suffix) (dims : List (Option Nat))
  | tuple (parts : List TypeName) (dims : List (Option Nat))
deriving Repr, Inhabited

inductive NameFault where
  /-- the text cannot be taken apart -/
  | unreadable
  | emptyTuple
  /-- a number with too many digits to be read -/
  | longNumber
  /-- a size that the base does not have -/
  | badSize
  | unknown
  /-- a base with a fixed size that is written with another one -/
  | fixedBase (name : String)
deriving DecidableEq, Repr

namespace TypeName

/-! ## reading -/

/-- a number without leading zeros at the front of a text -/
def size? (s : List Char) : Option (Nat × List Char) :=
  match s with
  | [] => none
  | c :: _ =>
    if c = '0' then none
    else (Text.value? Text.ascii? (s.takeWhile Text.isAsciiDigit)).map fun n =>
      (n, s.dropWhile Text.isAsciiDigit)

def readSuffix (s : List Char) : Suffix × List Char :=
  match size? s with
  | none => (.none, s)
  | some (n, 'x' :: r) =>
    match size? r with
    | some (places, r) => (.scaled n places, r)
    | none => (.bits n, 'x' :: r)
  | some (n, r) => (.bits n, r)

/-- the dimensions at the front of a text; `n` bounds their number -/
def readDims : Nat → List Char → List (Option Nat) × List Char
  | 0, s => ([], s)
  | _ + 1, [] => ([], [])
  | n + 1, c :: s =>
    if c = '[' then
      match s with
      | ']' :: r =>
        let (dims, r) := readDims n r
        (none :: dims, r)
      | _ =>
        match size? s with
        | some (k, ']' :: r) =>
          let (dims, r) := readDims n r
          (some k :: dims, r)
        | _ => ([], c :: s)
    else ([], c :: s)

def readBasic (s : List Char) : Option (TypeName × List Char) :=
  let base := s.takeWhile Text.isAsciiLetter
  if base.isEmpty then none
  else
    let (suffix, r) := readSuffix (s.dropWhile Text.isAsciiLetter)
    let (dims, r) := readDims r.length r
    some (.basic (String.ofList base) suffix dims, r)

/-- the parts of a tuple behind its opening parenthesis; `n` bounds their number -/
def readParts (p : List Char → Option (TypeName × List Char)) :
    Nat → List Char → Option (List TypeName × List Char)
  | 0, _ => none
  | n + 1, s =>
    match p s with
    | some (t, ',' :: r) => (readParts p n r).map fun (ts, r) => (t :: ts, r)
    | some (t, ')' :: r) => some ([t], r)
    | _ => none

/-- a name with at most `n` levels of parentheses -/
def read : Nat → List Char → Option (TypeName × List Char)
  | 0, s => readBasic s
  | n + 1, s =>
    match s with
    | '(' :: s => (readParts (read n) s.length s).map fun (ts, r) =>
      let (dims, r) := readDims r.length r
      (.tuple ts dims, r)
    | s => readBasic s

def occurs (w : List Char) : List Char → Bool
  | [] => w.isEmpty
  | c :: s => w.isPrefixOf (c :: s) || occurs w s

/-- whether a text has more digits in a row than a numeral may have -/
def hasLongNumeral : List Char → Bool
  | [] => false
  | c :: s => Text.longestNumeral < ((c :: s).takeWhile Text.isAsciiDigit).length || hasLongNumeral s

/-- a text is taken apart as a whole before any number in it is read -/
def parse (s : String) : Except NameFault TypeName :=
  let cs := s.toList
  match read cs.length cs with
  | some (t, []) => bif hasLongNumeral cs then .error .longNumber else .ok t
  | _ => .error (if occurs ['(', ')'] cs then .emptyTuple else .unreadable)

/-! ## writing -/

def suffixText : Suffix → List Char
  | .none => []
  | .bits n => Text.natural n
  | .scaled n places => Text.natural n ++ 'x' :: Text.natural places

def dimText : Option Nat → List Char
  | none => ['[', ']']
  | some n => '[' :: Text.natural n ++ [']']

def dimsText (dims : List (Option Nat)) : List Char := dims.flatMap dimText

mutual

def text : TypeName → List Char
  | .basic base suffix dims => base.toList ++ suffixText suffix ++ dimsText dims
  | .tuple parts dims => '(' :: partsText parts ++ ')' :: dimsText dims

def partsText : List TypeName → List Char
  | [] => []
  | [t] => text t
  | t :: ts => text t ++ ',' :: partsText ts

end

/-! ## short forms -/

/-- the base and size that a base without a size is short for -/
def spelledOut (base : String) : String × Suffix :=
  if base = "int" then ("int", .bits 256)
  else if base = "uint" then ("uint", .bits 256)
  else if base = "fixed" then ("fixed", .scaled 128 18)
  else if base = "ufixed" then ("ufixed", .scaled 128 18)
  else if base = "function" then ("bytes", .bits 24)
  else if base = "byte" then ("bytes", .bits 1)
  else (base, .none)

mutual

def canonical : TypeName → TypeName
  | .basic base .none dims => .basic (spelledOut base).1 (spelledOut base).2 dims
  | .basic base suffix dims => .basic base suffix dims
  | .tuple parts dims => .tuple (canonicalParts parts) dims

def canonicalParts : List TypeName → List TypeName
  | [] => []
  | t :: ts => canonical t :: canonicalParts ts

end

/-! ## sizes -/

def isWidth (n : Nat) : Bool := 8 ≤ n && n ≤ 256 && n % 8 = 0

def allowed (base : String) (suffix : Suffix) : Bool :=
  if base = "string" || base = "address" then suffix = .none
  else if base = "bytes" then
    match suffix with
    | .none => true
    | .bits n => n ≤ 32
    | .scaled _ _ => false
  else if base = "int" || base = "uint" then
    match suffix with
    | .bits n => isWidth n
    | _ => false
  else if base = "fixed" || base = "ufixed" then
    match suffix with
    | .scaled n places => isWidth n && 1 ≤ places && places ≤ 80
    | _ => false
  else if base = "hash" then
    match suffix with
    | .bits _ => true
    | _ => false
  else true

mutual

def check : TypeName → Bool
  | .basic base suffix _ => allowed base suffix
  | .tuple parts _ => checkParts parts

def checkParts : List TypeName → Bool
  | [] => true
  | t :: ts => check t && checkParts ts

end

/-! ## types -/

def knownBases : List String :=
  ["uint", "int", "address", "bool", "ufixed", "fixed", "bytes", "function", "string"]

def basicTy (base : String) (suffix : Suffix) : Except NameFault Ty :=
  if base = "function" then
    .error (.fixedBase (String.ofList (text (.basic base suffix []))))
  else if !allowed base suffix then .error .badSize
  else
    match base, suffix with
    | "uint", .bits n => .ok (.word (.uint (n / 8)))
    | "int", .bits n => .ok (.word (.int (n / 8)))
    | "ufixed", .scaled n _ => .ok (.word (.uint (n / 8)))
    | "fixed", .scaled n _ => .ok (.word (.int (n / 8)))
    | "address", _ => .ok (.word (.uint 20))
    | "bool", _ => .ok (.word .bool)
    | "bytes", .bits n => .ok (.word (.bytes n))
    | "bytes", _ => .ok .bytes
    | "string", _ => .ok .text
    | _, _ => .error .unknown

/-- an array type with the given dimensions, the innermost first -/
def arrays (t : Ty) (dims : List (Option Nat)) : Ty := dims.foldl Ty.array t

mutual

/-- the type of a canonical name whose sizes are allowed -/
def build : TypeName → Except NameFault Ty
  | .basic base suffix dims =>
    if knownBases.contains base then (basicTy base suffix).map fun t => arrays t dims
    else .error .unknown
  | .tuple parts dims => (buildParts parts).map fun ts => arrays (.tuple ts) dims

def buildParts : List TypeName → Except NameFault (List Ty)
  | [] => .ok []
  | t :: ts => do
    let t ← build t
    let ts ← buildParts ts
    .ok (t :: ts)

end

/-- the type of a name as it is written: a lone base is looked up before its size is judged, and the
sizes in a longer name before any of its bases is looked up -/
def resolve (t : TypeName) : Except NameFault Ty :=
  match t with
  | .basic base suffix [] =>
    if knownBases.contains base then build (canonical (.basic base suffix [])) else .error .unknown
  | t => if check (canonical t) then build (canonical t) else .error .badSize

def tyOf (s : String) : Except NameFault Ty := (parse s).bind resolve

end TypeName

end CodeMatch.Abi
