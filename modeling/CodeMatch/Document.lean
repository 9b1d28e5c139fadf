import CodeMatch.Bytes
import CodeMatch.Json.Basic
import CodeMatch.Json.Text
import CodeMatch.Text

/-!
# Documents of the library's types

A document is read into a value of one of the library's types.  If that fails, every fault is reported, each
with the path to the place where it was found (`Checked`).  Readers are lenient where a document has several
ways to say one thing.  Compiler output spells its keys in two styles, `link_references` and `linkReferences`:
a reader takes either and prefers the second, and a writer is told which style to use (`Format`).
-/

namespace CodeMatch.Document

inductive Step where
  | key (name : String)
  | index (n : Nat)
deriving DecidableEq, Repr

inductive Cause where
  | notJson
  /-- a record must be an object -/
  | notRecord
  | missing
  | notText
  | notList
  | notMap
  | notBytes
  | badHex (fault : Hex.Fault)
  | noCode
  | badVersion (given : String)
  | notInteger
  /-- a text that is no numeral stands for an integer -/
  | badInteger
  | integerTooLong
  | fractional
  | notFinite
  /-- an integer that counts something is negative -/
  | negative
  | notFlag
  /-- a number or text that is neither yes nor no stands for a flag -/
  | badFlag
  /-- the value is none of those that the place allows -/
  | notMember
  /-- the value is not the only one that the place allows -/
  | notLiteral
  /-- a record that names its own kind does not -/
  | untagged
  | unknownTag
deriving DecidableEq, Repr

def Cause.message : Cause → Option String
  | .badHex f => f.message
  | .noCode => some "OnChainCode requires runtime code, creation code, or both"
  | .badVersion given => some ("invalid compiler version: " ++ Text.quoted given)
  | _ => none

structure Fault where
  path : List Step
  cause : Cause
deriving DecidableEq, Repr

universe u v

/-- a value, or the faults that prevent it, in the order of the document's form -/
inductive Checked (α : Type u) where
  | valid (a : α)
  | invalid (faults : List Fault)
deriving Repr

namespace Checked

variable {α : Type u} {β : Type v}

/-- a fault at this very place -/
def fail (c : Cause) : Checked α := .invalid [⟨[], c⟩]

def map (f : α → β) : Checked α → Checked β
  | valid a => valid (f a)
  | invalid faults => invalid faults

def bind : Checked α → (α → Checked β) → Checked β
  | valid a, f => f a
  | invalid faults, _ => invalid faults

/-- the same, seen from one step further up -/
def under (s : Step) : Checked α → Checked α
  | valid a => valid a
  | invalid faults => invalid (faults.map fun f => { f with path := s :: f.path })

def both : Checked α → Checked β → Checked (α × β)
  | valid a, valid b => valid (a, b)
  | valid _, invalid g => invalid g
  | invalid f, valid _ => invalid f
  | invalid f, invalid g => invalid (f ++ g)

def all : List (Checked α) → Checked (List α)
  | [] => valid []
  | c :: cs => (both c (all cs)).map fun (a, as) => a :: as

instance : Functor Checked := ⟨map, map ∘ Function.const _⟩
instance : Seq Checked := ⟨fun f a => (both f (a ())).map fun (f, a) => f a⟩

theorem map_valid (f : α → β) (a : α) : map f (valid a) = valid (f a) := rfl
theorem under_valid (s : Step) (a : α) : under s (valid a) = valid a := rfl

theorem all_map_valid (as : List α) : all (as.map valid) = valid as := by
  induction as with
  | nil => rfl
  | cons a as ih => simp [all, ih, both, map]

end Checked

/-! ## readers -/

abbrev Reader (α : Type) := Json → Checked α

namespace Reader

open Checked (fail valid)

variable {α : Type}

def any : Reader Json := valid

def text : Reader String
  | .text s => valid s
  | _ => fail .notText

def bytes : Reader Bytes
  | .text s => match Hex.decode s with
    | .ok b => valid b
    | .error f => fail (.badHex f)
  | _ => fail .notBytes

/-- integers of 64 bits lie below this, and not below its negation -/
def bound : Nat := Nat.pow 2 63

/-- the digits of a numeral in front of its fraction, which may hold zeros only -/
def wholePart? (s : List Char) : Option (List Char) :=
  let whole := s.takeWhile (· ≠ '.')
  match s.dropWhile (· ≠ '.') with
  | [] => some whole
  | _ :: frac => if frac ≠ [] ∧ frac.all (· = '0') then some whole else none

def integerOfText (s : String) : Checked Int :=
  let (negative, body) := Text.signed (Text.trim Text.isSpace s.toList)
  match (wholePart? body).bind (Text.joined? Text.ascii?) with
  | none => fail .badInteger
  | some digits =>
    if digits.length > Text.longestNumeral then fail .integerTooLong
    else match Text.value? Text.ascii? digits with
      | some n => valid (Text.withSign negative n)
      | none => fail .badInteger

def integer : Reader Int
  | .int n => valid n
  | .bool b => valid (if b then 1 else 0)
  | .float (.finite negative m e) =>
    match (Binary64.finite negative m e).toInt? with
    | some n => if n.natAbs < bound then valid n else fail .integerTooLong
    | none => fail .fractional
  | .float _ => fail .notFinite
  | .text s => integerOfText s
  | _ => fail .notInteger

def natural : Reader Nat := fun v =>
  (integer v).bind fun n => if n < 0 then fail .negative else valid n.toNat

def flagWords : List (String × Bool) :=
  [("0", false), ("off", false), ("f", false), ("false", false), ("n", false), ("no", false),
   ("1", true), ("on", true), ("t", true), ("true", true), ("y", true), ("yes", true)]

def flag : Reader Bool
  | .bool b => valid b
  | .int n =>
    if n = 0 then valid false
    else if n = 1 then valid true
    else if -(bound : Int) ≤ n ∧ n < bound then fail .badFlag
    else fail .notFlag
  | .float x =>
    if x.toInt? = some 0 then valid false
    else if x.toInt? = some 1 then valid true
    else fail .notFlag
  | .text s =>
    match flagWords.lookup (s.map Char.toLower) with
    | some b => valid b
    | none => fail .badFlag
  | _ => fail .notFlag

def oneOf (table : List (String × α)) : Reader α
  | .text s => match table.lookup s with
    | some a => valid a
    | none => fail .notMember
  | _ => fail .notMember

def literal (word : String) : Reader Unit
  | .text s => if s = word then valid () else fail .notLiteral
  | _ => fail .notLiteral

def option (r : Reader α) : Reader (Option α)
  | .null => valid none
  | v => (r v).map some

def itemsFrom (r : Reader α) (n : Nat) : List Json → List (Checked α)
  | [] => []
  | v :: vs => (r v).under (.index n) :: itemsFrom r (n + 1) vs

def list (r : Reader α) : Reader (List α)
  | .list vs => Checked.all (itemsFrom r 0 vs)
  | _ => fail .notList

def entry (r : Reader α) (m : String × Json) : Checked (String × α) :=
  ((r m.2).under (.key m.1)).map fun a => (m.1, a)

def dict (r : Reader α) : Reader (Dict α)
  | .object ms => (Checked.all (ms.map (entry r))).map Dict.ofList
  | _ => fail .notMap

abbrev Members := List (String × Json)

def record (f : Members → Checked α) : Reader α
  | .object ms => f ms
  | _ => fail .notRecord

/-- the first of the names that is present, with its value -/
def present? (names : List String) (ms : Members) : Option (String × Json) :=
  names.findSome? fun k => (ms.lookup k).map fun v => (k, v)

/-- a member that has to be present; an absent one is reported under its first name -/
def required (names : List String) (r : Reader α) (ms : Members) : Checked α :=
  match present? names ms with
  | some (k, v) => (r v).under (.key k)
  | none => (fail .missing : Checked α).under (.key (names.headD ""))

def defaulted (names : List String) (default : α) (r : Reader α) (ms : Members) : Checked α :=
  match present? names ms with
  | some (k, v) => (r v).under (.key k)
  | none => valid default

end Reader

/-! ## formats -/

inductive KeyStyle where
  /-- words joined by underscores -/
  | snake
  /-- words joined by capitals -/
  | camel
deriving DecidableEq, Repr

structure Key where
  snake : String
  camel : String

namespace Key

def spelled (k : Key) : KeyStyle → String
  | .snake => k.snake
  | .camel => k.camel

/-- the spellings in the order in which they are looked for -/
def names (k : Key) : List String := [k.camel, k.snake]

end Key

structure Format (α : Type) where
  read : Reader α
  write : KeyStyle → α → Json

namespace Format

variable {α : Type}

def readText (f : Format α) (s : String) : Checked α :=
  match Json.parse .standard s with
  | some v => f.read v
  | none => Checked.fail .notJson

def writeText (f : Format α) (style : KeyStyle) (a : α) : String := (f.write style a).compact

def list (f : Format α) : Format (List α) where
  read := .list f.read
  write := fun style as => .list (as.map (f.write style))

end Format

def ofBytes (b : Bytes) : Json := .text (Hex.encode b)
def ofNat (n : Nat) : Json := .int n

theorem bytes_ofBytes_eq (b : Bytes) :
    Reader.bytes (ofBytes b) = match Hex.decode (Hex.encode b) with
      | .ok b => .valid b
      | .error f => Checked.fail (.badHex f) := rfl

end CodeMatch.Document
