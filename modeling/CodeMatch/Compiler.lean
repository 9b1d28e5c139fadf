import CodeMatch.Document

/-!
# The compiler

What the compiler is asked for: a version of it, and what it is given to compile.  Nobody looks at the latter.

A version is three numbers with an optional prerelease label and an optional build label, as in
`0.8.24-nightly.2024.1.2+commit.4b5fa4f5`.  Documents give it as a text or as a record of its parts.  A numeral
in the text has no leading zero.  After its first digit the grammar lets a digit of any script pass; one that is
not of ASCII is refused afterwards, as the fault of its part.
-/

namespace CodeMatch

open Document Checked

/-! ## versions -/

structure CompilerVersion where
  major : Int
  minor : Int
  patch : Int
  prerelease : Option String := none
  build : Option String := none
deriving DecidableEq, Repr

namespace CompilerVersion

namespace Grammar

structure Parts where
  major : List Char
  minor : List Char
  patch : List Char
  prerelease : Option (List Char)
  build : Option (List Char)
deriving DecidableEq, Repr

def isLabelChar (c : Char) : Bool :=
  Text.isAsciiDigit c || Text.isAsciiLetter c || c = '.' || c = '-'

/-- a numeral at the front of a text, and what follows -/
def numeral? : List Char → Option (List Char × List Char)
  | '0' :: s => some (['0'], s)
  | c :: s =>
    if Text.isAsciiDigit c then
      let isDigit := fun c => (Text.decimal? c).isSome
      some (c :: s.takeWhile isDigit, s.dropWhile isDigit)
    else none
  | [] => none

def afterPoint? : List Char → Option (List Char)
  | '.' :: s => some s
  | _ => none

/-- a label behind its mark, if the mark is there, and what follows -/
def label? (mark : Char) : List Char → Option (Option (List Char) × List Char)
  | [] => some (none, [])
  | c :: s =>
    if c = mark then
      let label := s.takeWhile isLabelChar
      if label.isEmpty then none else some (some label, s.dropWhile isLabelChar)
    else some (none, c :: s)

def dropV : List Char → List Char
  | 'v' :: s => s
  | s => s

def parts? (s : List Char) : Option Parts := do
  let (major, s) ← numeral? (dropV s)
  let (minor, s) ← numeral? (← afterPoint? s)
  let (patch, s) ← numeral? (← afterPoint? s)
  let (prerelease, s) ← label? '-' s
  let (build, s) ← label? '+' s
  if s.isEmpty then some ⟨major, minor, patch, prerelease, build⟩ else none

end Grammar

def ofParts (p : Grammar.Parts) : Checked CompilerVersion :=
  let number (name : String) (digits : List Char) : Checked Int :=
    (Reader.integerOfText (String.ofList digits)).under (.key name)
  (fun major minor patch =>
      ⟨major, minor, patch, p.prerelease.map String.ofList, p.build.map String.ofList⟩)
    <$> number "major" p.major <*> number "minor" p.minor <*> number "patch" p.patch

def ofText (s : String) : Checked CompilerVersion :=
  match Grammar.parts? (Text.trim Text.isBlank s.toList) with
  | some p => ofParts p
  | none => fail (.badVersion s)

def ofMembers (ms : Reader.Members) : Checked CompilerVersion :=
  mk <$> Reader.required ["major"] .integer ms
    <*> Reader.required ["minor"] .integer ms
    <*> Reader.required ["patch"] .integer ms
    <*> Reader.defaulted ["prerelease"] none (.option .text) ms
    <*> Reader.defaulted ["build"] none (.option .text) ms

def read : Reader CompilerVersion
  | .text s => ofText s
  | v => Reader.record ofMembers v

def write (v : CompilerVersion) : Json :=
  .object
    [("major", .int v.major), ("minor", .int v.minor), ("patch", .int v.patch),
     ("prerelease", .ofOption .text v.prerelease), ("build", .ofOption .text v.build)]

def format : Format CompilerVersion := ⟨read, fun _ => write⟩

/-- a label behind its mark; an absent or empty one is not written -/
def labelText (mark : String) : Option String → String
  | some s => if s.isEmpty then "" else mark ++ s
  | none => ""

def text (v : CompilerVersion) : String :=
  "v" ++ Text.integerText v.major ++ "." ++ Text.integerText v.minor ++ "." ++
    Text.integerText v.patch ++ labelText "-" v.prerelease ++ labelText "+" v.build

def commit (v : CompilerVersion) : Option String :=
  match v.build with
  | some s => ("commit.".toList.isPrefixOf? s.toList).map String.ofList
  | none => none

end CompilerVersion

/-! ## input -/

structure CompilerInput where
  language : String := "Solidity"
  sources : Dict (Dict Json)
  settings : Dict Json := ∅
deriving DecidableEq

namespace CompilerInput

def read : Reader CompilerInput := Reader.record fun ms =>
  mk <$> Reader.defaulted ["language"] "Solidity" .text ms
    <*> Reader.required ["sources"] (.dict (.dict .any)) ms
    <*> Reader.defaulted ["settings"] ∅ (.dict .any) ms

def write (i : CompilerInput) : Json :=
  .object
    [("language", .text i.language), ("sources", .ofDict (.ofDict id) i.sources),
     ("settings", .ofDict id i.settings)]

def format : Format CompilerInput := ⟨read, fun _ => write⟩

end CompilerInput

end CodeMatch
