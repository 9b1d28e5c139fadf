import CodeMatch.Abi.Codec
import CodeMatch.Abi.Name
import CodeMatch.Json.Basic
import CodeMatch.Log

/-!
# Constructor arguments

Creation code on chain is the compiled creation code followed by the encoded constructor arguments.
The interface of the contract lists the constructor's inputs as free-form descriptors; when it is
known, what follows the code has to be exactly the canonical encoding of values of those types
(`argumentsValid`).

Descriptors are read and types are found by other libraries.  What these say of a fault is left out of the
texts here; `name` is the name under which they report it.  Descriptors and names are read at any depth: the
stack that it takes is not counted.
-/

namespace CodeMatch.Constructor

inductive InputFault where
  | noType
  | noComponents
  /-- the inputs, or the components of a tuple, are of a kind that cannot be run through -/
  | notIterable (kind : String)
deriving DecidableEq, Repr

def InputFault.text : InputFault → String
  | .noType => ""
  | .noComponents => Text.quoted "components"
  | .notIterable kind => Text.quoted kind ++ " object is not iterable"

inductive TypeFault where
  | unreadable
  | badSize
  | unknown
deriving DecidableEq, Repr

inductive Fault where
  | inputs (cause : InputFault)
  /-- one of the types with the given names cannot be used -/
  | types (names : List String) (cause : TypeFault)
  /-- the interface gives inputs that cannot be run through -/
  | notIterable
  /-- a descriptor is neither an object nor a text -/
  | notDescriptor
  | emptyTuple
  | longNumber
  | fixedBase (name : String)
  | lengthOverflow
  | notText
deriving DecidableEq, Repr

namespace Fault

/-- whether the fault lies in the interface and is reported as such -/
def isMalformed : Fault → Bool
  | .inputs _ => true
  | .types _ _ => true
  | _ => false

def message : Fault → String
  | .inputs cause => "constructor ABI inputs malformed: " ++ cause.text
  | .types names _ => "constructor ABI types unusable " ++ Text.quotedList names ++ ": "
  | .emptyTuple => "Zero-sized tuple types \"()\" are not supported."
  | .fixedBase name =>
    "Cannot create BytesDecoder for type '" ++ name ++ "': expected type with base 'bytes'"
  | _ => ""

/-- the name under which a fault is reported -/
def name : Fault → String
  | .inputs .noComponents => "KeyError"
  | .inputs _ => "TypeError"
  | .types _ .unreadable => "ParseError"
  | .types _ .badSize => "ABITypeError"
  | .types _ .unknown => "NoEntriesFound"
  | .notIterable => "TypeError"
  | .notDescriptor => "AttributeError"
  | .emptyTuple => "ValueError"
  | .longNumber => "VisitationError"
  | .fixedBase _ => "ValueError"
  | .lengthOverflow => "OverflowError"
  | .notText => "UnicodeDecodeError"

def ofName (names : List String) : Abi.NameFault → Fault
  | .unreadable => .types names .unreadable
  | .badSize => .types names .badSize
  | .unknown => .types names .unknown
  | .emptyTuple => .emptyTuple
  | .longNumber => .longNumber
  | .fixedBase name => .fixedBase name

end Fault

/-! ## descriptors -/

def kindName : Json → String
  | .null => "NoneType"
  | .bool _ => "bool"
  | .int _ => "int"
  | .float _ => "float"
  | .text _ => "str"
  | .list _ => "list"
  | .object _ => "dict"

/-- the type of a tuple with the given component types; `rest` is what follows the word `tuple` -/
def tupleText (parts : List String) (rest : List Char) : String :=
  "(" ++ ",".intercalate parts ++ ")" ++ String.ofList rest

mutual

/-- the type that a descriptor names; a tuple is spelled by its components -/
def typeText : Json → Except Fault String
  | .text s => .ok s
  | .object ms =>
    match ms.lookup "type" with
    | some (.text t) =>
      match "tuple".toList.isPrefixOf? t.toList with
      | none => .ok t
      | some rest =>
        match componentTexts ms with
        | none => .error (.inputs .noComponents)
        | some parts => parts.map (tupleText · rest)
    | _ => .error (.inputs .noType)
  | _ => .error .notDescriptor

/-- the types of the components that the members of a descriptor give -/
def componentTexts : List (String × Json) → Option (Except Fault (List String))
  | [] => none
  | (k, v) :: ms => if k = "components" then some (elementTexts v) else componentTexts ms

/-- the types of what a value runs through -/
def elementTexts : Json → Except Fault (List String)
  | .list items => typeTexts items
  | .text s => .ok (s.toList.map String.singleton)
  | .object ms => .ok (ms.map Prod.fst)
  | v => .error (.inputs (.notIterable (kindName v)))

def typeTexts : List Json → Except Fault (List String)
  | [] => .ok []
  | v :: vs =>
    match typeText v with
    | .error f => .error f
    | .ok t =>
      match typeTexts vs with
      | .error f => .error f
      | .ok ts => .ok (t :: ts)

end

def tysOf : List String → Except Abi.NameFault (List Abi.Ty)
  | [] => .ok []
  | s :: ss =>
    match Abi.TypeName.tyOf s with
    | .error f => .error f
    | .ok t =>
      match tysOf ss with
      | .error f => .error f
      | .ok ts => .ok (t :: ts)

def typesOf (inputs : Json) : Except Fault (List Abi.Ty) :=
  (elementTexts inputs).bind fun names => (tysOf names).mapError (.ofName names)

/-! ## the check -/

inductive Verdict where
  | accepted
  /-- the bytes decode, but an encoder would have written the values differently -/
  | notCanonical
  /-- the bytes do not decode, or what they decode to cannot be written -/
  | undecodable
deriving DecidableEq, Repr

def judge (ts : List Abi.Ty) (b : Bytes) : Except Fault Verdict :=
  match Abi.decodeArguments ts b with
  | .ok vs =>
    match Abi.encodeArguments ts vs with
    | some code => .ok (if code = b then .accepted else .notCanonical)
    | none => .ok .undecodable
  | .error .malformed => .ok .undecodable
  | .error .lengthOverflow => .error .lengthOverflow
  | .error .notText => .error .notText

def undecoded (inputs : Json) : Log.Record :=
  let names := (elementTexts inputs).toOption.getD []
  ⟨.debug, .constructor, "Constructor arguments do not decode as " ++ Text.quotedList names ++ ": ", none⟩

/-- the check: inputs that are `null` accept anything, and empty ones only nothing -/
def argumentsValid (b : Bytes) (inputs : Json) : Log.Traced (Except Fault Bool) :=
  match inputs with
  | .null => pure (.ok true)
  | inputs =>
    if !inputs.truthy then pure (.ok b.isEmpty)
    else
      match (typesOf inputs).bind fun ts => judge ts b with
      | .error f => pure (.error f)
      | .ok .accepted => pure (.ok true)
      | .ok .notCanonical => pure (.ok false)
      | .ok .undecodable => ⟨.ok false, [undecoded inputs]⟩

theorem argumentsValid_null (b : Bytes) : argumentsValid b .null = pure (.ok true) := rfl

theorem argumentsValid_nil (b : Bytes) : argumentsValid b (.list []) = pure (.ok b.isEmpty) := rfl

end CodeMatch.Constructor
