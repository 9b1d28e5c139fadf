import CodeMatch.Text

/-!
# Options on a command line

An option is given as `--name value` or `--name=value`, and one without a value, a switch, as `--name`.
A lone `--` ends the options.  What is neither an option nor its value is an operand; on some command
lines the first operand ends the options, too.
-/

namespace CodeMatch.CommandLine

inductive Kind where
  | value
  | switch
deriving DecidableEq, Repr

abbrev Declaration := String × Kind

inductive OptionFault where
  | unknown (name : String)
  | noValue (name : String)
  | notSwitch (name : String)
deriving DecidableEq, Repr

def OptionFault.message : OptionFault → String
  | .unknown name => "No such option: " ++ name
  | .noValue name => "Option " ++ Text.quoted name ++ " requires an argument."
  | .notSwitch name => "Option " ++ Text.quoted name ++ " does not take a value."

structure Arguments where
  options : List (String × String) := []
  operands : List String := []
deriving DecidableEq, Repr

namespace Arguments

/-- one more option in front; a switch has the empty value -/
def withOption (name value : String) (a : Arguments) : Arguments :=
  { a with options := (name, value) :: a.options }

def withOperand (operand : String) (a : Arguments) : Arguments :=
  { a with operands := operand :: a.operands }

def values (a : Arguments) (name : String) : List String :=
  (a.options.filter fun o => o.1 = name).map Prod.snd

def last? (a : Arguments) (name : String) : Option String := (a.values name).getLast?

def has (a : Arguments) (name : String) : Bool := a.options.any fun o => o.1 = name

/-- the options as they are looked at: those that are given, by their first place, and then the others -/
def order (a : Arguments) (declared : List Declaration) : List String :=
  let given := (a.options.map Prod.fst).eraseDups
  given ++ (declared.map Prod.fst).filter fun name => !given.contains name

end Arguments

/-- an argument cut at its first equals sign -/
def splitValue (a : String) : String × Option String :=
  let cs := a.toList
  match cs.dropWhile (· ≠ '=') with
  | [] => (a, none)
  | _ :: value => (String.ofList (cs.takeWhile (· ≠ '=')), some (String.ofList value))

def isOption (a : String) : Bool :=
  match a.toList with
  | '-' :: _ :: _ => true
  | _ => false

/-- an option that is not declared, as it is named in messages: behind a single dash only the first
letter counts -/
def unknownName (a : String) : String :=
  match a.toList with
  | '-' :: '-' :: _ => (splitValue a).1
  | '-' :: c :: _ => String.ofList ['-', c]
  | _ => a

def readArguments (declared : List Declaration) (mixed : Bool) :
    List String → Except OptionFault Arguments
  | [] => .ok {}
  | a :: as =>
    if a = "--" then .ok { operands := as }
    else if isOption a then
      let (name, value) := splitValue a
      match declared.lookup name, value, as with
      | none, _, _ => .error (.unknown (unknownName a))
      | some .switch, none, as => (readArguments declared mixed as).map (.withOption name "")
      | some .switch, some _, _ => .error (.notSwitch name)
      | some .value, some v, as => (readArguments declared mixed as).map (.withOption name v)
      | some .value, none, v :: as => (readArguments declared mixed as).map (.withOption name v)
      | some .value, none, [] => .error (.noValue name)
    else if mixed then (readArguments declared mixed as).map (.withOperand a)
    else .ok { operands := a :: as }

theorem readArguments_nil (declared : List Declaration) (mixed : Bool) :
    readArguments declared mixed [] = .ok {} := by
  simp [readArguments]

end CodeMatch.CommandLine
