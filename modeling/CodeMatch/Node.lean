import CodeMatch.Address
import CodeMatch.Code
import CodeMatch.Log

/-!
# Fetching code from a node

A node answers which chain it serves and which code stands at an address.  The identifier of a fetched target
is the number of its chain and its address in checksum casing.
-/

namespace CodeMatch

structure Node where
  chainId : Int := 1
  code : Bytes := []
  /-- codes by address, in checksum casing -/
  codes : Dict Bytes := ∅

def Node.codeAt (n : Node) (address : String) : Bytes := (n.codes.get? address).getD n.code

inductive FetchFault where
  | address (fault : Address.Fault)
  /-- there is no code at the address, and none was given -/
  | noCode
deriving DecidableEq, Repr

structure Fetch (α : Type) where
  outcome : Except FetchFault α
  requested : List String := []
  log : List Log.Record := []

namespace Fetch

variable {α β : Type}

/-- a fetch that fails before the node is asked -/
def refused (f : Address.Fault) : Fetch α := { outcome := .error (.address f) }

def andThen (x : Fetch α) (f : α → Except FetchFault β) : Fetch β :=
  ⟨x.outcome.bind f, x.requested, x.log⟩

end Fetch

def fetchCode (n : Node) (address : String) : Fetch Bytes :=
  match Address.ofText address with
  | .error f => .refused f
  | .ok checksum =>
    let code := n.codeAt checksum
    let message := "Fetched " ++ Text.naturalText code.length ++ " bytes of code for " ++ address
    ⟨.ok code, [checksum], [⟨.debug, .chain, message, none⟩]⟩

def nonempty? (code : Bytes) : Option Bytes := if code.isEmpty then none else some code

def contractOf (n : Node) (checksum : String) (creationCode : Option Bytes) (isBlueprint : Bool)
    (deployed : Bytes) : Except FetchFault OnChainContract :=
  let code :=
    if isBlueprint then OnChainCode.of? none (nonempty? deployed)
    else OnChainCode.of? (nonempty? deployed) creationCode
  match code with
  | some code => .ok ⟨Text.integerText n.chainId ++ ":" ++ checksum, code, isBlueprint⟩
  | none => .error .noCode

def fetchContract (n : Node) (address : String) (creationCode : Option Bytes)
    (isBlueprint : Bool) : Fetch OnChainContract :=
  match Address.ofText address with
  | .error f => .refused f
  | .ok checksum =>
    (fetchCode n checksum).andThen (contractOf n checksum creationCode isBlueprint)

end CodeMatch
