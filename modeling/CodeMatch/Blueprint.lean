import CodeMatch.Bytes
import CodeMatch.Text

/-!
# Blueprints

A blueprint is creation code that is deployed as data, behind a preamble:

    FE 71 <4 * version + width> <length of the data, width bytes> <data> <initcode>

The version is below 64 and the width of the length is 0, 1 or 2; 3 is reserved.  With width 0 there
is no data at all, which differs from data of length 0.
-/

namespace CodeMatch

structure Blueprint where
  version : Nat
  data : Option Bytes
  initcode : Bytes
deriving DecidableEq, Repr

namespace Blueprint

inductive Fault where
  | noPreamble
  | reservedWidth
  | truncatedLength
  /-- the data ends after the code does; `total` is the length of the code -/
  | dataTooLong (declared total : Nat)
deriving DecidableEq, Repr

def Fault.message : Fault → String
  | .noPreamble => "not an ERC-5202 blueprint (missing 0xFE71 preamble)"
  | .reservedWidth => "reserved blueprint length-encoding bits are set"
  | .truncatedLength => "blueprint preamble truncated in data length"
  | .dataTooLong declared total =>
    "blueprint data length " ++ Text.naturalText declared ++ " exceeds bytecode length " ++
      Text.naturalText total

/-- the parts after the preamble's first three bytes; `width` is that of the length field -/
def parseBody (version width : Nat) (body : Bytes) : Except Fault Blueprint :=
  if width = 3 then .error .reservedWidth
  else if body.length < width then .error .truncatedLength
  else
    let declared := Bytes.toNat (body.take width)
    let rest := body.drop width
    if rest.length < declared then .error (.dataTooLong declared (3 + body.length))
    else
      let data := if width = 0 then none else some (rest.take declared)
      .ok ⟨version, data, rest.drop declared⟩

def parse : Bytes → Except Fault Blueprint
  | 0xFE :: 0x71 :: head :: body => parseBody (head.toNat / 4) (head.toNat % 4) body
  | _ => .error .noPreamble

theorem parse_cons (head : UInt8) (body : Bytes) :
    parse (0xFE :: 0x71 :: head :: body) = parseBody (head.toNat / 4) (head.toNat % 4) body := rfl

/-! ## building -/

inductive BuildFault where
  | badVersion
  | dataTooLong
deriving DecidableEq, Repr

def BuildFault.message : BuildFault → String
  | .badVersion => "erc_version must fit in 6 bits"
  | .dataTooLong => "blueprint data too long for a 2-byte length"

def lengthWidth (n : Nat) : Nat := if n < 256 then 1 else 1 + lengthWidth (n / 256)

def preamble (version width : Nat) (length : Bytes) : Bytes :=
  0xFE :: 0x71 :: UInt8.ofNat (4 * version + width) :: length

def build (initcode : Bytes) (data : Option Bytes) (version : Int) : Except BuildFault Bytes :=
  if 0 ≤ version ∧ version < 64 then
    match data with
    | none => .ok (preamble version.toNat 0 [] ++ initcode)
    | some d =>
      let width := lengthWidth d.length
      if width < 3 then
        .ok (preamble version.toNat width (Bytes.ofNat width d.length) ++ d ++ initcode)
      else .error .dataTooLong
  else .error .badVersion

end Blueprint

end CodeMatch
