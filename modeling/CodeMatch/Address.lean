import CodeMatch.Bytes
import CodeMatch.Text

/-!
# Addresses and the hash of code

Code hashes and address checksums use Keccak with a 256-bit digest: the permutation of 1600 bits in 24
rounds, absorbing blocks of 136 bytes, with the padding `01 00 … 80`.

An address is 20 bytes, written as `0x` and 40 hexadecimal digits whose letter case is a checksum: a
letter is a capital exactly when the digit at its place in the hash of the lower-case digits is at
least 8.  So all spellings of one address have the same checksum form.
-/

namespace CodeMatch.Keccak

/-- 25 lanes; the one of column `x` and row `y` stands at `x + 5 * y` -/
abbrev State := Array UInt64

/-- the lane at position `i`, zero outside the state -/
def lane (s : State) (i : Nat) : UInt64 := s.getD i 0

def rotate (w : UInt64) (n : Nat) : UInt64 :=
  if n = 0 then w else (w <<< UInt64.ofNat n) ||| (w >>> UInt64.ofNat (64 - n))

def roundConstants : List UInt64 :=
  [0x0000000000000001, 0x0000000000008082, 0x800000000000808A, 0x8000000080008000,
   0x000000000000808B, 0x0000000080000001, 0x8000000080008081, 0x8000000000008009,
   0x000000000000008A, 0x0000000000000088, 0x0000000080008009, 0x000000008000000A,
   0x000000008000808B, 0x800000000000008B, 0x8000000000008089, 0x8000000000008003,
   0x8000000000008002, 0x8000000000000080, 0x000000000000800A, 0x800000008000000A,
   0x8000000080008081, 0x8000000000008080, 0x0000000080000001, 0x8000000080008008]

def rotations : Array Nat :=
  #[0, 1, 62, 28, 27, 36, 44, 6, 55, 20, 3, 10, 43, 25, 39, 41, 45, 15, 21, 8, 18, 2, 61, 56, 14]

/-- each lane takes in the parities of the column before and of the column after, rotated by one -/
def theta (s : State) : State :=
  let parity : Array UInt64 := Array.ofFn fun x : Fin 5 =>
    lane s x ^^^ lane s (x + 5) ^^^ lane s (x + 10) ^^^ lane s (x + 15) ^^^ lane s (x + 20)
  Array.ofFn fun i : Fin 25 =>
    lane s i ^^^ lane parity ((i + 4) % 5) ^^^ rotate (lane parity ((i + 1) % 5)) 1

/-- the lane that ends up in column `x` and row `y` comes from column `x + 3 * y` and row `x` -/
def rhoPi (s : State) : State :=
  Array.ofFn fun i : Fin 25 =>
    let j := (i % 5 + 3 * (i / 5)) % 5 + 5 * (i % 5)
    rotate (lane s j) (rotations.getD j 0)

def chi (s : State) : State :=
  Array.ofFn fun i : Fin 25 =>
    let row := 5 * (i / 5)
    lane s i ^^^ (~~~(lane s (row + (i + 1) % 5)) &&& lane s (row + (i + 2) % 5))

def round (s : State) (c : UInt64) : State :=
  (chi (rhoPi (theta s))).modify 0 (· ^^^ c)

def permute (s : State) : State := roundConstants.foldl round s

def rate : Nat := 136

def pad (m : Bytes) : Bytes :=
  let n := rate - m.length % rate
  if n = 1 then m ++ [0x81] else m ++ 0x01 :: Bytes.zeros (n - 2) ++ [0x80]

/-- eight bytes as a lane, least significant byte first -/
def laneOf (b : Bytes) : UInt64 := b.foldr (fun x w => (w <<< 8) ||| x.toUInt64) 0

def laneBytes (w : UInt64) : Bytes :=
  (List.range 8).map fun i => (w >>> UInt64.ofNat (8 * i)).toUInt8

/-- mixes a block of 17 lanes into the state, lane `i` first -/
def mix (s : State) (i : Nat) : Nat → Bytes → State
  | 0, _ => s
  | n + 1, b => mix (s.modify i (· ^^^ laneOf (b.take 8))) (i + 1) n (b.drop 8)

def absorb (s : State) : Nat → Bytes → State
  | 0, _ => s
  | n + 1, b => absorb (permute (mix s 0 17 (b.take rate))) n (b.drop rate)

def hash (m : Bytes) : Bytes :=
  let p := pad m
  let s := absorb (Array.replicate 25 0) (p.length / rate) p
  (List.range 4).flatMap fun i => laneBytes (lane s i)

theorem length_laneBytes (w : UInt64) : (laneBytes w).length = 8 := by simp [laneBytes]

theorem length_hash (m : Bytes) : (hash m).length = 32 := by
  simp only [hash, List.length_flatMap, length_laneBytes]
  rfl

end CodeMatch.Keccak

namespace CodeMatch.Address

def width : Nat := 20

def lowerDigit (c : Char) : Char :=
  if 'A' ≤ c ∧ c ≤ 'F' then Char.ofNat (c.toNat + 32) else c

def upperDigit (c : Char) : Char :=
  if 'a' ≤ c ∧ c ≤ 'f' then Char.ofNat (c.toNat - 32) else c

/-- the digits of the hash of a run of digits -/
def mask (digits : List Char) : List Char :=
  Hex.digits (Keccak.hash (digits.map fun c => UInt8.ofNat c.toNat))

/-- capitals exactly where the mask has a digit of at least 8 -/
def applyMask (digits mask : List Char) : List Char :=
  List.zipWith (fun c m => if (Hex.digit? m).getD 0 ≥ 8 then upperDigit c else c) digits mask

def casing (digits : List Char) : List Char := applyMask digits (mask digits)

def checksum (digits : List Char) : String := String.ofList ('0' :: 'x' :: casing digits)

def ofBytes (b : Bytes) : String := checksum (Hex.digits b)

inductive Fault where
  | notHex (given : String)
  /-- the text has hexadecimal digits, but not 40 of them -/
  | badLength (given : String) (digits : List Char)
deriving DecidableEq, Repr

def Fault.message : Fault → String
  | .notHex given => "when sending a str, it must be a hex string. Got: " ++ Text.quoted given
  | .badLength given digits =>
    "Unknown format " ++ Text.quoted given ++ ", attempted to normalize to " ++
      Text.quoted (String.ofList ('0' :: 'x' :: digits))

/-- the lower-case digits that a text spells -/
def digitsOf (s : String) : Except Fault (List Char) :=
  let body := Hex.dropMark s.toList
  if body.all Hex.isDigit then
    let digits := body.map lowerDigit
    if digits.length = 2 * width then .ok digits else .error (.badLength s digits)
  else .error (.notHex s)

def ofText (s : String) : Except Fault String := (digitsOf s).map checksum

theorem applyMask_nil (mask : List Char) : applyMask [] mask = [] := by simp [applyMask]

theorem applyMask_cons (c m : Char) (digits mask : List Char) :
    applyMask (c :: digits) (m :: mask) =
      (if (Hex.digit? m).getD 0 ≥ 8 then upperDigit c else c) :: applyMask digits mask := rfl

end CodeMatch.Address
