
/-!
# Byte strings and their hexadecimal text

Code, hex data and encoded arguments are all lists of bytes.  A window is a pair of an offset and a length.

Byte strings are written as `0x` and two lower-case digits per byte.  Reading is more liberal: the mark may be
absent, and digits have either case.
-/

namespace CodeMatch

abbrev Bytes := List UInt8

namespace Bytes

def slice (b : Bytes) (off len : Nat) : Bytes := (b.drop off).take len

theorem length_slice (b : Bytes) (off len : Nat) :
    (slice b off len).length = min len (b.length - off) := by
  simp [slice]

theorem getElem?_slice (b : Bytes) (off len i : Nat) :
    (slice b off len)[i]? = if i < len then b[off + i]? else none := by
  simp [slice, List.getElem?_take]

def overwrite (b : Bytes) (off : Nat) (v : Bytes) : Bytes :=
  b.take off ++ v ++ b.drop (off + v.length)

theorem length_overwrite {b v : Bytes} {off : Nat} (h : off + v.length ≤ b.length) :
    (overwrite b off v).length = b.length := by
  simp [overwrite]; omega

def zeros (n : Nat) : Bytes := List.replicate n 0

theorem length_zeros (n : Nat) : (zeros n).length = n := by simp [zeros]

/-! ## numbers -/

def capacity (w : Nat) : Nat := Nat.pow 256 w

theorem capacity_zero : capacity 0 = 1 := rfl
theorem capacity_succ (w : Nat) : capacity (w + 1) = capacity w * 256 := rfl

theorem capacity_pos (w : Nat) : 0 < capacity w := by
  induction w with
  | zero => exact Nat.one_pos
  | succ w ih => rw [capacity_succ]; omega

def toNat (b : Bytes) : Nat := b.foldl (fun n x => 256 * n + x.toNat) 0

/-- `n` modulo the capacity of `w` bytes, written in `w` bytes, most significant byte first -/
def ofNat : Nat → Nat → Bytes
  | 0, _ => []
  | w + 1, n => ofNat w (n / 256) ++ [UInt8.ofNat n]

theorem toNat_nil : toNat [] = 0 := rfl

theorem toNat_append_singleton (b : Bytes) (x : UInt8) :
    toNat (b ++ [x]) = 256 * toNat b + x.toNat := by
  simp [toNat, List.foldl_append]

theorem length_ofNat (w n : Nat) : (ofNat w n).length = w := by
  induction w generalizing n with
  | zero => rfl
  | succ w ih => simp [ofNat, ih]

theorem toNat_ofNat (w n : Nat) : toNat (ofNat w n) = n % capacity w := by
  induction w generalizing n with
  | zero => rw [ofNat, toNat_nil, capacity_zero, Nat.mod_one]
  | succ w ih =>
    rw [ofNat, toNat_append_singleton, ih, capacity_succ, Nat.mul_comm (capacity w), Nat.mod_mul]
    simp; omega

end Bytes

/-! ## hexadecimal text -/

namespace Hex

def digit (n : Nat) : Char :=
  if n < 10 then Char.ofNat (48 + n) else Char.ofNat (87 + n)

def digit? (c : Char) : Option Nat :=
  if '0' ≤ c ∧ c ≤ '9' then some (c.toNat - 48)
  else if 'a' ≤ c ∧ c ≤ 'f' then some (c.toNat - 87)
  else if 'A' ≤ c ∧ c ≤ 'F' then some (c.toNat - 55)
  else none

def isDigit (c : Char) : Bool := (digit? c).isSome

def digits (b : Bytes) : List Char :=
  b.flatMap fun x => [digit (x.toNat / 16), digit (x.toNat % 16)]

theorem digits_cons (x : UInt8) (b : Bytes) :
    digits (x :: b) = digit (x.toNat / 16) :: digit (x.toNat % 16) :: digits b := rfl

theorem length_digits (b : Bytes) : (digits b).length = 2 * b.length := by
  induction b with
  | nil => rfl
  | cons x b ih => rw [digits_cons]; simp [ih]; omega

def encode (b : Bytes) : String := String.ofList ('0' :: 'x' :: digits b)

inductive Fault where
  | notAscii
  | oddLength
  | notDigit
deriving DecidableEq, Repr

/-- the text of a fault; a character outside ASCII is refused before any digit is read and has none -/
def Fault.message : Fault → Option String
  | .notAscii => none
  | .oddLength => some "Odd-length string"
  | .notDigit => some "Non-hexadecimal digit found"

def dropMark : List Char → List Char
  | '0' :: 'x' :: r => r
  | '0' :: 'X' :: r => r
  | cs => cs

/-- the bytes that a run of digit pairs spells -/
def ofDigits : List Char → Option Bytes
  | [] => some []
  | [_] => none
  | a :: b :: r =>
    match digit? a, digit? b, ofDigits r with
    | some h, some l, some bytes => some (UInt8.ofNat (16 * h + l) :: bytes)
    | _, _, _ => none

def decode (s : String) : Except Fault Bytes :=
  let cs := dropMark s.toList
  if cs.all fun c => c.toNat < 128 then
    if cs.length % 2 = 1 then .error .oddLength
    else match ofDigits cs with
      | some b => .ok b
      | none => .error .notDigit
  else .error .notAscii

end Hex

end CodeMatch
