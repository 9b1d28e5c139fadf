import CodeMatch.Dict
import CodeMatch.Text

/-!
# Document values

The members of an object keep their order, and integers are exact.  A number with a fraction or an exponent
is the nearest double (`Binary64`): the nearest multiple of a power of two with at most 53 significant bits
and an exponent of at least -1074, a tie going to the even one.  Numbers of `2 ^ 1024` and more are infinite.
-/

namespace CodeMatch

inductive Binary64 where
  /-- the number `mantissa * 2 ^ exponent`, negated if `negative` -/
  | finite (negative : Bool) (mantissa : Nat) (exponent : Int)
  | infinite (negative : Bool)
  | notNumber
deriving DecidableEq, Repr, Inhabited

namespace Binary64

/-- the power of two `2 ^ e` for `e ≥ 0`, and 1 below -/
def twoPow (e : Int) : Nat := Nat.pow 2 e.toNat

/-- moves the factors two of `m` into the exponent -/
def normalize (negative : Bool) (m : Nat) (e : Int) : Binary64 :=
  if m = 0 then .finite negative 0 0
  else if m % 2 = 0 then normalize negative (m / 2) (e + 1)
  else .finite negative m e
termination_by m
decreasing_by omega

/-- the integer nearest to `a / b`, the even one of two -/
def roundQuotient (a b : Nat) : Nat :=
  let q := a / b
  let r := a % b
  if 2 * r > b || (2 * r = b && q % 2 = 1) then q + 1 else q

/-- `a / b` in units of `2 ^ e`, as a quotient -/
def scaled (a b : Nat) (e : Int) : Nat × Nat := (a * twoPow (-e), b * twoPow e)

/-- the double nearest to `a / b` -/
def ofRatio (negative : Bool) (a b : Nat) : Binary64 :=
  if a = 0 then .finite negative 0 0
  else
    let low : Int := (Nat.log2 a : Int) - Nat.log2 b - 53
    let (x, y) := scaled a b low
    let e := max (if x / y < twoPow 53 then low else low + 1) (-1074)
    let (x, y) := scaled a b e
    let m := roundQuotient x y
    if e ≥ 0 && m * twoPow e ≥ twoPow 1024 then .infinite negative else normalize negative m e

/-- the double nearest to `m * 10 ^ k`; `digits` is the number of digits of `m` -/
def ofDecimal (negative : Bool) (m digits : Nat) (k : Int) : Binary64 :=
  if m = 0 || (digits : Int) + k < -330 then .finite negative 0 0
  else if (digits : Int) + k > 310 then .infinite negative
  else if k ≥ 0 then ofRatio negative (m * Nat.pow 10 k.toNat) 1
  else ofRatio negative m (Nat.pow 10 (-k).toNat)

def toInt? : Binary64 → Option Int
  | .finite negative m e => if e ≥ 0 then some (Text.withSign negative (m * twoPow e)) else none
  | _ => none

def isZero : Binary64 → Bool
  | .finite _ m _ => m = 0
  | _ => false

/-- zeros in front of a run of digits up to the given width -/
def padded (width : Nat) (s : List Char) : List Char :=
  List.replicate (width - s.length) '0' ++ s

/-- the exact decimal value, with a point; what is not finite is `null` -/
def text : Binary64 → List Char
  | .finite negative m e =>
    let sign := if negative then ['-'] else []
    if e ≥ 0 then sign ++ Text.natural (m * twoPow e) ++ ['.', '0']
    else
      let places := (-e).toNat
      let unit := Nat.pow 10 places
      let n := m * Nat.pow 5 places
      sign ++ Text.natural (n / unit) ++ '.' :: padded places (Text.natural (n % unit))
  | _ => "null".toList

end Binary64

inductive Json where
  | null
  | bool (b : Bool)
  | int (n : Int)
  | float (x : Binary64)
  | text (s : String)
  | list (items : List Json)
  | object (members : List (String × Json))
deriving Repr, Inhabited

namespace Json

mutual

def same : Json → Json → Bool
  | .null, .null => true
  | .bool a, .bool b => a = b
  | .int m, .int n => m = n
  | .float x, .float y => x = y
  | .text s, .text t => s = t
  | .list xs, .list ys => sameItems xs ys
  | .object ms, .object ns => sameMembers ms ns
  | _, _ => false

def sameItems : List Json → List Json → Bool
  | [], [] => true
  | x :: xs, y :: ys => same x y && sameItems xs ys
  | _, _ => false

def sameMembers : List (String × Json) → List (String × Json) → Bool
  | [], [] => true
  | (k, x) :: ms, (l, y) :: ns => k = l && same x y && sameMembers ms ns
  | _, _ => false

end

mutual

theorem same_iff (a b : Json) : same a b = true ↔ a = b := by
  cases a <;> cases b <;> simp [same, sameItems_iff, sameMembers_iff]

theorem sameItems_iff (xs ys : List Json) : sameItems xs ys = true ↔ xs = ys := by
  cases xs <;> cases ys <;> simp [sameItems, same_iff, sameItems_iff]

theorem sameMembers_iff (ms ns : List (String × Json)) : sameMembers ms ns = true ↔ ms = ns := by
  cases ms with
  | nil => cases ns <;> simp [sameMembers]
  | cons m ms =>
    cases ns with
    | nil => simp [sameMembers]
    | cons n ns =>
      obtain ⟨k, x⟩ := m
      obtain ⟨l, y⟩ := n
      simp [sameMembers, same_iff x y, sameMembers_iff ms ns, and_assoc]

end

instance : DecidableEq Json := fun a b => decidable_of_iff (same a b = true) (same_iff a b)

/-- the entries of a dictionary as the members of an object -/
def ofDict {α : Type} (f : α → Json) (d : Dict α) : Json :=
  .object (d.toList.map fun e => (e.1, f e.2))

def ofOption {α : Type} (f : α → Json) : Option α → Json
  | some a => f a
  | none => .null

/-- whether a value counts as given -/
def truthy : Json → Bool
  | .null => false
  | .bool b => b
  | .int n => n != 0
  | .float x => !x.isZero
  | .text s => !s.isEmpty
  | .list items => !items.isEmpty
  | .object members => !members.isEmpty

/-- what a value runs through: a text its characters, and an object its keys -/
def elements? : Json → Option (List Json)
  | .text s => some (s.toList.map fun c => .text (String.singleton c))
  | .list items => some items
  | .object members => some (members.map fun e => .text e.1)
  | _ => none

end Json

end CodeMatch
