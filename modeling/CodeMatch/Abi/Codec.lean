import CodeMatch.Bytes

/-!
# Encoded arguments

Arguments are encoded by type.  A frame is a list of parts, heads first and tails after them.  A static part
stands in the head itself; for a dynamic one the head has the offset of its tail, counted from the start of the
frame.  Tails follow each other in order without gaps, so each value has one encoding.

Data is decoded in place: a decoder is given a position and hands back the value and the position after it.
Bytes that nothing points to are not looked at, so one value may be decoded from many byte strings; the
canonical one among them is the encoding of the value.
-/

namespace CodeMatch.Abi

/-! ## types -/

/-- types that fill one word; `size` counts bytes -/
inductive Word where
  | uint (size : Nat)
  | int (size : Nat)
  | bool
  | bytes (size : Nat)
deriving DecidableEq, Repr

inductive Ty where
  | word (w : Word)
  | bytes
  | text
  /-- an array of `size` elements, or of any number of them -/
  | array (element : Ty) (size : Option Nat)
  | tuple (parts : List Ty)
deriving Repr

inductive Value where
  | int (n : Int)
  | bool (b : Bool)
  | bytes (b : Bytes)
  | text (s : String)
  | list (items : List Value)
deriving Repr, Inhabited

def Word.Holds : Word → Value → Prop
  | .uint size, .int n => 0 ≤ n ∧ n < Bytes.capacity size
  | .int size, .int n => -(Bytes.capacity size : Int) ≤ 2 * n ∧ 2 * n < Bytes.capacity size
  | .bool, .bool _ => True
  | .bytes size, .bytes b => b.length = size
  | _, _ => False

def utf8 (s : String) : Bytes := s.toUTF8.data.toList

def FitsWord (n : Nat) : Prop := n < Bytes.capacity 32

/-- the lengths of an array with the given size, which is not written, or of one without a size -/
def HoldsLength : Option Nat → Nat → Prop
  | some size, n => n = size
  | none, n => FitsWord n

mutual

def Ty.Holds : Ty → Value → Prop
  | .word w, v => w.Holds v
  | .bytes, .bytes b => FitsWord b.length
  | .text, .text s => FitsWord (utf8 s).length
  | .array e size, .list vs => HoldsLength size vs.length ∧ ∀ v ∈ vs, e.Holds v
  | .tuple ts, .list vs => Ty.HoldsAll ts vs
  | _, _ => False

def Ty.HoldsAll : List Ty → List Value → Prop
  | [], [] => True
  | t :: ts, v :: vs => t.Holds v ∧ Ty.HoldsAll ts vs
  | _, _ => False

end

mutual

def Ty.isDynamic : Ty → Bool
  | .word _ => false
  | .bytes => true
  | .text => true
  | .array _ none => true
  | .array e (some _) => e.isDynamic
  | .tuple ts => Ty.anyDynamic ts

def Ty.anyDynamic : List Ty → Bool
  | [] => false
  | t :: ts => t.isDynamic || Ty.anyDynamic ts

end

/-- the words that the pointer check counts for a type: a static array counts its elements, anything
else counts one -/
def Ty.headWords : Ty → Nat
  | .array e (some n) => if e.isDynamic then 1 else n
  | _ => 1

/-! ## encoding -/

def wordSize : Nat := 32

def Word.encode : Word → Value → Bytes
  | .bytes size, .bytes b => b ++ Bytes.zeros (wordSize - size)
  | .bool, .bool b => Bytes.ofNat wordSize (if b then 1 else 0)
  | .uint _, .int n => Bytes.ofNat wordSize n.toNat
  | .int _, .int n => Bytes.ofNat wordSize (n % (Bytes.capacity wordSize : Int)).toNat
  | _, _ => []

/-- the length of `n` bytes in whole words, counted in bytes -/
def paddedLength (n : Nat) : Nat := (n + 31) / 32 * 32

def padded (b : Bytes) : Bytes := b ++ Bytes.zeros (paddedLength b.length - b.length)

theorem length_padded (b : Bytes) : (padded b).length = paddedLength b.length := by
  simp only [padded, List.length_append, Bytes.length_zeros, paddedLength]; omega

/-- one part of a frame: its encoding, and whether that stands in the tail -/
structure Part where
  dynamic : Bool
  code : Bytes

def headLength : List Part → Nat
  | [] => 0
  | p :: ps => (if p.dynamic then wordSize else p.code.length) + headLength ps

/-- the heads of the parts, the next tail standing at `off` -/
def heads (off : Nat) : List Part → Bytes
  | [] => []
  | p :: ps =>
    if p.dynamic then Bytes.ofNat wordSize off ++ heads (off + p.code.length) ps
    else p.code ++ heads off ps

def tails : List Part → Bytes
  | [] => []
  | p :: ps => (if p.dynamic then p.code else []) ++ tails ps

def frame (ps : List Part) : Bytes := heads (headLength ps) ps ++ tails ps

theorem length_heads (off : Nat) (ps : List Part) : (heads off ps).length = headLength ps := by
  induction ps generalizing off with
  | nil => rfl
  | cons p ps ih =>
    simp only [heads, headLength]
    split <;> simp [ih, Bytes.length_ofNat]

/-- whether one word holds each offset, the next tail standing at `off` -/
def offsetsFit (off : Nat) : List Part → Bool
  | [] => true
  | p :: ps =>
    if p.dynamic then off < Bytes.capacity wordSize && offsetsFit (off + p.code.length) ps
    else offsetsFit off ps

def frameFits (ps : List Part) : Bool := offsetsFit (headLength ps) ps

mutual

def encode : Ty → Value → Bytes
  | .word w, v => w.encode v
  | .bytes, .bytes b => Bytes.ofNat wordSize b.length ++ padded b
  | .text, .text s => Bytes.ofNat wordSize (utf8 s).length ++ padded (utf8 s)
  | .array e (some _), .list vs => frame (vs.map fun v => ⟨e.isDynamic, encode e v⟩)
  | .array e none, .list vs =>
    Bytes.ofNat wordSize vs.length ++ frame (vs.map fun v => ⟨e.isDynamic, encode e v⟩)
  | .tuple ts, .list vs => frame (encodeParts ts vs)
  | _, _ => []

def encodeParts : List Ty → List Value → List Part
  | t :: ts, v :: vs => ⟨t.isDynamic, encode t v⟩ :: encodeParts ts vs
  | _, _ => []

end

mutual

def fits : Ty → Value → Bool
  | .array e _, .list vs =>
    (vs.all fun v => fits e v) && frameFits (vs.map fun v => ⟨e.isDynamic, encode e v⟩)
  | .tuple ts, .list vs => fitsAll ts vs && frameFits (encodeParts ts vs)
  | _, _ => true

def fitsAll : List Ty → List Value → Bool
  | t :: ts, v :: vs => fits t v && fitsAll ts vs
  | _, _ => true

end

def encodeArguments (ts : List Ty) (vs : List Value) : Option Bytes :=
  if fits (.tuple ts) (.list vs) then some (encode (.tuple ts) (.list vs)) else none

/-! ## decoding -/

/-- data of the wrong shape, a length that is too large to be read, and bytes that are no text -/
inductive Fault where
  | malformed
  | lengthOverflow
  | notText
deriving DecidableEq, Repr

def wordAt (data : Bytes) (pos : Nat) : Except Fault Bytes :=
  if pos + wordSize ≤ data.length then .ok (Bytes.slice data pos wordSize) else .error .malformed

def numberAt (data : Bytes) (pos : Nat) : Except Fault Nat := (wordAt data pos).map Bytes.toNat

def paddedWith (x : UInt8) (b : Bytes) : Bool := b.all (· = x)

/-- the number that `b` writes in two's complement -/
def signedNumber (b : Bytes) : Int :=
  let n := Bytes.toNat b
  if 2 * n ≥ Bytes.capacity b.length then (n : Int) - Bytes.capacity b.length else n

def Word.decode (b : Bytes) : Word → Except Fault Value
  | .uint size =>
    if paddedWith 0 (b.take (wordSize - size)) then
      .ok (.int (Bytes.toNat (b.drop (wordSize - size))))
    else .error .malformed
  | .int size =>
    let n := signedNumber (b.drop (wordSize - size))
    if paddedWith (if n < 0 then 0xff else 0) (b.take (wordSize - size)) then .ok (.int n)
    else .error .malformed
  | .bool =>
    match Bytes.toNat b with
    | 0 => .ok (.bool false)
    | 1 => .ok (.bool true)
    | _ => .error .malformed
  | .bytes size =>
    if paddedWith 0 (b.drop size) then .ok (.bytes (b.take size)) else .error .malformed

/-- lengths from here on cannot be read -/
def lengthBound : Nat := Nat.pow 2 63

def blob (data : Bytes) (pos : Nat) : Except Fault (Bytes × Nat) := do
  let n ← numberAt data pos
  let start := pos + wordSize
  let total := paddedLength n
  if total ≥ lengthBound then .error .lengthOverflow
  else if start + total > data.length then .error .malformed
  else if paddedWith 0 (Bytes.slice data (start + n) (total - n)) then
    .ok (Bytes.slice data start n, start + total)
  else .error .malformed

def textOf (b : Bytes) : Except Fault String :=
  match String.fromUTF8? ⟨b.toArray⟩ with
  | some s => .ok s
  | none => .error .notText

/-- the offset in the word at `pos`, counted from `base`, has to point behind the head and into the
data -/
def checkPointer (data : Bytes) (base headEnd pos : Nat) : Except Fault Unit := do
  let offset ← numberAt data pos
  if headEnd ≤ base + offset ∧ base + offset < data.length then .ok () else .error .malformed

/-- the same for `n` words in a row -/
def checkPointers (data : Bytes) (base headEnd : Nat) : Nat → Nat → Except Fault Unit
  | 0, _ => .ok ()
  | n + 1, pos => do
    checkPointer data base headEnd pos
    checkPointers data base headEnd n (pos + wordSize)

/-- a part of a frame that starts at `base`: decoded in place, or found through the offset at `pos` -/
def partAt (data : Bytes) (base : Nat) (dynamic : Bool) (decode : Nat → Except Fault (Value × Nat))
    (pos : Nat) : Except Fault (Value × Nat) :=
  if dynamic then do
    let offset ← numberAt data pos
    let (v, _) ← decode (base + offset)
    .ok (v, pos + wordSize)
  else decode pos

def repeatAt (part : Nat → Except Fault (Value × Nat)) : Nat → Nat → Except Fault (List Value × Nat)
  | 0, pos => .ok ([], pos)
  | n + 1, pos => do
    let (v, pos) ← part pos
    let (vs, pos) ← repeatAt part n pos
    .ok (v :: vs, pos)

/-- `n` elements of an array whose frame starts at `base` -/
def elementsAt (data : Bytes) (dynamic : Bool) (decode : Nat → Except Fault (Value × Nat))
    (n base : Nat) : Except Fault (Value × Nat) := do
  if dynamic then checkPointers data base (base + wordSize * n) n base
  let (vs, pos) ← repeatAt (partAt data base dynamic decode) n base
  .ok (.list vs, pos)

/-- the length of the head of a tuple, as the pointer check counts it -/
def countedHead : List Ty → Nat
  | [] => 0
  | t :: ts => wordSize * t.headWords + countedHead ts

mutual

def decodeAt (data : Bytes) : Ty → Nat → Except Fault (Value × Nat)
  | .word w, pos => do
    let b ← wordAt data pos
    let v ← w.decode b
    .ok (v, pos + wordSize)
  | .bytes, pos => do
    let (b, next) ← blob data pos
    .ok (.bytes b, next)
  | .text, pos => do
    let (b, next) ← blob data pos
    let s ← textOf b
    .ok (.text s, next)
  | .array e (some n), pos => elementsAt data e.isDynamic (decodeAt data e) n pos
  | .array e none, pos => do
    let n ← numberAt data pos
    elementsAt data e.isDynamic (decodeAt data e) n (pos + wordSize)
  | .tuple ts, pos => do
    checkParts data pos (pos + countedHead ts) ts pos
    let (vs, next) ← decodeParts data pos ts pos
    .ok (.list vs, next)

/-- the parts of a tuple that starts at `base`, from `pos` on: offsets are checked, and static parts
decoded -/
def checkParts (data : Bytes) (base headEnd : Nat) : List Ty → Nat → Except Fault Unit
  | [], _ => .ok ()
  | t :: ts, pos =>
    if t.isDynamic then do
      checkPointer data base headEnd pos
      checkParts data base headEnd ts (pos + wordSize)
    else do
      let (_, next) ← decodeAt data t pos
      checkParts data base headEnd ts next

/-- the values of the parts of a tuple that starts at `base`, from `pos` on -/
def decodeParts (data : Bytes) (base : Nat) : List Ty → Nat → Except Fault (List Value × Nat)
  | [], pos => .ok ([], pos)
  | t :: ts, pos => do
    let (v, pos) ← partAt data base t.isDynamic (decodeAt data t) pos
    let (vs, pos) ← decodeParts data base ts pos
    .ok (v :: vs, pos)

end

def decodeArguments (ts : List Ty) (data : Bytes) : Except Fault (List Value) := do
  match ← decodeAt data (.tuple ts) 0 with
  | (.list vs, _) => .ok vs
  | _ => .error .malformed

end CodeMatch.Abi
