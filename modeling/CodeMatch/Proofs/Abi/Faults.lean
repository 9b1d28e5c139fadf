import CodeMatch.Proofs.Abi.Decoded

/-!
# What stops a decoder

Data of the wrong shape is one thing.  The two other faults of decoding have their cause in single words of
the data, and only byte strings and texts meet them.

* `Faults P x`          whatever fault `x` ends in has the property `P`;
* `Ty.PartOf u t`       the type `u` is `t`, or it occurs in `t`;
* `Cause data t f`      what in the data and in the type brings about the fault `f`;
* `cause_of_decodeAt`   every fault has its cause.
-/

namespace CodeMatch.Abi

/-- whatever fault `x` ends in has the property `P` -/
def Faults {α : Type} (P : Fault → Prop) (x : Except Fault α) : Prop := ∀ f, x = .error f → P f

section
variable {α β : Type} {P Q : Fault → Prop} {x : Except Fault α}

theorem faults_ok (a : α) : Faults P (.ok a : Except Fault α) := by
  intro f h
  cases h

theorem faults_error {f : Fault} (h : P f) : Faults P (.error f : Except Fault α) := by
  intro g hg
  cases hg
  exact h

theorem Faults.bind {k : α → Except Fault β} (hx : Faults P x)
    (hk : ∀ a, x = .ok a → Faults P (k a)) : Faults P (x.bind k) := by
  cases x with
  | error f => exact faults_error (hx f rfl)
  | ok a => exact hk a rfl

theorem Faults.guard {p : Prop} [Decidable p] {f : Fault} (hx : Faults P x) (h : P f) :
    Faults P (if p then x else .error f) := by
  split
  · exact hx
  · exact faults_error h

theorem Faults.mono (hx : Faults P x) (h : ∀ f, P f → Q f) : Faults Q x :=
  fun f hf => h f (hx f hf)

end

/-! ## causes -/

/-- the type `u` is the given type, or it occurs in it -/
inductive Ty.PartOf (u : Ty) : Ty → Prop
  | self : Ty.PartOf u u
  | element {e : Ty} {size : Option Nat} : Ty.PartOf u e → Ty.PartOf u (.array e size)
  | part {t : Ty} {ts : List Ty} : t ∈ ts → Ty.PartOf u t → Ty.PartOf u (.tuple ts)

/-- what brings about a fault when a value of type `t` is decoded -/
inductive Cause (data : Bytes) (t : Ty) : Fault → Prop
  | malformed : Cause data t .malformed
  /-- a length word says more than can be read -/
  | lengthOverflow {pos n : Nat} (ht : Ty.bytes.PartOf t ∨ Ty.text.PartOf t)
      (hn : numberAt data pos = .ok n) (hle : lengthBound ≤ paddedLength n) :
      Cause data t .lengthOverflow
  /-- the bytes behind a length word are no text -/
  | notText {pos n : Nat} (ht : Ty.text.PartOf t) (hn : numberAt data pos = .ok n)
      (hle : pos + wordSize + n ≤ data.length)
      (hs : String.fromUTF8? ⟨(Bytes.slice data (pos + wordSize) n).toArray⟩ = none) :
      Cause data t .notText

theorem Cause.mono {data : Bytes} {t u : Ty} (h : ∀ {w : Ty}, w.PartOf t → w.PartOf u) {f : Fault}
    (hf : Cause data t f) : Cause data u f := by
  cases hf with
  | malformed => exact .malformed
  | lengthOverflow ht hn hle => exact .lengthOverflow (ht.imp h h) hn hle
  | notText ht hn hle hs => exact .notText (h ht) hn hle hs

/-! ## places in the data -/

section
variable (data : Bytes) {P : Fault → Prop} (hm : P .malformed)
include hm

theorem faults_wordAt (pos : Nat) : Faults P (wordAt data pos) := (faults_ok _).guard hm

theorem faults_numberAt (pos : Nat) : Faults P (numberAt data pos) := by
  intro f h
  unfold numberAt at h
  cases hb : wordAt data pos with
  | error g =>
    rw [hb] at h
    cases h
    exact faults_wordAt data hm pos f hb
  | ok b =>
    rw [hb] at h
    cases h

theorem Word.faults_decode (w : Word) (b : Bytes) : Faults P (w.decode b) := by
  cases w with
  | uint size => exact (faults_ok _).guard hm
  | int size => exact (faults_ok _).guard hm
  | bool =>
    rw [Word.decode]
    split
    · exact faults_ok _
    · exact faults_ok _
    · exact faults_error hm
  | bytes size => exact (faults_ok _).guard hm

/-- a byte string is stopped by its length, if that is too large -/
theorem faults_blob {pos : Nat}
    (hover : ∀ n, numberAt data pos = .ok n → lengthBound ≤ paddedLength n → P .lengthOverflow) :
    Faults P (blob data pos) := by
  refine (faults_numberAt data hm pos).bind fun n hn => ?_
  dsimp only
  split
  case isTrue h => exact faults_error (hover n hn h)
  case isFalse =>
    split
    case isTrue => exact faults_error hm
    case isFalse => exact (faults_ok _).guard hm

/-! ## frames -/

theorem faults_checkPointer (base headEnd pos : Nat) :
    Faults P (checkPointer data base headEnd pos) :=
  (faults_numberAt data hm pos).bind fun _ _ => (faults_ok _).guard hm

variable {data}

theorem faults_partAt {t : Ty} (ht : ∀ pos, Faults P (decodeAt data t pos)) (base pos : Nat) :
    Faults P (partAt data base t.isDynamic (decodeAt data t) pos) := by
  unfold partAt
  cases t.isDynamic with
  | true =>
    exact (faults_numberAt data hm pos).bind fun offset _ =>
      (ht (base + offset)).bind fun _ _ => faults_ok _
  | false => exact ht pos

section
variable {ts : List Ty} (hts : ∀ t ∈ ts, ∀ pos, Faults P (decodeAt data t pos))
include hts

theorem faults_decodeParts (base pos : Nat) : Faults P (decodeParts data base ts pos) := by
  induction ts generalizing pos with
  | nil => exact faults_ok _
  | cons t ts ih =>
    have hrest := ih fun u hu => hts u (List.mem_cons_of_mem _ hu)
    rw [decodeParts]
    exact (faults_partAt hm (hts t List.mem_cons_self) base pos).bind fun r _ =>
      (hrest r.2).bind fun _ _ => faults_ok _

theorem faults_checkParts (base headEnd pos : Nat) :
    Faults P (checkParts data base headEnd ts pos) := by
  induction ts generalizing pos with
  | nil => exact faults_ok _
  | cons t ts ih =>
    have hrest := ih fun u hu => hts u (List.mem_cons_of_mem _ hu)
    rw [checkParts]
    cases t.isDynamic with
    | true => exact (faults_checkPointer data hm base headEnd pos).bind fun _ _ => hrest _
    | false => exact (hts t List.mem_cons_self pos).bind fun r _ => hrest r.2

theorem faults_tuple (pos : Nat) : Faults P (decodeAt data (.tuple ts) pos) := by
  rw [decodeAt]
  exact (faults_checkParts hm hts _ _ pos).bind fun _ _ =>
    (faults_decodeParts hm hts _ pos).bind fun _ _ => faults_ok _

end

theorem faults_elementsAt {e : Ty} (he : ∀ pos, Faults P (decodeAt data e pos)) (n base : Nat) :
    Faults P (elementsAt data e.isDynamic (decodeAt data e) n base) := by
  have hes : ∀ t ∈ List.replicate n e, ∀ pos, Faults P (decodeAt data t pos) :=
    List.forall_mem_replicate.mpr (.inr he)
  rw [elementsAt_eq]
  cases e.isDynamic with
  | true => exact faults_tuple hm hes base
  | false => exact (faults_decodeParts hm hes base base).bind fun _ _ => faults_ok _

end

/-! ## types -/

section
variable {data : Bytes}

theorem faults_text (pos : Nat) : Faults (Cause data .text) (decodeAt data .text pos) := by
  rw [decodeAt]
  refine Faults.bind (faults_blob data .malformed fun n => .lengthOverflow (.inr .self)) ?_
  rintro ⟨b, next⟩ hb
  obtain ⟨n, hn, hend, rfl⟩ := exists_of_blob hb
  have hle := le_paddedLength n
  refine Faults.bind ?_ fun _ _ => faults_ok _
  unfold textOf
  split
  case h_1 => exact faults_ok _
  case h_2 hs => exact faults_error (.notText .self hn (by omega) hs)

/-- **Every fault of decoding has its cause in the data and in the type.** -/
theorem cause_of_decodeAt (t : Ty) : ∀ pos, Faults (Cause data t) (decodeAt data t pos) := by
  induction t using Ty.inductionOn with
  | word w =>
    intro pos
    rw [decodeAt]
    exact (faults_wordAt data .malformed pos).bind fun b _ =>
      (w.faults_decode .malformed b).bind fun _ _ => faults_ok _
  | bytes =>
    intro pos
    rw [decodeAt]
    exact Faults.bind (faults_blob data .malformed fun n => .lengthOverflow (.inl .self))
      fun _ _ => faults_ok _
  | text => exact faults_text
  | array e size ih =>
    intro pos
    have he : ∀ pos, Faults (Cause data (.array e size)) (decodeAt data e pos) :=
      fun pos => (ih pos).mono fun f => Cause.mono .element
    cases size with
    | some n =>
      rw [decodeAt]
      exact faults_elementsAt .malformed he n pos
    | none =>
      rw [decodeAt]
      exact (faults_numberAt data .malformed pos).bind fun n _ =>
        faults_elementsAt .malformed he n _
  | tuple ts ih =>
    exact faults_tuple .malformed fun t ht pos => (ih t ht pos).mono fun f => Cause.mono (.part ht)

theorem cause_of_decodeArguments {ts : List Ty} {f : Fault}
    (h : decodeArguments ts data = .error f) : Cause data (.tuple ts) f := by
  have hd : Faults (Cause data (.tuple ts)) (decodeArguments ts data) := by
    refine (cause_of_decodeAt (.tuple ts) 0).bind fun r _ => ?_
    split
    · exact faults_ok _
    · exact faults_error .malformed
  exact hd f h

end

end CodeMatch.Abi
