import CodeMatch.Json.Text
import CodeMatch.Proofs.Dict
import CodeMatch.Proofs.Text.Numerals
import Mathlib.Data.List.TakeWhile
import Mathlib.Tactic.Common

/-!
# Texts that spell a value

A value has many texts: white space may stand between its parts, and the characters of its strings may
be escaped or not.  The reader takes each of them for the value.

* `SpellsChar c t`, `SpellsString s t`   the ways to write a character inside a string, and a string;
* `Separated P xs t`    texts for `xs`, with commas between them;
* `Spells v t`, `SpellsText v s`   the texts of a value without doubles, also with space around them;
* `Within lim d v`      the value keeps to the limits and nests at most `d` levels deep;
* `string_of_spells`, `number_integer`, `separated_of_spells`   strings, integers and what is between
                        brackets are read as they were spelled;
* `value_of_spells`     so is every value within the limits, and `parse_of_spells` every text of one.
-/

namespace CodeMatch.Json

/-! ## strings -/

inductive SpellsChar : Char → List Char → Prop
  | plain {c : Char} (hc : 0x20 ≤ c.toNat) (hq : c ≠ '"') (hb : c ≠ '\\') : SpellsChar c [c]
  | short {c e : Char} (h : escape? e = some c) : SpellsChar c ['\\', e]
  | unit {a b c d : Char} {n : Nat} (h : hex4? a b c d = some n)
    (hn : ¬ (0xD800 ≤ n ∧ n < 0xE000)) : SpellsChar (Char.ofNat n) ['\\', 'u', a, b, c, d]
  | pair {a b c d e f g i x : Char} {high low : Nat} (h : hex4? a b c d = some high)
    (hi : hex4? e f g i = some low) (hx : pairChar? high low = some x) :
    SpellsChar x ['\\', 'u', a, b, c, d, '\\', 'u', e, f, g, i]

inductive SpellsChars : List Char → List Char → Prop
  | nil : SpellsChars [] []
  | cons {c : Char} {s t u : List Char} (h : SpellsChar c t) (hs : SpellsChars s u) :
    SpellsChars (c :: s) (t ++ u)

/-- the characters of `s`, with the closing quote -/
inductive SpellsString (s : String) : List Char → Prop
  | intro {u : List Char} (h : SpellsChars s.toList u) : SpellsString s ('"' :: u ++ ['"'])

theorem high_of_pairChar? {high low : Nat} {x : Char} (h : pairChar? high low = some x) :
    0xD800 ≤ high ∧ high < 0xE000 := by
  unfold pairChar? at h
  split at h
  case isTrue hb =>
    simp only [Bool.and_eq_true, decide_eq_true_eq] at hb
    omega
  case isFalse => cases h

theorem string_of_spellsChar {c : Char} {t : List Char} (h : SpellsChar c t) (s : List Char) :
    string (t ++ s) = (string s).map fun (u, r) => (c :: u, r) := by
  cases h with
  | plain hc hq hb =>
    have hc' : (c.toNat < 0x20 || c = '\\') = false := by simp [hb]; omega
    rw [List.singleton_append, string, hc'] <;> simp_all
  | @short _ e he =>
    have hu : e ≠ 'u' := by
      rintro rfl
      cases he
    rw [List.cons_append, List.singleton_append, string, he]
    · cases string s <;> rfl
    · intro a b c d r h
      exact absurd h hu
  | unit hn hs =>
    simp only [List.cons_append, List.nil_append]
    rw [string, hn]
    simp only [Bool.and_eq_true, decide_eq_true_eq, if_neg hs]
  | pair hh hl hx =>
    have hs := high_of_pairChar? hx
    simp only [List.cons_append, List.nil_append]
    rw [string, hh]
    simp only [hl, Option.bind_some, hx, Bool.and_eq_true, decide_eq_true_eq, if_pos hs]
    cases string s <;> rfl

theorem string_of_spells {s u : List Char} (h : SpellsChars s u) (r : List Char) :
    string (u ++ '"' :: r) = some (s, r) := by
  induction h with
  | nil => rw [List.nil_append, string]
  | cons h hs ih =>
    rw [List.append_assoc, string_of_spellsChar h, ih]
    rfl

/-! ## values -/

/-- white space -/
def Gap (g : List Char) : Prop := ∀ c ∈ g, isGap c = true

/-- texts for the elements, with a comma between two of them and white space around it; behind the last
there may be white space too -/
inductive Separated {α : Type} (P : α → List Char → Prop) : List α → List Char → Prop
  | one {x : α} {t g : List Char} (h : P x t) (hg : Gap g) : Separated P [x] (t ++ g)
  | more {x : α} {xs : List α} {t g g' u : List Char} (h : P x t) (hg : Gap g) (hg' : Gap g')
    (hs : Separated P xs u) : Separated P (x :: xs) (t ++ (g ++ ',' :: (g' ++ u)))

inductive SpellsMember (P : Json → List Char → Prop) : String × Json → List Char → Prop
  | intro {k : String} {v : Json} {q g g' t : List Char} (hk : SpellsString k q) (hg : Gap g)
    (hg' : Gap g') (h : P v t) : SpellsMember P (k, v) (q ++ (g ++ ':' :: (g' ++ t)))

inductive Spells : Json → List Char → Prop
  | null : Spells .null ['n', 'u', 'l', 'l']
  | yes : Spells (.bool true) ['t', 'r', 'u', 'e']
  | no : Spells (.bool false) ['f', 'a', 'l', 's', 'e']
  | int (n : Int) : Spells (.int n) (Text.integer n)
  | text {s : String} {t : List Char} (h : SpellsString s t) : Spells (.text s) t
  | emptyList {g : List Char} (hg : Gap g) : Spells (.list []) ('[' :: (g ++ [']']))
  | list {vs : List Json} {g t : List Char} (hg : Gap g) (h : Separated Spells vs t) :
    Spells (.list vs) ('[' :: (g ++ (t ++ [']'])))
  | emptyObject {g : List Char} (hg : Gap g) : Spells (.object []) ('{' :: (g ++ ['}']))
  | object {ms : List (String × Json)} {g t : List Char} (hg : Gap g)
    (h : Separated (SpellsMember Spells) ms t) : Spells (.object ms) ('{' :: (g ++ (t ++ ['}'])))

/-- a text of `v`, with white space around it -/
def SpellsText (v : Json) (s : String) : Prop :=
  ∃ g t g', Gap g ∧ Spells v t ∧ Gap g' ∧ s.toList = g ++ (t ++ g')

/-- no integer is too long, no object has a key twice, and lists and objects nest at most so deep -/
inductive Within (lim : Limits) : Nat → Json → Prop
  | null (d : Nat) : Within lim d .null
  | bool (d : Nat) (b : Bool) : Within lim d (.bool b)
  | int (d : Nat) {n : Int} (h : n.natAbs < 10 ^ lim.digits) : Within lim d (.int n)
  | float (d : Nat) (x : Binary64) : Within lim d (.float x)
  | text (d : Nat) (s : String) : Within lim d (.text s)
  | list {d : Nat} {vs : List Json} (h : ∀ v ∈ vs, Within lim d v) : Within lim (d + 1) (.list vs)
  | object {d : Nat} {ms : List (String × Json)} (hk : (keysOf ms).Nodup)
    (h : ∀ m ∈ ms, Within lim d m.2) : Within lim (d + 1) (.object ms)

/-! ## integers -/

/-- what may stand behind a value: nothing, white space, a comma or a closing bracket -/
def Stops : List Char → Prop
  | [] => True
  | c :: _ => isGap c = true ∨ c = ',' ∨ c = ']' ∨ c = '}'

/-- none of that goes on with a number -/
theorem Stops.head {c : Char} {s : List Char} (h : Stops (c :: s)) :
    Text.isAsciiDigit c = false ∧ c ≠ '.' ∧ c ≠ 'e' ∧ c ≠ 'E' := by
  have hc : c = ' ' ∨ c = '\t' ∨ c = '\n' ∨ c = '\r' ∨ c = ',' ∨ c = ']' ∨ c = '}' := by
    rcases h with h | h | h | h
    · simp only [isGap, Bool.or_eq_true, decide_eq_true_eq] at h
      tauto
    all_goals tauto
  rcases hc with rfl | rfl | rfl | rfl | rfl | rfl | rfl <;> decide

/-- a word is not there if its first letter is not -/
theorem afterWord?_cons_of_ne {w : String} {a c : Char} {l : List Char} (hw : w.toList = a :: l)
    (h : a ≠ c) (s : List Char) : afterWord? w (c :: s) = none := by
  rw [afterWord?, hw]
  simp [List.isPrefixOf?, h]

theorem isAsciiDigit_head_natural (n : Nat) :
    ∃ c r, Text.natural n = c :: r ∧ Text.isAsciiDigit c = true := by
  obtain ⟨c, r, hr⟩ := List.exists_cons_of_ne_nil (Text.natural_ne_nil n)
  exact ⟨c, r, hr, Text.isAsciiDigit_of_mem_natural (n := n) (hr ▸ List.mem_cons_self)⟩

/-- an integer begins with a digit or the minus sign -/
theorem head_integer (n : Int) :
    ∃ c r, Text.integer n = c :: r ∧ (Text.isAsciiDigit c = true ∨ c = '-') := by
  cases n with
  | ofNat n =>
    obtain ⟨c, r, hr, hc⟩ := isAsciiDigit_head_natural n
    exact ⟨c, r, hr, .inl hc⟩
  | negSucc n => exact ⟨'-', _, rfl, .inr rfl⟩

section
variable {s : List Char} (hs : Stops s)
include hs

theorem digitRun_append {ds : List Char} (hd : ∀ c ∈ ds, Text.isAsciiDigit c = true) :
    digitRun (ds ++ s) = (ds, s) := by
  have hstop : ∀ c ∈ s.head?, Text.isAsciiDigit c = false := by
    intro c hc
    cases s with
    | nil => cases hc
    | cons e s =>
      cases hc
      exact hs.head.1
  obtain ⟨htake, hdrop⟩ := Text.run_append hd hstop
  rw [digitRun, htake, hdrop]

theorem fraction?_of_stops : fraction? s = some ([], s) := by
  cases s with
  | nil => rfl
  | cons c s =>
    unfold fraction?
    split
    case h_1 h => exact absurd (List.cons.inj h).1 hs.head.2.1
    case h_2 => rfl

theorem exponent?_of_stops : exponent? s = some (none, s) := by
  cases s with
  | nil => rfl
  | cons c s =>
    rw [exponent?, if_neg]
    simp [hs.head.2.2]

variable {lim : Limits} (hlim : 0 < lim.digits)
include hlim

theorem unsigned_natural (negative : Bool) {n : Nat} (hn : n < 10 ^ lim.digits) :
    unsigned lim negative (Text.natural n ++ s) =
      some (.int (Text.withSign negative n), s) := by
  have hempty : (Text.natural n).isEmpty = false := by
    simpa using Text.natural_ne_nil n
  have hzero : (decide ((Text.natural n).length > 1) && decide ((Text.natural n).head? = some '0')) =
      false := by
    rcases Nat.eq_zero_or_pos n with rfl | h
    · rw [Text.natural_of_lt (by decide)]
      rfl
    · rw [decide_eq_false (Text.head?_natural_ne h), Bool.and_false]
  have hlen : ¬ (Text.natural n).length > lim.digits :=
    Nat.not_lt.mpr (Text.length_natural_le hlim hn)
  unfold unsigned
  rw [digitRun_append hs fun c => Text.isAsciiDigit_of_mem_natural]
  simp only [hempty, hzero, fraction?_of_stops hs, exponent?_of_stops hs, Text.value?_natural, hlen]
  rfl

theorem number_integer {n : Int} (hn : n.natAbs < 10 ^ lim.digits) :
    number lim (Text.integer n ++ s) = some (.int n, s) := by
  cases n with
  | ofNat n =>
    have h := unsigned_natural hs hlim false hn
    obtain ⟨c, r, hr, hd⟩ := isAsciiDigit_head_natural n
    have hc : c ≠ '-' := by
      rintro rfl
      cases hd
    rw [show (Int.ofNat n).natAbs = n from rfl, hr] at h
    rw [Text.integer, hr]
    unfold number
    split
    case h_1 h' => exact absurd (List.cons.inj h').1 hc
    case h_2 => exact h
  | negSucc n =>
    have h := unsigned_natural hs hlim true (n := n + 1) hn
    obtain ⟨c, r, hr, hd⟩ := isAsciiDigit_head_natural (n + 1)
    have hc : 'I' ≠ c := by
      rintro rfl
      cases hd
    rw [hr] at h
    rw [Text.integer, List.cons_append, hr, number, List.cons_append,
      afterWord?_cons_of_ne (w := "Infinity") rfl hc]
    exact h

theorem scalar_integer {n : Int} (hn : n.natAbs < 10 ^ lim.digits) :
    scalar lim (Text.integer n ++ s) = some (.int n, s) := by
  have h := number_integer hs hlim hn
  obtain ⟨c, r, hr, hc⟩ := head_integer n
  rw [hr, List.cons_append] at h ⊢
  have hc' : '"' ≠ c ∧ 'n' ≠ c ∧ 't' ≠ c ∧ 'f' ≠ c ∧ 'N' ≠ c ∧ 'I' ≠ c := by
    refine ⟨?_, ?_, ?_, ?_, ?_, ?_⟩ <;> rintro rfl <;> rcases hc with hc | hc <;> cases hc
  obtain ⟨hq, hn, ht, hf, hN, hI⟩ := hc'
  unfold scalar
  split
  case h_1 h' => exact absurd (List.cons.inj h').1.symm hq
  case h_2 =>
    have hwords : ∀ e ∈ words, afterWord? e.1 (c :: (r ++ s)) = none := by
      simp only [words, List.forall_mem_cons]
      exact ⟨afterWord?_cons_of_ne rfl hn _, afterWord?_cons_of_ne rfl ht _,
        afterWord?_cons_of_ne rfl hf _, afterWord?_cons_of_ne rfl hN _,
        afterWord?_cons_of_ne rfl hI _, List.forall_mem_nil _⟩
    split
    case h_1 hfound =>
      obtain ⟨e, he, hword⟩ := List.exists_of_findSome?_eq_some hfound
      obtain ⟨_, hafter, _⟩ := Option.map_eq_some_iff.mp hword
      rw [hwords e he] at hafter
      cases hafter
    case h_2 => exact h

end

/-! ## what stands between brackets -/

section
variable {α : Type}

/-- the rest of a list or an object: elements with commas between them, up to the closing bracket -/
def separated (close : Char) (p : List Char → Option (α × List Char)) :
    Nat → List Char → Option (List α × List Char)
  | 0, _ => none
  | n + 1, s =>
    match p (skipGap s) with
    | none => none
    | some (x, r) =>
      match skipGap r with
      | [] => none
      | c :: r =>
        if c = ',' then (separated close p n r).map fun (xs, r) => (x :: xs, r)
        else if c = close then some ([x], r)
        else none

theorem items_eq (p : List Char → Option (Json × List Char)) (n : Nat) (s : List Char) :
    items p n s = separated ']' p n s := by
  induction n generalizing s with
  | zero => rfl
  | succ n ih =>
    rw [items, separated]
    cases p (skipGap s) with
    | none => rfl
    | some x =>
      obtain ⟨v, r⟩ := x
      simp only
      split
      case h_1 r h => rw [h, ih]; rfl
      case h_2 r h => rw [h]; rfl
      case h_3 hc hb =>
        cases hr : skipGap r with
        | nil => rfl
        | cons c r =>
          have h1 : c ≠ ',' := fun h => hc r (by rw [hr, h])
          have h2 : c ≠ ']' := fun h => hb r (by rw [hr, h])
          simp only [if_neg h1, if_neg h2]

theorem members_eq (p : List Char → Option (Json × List Char)) (n : Nat) (s : List Char) :
    members p n s = separated '}' (memberOf p) n s := by
  induction n generalizing s with
  | zero => rfl
  | succ n ih =>
    rw [members, separated]
    cases memberOf p (skipGap s) with
    | none => rfl
    | some x =>
      obtain ⟨m, r⟩ := x
      simp only
      split
      case h_1 r h => rw [h, ih]; rfl
      case h_2 r h => rw [h]; rfl
      case h_3 hc hb =>
        cases hr : skipGap r with
        | nil => rfl
        | cons c r =>
          have h1 : c ≠ ',' := fun h => hc r (by rw [hr, h])
          have h2 : c ≠ '}' := fun h => hb r (by rw [hr, h])
          simp only [if_neg h1, if_neg h2]

theorem skipGap_append {g : List Char} (hg : Gap g) (s : List Char) :
    skipGap (g ++ s) = skipGap s := List.dropWhile_append_of_pos hg

/-- there is something, and it does not begin with white space -/
def Visible (t : List Char) : Prop := ∃ c r, t = c :: r ∧ isGap c = false

theorem Visible.skipGap_append {t : List Char} (h : Visible t) (s : List Char) :
    skipGap (t ++ s) = t ++ s := by
  obtain ⟨c, r, rfl, hc⟩ := h
  exact List.dropWhile_cons_of_neg (by simp [hc])

theorem skipGap_cons {c : Char} (h : isGap c = false) (s : List Char) :
    skipGap (c :: s) = c :: s := List.dropWhile_cons_of_neg (by simp [h])

variable {P : α → List Char → Prop} {xs : List α} {t : List Char}

theorem Separated.length_le (h : Separated P xs t) (hP : ∀ x t, P x t → Visible t) :
    xs.length ≤ t.length := by
  induction h with
  | one hx hg =>
    obtain ⟨c, r, rfl, _⟩ := hP _ _ hx
    simp
  | more hx hg hg' hs ih =>
    simp only [List.length_cons, List.length_append]
    omega

/-- the text begins with that of an element -/
theorem Separated.front (h : Separated P xs t) : ∃ x u r, P x u ∧ t = u ++ r := by
  cases h with
  | one hx hg => exact ⟨_, _, _, hx, rfl⟩
  | more hx hg hg' hs => exact ⟨_, _, _, hx, rfl⟩

theorem stops_gap {g : List Char} (hg : Gap g) {c : Char} (hc : c = ',' ∨ c = ']' ∨ c = '}')
    (s : List Char) : Stops (g ++ c :: s) := by
  cases g with
  | nil => exact .inr hc
  | cons c' g => exact .inl (hg c' List.mem_cons_self)

theorem not_isGap_of_bracket {c : Char} (hc : c = ',' ∨ c = ']' ∨ c = '}') : isGap c = false := by
  rcases hc with rfl | rfl | rfl <;> rfl

/-- white space in front of an element is passed over -/
theorem separated_gap (p : List Char → Option (α × List Char)) (close : Char) (n : Nat)
    {g : List Char} (hg : Gap g) (s : List Char) :
    separated close p n (g ++ s) = separated close p n s := by
  cases n with
  | zero => rfl
  | succ n => rw [separated, separated, skipGap_append hg]

theorem separated_of_spells {p : List Char → Option (α × List Char)} {close : Char}
    (hclose : close = ']' ∨ close = '}') (h : Separated P xs t)
    (hP : ∀ x t, P x t → Visible t)
    (hp : ∀ x ∈ xs, ∀ t s, P x t → Stops s → p (t ++ s) = some (x, s)) {n : Nat}
    (hn : xs.length ≤ n) (s : List Char) :
    separated close p n (t ++ close :: s) = some (xs, s) := by
  have hgap : isGap close = false := not_isGap_of_bracket (.inr hclose)
  have hcomma : close ≠ ',' := by rcases hclose with rfl | rfl <;> decide
  induction h generalizing n with
  | @one x t g hx hg =>
    cases n with
    | zero => cases hn
    | succ n =>
      rw [separated, List.append_assoc, (hP _ _ hx).skipGap_append,
        hp x List.mem_cons_self _ _ hx (stops_gap hg (.inr hclose) s)]
      simp only [skipGap_append hg, skipGap_cons hgap, if_neg hcomma, if_true]
  | @more x xs t g g' u hx hg hg' hs ih =>
    cases n with
    | zero => cases hn
    | succ n =>
      have hrest := ih (fun x hx => hp x (List.mem_cons_of_mem _ hx)) (Nat.le_of_succ_le_succ hn)
      rw [separated, List.append_assoc, List.append_assoc, List.cons_append, List.append_assoc,
        (hP _ _ hx).skipGap_append,
        hp x List.mem_cons_self _ _ hx (stops_gap hg (.inl rfl) _)]
      simp only [skipGap_append hg, skipGap_cons (not_isGap_of_bracket (.inl rfl)), if_true,
        separated_gap p close n hg', hrest]
      rfl

end

/-! ## values -/

theorem SpellsMember.head {P : Json → List Char → Prop} {m : String × Json} {t : List Char}
    (h : SpellsMember P m t) : ∃ r, t = '"' :: r := by
  cases h with
  | intro hk hg hg' h =>
    cases hk with
    | intro hu => exact ⟨_, rfl⟩

theorem SpellsMember.visible {P : Json → List Char → Prop} {m : String × Json} {t : List Char}
    (h : SpellsMember P m t) : Visible t := by
  obtain ⟨r, rfl⟩ := h.head
  exact ⟨'"', r, rfl, rfl⟩

theorem Spells.head {v : Json} {t : List Char} (h : Spells v t) :
    ∃ c r, t = c :: r ∧ isGap c = false ∧ c ≠ ']' := by
  cases h with
  | null => exact ⟨_, _, rfl, rfl, by decide⟩
  | yes => exact ⟨_, _, rfl, rfl, by decide⟩
  | no => exact ⟨_, _, rfl, rfl, by decide⟩
  | int n =>
    obtain ⟨c, r, hr, hc⟩ := head_integer n
    refine ⟨c, r, hr, ?_, ?_⟩
    · rw [Bool.eq_false_iff]
      intro hgap
      have hstops : Stops [c] := .inl hgap
      rcases hc with hc | rfl
      · rw [hstops.head.1] at hc
        cases hc
      · cases hgap
    · rintro rfl
      rcases hc with hc | hc <;> cases hc
  | text h =>
    cases h with
    | intro h => exact ⟨_, _, rfl, rfl, by decide⟩
  | emptyList hg => exact ⟨_, _, rfl, rfl, by decide⟩
  | list hg h => exact ⟨_, _, rfl, rfl, by decide⟩
  | emptyObject hg => exact ⟨_, _, rfl, rfl, by decide⟩
  | object hg h => exact ⟨_, _, rfl, rfl, by decide⟩

theorem Spells.visible {v : Json} {t : List Char} (h : Spells v t) : Visible t := by
  obtain ⟨c, r, hr, hc, _⟩ := h.head
  exact ⟨c, r, hr, hc⟩

section
variable {lim : Limits}

/-- nothing but a bracket or a brace opens a level -/
theorem value_of_scalar {c : Char} (hl : c ≠ '[') (ho : c ≠ '{') (d : Nat) (s : List Char) :
    value lim d (c :: s) = scalar lim (c :: s) := by
  cases d with
  | zero => rfl
  | succ d =>
    unfold value
    split
    case h_1 h => exact absurd (List.cons.inj h).1 hl
    case h_2 h => exact absurd (List.cons.inj h).1 ho
    case h_3 => rfl

theorem memberOf_of_spells {p : List Char → Option (Json × List Char)} {m : String × Json}
    {t s : List Char} (h : SpellsMember Spells m t) (hs : Stops s)
    (hp : ∀ t s, Spells m.2 t → Stops s → p (t ++ s) = some (m.2, s)) :
    memberOf p (t ++ s) = some (m, s) := by
  cases h with
  | @intro k v q g g' t hk hg hg' h =>
    cases hk with
    | @intro u hu =>
      simp only [List.cons_append, List.append_assoc, List.nil_append]
      rw [memberOf, string_of_spells hu]
      simp only [skipGap_append hg, skipGap_cons (show isGap ':' = false from rfl),
        skipGap_append hg', h.visible.skipGap_append, hp t s h hs]
      rw [Option.map_some, String.ofList_toList]

theorem value_list {g : List Char} (hg : Gap g) {c : Char} (hc : isGap c = false) (hb : c ≠ ']')
    (d : Nat) (s : List Char) :
    value lim (d + 1) ('[' :: (g ++ c :: s)) =
      (separated ']' (value lim d) (s.length + 1) (c :: s)).map fun (vs, r) => (.list vs, r) := by
  rw [value, skipGap_append hg, skipGap_cons hc, ← items_eq]
  split
  case h_1 h => exact absurd (List.cons.inj h).1 hb
  case h_2 => rfl

theorem value_object {g : List Char} (hg : Gap g) {c : Char} (hc : isGap c = false) (hb : c ≠ '}')
    (d : Nat) (s : List Char) :
    value lim (d + 1) ('{' :: (g ++ c :: s)) =
      (separated '}' (memberOf (value lim d)) (s.length + 1) (c :: s)).map
        fun (ms, r) => (.object (merged ms), r) := by
  rw [value, skipGap_append hg, skipGap_cons hc, ← members_eq]
  split
  case h_1 h => exact absurd (List.cons.inj h).1 hb
  case h_2 => rfl

/-- **Every spelling is read.** -/
theorem value_of_spells (hlim : 0 < lim.digits) {v : Json} {d : Nat} (hw : Within lim d v)
    {t s : List Char} (h : Spells v t) (hs : Stops s) : value lim d (t ++ s) = some (v, s) := by
  induction hw generalizing t s with
  | null d =>
    cases h
    exact value_of_scalar (by decide) (by decide) d _
  | bool d b =>
    cases h with
    | yes => exact value_of_scalar (by decide) (by decide) d _
    | no => exact value_of_scalar (by decide) (by decide) d _
  | float d x => cases h
  | @int d n hn =>
    cases h with
    | int _ =>
      obtain ⟨c, r, hr, hc⟩ := head_integer n
      have hl : c ≠ '[' := by
        rintro rfl
        rcases hc with hc | hc <;> cases hc
      have ho : c ≠ '{' := by
        rintro rfl
        rcases hc with hc | hc <;> cases hc
      rw [← scalar_integer hs hlim hn, hr, List.cons_append, value_of_scalar hl ho]
  | text d str =>
    cases h with
    | text h =>
      cases h with
      | intro hu =>
        simp only [List.cons_append, List.append_assoc, List.nil_append]
        rw [value_of_scalar (by decide) (by decide), scalar, string_of_spells hu]
        show some (Json.text (String.ofList str.toList), s) = _
        rw [String.ofList_toList]
  | @list d vs hvs ih =>
    cases h with
    | emptyList hg =>
      simp only [List.cons_append, List.append_assoc, List.nil_append]
      rw [value]
      simp only [skipGap_append hg, skipGap_cons (show isGap ']' = false from rfl)]
    | @list _ g t hg ht =>
      obtain ⟨v, u, r, hu, hfront⟩ := ht.front
      obtain ⟨c, r', rfl, hc, hb⟩ := hu.head
      have hlen := ht.length_le fun _ _ h => h.visible
      have hread := fun n hn => separated_of_spells (n := n) (.inl rfl) ht (fun _ _ h => h.visible)
        (fun v hv t s h hs => ih v hv h hs) hn s
      subst hfront
      simp only [List.cons_append, List.append_assoc, List.nil_append] at hread ⊢
      rw [value_list hg hc hb, hread]
      · rfl
      · simp only [List.length_append, List.length_cons] at hlen ⊢
        omega
  | @object d ms hk hms ih =>
    cases h with
    | emptyObject hg =>
      simp only [List.cons_append, List.append_assoc, List.nil_append]
      rw [value]
      simp only [skipGap_append hg, skipGap_cons (show isGap '}' = false from rfl)]
    | @object _ g t hg ht =>
      obtain ⟨m, u, r, hu, hfront⟩ := ht.front
      obtain ⟨r', rfl⟩ := hu.head
      have hlen := ht.length_le fun _ _ h => h.visible
      have hread := fun n hn => separated_of_spells (n := n) (.inr rfl) ht (fun _ _ h => h.visible)
        (fun m hm t s h hs => memberOf_of_spells h hs fun t s h hs => ih m hm h hs) hn s
      subst hfront
      simp only [List.cons_append, List.append_assoc, List.nil_append] at hread ⊢
      rw [value_object hg rfl (by decide), hread]
      · show some (Json.object (Dict.ofList ms).toList, s) = _
        rw [Dict.toList_ofList hk]
      · simp only [List.length_append, List.length_cons] at hlen ⊢
        omega

/-- **Every text of a value is read.** -/
theorem parse_of_spells (hlim : 0 < lim.digits) {v : Json} (hw : Within lim lim.depth v)
    {s : String} (h : SpellsText v s) : parse lim s = some v := by
  obtain ⟨g, t, g', hg, ht, hg', hs⟩ := h
  have hstops : Stops g' := by
    cases g' with
    | nil => trivial
    | cons c g' => exact .inl (hg' c List.mem_cons_self)
  have hend : skipGap g' = [] := List.dropWhile_eq_nil_iff.mpr hg'
  rw [parse, hs, skipGap_append hg, ht.visible.skipGap_append, value_of_spells hlim hw ht hstops]
  simp only [hend]
  rfl

end

end CodeMatch.Json
