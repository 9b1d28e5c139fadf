import CodeMatch.Proofs.Json.Written

/-!
# Text over several lines

Writing a value over several lines puts white space where it may stand, so what is written is a spelling of
the value and is read as that value.  It is ASCII throughout.

* `indentedItems_eq`, `indentedMembers_eq`   items and members, each on a line of its own, are spread with
                        line ends;
* `spells_indented`     so a value over several lines is spelled;
* `Ascii s`, `ascii_indented`   and there is nothing in it but ASCII;
* `parse_pretty`        the reader takes it for the value, whatever white space follows.
-/

namespace CodeMatch.Json

def memberLine (n : Nat) (m : String × Json) : List Char :=
  stringText m.1 ++ ':' :: ' ' :: indented n m.2

theorem indentedItems_eq (n : Nat) (vs : List Json) :
    indentedItems n vs = spread (newline n) (vs.map (indented n)) := by
  induction vs with
  | nil => rfl
  | cons v vs ih =>
    cases vs with
    | nil => rfl
    | cons w vs =>
      rw [indentedItems, ih]
      · rfl
      · exact List.cons_ne_nil w vs

theorem indentedMembers_eq (n : Nat) (ms : List (String × Json)) :
    indentedMembers n ms = spread (newline n) (ms.map (memberLine n)) := by
  induction ms with
  | nil => rfl
  | cons m ms ih =>
    obtain ⟨k, v⟩ := m
    cases ms with
    | nil => simp [indentedMembers, spread, memberLine]
    | cons m ms =>
      rw [indentedMembers, ih]
      · simp [spread, memberLine]
      · exact List.cons_ne_nil m ms

/-! ## a spelling -/

theorem gap_newline (n : Nat) : Gap (newline n) := by
  intro c hc
  rcases List.mem_cons.mp hc with rfl | hc
  · decide
  · rw [List.eq_of_mem_replicate hc]
    decide

theorem gap_space : Gap [' '] := by
  intro c hc
  rw [List.mem_singleton.mp hc]
  decide

theorem spells_memberLine {n : Nat} {m : String × Json} (h : Spells m.2 (indented n m.2)) :
    SpellsMember Spells m (memberLine n m) :=
  .intro (spells_stringText m.1) gap_nil gap_space h

theorem indented_list {n : Nat} {vs : List Json} (hne : vs ≠ []) :
    indented n (.list vs) =
      '[' :: (spread (newline (n + 1)) (vs.map (indented (n + 1))) ++ newline n ++ [']']) := by
  rw [indented, indentedItems_eq]
  · rfl
  · exact hne

theorem indented_object {n : Nat} {ms : List (String × Json)} (hne : ms ≠ []) :
    indented n (.object ms) =
      '{' :: (spread (newline (n + 1)) (ms.map (memberLine (n + 1))) ++ newline n ++ ['}']) := by
  rw [indented, indentedMembers_eq]
  · rfl
  · exact hne

/-- **What is written over several lines is a spelling.** -/
theorem spells_indented {v : Json} (h : v.Exact) (n : Nat) : Spells v (indented n v) := by
  induction h generalizing n with
  | null => exact .null
  | bool b =>
    cases b with
    | false => exact .no
    | true => exact .yes
  | int k => exact .int k
  | text s => exact .text (spells_stringText s)
  | @list vs hvs ih =>
    by_cases hne : vs = []
    case pos =>
      rw [hne]
      exact .emptyList gap_nil
    case neg =>
      have hitems := fun v hv => ih v hv (n + 1)
      obtain ⟨t, ht, hs⟩ := separated_spread hne hitems (gap_newline (n + 1)) (gap_newline n)
      rw [indented_list hne, ht, List.append_assoc]
      exact .list (gap_newline (n + 1)) hs
  | @object ms hms ih =>
    by_cases hne : ms = []
    case pos =>
      rw [hne]
      exact .emptyObject gap_nil
    case neg =>
      have hmembers := fun m hm => spells_memberLine (ih m hm (n + 1))
      obtain ⟨t, ht, hs⟩ := separated_spread hne hmembers (gap_newline (n + 1)) (gap_newline n)
      rw [indented_object hne, ht, List.append_assoc]
      exact .object (gap_newline (n + 1)) hs

theorem spellsText_pretty {v : Json} (h : v.Exact) {s : String} (hs : Gap s.toList) :
    SpellsText v (v.pretty ++ s) := by
  refine ⟨[], indented 0 v, s.toList, gap_nil, spells_indented h 0, hs, ?_⟩
  rw [pretty, String.toList_append, String.toList_ofList, List.nil_append]

theorem parse_pretty {lim : Limits} (hlim : 0 < lim.digits) {v : Json} (h : v.Exact)
    (hw : Within lim lim.depth v) {s : String} (hs : Gap s.toList) :
    parse lim (v.pretty ++ s) = some v :=
  parse_of_spells hlim hw (spellsText_pretty h hs)

/-! ## ASCII -/

def Ascii (s : List Char) : Prop := ∀ c ∈ s, c.toNat < 128

instance (s : List Char) : Decidable (Ascii s) :=
  decidable_of_iff (s.all fun c => c.toNat < 128) (by simp [Ascii])

theorem ascii_append {s t : List Char} : Ascii (s ++ t) ↔ Ascii s ∧ Ascii t := List.forall_mem_append

theorem ascii_cons {c : Char} {s : List Char} : Ascii (c :: s) ↔ c.toNat < 128 ∧ Ascii s :=
  List.forall_mem_cons

theorem ascii_nil : Ascii [] := List.forall_mem_nil _

theorem ascii_hexDigits (width n : Nat) : Ascii (Text.hexDigits width n) := by
  have hdigit : ∀ d < 16, Ascii [if d < 10 then Char.ofNat (48 + d) else Char.ofNat (87 + d)] := by
    decide
  induction width generalizing n with
  | zero => exact ascii_nil
  | succ width ih =>
    rw [Text.hexDigits]
    exact ascii_append.mpr ⟨ih (n / 16), hdigit (n % 16) (Nat.mod_lt n (by decide))⟩

theorem ascii_unicodeEscape (n : Nat) : Ascii (unicodeEscape n) :=
  ascii_cons.mpr ⟨by decide, ascii_cons.mpr ⟨by decide, ascii_hexDigits 4 n⟩⟩

theorem ascii_escaped (c : Char) : Ascii (escaped c) := by
  have hshort : (['"', '\\', '\n', '\r', '\t', '\x0c', '\x08'].all fun c => Ascii (escaped c)) = true := by
    decide
  by_cases hc : c ∈ ['"', '\\', '\n', '\r', '\t', '\x0c', '\x08']
  case pos => exact of_decide_eq_true (List.all_eq_true.mp hshort c hc)
  case neg =>
    simp only [List.mem_cons, List.not_mem_nil, or_false, not_or] at hc
    simp only [escaped, hc, if_false]
    split
    case isTrue hplain =>
      simp only [Bool.and_eq_true, decide_eq_true_eq] at hplain
      exact ascii_cons.mpr ⟨by omega, ascii_nil⟩
    case isFalse =>
      split
      case isTrue => exact ascii_unicodeEscape _
      case isFalse => exact ascii_append.mpr ⟨ascii_unicodeEscape _, ascii_unicodeEscape _⟩

theorem ascii_stringText (s : String) : Ascii (stringText s) := by
  refine ascii_cons.mpr ⟨by decide, ascii_append.mpr ⟨?_, by decide⟩⟩
  intro c hc
  obtain ⟨e, -, hce⟩ := List.mem_flatMap.mp hc
  exact ascii_escaped e c hce

theorem ascii_natural (n : Nat) : Ascii (Text.natural n) := by
  intro c hc
  have hdigit := Text.isAsciiDigit_iff.mp (Text.isAsciiDigit_of_mem_natural hc)
  omega

theorem ascii_integer (n : Int) : Ascii (Text.integer n) := by
  cases n with
  | ofNat n => exact ascii_natural n
  | negSucc n => exact ascii_cons.mpr ⟨by decide, ascii_natural (n + 1)⟩

theorem ascii_newline (n : Nat) : Ascii (newline n) := by
  refine ascii_cons.mpr ⟨by decide, ?_⟩
  intro c hc
  rw [List.eq_of_mem_replicate hc]
  decide

theorem ascii_spread {g : List Char} (hg : Ascii g) {ts : List (List Char)} (h : ∀ t ∈ ts, Ascii t) :
    Ascii (spread g ts) := by
  induction ts with
  | nil => exact ascii_nil
  | cons t ts ih =>
    have ht : Ascii (g ++ t) := ascii_append.mpr ⟨hg, h t List.mem_cons_self⟩
    have hts : Ascii (spread g ts) := ih fun u hu => h u (List.mem_cons_of_mem t hu)
    cases ts with
    | nil => exact ht
    | cons u ts => exact ascii_append.mpr ⟨ht, ascii_cons.mpr ⟨by decide, hts⟩⟩

theorem ascii_bracketed {l r : Char} (hl : l.toNat < 128) (hr : r.toNat < 128) {n : Nat}
    {ts : List (List Char)} (h : ∀ t ∈ ts, Ascii t) :
    Ascii (l :: (spread (newline (n + 1)) ts ++ newline n ++ [r])) := by
  have hlast : Ascii [r] := ascii_cons.mpr ⟨hr, ascii_nil⟩
  exact ascii_cons.mpr ⟨hl, ascii_append.mpr
    ⟨ascii_append.mpr ⟨ascii_spread (ascii_newline (n + 1)) h, ascii_newline n⟩, hlast⟩⟩

theorem ascii_indented {v : Json} (h : v.Exact) (n : Nat) : Ascii (indented n v) := by
  induction h generalizing n with
  | null => exact show Ascii ['n', 'u', 'l', 'l'] by decide
  | bool b =>
    cases b with
    | false => exact show Ascii ['f', 'a', 'l', 's', 'e'] by decide
    | true => exact show Ascii ['t', 'r', 'u', 'e'] by decide
  | int k => exact ascii_integer k
  | text s => exact ascii_stringText s
  | @list vs hvs ih =>
    by_cases hne : vs = []
    case pos =>
      rw [hne]
      exact show Ascii ['[', ']'] by decide
    case neg =>
      rw [indented_list hne]
      refine ascii_bracketed (by decide) (by decide) ?_
      intro t ht
      obtain ⟨v, hv, rfl⟩ := List.mem_map.mp ht
      exact ih v hv (n + 1)
  | @object ms hms ih =>
    by_cases hne : ms = []
    case pos =>
      rw [hne]
      exact show Ascii ['{', '}'] by decide
    case neg =>
      rw [indented_object hne]
      refine ascii_bracketed (by decide) (by decide) ?_
      intro t ht
      obtain ⟨m, hm, rfl⟩ := List.mem_map.mp ht
      exact ascii_append.mpr ⟨ascii_stringText m.1, ascii_cons.mpr ⟨by decide,
        ascii_cons.mpr ⟨by decide, ih m hm (n + 1)⟩⟩⟩

end CodeMatch.Json
