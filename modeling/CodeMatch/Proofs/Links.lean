import CodeMatch.Proofs.Document.Code
import Mathlib

/-!
# References to libraries, by file and library

The compiler lists references to libraries by file and then by library.  They are kept as one list under the
names `file:library`, and nothing is lost by that: a library's name has no colon, so the last colon of a key
is the one that was put there, even if the file is named by a URL.

* `nested links`, `pairs links`   the references as a document has them; what it declares for each file and
                                  library, one after the other;
* `key p`, `splitKey k`           the name of a pair; the pair of a name, cut at its last colon;
* `ColonFree links`               no library has a colon in its name;
* `Declares v rs`                 the value lists these ranges;
* `Flattened links d`             `d` has the declared ranges under the names of the pairs, and no others;
* `Validated ms d`                `d` are the references of creation or of runtime artifacts;
* `flattenLinks_nested`           what flattening makes of nested references;
* `readLinks_nested_iff`          and what is read then;
* `flattenLinks_flattenLinks`     flattening once is enough.
-/

namespace CodeMatch.Links

open Document Checked

/-- what is declared for each file and library, as a document has it -/
abbrev Nested := Dict (Dict Json)

def nested (links : Nested) : Json := .ofDict (.ofDict id) links

/-- a file and a library, and what is declared for them -/
abbrev Declaration := (String × String) × Json

def ofFile (file : String) (libraries : Dict Json) : List Declaration :=
  libraries.toList.map fun e => ((file, e.1), e.2)

def pairs (links : Nested) : List Declaration := links.toList.flatMap fun e => ofFile e.1 e.2

def key (p : String × String) : String := p.1 ++ ":" ++ p.2

/-- the parts of a key before and after its last colon -/
def splitKey (k : String) : String × String :=
  let reversed := k.toList.reverse
  (String.ofList ((reversed.dropWhile (· ≠ ':')).drop 1).reverse,
    String.ofList (reversed.takeWhile (· ≠ ':')).reverse)

/-- no library has a colon in its name -/
def ColonFree (links : Nested) : Prop :=
  ∀ e ∈ links.toList, ∀ library ∈ e.2.keys, ':' ∉ library.toList

/-- the value is the list of these ranges -/
def Declares (v : Json) (rs : List ByteRange) : Prop :=
  ∃ vs, v = .list vs ∧ vs.map ByteRange.read = rs.map valid

/-- the keys are the names of the pairs, in their order, each with the ranges that are declared for it -/
structure Flattened (links : Nested) (d : Ranges) : Prop where
  keys : d.keys = (pairs links).map (key ·.1)
  ranges : ∀ p ∈ pairs links, ∃ rs, d.get? (key p.1) = some rs ∧ Declares p.2 rs

/-- the references in artifacts that were read from an object with the members `ms` -/
inductive Validated (ms : Reader.Members) : Ranges → Prop where
  | creation {a : CreationArtifacts} (h : CreationArtifacts.read (.object ms) = valid a) :
    Validated ms a.linkReferences
  | runtime {a : RuntimeArtifacts} (h : RuntimeArtifacts.read (.object ms) = valid a) :
    Validated ms a.linkReferences

/-! ## names of pairs -/

theorem splitKey_key {file library : String} (h : ':' ∉ library.toList) :
    splitKey (key (file, library)) = (file, library) := by
  have hkey : (key (file, library)).toList.reverse =
      library.toList.reverse ++ ':' :: file.toList.reverse := by
    simp [key]
  have hlibrary : ∀ c ∈ library.toList.reverse, decide (c ≠ ':') = true := by
    intro c hc
    have hne : c ≠ ':' := fun heq => h (List.mem_reverse.mp (heq ▸ hc))
    exact decide_eq_true hne
  have hcolon : ∀ c ∈ (':' :: file.toList.reverse).head?, decide (c ≠ ':') = false := by
    intro c hc
    cases hc
    rfl
  obtain ⟨htake, hdrop⟩ := Text.run_append hlibrary hcolon
  unfold splitKey
  dsimp only
  rw [hkey, htake, hdrop]
  simp

section
variable {links : Nested} {d : Ranges}

theorem splitKey_of_mem (h : ColonFree links) {p : Declaration} (hp : p ∈ pairs links) :
    splitKey (key p.1) = p.1 := by
  obtain ⟨e, he, hp⟩ := List.mem_flatMap.mp hp
  obtain ⟨l, hl, rfl⟩ := List.mem_map.mp hp
  exact splitKey_key (h e he l.1 (List.mem_map_of_mem hl))

theorem map_fst_ofFile (file : String) (libraries : Dict Json) :
    (ofFile file libraries).map Prod.fst = libraries.keys.map (file, ·) := by
  rw [ofFile, List.map_map, Dict.keys, keysOf, List.map_map]
  rfl

/-- a file is listed once, and so is a library under its file -/
theorem nodup_pairs (links : Nested) : ((pairs links).map Prod.fst).Nodup := by
  rw [pairs, List.map_flatMap, List.nodup_flatMap]
  constructor
  · intro e _
    rw [map_fst_ofFile]
    exact e.2.nodup.map fun l l' h => (Prod.mk.inj h).2
  · have hfiles : links.toList.Pairwise fun e e' => e.1 ≠ e'.1 := List.pairwise_map.mp links.nodup
    refine hfiles.imp ?_
    intro e e' hne p hp hp'
    simp only [map_fst_ofFile] at hp hp'
    obtain ⟨l, -, rfl⟩ := List.mem_map.mp hp
    obtain ⟨l', -, heq⟩ := List.mem_map.mp hp'
    exact hne (Prod.mk.inj heq).1.symm

theorem nodup_keys (h : ColonFree links) : ((pairs links).map (key ·.1)).Nodup := by
  have hmap : (pairs links).map (key ·.1) = ((pairs links).map Prod.fst).map key := by
    rw [List.map_map]
    rfl
  rw [hmap]
  refine (nodup_pairs links).map_on ?_
  intro _ hp _ hq heq
  obtain ⟨p, hp', rfl⟩ := List.mem_map.mp hp
  obtain ⟨q, hq', rfl⟩ := List.mem_map.mp hq
  rw [← splitKey_of_mem h hp', heq, splitKey_of_mem h hq']

/-! ## flattening -/

/-- the members of the flat object -/
def flat (links : Nested) : Reader.Members := (pairs links).map fun p => (key p.1, p.2)

theorem keysOf_flat (links : Nested) : keysOf (flat links) = (pairs links).map (key ·.1) := by
  rw [keysOf, flat, List.map_map]
  rfl

theorem flatMap_flattenEntry_nested (es : List (String × Dict Json)) :
    (es.map fun e => (e.1, Json.ofDict id e.2)).flatMap flattenEntry =
      (es.flatMap fun e => ofFile e.1 e.2).map fun p => (key p.1, p.2) := by
  induction es with
  | nil => rfl
  | cons e es ih =>
    have hentry : flattenEntry (e.1, Json.ofDict id e.2) =
        (ofFile e.1 e.2).map fun p => (key p.1, p.2) := by
      simp [flattenEntry, Json.ofDict, ofFile, key]
    rw [List.map_cons, List.flatMap_cons, List.flatMap_cons, List.map_append, ih, hentry]

theorem flattenLinks_nested (h : ColonFree links) :
    flattenLinks (nested links) = .object (flat links) := by
  have hkeys : (keysOf (flat links)).Nodup := by
    rw [keysOf_flat]
    exact nodup_keys h
  have hflat : (links.toList.map fun e => (e.1, Json.ofDict id e.2)).flatMap flattenEntry = flat links :=
    flatMap_flattenEntry_nested links.toList
  rw [nested, Json.ofDict, flattenLinks, hflat, Dict.toList_ofList hkeys]

theorem readLinks_nested_iff (h : ColonFree links) :
    readLinks (nested links) = valid d ↔
      List.Forall₂ (fun e p => e.1 = key p.1 ∧ Declares p.2 e.2) d.toList (pairs links) := by
  have hkeys : (keysOf (flat links)).Nodup := by
    rw [keysOf_flat]
    exact nodup_keys h
  rw [readLinks, flattenLinks_nested h, readRanges, dict_eq_valid hkeys, flat,
    List.forall₂_map_right_iff]
  simp only [list_eq_valid, Declares]

theorem flattened_of_readLinks (h : ColonFree links) (hd : readLinks (nested links) = valid d) :
    Flattened links d := by
  have hall := (readLinks_nested_iff h).mp hd
  constructor
  · rw [Dict.keys, keysOf, ← List.forall₂_eq_eq_eq, List.forall₂_map_left_iff,
      List.forall₂_map_right_iff]
    exact hall.imp fun e p hp => hp.1
  · intro p hp
    obtain ⟨i, hi, rfl⟩ := List.mem_iff_getElem.mp hp
    have hi' : i < d.toList.length := hall.length_eq ▸ hi
    have hkey : d.toList[i].1 = key (pairs links)[i].1 := (hall.get hi' hi).1
    refine ⟨d.toList[i].2, Dict.get?_eq_some_iff.mpr ?_, (hall.get hi' hi).2⟩
    rw [← hkey]
    exact List.getElem_mem hi'

/-- the references are read if what is declared for each pair is a list of ranges -/
theorem exists_readLinks_iff (h : ColonFree links) :
    (∃ d, readLinks (nested links) = valid d) ↔ ∀ p ∈ pairs links, ∃ rs, Declares p.2 rs := by
  constructor
  · intro ⟨d, hd⟩ p hp
    obtain ⟨rs, -, hrs⟩ := (flattened_of_readLinks h hd).ranges p hp
    exact ⟨rs, hrs⟩
  · intro hall
    choose! rs hrs using hall
    have hkeys : (keysOf ((pairs links).map fun p => (key p.1, rs p))).Nodup := by
      rw [keysOf, List.map_map]
      exact nodup_keys h
    refine ⟨Dict.ofList ((pairs links).map fun p => (key p.1, rs p)), ?_⟩
    rw [readLinks_nested_iff h, Dict.toList_ofList hkeys, List.forall₂_map_left_iff, List.forall₂_same]
    exact fun p hp => ⟨rfl, hrs p hp⟩

theorem Validated.readLinks {ms : Reader.Members} (hd : Validated ms d) {k : String} {v : Json}
    (hv : Reader.present? linkReferencesKey.names ms = some (k, v)) : readLinks v = valid d := by
  have hmember : ∀ d, Reader.defaulted linkReferencesKey.names ∅ CodeMatch.readLinks ms = valid d →
      CodeMatch.readLinks v = valid d := by
    intro d hd
    rw [Reader.defaulted, hv] at hd
    exact under_eq_valid.mp hd
  cases hd with
  | @creation a h =>
    simp only [CreationArtifacts.read, Reader.record, functor_eq_valid, seq_eq_valid] at h
    obtain ⟨_, ⟨_, ⟨links, hlinks, rfl⟩, _, _, rfl⟩, _, _, rfl⟩ := h
    exact hmember links hlinks
  | @runtime a h =>
    simp only [RuntimeArtifacts.read, Reader.record, functor_eq_valid, seq_eq_valid] at h
    obtain ⟨_, ⟨_, ⟨_, ⟨_, _, rfl⟩, links, hlinks, rfl⟩, _, _, rfl⟩, _, _, rfl⟩ := h
    exact hmember links hlinks

end

/-! ## flattening again -/

/-- what can be read is flat after one time: its members are lists -/
theorem flattenLinks_flattenLinks {v : Json} {d : Ranges} (h : readLinks v = valid d) :
    flattenLinks (flattenLinks v) = flattenLinks v := by
  cases v with
  | object ms =>
    have hkeys := (Dict.ofList (ms.flatMap flattenEntry)).nodup
    rw [readLinks, readRanges, flattenLinks] at h
    have hall := (dict_eq_valid hkeys).mp h
    rw [flattenLinks]
    refine flattenLinks_of_flat hkeys ?_
    intro m hm libraries heq
    obtain ⟨i, hi, rfl⟩ := List.mem_iff_getElem.mp hm
    obtain ⟨vs, hvs, -⟩ := list_eq_valid.mp (hall.get (hall.length_eq ▸ hi) hi).2
    exact absurd (heq.symm.trans hvs) (by simp)
  | _ => rfl

theorem flattenLinks_lists (flat : Dict (List Json)) :
    flattenLinks (.ofDict .list flat) = .ofDict .list flat := by
  refine flattenLinks_of_flat (flat.map Json.list).nodup ?_
  intro m hm libraries heq
  obtain ⟨e, -, rfl⟩ := List.mem_map.mp hm
  cases heq

theorem readLinks_flattenLinks {v : Json} {d : Ranges} (h : readLinks v = valid d) :
    readLinks (flattenLinks v) = valid d := by
  rw [readLinks, flattenLinks_flattenLinks h]
  exact h

/-- **Flattening loses nothing.**  If no library has a colon in its name, then the name of a pair is the name
of no other and can be taken apart again.  The references in artifacts of either kind that were read are what
is declared for the pairs, under their names and in their order, and they can be read whenever what is
declared are ranges.  References that are flat stay as they are, so a second time changes nothing, neither for
the references nor for artifacts that are written and read again. -/
theorem links_flatten_losslessly :
    (∀ links, ColonFree links →
      (∀ p ∈ pairs links, splitKey (key p.1) = p.1) ∧
      (∀ p ∈ pairs links, ∀ q ∈ pairs links, p.1 ≠ q.1 → key p.1 ≠ key q.1) ∧
      ((∃ d, readLinks (nested links) = valid d) ↔ ∀ p ∈ pairs links, ∃ rs, Declares p.2 rs) ∧
      ∀ ms k d, Reader.present? linkReferencesKey.names ms = some (k, nested links) → Validated ms d →
        Flattened links d) ∧
    (∀ flat : Dict (List Json), flattenLinks (.ofDict .list flat) = .ofDict .list flat) ∧
    (∀ v d, readLinks v = valid d →
      flattenLinks (flattenLinks v) = flattenLinks v ∧ readLinks (flattenLinks v) = valid d) ∧
    (∀ style a, CreationArtifacts.read (CreationArtifacts.write style a) = valid a) ∧
    ∀ style a, RuntimeArtifacts.read (RuntimeArtifacts.write style a) = valid a := by
  refine ⟨?_, flattenLinks_lists, ?_, ?_, ?_⟩
  · intro links hlinks
    refine ⟨fun p => splitKey_of_mem hlinks, ?_, exists_readLinks_iff hlinks, ?_⟩
    · intro p hp q hq hne heq
      apply hne
      rw [← splitKey_of_mem hlinks hp, heq, splitKey_of_mem hlinks hq]
    · intro ms k d hk hd
      exact flattened_of_readLinks hlinks (hd.readLinks hk)
  · intro v d h
    exact ⟨flattenLinks_flattenLinks h, readLinks_flattenLinks h⟩
  · intro style a
    exact (CreationArtifacts.lossless style).reads a
  · intro style a
    exact (RuntimeArtifacts.lossless style).reads a

/-- two files with a library of one name, one of them named by a URL, and one file without libraries -/
theorem links_flatten_losslessly_url :
    let range : Nat → Json := fun n => .object [("start", .int n), ("length", .int 20)]
    let links : Nested := .ofList
      [("https://a.b:80/C.sol", .ofList [("L", .list [range 40, range 1]), ("M", .list [])]),
       ("D.sol", .ofList []), ("C.sol", .ofList [("L", .list [range 7])])]
    let d : Ranges := .ofList
      [("https://a.b:80/C.sol:L", [⟨40, 20⟩, ⟨1, 20⟩]), ("https://a.b:80/C.sol:M", []),
       ("C.sol:L", [⟨7, 20⟩])]
    ColonFree links ∧ Validated [("linkReferences", nested links)] d ∧ Flattened links d ∧
      splitKey "https://a.b:80/C.sol:L" = ("https://a.b:80/C.sol", "L") ∧
      flattenLinks (flattenLinks (nested links)) = flattenLinks (nested links) := by
  intro range links d
  have hlinks : ColonFree links := by unfold ColonFree; decide
  have hd : Validated [("linkReferences", nested links)] d :=
    .creation (a := ⟨d, ∅, none⟩) (by cbv)
  obtain ⟨-, -, -, hflat⟩ := links_flatten_losslessly.1 links hlinks
  have hread : readLinks (nested links) = valid d := by cbv
  exact ⟨hlinks, hd, hflat _ "linkReferences" d rfl hd, by cbv,
    (links_flatten_losslessly.2.2.1 _ d hread).1⟩

end CodeMatch.Links
