import CodeMatch.Proofs.Classification
import CodeMatch.Proofs.Document.Code
import CodeMatch.Proofs.Document.Verdicts
import CodeMatch.Proofs.Transparency

/-!
# Matches keep to the limits on documents

The only numbers in a match are the offsets and lengths of its transformations, and they come from declared
ranges.  A compiled contract that was read has no ranges with too many digits, so neither have its matches,
and what is written for them is no longer or deeper than a document may be.

* `ByteRange.Short`, `Match.Short`, `CompiledContract.Short`   no number has too many digits;
* `short_of_readText`      so it is for compiled contracts that were read;
* `Matching.law_short`     and a match has the numbers of its regions;
* `mem_parts_verifyContract`   every match in a verdict comes from one of the three ways to match;
* `Verdict.fits_write_of_short`   what is written for a verdict keeps to the limits.
-/

namespace CodeMatch

open Document Checked

def ByteRange.Short (r : ByteRange) : Prop := Document.Short r.offset ∧ Document.Short r.length

def Match.Short (m : Match) : Prop :=
  ∀ t ∈ m.transformations, Document.Short t.offset ∧ Document.Short t.length

def CompiledContract.Short (c : CompiledContract) : Prop :=
  ∀ r ∈ Region.ofRuntime c.artifacts.runtime ++ Region.ofCreation c.artifacts.creation, r.range.Short

/-! ## ranges that were read -/

theorem Document.short_of_fits {d : Nat} {n : Int} (h : Fits d (.int n)) : Document.Short n := by
  cases h with
  | int _ hn => exact hn

section
variable {d : Nat}

theorem ByteRange.short_of_fits {r : ByteRange} (h : Fits d r.write) : r.Short :=
  ⟨Document.short_of_fits (h.of_mem_object (.head _)),
    Document.short_of_fits (h.of_mem_object (.tail _ (.head _)))⟩

theorem short_of_mem_ofRanges {ranges : Ranges} (h : Fits d (writeRanges ranges)) {reason : Reason}
    {r : Region} (hr : r ∈ Region.ofRanges reason ranges) : r.range.Short := by
  obtain ⟨e, he, hr⟩ := List.mem_flatMap.mp hr
  obtain ⟨range, hrange, rfl⟩ := List.mem_map.mp hr
  have hlist := h.of_mem_object (List.mem_map_of_mem he)
  exact ByteRange.short_of_fits (hlist.of_mem_list (List.mem_map_of_mem hrange))

theorem short_of_mem_ofAuxdata {auxdata : Dict ByteRange} (h : Fits d (writeAuxdata auxdata))
    {r : Region} (hr : r ∈ Region.ofAuxdata auxdata) : r.range.Short := by
  obtain ⟨e, he, rfl⟩ := List.mem_map.mp hr
  exact ByteRange.short_of_fits (h.of_mem_object (List.mem_map_of_mem he))

theorem CompiledContract.short_of_fits {c : CompiledContract} (h : Fits d (c.write .camel)) : c.Short := by
  have hset : Fits d (c.artifacts.write .camel) := h.of_mem_object (.tail _ (.head _))
  have hcreation : Fits d (c.artifacts.creation.write .camel) :=
    hset.of_mem_object (.tail _ (.head _))
  have hruntime : Fits d (c.artifacts.runtime.write .camel) :=
    hset.of_mem_object (.tail _ (.tail _ (.head _)))
  intro r hr
  simp only [Region.ofRuntime, Region.ofCreation, List.mem_append] at hr
  rcases hr with ((hr | hr) | hr) | hr | hr
  · exact short_of_mem_ofRanges (hruntime.of_mem_object (.head _)) hr
  · exact short_of_mem_ofRanges (hruntime.of_mem_object (.tail _ (.head _))) hr
  · exact short_of_mem_ofAuxdata (hruntime.of_mem_object (.tail _ (.tail _ (.head _)))) hr
  · exact short_of_mem_ofRanges (hcreation.of_mem_object (.head _)) hr
  · exact short_of_mem_ofAuxdata (hcreation.of_mem_object (.tail _ (.head _))) hr

end

/-- what was read can be written again, so its numbers are no longer than those of the document -/
theorem CompiledContract.short_of_readText {source : String} {c : CompiledContract}
    (h : CompiledContract.format.readText source = valid c) : c.Short := by
  unfold Format.readText at h
  split at h
  case h_1 v hv =>
    have hfits := (CompiledContract.lossless .camel).fits (by decide) (Json.within_parse hv) h
    exact short_of_fits hfits
  case h_2 => cases h

/-! ## matches -/

theorem Matching.law_short : Law fun _ _ rs m => (∀ r ∈ rs, r.range.Short) → m.Short where
  found := by
    intro b c rs m _ _ hm hrs t ht
    rw [Comparison.transformations_of_compare hm] at ht
    obtain ⟨r, hr, rfl⟩ := List.mem_map.mp ht
    have hmem : r ∈ Region.ordered rs := (List.mem_filter.mp hr).1
    exact hrs r ((Region.ordered_perm rs).mem_iff.mp hmem)
  recorded := by
    intro b c rs m arguments hm hrs t ht
    rw [Matching.transformations_recordArguments] at ht
    exact hm hrs t ht

section
variable {compiled : CompiledContract} {t : OnChainContract} {m : Match}

/-- each match that a verdict rests on was found in one of the three ways -/
theorem mem_parts_verifyContract (h : m ∈ (verifyContract compiled t).value.parts) :
    (∃ b, (Matching.runtime b compiled.recompiled.runtime compiled.artifacts.runtime).value =
      .ok (some m)) ∨
    (∃ b i, (Matching.creation b compiled.recompiled.creation compiled.artifacts.creation i).value =
      .ok (some m)) ∨
    ∃ b, (Matching.blueprint b compiled.recompiled.creation compiled.artifacts.creation).value =
      .ok (some m) := by
  unfold Verdict.parts at h
  simp only [List.mem_append, Option.mem_toList] at h
  cases hb : t.isBlueprint with
  | false =>
    rcases h with h | h
    · obtain ⟨b, -, hm⟩ := (runtime?_verifyContract hb).mp h
      exact .inl ⟨b, hm⟩
    · obtain ⟨b, -, hm⟩ := (creation?_verifyContract hb).mp h
      exact .inr (.inl ⟨b, _, hm⟩)
  | true =>
    unfold verifyContract at h
    rw [hb, value_verifyTarget_blueprint] at h
    cases hcreation : t.code.creation with
    | none =>
      rw [hcreation] at h
      rcases h with h | h <;> cases h
    | some b =>
      rw [hcreation] at h
      dsimp only at h
      -- the one match of a blueprint stands in both places
      rw [Verdict.runtime?_ofMatches, Verdict.creation?_ofMatches, or_self] at h
      exact .inr (.inr ⟨b, Matching.guarded_eq_some_iff.mp h⟩)

theorem short_of_mem_parts (hc : compiled.Short) (h : m ∈ (verifyContract compiled t).value.parts) :
    m.Short := by
  have hruntime : ∀ r ∈ Region.ofRuntime compiled.artifacts.runtime, r.range.Short := by
    intro r hr
    exact hc r (List.mem_append_left _ hr)
  have hcreation : ∀ r ∈ Region.ofCreation compiled.artifacts.creation, r.range.Short := by
    intro r hr
    exact hc r (List.mem_append_right _ hr)
  rcases mem_parts_verifyContract h with ⟨b, hm⟩ | ⟨b, i, hm⟩ | ⟨b, hm⟩
  · exact Matching.law_short.runtime hm hruntime
  · exact Matching.law_short.creation hm hcreation
  · obtain ⟨p, -, hm⟩ := Matching.law_short.blueprint hm
    exact hm hcreation

end

/-! ## what is written -/

section
variable {d : Nat} {α : Type} {write : α → Json}

theorem Document.fits_ofDict (h : ∀ a, Fits d (write a)) (x : Dict α) :
    Fits (d + 1) (.ofDict write x) := by
  refine .object (x.map write).nodup ?_
  intro m hm
  obtain ⟨e, -, rfl⟩ := List.mem_map.mp hm
  exact h e.2

theorem Document.fits_ofOption (h : ∀ a, Fits d (write a)) (o : Option α) :
    Fits d (.ofOption write o) := by
  cases o with
  | none => exact .null d
  | some a => exact h a

end

theorem fits_transformation {d : Nat} {t : Transformation}
    (h : Document.Short t.offset ∧ Document.Short t.length) : Fits (d + 1) t.write := by
  refine .object (show ["type", "reason", "id", "offset", "length", "value"].Nodup by decide) ?_
  simp only [List.forall_mem_cons]
  exact ⟨.text d _, .text d _, .text d _, .int d h.1, .int d h.2, .text d _, List.forall_mem_nil _⟩

theorem fits_matchValues {d : Nat} (v : MatchValues) : Fits (d + 2) v.write := by
  have hbytes : ∀ b, Fits d (ofBytes b) := fun b => .text d _
  refine .object (show ["constructor_arguments", "immutables", "libraries", "cbor_auxdata"].Nodup by
    decide) ?_
  simp only [List.forall_mem_cons]
  exact ⟨fits_ofOption (fun b => .text (d + 1) _) _, fits_ofDict hbytes _,
    fits_ofDict (fun s => .text d s) _, fits_ofDict hbytes _, List.forall_mem_nil _⟩

theorem Match.fits_write {d : Nat} {m : Match} (h : m.Short) : Fits (d + 3) m.write := by
  have htransformations : Fits (d + 2) (.list (m.transformations.map Transformation.write)) := by
    refine .list ?_
    intro w hw
    obtain ⟨t, ht, rfl⟩ := List.mem_map.mp hw
    exact fits_transformation (h t ht)
  refine .object (show ["match_type", "transformations", "values"].Nodup by decide) ?_
  simp only [List.forall_mem_cons]
  exact ⟨.text (d + 2) _, htransformations, fits_matchValues _, List.forall_mem_nil _⟩

theorem fits_verifyContract {compiled : CompiledContract} (hc : compiled.Short) (t : OnChainContract)
    {d : Nat} : Fits (d + 4) (verifyContract compiled t).value.write :=
  Verdict.fits_of_parts fun _ hm => Match.fits_write (short_of_mem_parts hc hm)

end CodeMatch
