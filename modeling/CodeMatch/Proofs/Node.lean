import CodeMatch.Node
import CodeMatch.Proofs.Address

/-!
# What is fetched from a node

How an address is spelled does not matter: every spelling leads to the same question to the node and the same
target.

* `Deployed n blueprint s t`   the target `t` is the code that stands at the address that `s` spells;
* `outcome_fetchContract_iff`  without creation code of its own, a target is fetched if and only if its address
                               can be read and code stands there;
* `FetchedAt n a c b x`        what the fetch `x` of the code at `a` comes to;
* `spelling_immaterial`        and all spellings come to that.
-/

namespace CodeMatch

/-- the deployed code as a target: creation code for a blueprint, runtime code otherwise -/
structure Holds (n : Node) (checksum : String) (blueprint : Bool) (t : OnChainContract) : Prop where
  code_ne_nil : n.codeAt checksum ≠ []
  id_eq : t.id = Text.integerText n.chainId ++ ":" ++ checksum
  isBlueprint_eq : t.isBlueprint = blueprint
  runtime_eq : t.code.runtime = if blueprint then none else some (n.codeAt checksum)
  creation_eq : t.code.creation = if blueprint then some (n.codeAt checksum) else none

def Deployed (n : Node) (blueprint : Bool) (address : String) (t : OnChainContract) : Prop :=
  ∃ checksum, Address.ofText address = .ok checksum ∧ Holds n checksum blueprint t

theorem nonempty?_of_ne_nil {code : Bytes} (h : code ≠ []) : nonempty? code = some code := by
  cases code with
  | nil => exact absurd rfl h
  | cons x code => rfl

theorem contractOf_eq_ok_iff {n : Node} {checksum : String} {blueprint : Bool} {t : OnChainContract} :
    contractOf n checksum none blueprint (n.codeAt checksum) = .ok t ↔
      Holds n checksum blueprint t := by
  by_cases hcode : n.codeAt checksum = []
  · refine iff_of_false (fun h => ?_) fun h => h.code_ne_nil hcode
    rw [hcode] at h
    cases blueprint <;> cases h
  · obtain ⟨id, ⟨runtime, creation, present⟩, flag⟩ := t
    unfold contractOf
    rw [nonempty?_of_ne_nil hcode]
    cases blueprint with
    | false =>
      constructor
      · rintro ⟨⟩
        exact ⟨hcode, rfl, rfl, rfl, rfl⟩
      · rintro ⟨-, rfl, rfl, rfl, rfl⟩
        rfl
    | true =>
      constructor
      · rintro ⟨⟩
        exact ⟨hcode, rfl, rfl, rfl, rfl⟩
      · rintro ⟨-, rfl, rfl, rfl, rfl⟩
        rfl

/-- the address that the node is asked for is already in checksum casing -/
theorem fetchContract_of_ofText {n : Node} {address checksum : String}
    (h : Address.ofText address = .ok checksum) (creationCode : Option Bytes) (blueprint : Bool) :
    (fetchContract n address creationCode blueprint).outcome =
      contractOf n checksum creationCode blueprint (n.codeAt checksum) := by
  unfold fetchContract fetchCode
  rw [h]
  simp only [Address.ofText_of_ofText h]
  rfl

theorem outcome_fetchContract_iff {n : Node} {address : String} {blueprint : Bool}
    {t : OnChainContract} :
    (fetchContract n address none blueprint).outcome = .ok t ↔ Deployed n blueprint address t := by
  unfold Deployed
  cases h : Address.ofText address with
  | error f =>
    refine iff_of_false (fun hf => ?_) fun ⟨_, hc, _⟩ => by cases hc
    unfold fetchContract at hf
    rw [h] at hf
    cases hf
  | ok checksum =>
    rw [fetchContract_of_ofText h, contractOf_eq_ok_iff]
    constructor
    · intro ht
      exact ⟨checksum, rfl, ht⟩
    · rintro ⟨_, ⟨⟩, ht⟩
      exact ht

/-! ## spellings -/

/-- what fetching the code at the address `a` comes to: one question, and a target unless there is no code at
all -/
structure FetchedAt (n : Node) (a : String) (creationCode : Option Bytes) (blueprint : Bool)
    (x : Fetch OnChainContract) : Prop where
  requested_eq : x.requested = [a]
  eq_error_iff : ∀ f, x.outcome = .error f ↔
    f = .noCode ∧ n.codeAt a = [] ∧ (blueprint = true ∨ creationCode = none)
  id_eq : ∀ t, x.outcome = .ok t → t.id = Text.integerText n.chainId ++ ":" ++ a
  isBlueprint_eq : ∀ t, x.outcome = .ok t → t.isBlueprint = blueprint
  runtime_eq : ∀ t, x.outcome = .ok t →
    t.code.runtime = if blueprint = true ∨ n.codeAt a = [] then none else some (n.codeAt a)
  creation_eq : ∀ t, x.outcome = .ok t →
    t.code.creation = if blueprint = true then some (n.codeAt a) else creationCode

section
variable {n : Node} {a : String} {creationCode : Option Bytes} {blueprint : Bool}

theorem contractOf_eq_error_iff {code : Bytes} {f : FetchFault} :
    contractOf n a creationCode blueprint code = .error f ↔
      f = .noCode ∧ code = [] ∧ (blueprint = true ∨ creationCode = none) := by
  cases code <;> cases blueprint <;> cases creationCode <;>
    simp [contractOf, nonempty?, OnChainCode.of?, eq_comm]

theorem of_contractOf_eq_ok {code : Bytes} {t : OnChainContract}
    (h : contractOf n a creationCode blueprint code = .ok t) :
    t.id = Text.integerText n.chainId ++ ":" ++ a ∧ t.isBlueprint = blueprint ∧
      (t.code.runtime = if blueprint = true ∨ code = [] then none else some code) ∧
      t.code.creation = if blueprint = true then some code else creationCode := by
  cases code <;> cases blueprint <;> cases creationCode <;> cases h <;> exact ⟨rfl, rfl, rfl, rfl⟩

theorem fetchContract_of_spells {v : Bytes} {s : String} (h : Address.Spells v s) :
    fetchContract n s creationCode blueprint =
      (fetchCode n (Address.ofBytes v)).andThen
        (contractOf n (Address.ofBytes v) creationCode blueprint) := by
  unfold fetchContract
  rw [Address.ofText_of_spells h]

theorem fetchedAt_of_spells {v : Bytes} {s : String} (h : Address.Spells v s) :
    FetchedAt n (Address.ofBytes v) creationCode blueprint
      (fetchContract n s creationCode blueprint) := by
  have hcode : (fetchContract n s creationCode blueprint).outcome =
      contractOf n (Address.ofBytes v) creationCode blueprint (n.codeAt (Address.ofBytes v)) :=
    fetchContract_of_ofText (Address.ofText_of_spells h) creationCode blueprint
  refine ⟨?_, fun f => ?_, fun t ht => ?_, fun t ht => ?_, fun t ht => ?_, fun t ht => ?_⟩
  · rw [fetchContract_of_spells h, fetchCode,
      Address.ofText_of_spells (Address.spells_ofBytes h.length_eq)]
    rfl
  · rw [hcode]
    exact contractOf_eq_error_iff
  all_goals
    rw [hcode] at ht
    obtain ⟨hid, hflag, hruntime, hcreation⟩ := of_contractOf_eq_ok ht
    assumption

/-- the identifiers of fetched targets tell their addresses apart -/
theorem eq_of_id_eq {n' : Node} {v w : Bytes} {t u : OnChainContract} (hv : v.length = Address.width)
    (hw : w.length = Address.width)
    (ht : t.id = Text.integerText n.chainId ++ ":" ++ Address.ofBytes v)
    (hu : u.id = Text.integerText n'.chainId ++ ":" ++ Address.ofBytes w) (h : t.id = u.id) : v = w := by
  rw [ht, hu] at h
  have hlists := congrArg String.toList h
  simp only [String.toList_append] at hlists
  have hlen : (Address.ofBytes v).toList.length = (Address.ofBytes w).toList.length := by
    rw [Address.length_ofBytes hv, Address.length_ofBytes hw]
  exact Address.ofBytes_injective hv hw (String.toList_injective (List.append_inj' hlists hlen).2)

end

/-- **The spelling of an address does not matter.**  The texts that are taken for an address are the spellings
of 20 bytes.  For all spellings of one address a fetch is the same: the node is asked once, for the address
in checksum casing, which is its own checksum form, and the target with this address in its identifier holds
the code that stands there, unless there is no code at all.  Another address gives another identifier. -/
theorem spelling_immaterial (n : Node) (creationCode : Option Bytes) (blueprint : Bool) :
    (∀ s, (∃ a, Address.ofText s = .ok a) ↔ ∃ v, Address.Spells v s) ∧
    ∀ v s, Address.Spells v s →
      (∀ s', Address.Spells v s' →
        fetchContract n s creationCode blueprint = fetchContract n s' creationCode blueprint) ∧
      (∃ a, Address.InCasing v a ∧ Address.ofText a = .ok a ∧
        FetchedAt n a creationCode blueprint (fetchContract n s creationCode blueprint)) ∧
      ∀ n' creationCode' blueprint' w s' t u, Address.Spells w s' →
        (fetchContract n s creationCode blueprint).outcome = .ok t →
        (fetchContract n' s' creationCode' blueprint').outcome = .ok u → v ≠ w → t.id ≠ u.id := by
  refine ⟨fun s => ?_, fun v s hs => ⟨fun s' hs' => ?_, ?_, ?_⟩⟩
  · simp only [Address.ofText_eq_ok_iff]
    exact ⟨fun ⟨_, v, hv, _⟩ => ⟨v, hv⟩, fun ⟨v, hv⟩ => ⟨_, v, hv, rfl⟩⟩
  · rw [fetchContract_of_spells hs, fetchContract_of_spells hs']
  · exact ⟨Address.ofBytes v, (Address.inCasing_iff (Address.length_le_of_width hs.length_eq)).mpr rfl,
      Address.ofText_of_spells (Address.spells_ofBytes hs.length_eq), fetchedAt_of_spells hs⟩
  · intro n' creationCode' blueprint' w s' t u hs' ht hu hne hid
    exact hne (eq_of_id_eq hs.length_eq hs'.length_eq ((fetchedAt_of_spells hs).id_eq t ht)
      ((fetchedAt_of_spells hs').id_eq u hu) hid)

/-- one address behind a capital mark and in capitals without one: runtime code is found, and without any code
there is no target; the code of another address has another identifier -/
theorem spelling_immaterial_capitals :
    let v : Bytes := List.replicate 20 0xAB
    let s := "0XaBaBaBaBaBaBaBaBaBaBaBaBaBaBaBaBaBaBaBaB"
    let s' := "ABABABABABABABABABABABABABABABABABABABAB"
    let w : Bytes := List.replicate 20 1
    let n : Node := { code := [0x60, 0] }
    Address.Spells v s ∧ Address.Spells v s' ∧
    fetchContract n s none false = fetchContract n s' none false ∧
    (∃ t, (fetchContract n s none false).outcome = .ok t ∧ t.code.runtime = some [0x60, 0] ∧
      ∀ u, (fetchContract n (Address.ofBytes w) none false).outcome = .ok u → t.id ≠ u.id) ∧
    (fetchContract {} s (some [1]) true).outcome = .error .noCode := by
  intro v s s' w n
  have hs : Address.Spells v s := ⟨rfl, by decide +kernel⟩
  have hs' : Address.Spells v s' := ⟨rfl, by decide +kernel⟩
  have hw : Address.Spells w (Address.ofBytes w) := Address.spells_ofBytes rfl
  obtain ⟨hsame, ⟨a, -, -, hfetched⟩, hother⟩ := (spelling_immaterial n none false).2 v s hs
  obtain ⟨-, ⟨a', -, -, hfetched'⟩, -⟩ := (spelling_immaterial {} (some [1]) true).2 v s hs
  have hcode : n.codeAt a = [0x60, 0] := rfl
  refine ⟨hs, hs', hsame s' hs', ?_, (hfetched'.eq_error_iff _).mpr ⟨rfl, rfl, .inl rfl⟩⟩
  cases h : (fetchContract n s none false).outcome with
  | error f =>
    obtain ⟨-, hnil, -⟩ := (hfetched.eq_error_iff f).mp h
    rw [hcode] at hnil
    cases hnil
  | ok t =>
    refine ⟨t, rfl, ?_, fun u hu => hother n none false w _ t u hw h hu (by decide)⟩
    rw [hfetched.runtime_eq t h, hcode]
    rfl

end CodeMatch
