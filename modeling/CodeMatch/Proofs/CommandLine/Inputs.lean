import CodeMatch.Proofs.CommandLine.Options
import CodeMatch.Proofs.Node
import CodeMatch.Proofs.Success
import Mathlib.Data.List.Forall2

/-!
# The inputs of a match

* `FileHolds w f path x`   the file at `path` holds the document form of `x`;
* `Listed w path cs`       the targets of the file, none if no file is named;
* `Fetched w s a cs`       the targets at the addresses, one for each;
* `Inputs w s a compiled listed fetched`   everything that a match needs is there and can be used, under
                           the settings `s`;
* `documentAt_eq_ok_iff`, `targetsAt_eq_ok_iff`   a file is read exactly if it holds a document;
* `fetchAll_eq_ok_iff`, `fetchTargets_eq_ok_iff`  targets are fetched exactly if code stands at every address;
* `matchTargets_of_inputs`, `matchTargets_eq_stop`   with all inputs there is a report, and without them the
                           command stops.
-/

namespace CodeMatch.CommandLine

open Document

def FileHolds {α : Type} (w : World) (f : Format α) (path : String) (x : α) : Prop :=
  ∃ text, w.entry path = .file text ∧ f.readText text = .valid x

def Listed (w : World) (path : Option String) (cs : List OnChainContract) : Prop :=
  match path with
  | none => cs = []
  | some path => FileHolds w OnChainContract.format.list path cs

/-- without addresses no node is needed -/
def Fetched (w : World) (s : Settings) (a : MatchOptions) (cs : List OnChainContract) : Prop :=
  if a.addresses = [] then cs = []
  else (a.rpcUrl.getD "" ≠ "" ∨ s.rpcUrl ≠ "") ∧
    ∃ n, w.node = some n ∧ List.Forall₂ (Deployed n a.isBlueprint) a.addresses cs

structure Inputs (w : World) (s : Settings) (a : MatchOptions) (compiled : CompiledContract)
    (listed fetched : List OnChainContract) : Prop where
  asked : a.targets ≠ none ∨ a.addresses ≠ []
  compiled : FileHolds w CompiledContract.format a.compiled compiled
  listed : Listed w a.targets listed
  fetched : Fetched w s a fetched

/-! ## files -/

section
variable {w : World}

theorem documentAt_eq_ok_iff {α : Type} {f : Format α} {what type path : String} {x : α} :
    documentAt w f what type path = .ok x ↔ FileHolds w f path x := by
  unfold documentAt textAt FileHolds
  cases w.entry path with
  | file text =>
    cases h : f.readText text with
    | valid y => simp [h]
    | invalid faults => simp [h]
  | absent => simp
  | directory => simp
  | undecodable => simp

theorem targetsAt_eq_ok_iff {path : Option String} {cs : List OnChainContract} :
    targetsAt w path = .ok cs ↔ Listed w path cs := by
  cases path with
  | none =>
    constructor
    · rintro ⟨⟩
      rfl
    · rintro rfl
      rfl
  | some path => exact documentAt_eq_ok_iff

/-- a file that holds a document is no fault of the options -/
theorem pathFault?_eq_none {α : Type} {f : Format α} {path : String} {x : α} (h : FileHolds w f path x)
    (name : String) (isRequired : Bool) : pathFault? w name (some path) isRequired = none := by
  obtain ⟨text, hentry, -⟩ := h
  simp only [pathFault?, hentry]

theorem pathFault?_of_listed {path : Option String} {cs : List OnChainContract} (h : Listed w path cs)
    (name : String) : pathFault? w name path false = none := by
  cases path with
  | none => rfl
  | some path => exact pathFault?_eq_none h name false

/-! ## addresses -/

/-- the targets do not depend on what is on the trail -/
theorem exists_fetchAll_cons {n : Node} {isBlueprint : Bool} {address : String} {c : OnChainContract}
    (h : (fetchContract n address none isBlueprint).outcome = .ok c) (trail : Trail)
    (as : List String) :
    ∃ trail', (fetchAll n isBlueprint trail (address :: as)).1 =
      (fetchAll n isBlueprint trail' as).1.map (c :: ·) := by
  rw [fetchAll, h]
  exact ⟨_, rfl⟩

theorem fetchAll_eq_ok_iff {n : Node} {isBlueprint : Bool} {trail : Trail} {as : List String}
    {cs : List OnChainContract} :
    (fetchAll n isBlueprint trail as).1 = .ok cs ↔ List.Forall₂ (Deployed n isBlueprint) as cs := by
  -- the trail grows with every address, so it is not fixed in the induction
  induction as generalizing trail cs with
  | nil =>
    rw [List.forall₂_nil_left_iff, fetchAll, Except.ok.injEq]
    exact eq_comm
  | cons address as ih =>
    rw [List.forall₂_cons_left_iff]
    cases h : (fetchContract n address none isBlueprint).outcome with
    | error f =>
      have hnone (c : OnChainContract) : ¬ Deployed n isBlueprint address c := by
        rw [← outcome_fetchContract_iff, h]
        exact nofun
      refine iff_of_false ?_ fun ⟨c, _, hc, _⟩ => hnone c hc
      rw [fetchAll, h]
      exact nofun
    | ok c =>
      have hone (d : OnChainContract) : Deployed n isBlueprint address d ↔ c = d := by
        rw [← outcome_fetchContract_iff, h, Except.ok.injEq]
      obtain ⟨trail', hstep⟩ := exists_fetchAll_cons h trail as
      rw [hstep]
      constructor
      · intro hcs
        obtain ⟨rest, hrest, hcons⟩ := exists_of_map_eq_ok hcs
        exact ⟨c, rest, (hone c).mpr rfl, ih.mp hrest, hcons.symm⟩
      · rintro ⟨d, rest, hd, hrest, rfl⟩
        rw [ih.mpr hrest, (hone d).mp hd]
        rfl

theorem exists_rpcUrlFor_iff {k : Command} {s : Settings} {given : Option String} :
    (∃ url, rpcUrlFor k s given = .ok url) ↔ given.getD "" ≠ "" ∨ s.rpcUrl ≠ "" := by
  unfold rpcUrlFor
  by_cases hgiven : given.getD "" = ""
  · by_cases hs : s.rpcUrl = ""
    · simp [hgiven, hs]
    · simp [hgiven, hs]
  · simp [hgiven]

theorem fetchTargets_eq_ok_iff {s : Settings} {a : MatchOptions} {cs : List OnChainContract} :
    (fetchTargets w s a).1 = .ok cs ↔ Fetched w s a cs := by
  unfold fetchTargets Fetched
  by_cases haddresses : a.addresses = []
  · rw [if_pos (List.isEmpty_iff.mpr haddresses), if_pos haddresses, Except.ok.injEq]
    exact eq_comm
  · rw [if_neg (mt List.isEmpty_iff.mp haddresses), if_neg haddresses,
      ← exists_rpcUrlFor_iff (k := .matchTargets)]
    cases rpcUrlFor .matchTargets s a.rpcUrl with
    | error stop =>
      refine iff_of_false nofun ?_
      rintro ⟨⟨_, hurl⟩, -⟩
      cases hurl
    | ok url =>
      have hurl : ∃ u, (Except.ok url : Except Stop String) = .ok u := ⟨url, rfl⟩
      cases w.node with
      | none =>
        refine iff_of_false nofun ?_
        rintro ⟨-, _, hnode, -⟩
        cases hnode
      | some n =>
        show (fetchAll n a.isBlueprint _ a.addresses).1 = _ ↔ _
        rw [fetchAll_eq_ok_iff, and_iff_right hurl]
        constructor
        · intro hall
          exact ⟨n, rfl, hall⟩
        · rintro ⟨_, ⟨⟩, hall⟩
          exact hall

/-! ## the command -/

variable {s : Settings} {a : MatchOptions}

theorem isEmpty_targets_iff :
    (a.targets.isNone && a.addresses.isEmpty) = true ↔ ¬ (a.targets ≠ none ∨ a.addresses ≠ []) := by
  rw [Bool.and_eq_true, Option.isNone_iff_eq_none, List.isEmpty_iff, not_or, not_not, not_not]

theorem matchTargets_of_inputs {compiled : CompiledContract} {listed fetched : List OnChainContract}
    (h : Inputs w s a compiled listed fetched) :
    ∃ trail, matchTargets w s a = report w s a.out trail (listed ++ fetched)
      (verifyContracts compiled (listed ++ fetched)).value := by
  have hasked := mt isEmpty_targets_iff.mp (not_not.mpr h.asked)
  have hfetched := fetchTargets_eq_ok_iff.mpr h.fetched
  unfold matchTargets compiledAt
  rw [if_neg hasked, documentAt_eq_ok_iff.mpr h.compiled, targetsAt_eq_ok_iff.mpr h.listed]
  cases hfetch : fetchTargets w s a with
  | mk outcome trail =>
    rw [hfetch] at hfetched
    subst hfetched
    exact ⟨_, rfl⟩

theorem matchTargets_eq_stop (h : ¬ ∃ compiled listed fetched, Inputs w s a compiled listed fetched) :
    ∃ trail stop, matchTargets w s a = .stop s.logLevel trail stop := by
  unfold matchTargets
  by_cases hasked : a.targets ≠ none ∨ a.addresses ≠ []
  case neg =>
    rw [if_pos (isEmpty_targets_iff.mpr hasked)]
    exact ⟨_, _, rfl⟩
  rw [if_neg (mt isEmpty_targets_iff.mp (not_not.mpr hasked))]
  cases hcompiled : compiledAt w a.compiled with
  | error stop => exact ⟨_, _, rfl⟩
  | ok compiled =>
    cases hlisted : targetsAt w a.targets with
    | error stop => exact ⟨_, _, rfl⟩
    | ok listed =>
      have hfetched (fetched : List OnChainContract) : (fetchTargets w s a).1 ≠ .ok fetched := by
        intro hok
        exact h ⟨compiled, listed, fetched, hasked, documentAt_eq_ok_iff.mp hcompiled,
          targetsAt_eq_ok_iff.mp hlisted, fetchTargets_eq_ok_iff.mp hok⟩
      cases hfetch : fetchTargets w s a with
      | mk outcome trail =>
        rw [hfetch] at hfetched
        cases outcome with
        | error stop => exact ⟨_, _, rfl⟩
        | ok fetched => exact absurd rfl (hfetched fetched)

end

end CodeMatch.CommandLine
