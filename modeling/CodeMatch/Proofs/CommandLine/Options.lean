import CodeMatch.CommandLine.Run
import Mathlib.Tactic.Common

/-!
# Which command lines ask for a match

* `Gives args a`          the options `args` are those that `a` holds, the last one of a kind counting;
* `Asks as level a`       the command line `as` names the command that matches and gives it the options `a`;
                          what the files hold that it names is another matter;
* `MatchOptions.commandLine a`   one such command line;
* `readArguments_flatMap` options that are spelled out are read as they are;
* `values_ungroup`        each has the values of its group;
* `asks_commandLine`      so any options at all can be asked for;
* `matchOptionsOf_of_gives`, `eq_of_matchOptionsOf`   the options are accepted if the two files are there,
                          and no others are.
-/

namespace CodeMatch.CommandLine

/-- these options are those of a match, and there is nothing else -/
structure Gives (args : Arguments) (a : MatchOptions) : Prop where
  operands : args.operands = []
  compiled : args.last? "--compiled" = some a.compiled
  targets : args.last? "--targets" = a.targets
  addresses : args.values "--address" = a.addresses
  rpcUrl : args.last? "--rpc-url" = a.rpcUrl
  isBlueprint : args.has "--blueprint" = a.isBlueprint
  out : (args.last? "--out").getD "-" = a.out

/-- the command line names the command that matches, and gives it these options -/
def Asks (as : List String) (level : Option Threshold) (a : MatchOptions) : Prop :=
  ∃ rest own args, readProgram as = .ok (level, rest) ∧ readCommand rest = .ok (.matchTargets, own) ∧
    readArguments matchOptions true own = .ok args ∧ Gives args a

/-! ## spelling options out -/

/-- the options with their values, those of one option together -/
def MatchOptions.groups (a : MatchOptions) : List (String × List String) :=
  [("--compiled", [a.compiled]), ("--targets", a.targets.toList), ("--address", a.addresses),
   ("--rpc-url", a.rpcUrl.toList), ("--blueprint", if a.isBlueprint then [""] else []),
   ("--out", [a.out])]

/-- the options one by one -/
def ungroup (gs : List (String × List String)) : List (String × String) :=
  gs.flatMap fun g => g.2.map (Prod.mk g.1)

/-- an option and its value, unless it is a switch -/
def spell (o : String × String) : List String :=
  if matchOptions.lookup o.1 = some .switch then [o.1] else [o.1, o.2]

def MatchOptions.commandLine (a : MatchOptions) : List String := "match" :: (ungroup a.groups).flatMap spell

/-- the option is declared, and it has no value if it is a switch -/
def IsDeclared (o : String × String) : Prop :=
  matchOptions.lookup o.1 = some .value ∨ matchOptions.lookup o.1 = some .switch ∧ o.2 = ""

/-- the names of options are read as such -/
theorem isOption_of_lookup {name : String} {k : Kind} (h : matchOptions.lookup name = some k) :
    name ≠ "--" ∧ isOption name = true ∧ splitValue name = (name, none) := by
  have hall : ∀ o ∈ matchOptions,
      o.1 ≠ "--" ∧ isOption o.1 = true ∧ splitValue o.1 = (o.1, none) := by
    decide +kernel
  obtain ⟨l, l', hl, -⟩ := List.lookup_eq_some_iff.mp h
  exact hall (name, k) (by rw [hl]; simp)

theorem readArguments_spell {o : String × String} (h : IsDeclared o) (as : List String) :
    readArguments matchOptions true (spell o ++ as) =
      (readArguments matchOptions true as).map (.withOption o.1 o.2) := by
  obtain ⟨name, value⟩ := o
  rcases h with h | ⟨h, rfl⟩
  · obtain ⟨hne, hoption, hsplit⟩ := isOption_of_lookup h
    rw [spell, if_neg (by rw [h]; decide)]
    show readArguments matchOptions true (name :: value :: as) = _
    rw [readArguments, if_neg hne, if_pos hoption, hsplit]
    simp only [h]
  · obtain ⟨hne, hoption, hsplit⟩ := isOption_of_lookup h
    rw [spell, if_pos h]
    show readArguments matchOptions true (name :: as) = _
    rw [readArguments, if_neg hne, if_pos hoption, hsplit]
    simp only [h]

theorem readArguments_flatMap {os : List (String × String)} (h : ∀ o ∈ os, IsDeclared o) :
    readArguments matchOptions true (os.flatMap spell) = .ok { options := os } := by
  induction os with
  | nil => exact readArguments_nil _ _
  | cons o os ih =>
    obtain ⟨ho, hos⟩ := List.forall_mem_cons.mp h
    rw [List.flatMap_cons, readArguments_spell ho, ih hos]
    rfl

theorem isDeclared_of_mem_ungroup {a : MatchOptions} {o : String × String}
    (h : o ∈ ungroup a.groups) : IsDeclared o := by
  obtain ⟨g, hg, ho⟩ := List.mem_flatMap.mp h
  obtain ⟨v, hv, rfl⟩ := List.mem_map.mp ho
  simp only [MatchOptions.groups, List.mem_cons, List.not_mem_nil, or_false] at hg
  rcases hg with rfl | rfl | rfl | rfl | rfl | rfl
  case inr.inr.inr.inr.inl =>
    refine .inr ⟨rfl, ?_⟩
    cases h : a.isBlueprint with
    | true => simpa [h] using hv
    | false => simp [h] at hv
  all_goals exact .inl rfl

/-! ## reading them back -/

theorem values_map_mk (key name : String) (vs : List String) :
    Arguments.values { options := vs.map (Prod.mk key) } name = if key = name then vs else [] := by
  unfold Arguments.values
  by_cases h : key = name
  · simp [List.filter_map, Function.comp_def, h]
  · simp [List.filter_map, Function.comp_def, h]

/-- the values of an option are those of its group -/
theorem values_ungroup {gs : List (String × List String)} (h : (gs.map Prod.fst).Nodup) (name : String) :
    Arguments.values { options := ungroup gs } name = (gs.lookup name).getD [] := by
  induction gs with
  | nil => rfl
  | cons g gs ih =>
    obtain ⟨key, vs⟩ := g
    rw [List.map_cons, List.nodup_cons] at h
    have happend : Arguments.values { options := ungroup ((key, vs) :: gs) } name =
        Arguments.values { options := vs.map (Prod.mk key) } name ++
          Arguments.values { options := ungroup gs } name := by
      simp [Arguments.values, ungroup]
    rw [happend, ih h.2, values_map_mk]
    by_cases hkey : key = name
    · subst hkey
      have hnone : gs.lookup key = none := by
        rw [List.lookup_eq_none_iff]
        intro g hg
        have hne : key ≠ g.1 := by
          rintro rfl
          exact h.1 (List.mem_map.mpr ⟨g, hg, rfl⟩)
        simpa using hne
      rw [if_pos rfl, hnone, List.lookup_cons_self]
      exact List.append_nil vs
    · have hbeq : (name == key) = false := by simpa using Ne.symm hkey
      rw [if_neg hkey, List.lookup_cons, hbeq]
      rfl

/-- a switch is given if it has values -/
theorem has_eq (args : Arguments) (name : String) :
    args.has name = !(args.values name).isEmpty := by
  unfold Arguments.has Arguments.values
  induction args.options with
  | nil => rfl
  | cons o os ih =>
    rw [List.any_cons, ih]
    by_cases ho : o.1 = name
    · simp [ho]
    · simp [ho]

theorem gives_ungroup (a : MatchOptions) : Gives { options := ungroup a.groups } a := by
  have hnodup : (a.groups.map Prod.fst).Nodup := by
    show ["--compiled", "--targets", "--address", "--rpc-url", "--blueprint", "--out"].Nodup
    decide
  have hlast (name : String) : Arguments.last? { options := ungroup a.groups } name =
      ((a.groups.lookup name).getD []).getLast? := by
    rw [Arguments.last?, values_ungroup hnodup]
  refine ⟨rfl, hlast _, ?_, values_ungroup hnodup _, ?_, ?_, ?_⟩
  · rw [hlast]
    show a.targets.toList.getLast? = _
    cases a.targets <;> rfl
  · rw [hlast]
    show a.rpcUrl.toList.getLast? = _
    cases a.rpcUrl <;> rfl
  · rw [has_eq, values_ungroup hnodup]
    show (!(if a.isBlueprint then [""] else [] : List String).isEmpty) = _
    cases a.isBlueprint <;> rfl
  · rw [hlast]
    rfl

theorem asks_commandLine (a : MatchOptions) : Asks a.commandLine none a := by
  refine ⟨a.commandLine, (ungroup a.groups).flatMap spell, { options := ungroup a.groups }, ?_, rfl,
    readArguments_flatMap fun o => isDeclared_of_mem_ungroup, gives_ungroup a⟩
  unfold readProgram MatchOptions.commandLine
  rw [readArguments, if_neg (by decide), if_neg (by decide)]
  rfl

/-! ## accepting options -/

section
variable {w : World} {own : List String} {args : Arguments} {a : MatchOptions}

/-- only the two paths can be at fault -/
theorem matchFault?_eq_none (hgives : Gives args a)
    (hcompiled : pathFault? w "--compiled" (some a.compiled) true = none)
    (htargets : pathFault? w "--targets" a.targets false = none) (name : String) :
    matchFault? w args name = none := by
  unfold matchFault?
  split
  case isTrue h => rw [h, hgives.compiled, hcompiled]
  case isFalse =>
    split
    case isTrue h => rw [h, hgives.targets, htargets]
    case isFalse => rfl

variable (hread : readArguments matchOptions true own = .ok args) (hgives : Gives args a)
include hread hgives

theorem matchOptionsOf_eq :
    matchOptionsOf w own =
      match (args.order matchOptions).findSome? (matchFault? w args) with
      | some m => .error m
      | none => .ok a := by
  unfold matchOptionsOf accepted
  rw [hread]
  cases h : (args.order matchOptions).findSome? (matchFault? w args) with
  | some m => simp only [h, Except.map]
  | none =>
    simp only [h, hgives.operands, List.isEmpty_nil, if_true, Except.map, hgives.compiled,
      hgives.targets, hgives.addresses, hgives.rpcUrl, hgives.isBlueprint, hgives.out,
      Option.getD_some]

theorem matchOptionsOf_of_gives (hcompiled : pathFault? w "--compiled" (some a.compiled) true = none)
    (htargets : pathFault? w "--targets" a.targets false = none) :
    matchOptionsOf w own = .ok a := by
  have hnone : (args.order matchOptions).findSome? (matchFault? w args) = none :=
    List.findSome?_eq_none_iff.mpr fun name _ => matchFault?_eq_none hgives hcompiled htargets name
  rw [matchOptionsOf_eq hread hgives, hnone]

theorem eq_of_matchOptionsOf {b : MatchOptions} (h : matchOptionsOf w own = .ok b) : b = a := by
  rw [matchOptionsOf_eq hread hgives] at h
  split at h
  · cases h
  · exact (Except.ok.inj h).symm

end

end CodeMatch.CommandLine
