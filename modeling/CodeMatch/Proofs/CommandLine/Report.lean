import CodeMatch.Proofs.CommandLine.Inputs
import Mathlib

/-!
# A match reports on all targets or on none

* `reportText compiled cs`   the report on the targets `cs`: one entry for each, in order;
* `Reports o out compiled cs`   the outcome `o` has this report in the place `out`, and an exit code that
                             says whether any target did not match;
* `Refuses o`                the outcome `o` is an error and has no report;
* `reports_report`, `refuses_stop`   the two outcomes;
* `run_of_inputs`, `run_eq_stop`     what becomes of a command line that asks for a match;
* `match_all_or_nothing`     **with everything that it needs a match reports on all targets, and
                             otherwise on none**.
-/

namespace CodeMatch.CommandLine

def reportText (compiled : CompiledContract) (cs : List OnChainContract) : String :=
  let entries := cs.map fun c =>
    Json.object [("id", .text c.id), ("result", (verifyContract compiled c).value.write)]
  (Json.list entries).pretty ++ "\n"

structure Reports (o : Outcome) (out : String) (compiled : CompiledContract)
    (cs : List OnChainContract) : Prop where
  printed : out = "-" → o.stdout = reportText compiled cs ∧ o.written = none
  saved : out ≠ "-" → o.written = some (plainPath out, reportText compiled cs) ∧
    o.stdout = "✅ Wrote " ++ Text.naturalText cs.length ++ " results to " ++ out ++ "\n"
  exitCode_eq_zero_iff : o.exitCode = 0 ↔ ∀ c ∈ cs, (verifyContract compiled c).value.kind ≠ .failure
  exitCode_of_ne_zero : o.exitCode ≠ 0 → o.exitCode = 1
  uncaught : o.uncaught = none

structure Refuses (o : Outcome) : Prop where
  exitCode : o.exitCode ≠ 0
  stdout : o.stdout = ""
  written : o.written = none

/-- the report can be put in this place -/
def Writable (w : World) (out : String) : Prop := out = "-" ∨ writeFault? w out = none

/-! ## the two outcomes -/

theorem refuses_stop (t : Threshold) (trail : Trail) (stop : Stop) :
    Refuses (.stop t trail stop) :=
  ⟨exitCode_stop_ne_zero t trail stop, stdout_stop t trail stop, written_stop t trail stop⟩

theorem text_eq_reportText (compiled : CompiledContract) (cs : List OnChainContract) :
    Report.text cs (verifyContracts compiled cs).value ++ "\n" = reportText compiled cs := by
  unfold Report.text Report.document reportText
  rw [value_verifyContracts, List.zipWith_map_right, List.zipWith_self]
  rfl

theorem failures_eq_zero_iff (compiled : CompiledContract) (cs : List OnChainContract) :
    Report.failures (verifyContracts compiled cs).value = 0 ↔
      ∀ c ∈ cs, (verifyContract compiled c).value.kind ≠ .failure := by
  unfold Report.failures
  rw [value_verifyContracts, List.length_eq_zero_iff, List.filter_eq_nil_iff, List.forall_mem_map]
  simp only [decide_eq_true_eq, ne_eq]

theorem reports_report {w : World} {out : String} (hout : Writable w out) (s : Settings)
    (trail : Trail) (compiled : CompiledContract) (cs : List OnChainContract) :
    Reports (report w s out trail cs (verifyContracts compiled cs).value) out compiled cs := by
  have hfailures := failures_eq_zero_iff compiled cs
  unfold report
  rw [text_eq_reportText]
  generalize Report.failures (verifyContracts compiled cs).value = n at hfailures
  have hzero : (if n = 0 then 0 else 1) = 0 ↔
      ∀ c ∈ cs, (verifyContract compiled c).value.kind ≠ .failure := by
    rw [← hfailures]
    split <;> omega
  have hone : (if n = 0 then 0 else 1) ≠ 0 → (if n = 0 then 0 else 1) = 1 := by
    split <;> omega
  by_cases hdash : out = "-"
  · rw [if_pos hdash]
    exact ⟨fun _ => ⟨rfl, rfl⟩, fun hne => absurd hdash hne, hzero, hone, rfl⟩
  · have hnone := hout.resolve_left hdash
    rw [if_neg hdash, hnone]
    exact ⟨fun h => absurd h hdash, fun _ => ⟨rfl, rfl⟩, hzero, hone, rfl⟩

/-! ## the command line -/

section
variable {w : World} {as : List String} {level : Option Threshold} {s : Settings} {a : MatchOptions}
  {compiled : CompiledContract} {listed fetched : List OnChainContract}

/-- the inputs do not depend on the threshold -/
theorem inputs_withLevel_iff (t : Threshold) :
    Inputs w { s with logLevel := t } a compiled listed fetched ↔
      Inputs w s a compiled listed fetched :=
  ⟨fun h => ⟨h.asked, h.compiled, h.listed, h.fetched⟩,
    fun h => ⟨h.asked, h.compiled, h.listed, h.fetched⟩⟩

theorem settingsFor_of_load (h : Settings.load w.env = .ok s) (level : Option Threshold) :
    settingsFor w level = .ok { s with logLevel := level.getD s.logLevel } := by
  unfold settingsFor
  rw [h]

theorem run_of_asks (h : Asks as level a) :
    ∃ own args, readArguments matchOptions true own = .ok args ∧ Gives args a ∧
      (∀ stop, settingsFor w level = .error stop → run w as = .stop .info {} stop) ∧
      ∀ s, settingsFor w level = .ok s → run w as = runCommand w s own .matchTargets := by
  obtain ⟨rest, own, args, hprogram, hcommand, hread, hgives⟩ := h
  refine ⟨own, args, hread, hgives, fun stop hstop => ?_, fun s hs => ?_⟩
  · simp only [run, hprogram, hcommand, hstop, bind, Except.bind, pure, Except.pure]
  · simp only [run, hprogram, hcommand, hs, bind, Except.bind, pure, Except.pure]

theorem run_of_inputs (hasks : Asks as level a) (hsettings : Settings.load w.env = .ok s)
    (h : Inputs w s a compiled listed fetched) :
    ∃ s' trail, run w as = report w s' a.out trail (listed ++ fetched)
      (verifyContracts compiled (listed ++ fetched)).value := by
  obtain ⟨own, args, hread, hgives, -, hrun⟩ := run_of_asks (w := w) hasks
  have hoptions := matchOptionsOf_of_gives hread hgives (pathFault?_eq_none h.compiled _ _)
    (pathFault?_of_listed h.listed _)
  have hinputs := (inputs_withLevel_iff (level.getD s.logLevel)).mpr h
  obtain ⟨trail, hmatch⟩ := matchTargets_of_inputs hinputs
  refine ⟨{ s with logLevel := level.getD s.logLevel }, trail, ?_⟩
  rw [hrun _ (settingsFor_of_load hsettings level)]
  unfold runCommand
  simp only [hoptions]
  exact hmatch

theorem run_eq_stop (hasks : Asks as level a)
    (h : ¬ ∃ s compiled listed fetched, Settings.load w.env = .ok s ∧
      Inputs w s a compiled listed fetched) :
    ∃ t trail stop, run w as = .stop t trail stop := by
  obtain ⟨own, args, hread, hgives, hfault, hrun⟩ := run_of_asks (w := w) hasks
  cases hsettings : Settings.load w.env with
  | error f =>
    have hstop : settingsFor w level = .error (.fault ("Invalid configuration: " ++ f.message)) := by
      unfold settingsFor
      rw [hsettings]
    exact ⟨_, _, _, hfault _ hstop⟩
  | ok s =>
    rw [hrun _ (settingsFor_of_load hsettings level)]
    unfold runCommand
    cases hoptions : matchOptionsOf w own with
    | error m => exact ⟨_, _, _, rfl⟩
    | ok b =>
      -- whatever is missing, it is no option: those that are accepted are the ones asked for
      have hab : b = a := eq_of_matchOptionsOf hread hgives hoptions
      subst hab
      have hinputs : ¬ ∃ compiled listed fetched,
          Inputs w { s with logLevel := level.getD s.logLevel } b compiled listed fetched := by
        rintro ⟨compiled, listed, fetched, hi⟩
        exact h ⟨s, compiled, listed, fetched, hsettings, (inputs_withLevel_iff _).mp hi⟩
      obtain ⟨trail, stop, hstop⟩ := matchTargets_eq_stop hinputs
      exact ⟨_, trail, stop, hstop⟩

end

/-! ## the result -/

/-- Any options can be asked for.  If the settings, the files, the node's URL and all addresses can be used
and the report can be put in its place, there is one report: on the targets of the file and then on those
at the addresses, whatever comes of matching them; the exit code is 0 if all of them match and 1 otherwise.
If anything is missing, be it the code at the last address, there is an error and no report. -/
theorem match_all_or_nothing :
    (∀ a : MatchOptions, Asks a.commandLine none a) ∧
    ∀ {w : World} {as : List String} {level : Option Threshold} {a : MatchOptions}, Asks as level a →
      (∀ {s : Settings} {compiled : CompiledContract} {listed fetched : List OnChainContract},
        Settings.load w.env = .ok s → Inputs w s a compiled listed fetched → Writable w a.out →
          Reports (run w as) a.out compiled (listed ++ fetched)) ∧
      ((¬ ∃ s compiled listed fetched, Settings.load w.env = .ok s ∧
        Inputs w s a compiled listed fetched) → Refuses (run w as)) := by
  refine ⟨asks_commandLine, fun hasks =>
    ⟨fun hsettings hinputs hout => ?complete, fun hnone => ?refused⟩⟩
  case complete =>
    obtain ⟨s', trail, hrun⟩ := run_of_inputs hasks hsettings hinputs
    rw [hrun]
    exact reports_report hout s' trail _ _
  case refused =>
    obtain ⟨t, trail, stop, hrun⟩ := run_eq_stop hasks hnone
    rw [hrun]
    exact refuses_stop t trail stop

/-- one target in a file, which matches, and one at an address, which does not: the report has both, and
the exit code is 1; with one more address that is none, there is no report -/
theorem match_all_or_nothing_last_address :
    let w : World :=
      { env := fun _ => none
        entry := entryAmong
          [("c.json", "\x7b\"recompiled\":\x7b\"runtime\":\"00\",\"creation\":\"00\"\x7d\x7d"),
           ("t.json", "[\x7b\"id\":\"1:a\",\"code\":\x7b\"runtime\":\"00\"\x7d\x7d]")]
        node := some { code := [1] } }
    let zeros := List.replicate 40 '0'
    let a (more : List String) : MatchOptions :=
      ⟨"c.json", some "t.json", String.ofList zeros :: more, some "u", false, "r.json"⟩
    let compiled : CompiledContract := { recompiled := ⟨[0], [0]⟩ }
    let target : OnChainContract := ⟨"1:a", ⟨some [0], none, rfl⟩, false⟩
    let deployed : OnChainContract := ⟨"1:" ++ Address.checksum zeros, ⟨some [1], none, rfl⟩, false⟩
    Inputs w {} (a []) compiled [target] [deployed] ∧
      (run w (a []).commandLine).written = some ("r.json", reportText compiled [target, deployed]) ∧
      (run w (a []).commandLine).exitCode = 1 ∧ Refuses (run w (a ["zz"]).commandLine) := by
  intro w zeros a compiled target deployed
  have hid : "1:" = Text.integerText 1 ++ ":" := by decide +kernel
  have hdigits : Address.digitsOf (String.ofList zeros) = .ok zeros := by
    unfold Address.digitsOf
    rw [String.toList_ofList]
    rfl
  have hdeployed : Deployed { code := [1] } false (String.ofList zeros) deployed :=
    ⟨Address.checksum zeros, congrArg (Except.map Address.checksum) hdigits, by decide,
      congrArg (· ++ Address.checksum zeros) hid, rfl, rfl, rfl⟩
  have hcompiled : FileHolds w CompiledContract.format "c.json" compiled := ⟨_, rfl, by cbv⟩
  have hlisted : Listed w (some "t.json") [target] := ⟨_, rfl, by cbv⟩
  have hfetched : Fetched w {} (a []) [deployed] := ⟨.inl (by decide), _, rfl, .cons hdeployed .nil⟩
  have hinputs : Inputs w {} (a []) compiled [target] [deployed] :=
    ⟨.inr (List.cons_ne_nil _ _), hcompiled, hlisted, hfetched⟩
  have hrefused : ¬ ∃ s compiled listed fetched, Settings.load w.env = .ok s ∧
      Inputs w s (a ["zz"]) compiled listed fetched := by
    rintro ⟨s, compiled', listed, fetched, -, h⟩
    obtain ⟨-, n, -, hall⟩ := h.fetched
    obtain ⟨c, rest, -, hrest, -⟩ := List.forall₂_cons_left_iff.mp hall
    obtain ⟨d, rest, ⟨checksum, hchecksum, -⟩, -⟩ := List.forall₂_cons_left_iff.mp hrest
    cases hchecksum
  have hplain : plainPath "r.json" = "r.json" := by rfl
  have hparent : parentPath "r.json" = "." := by rfl
  have hout : Writable w "r.json" := by
    have habsent : w.entry "r.json" = .absent := rfl
    have hhere : w.entry "." = .directory := rfl
    refine .inr ?_
    rw [writeFault?, hplain, hparent, habsent, hhere]
    rfl
  obtain ⟨hasks, hmatch⟩ := match_all_or_nothing
  have hreports := (hmatch (hasks (a []))).1 rfl hinputs hout
  have hfailure (id : String) :
      (verifyContract compiled ⟨id, ⟨some [1], none, rfl⟩, false⟩).value.kind = .failure := by
    cbv
  have hsaved := (hreports.saved (by decide)).1
  rw [show plainPath (a []).out = "r.json" from hplain] at hsaved
  refine ⟨hinputs, hsaved, hreports.exitCode_of_ne_zero ?_,
    (hmatch (hasks (a ["zz"]))).2 hrefused⟩
  rw [ne_eq, hreports.exitCode_eq_zero_iff]
  intro h
  exact h deployed (List.mem_cons_of_mem _ List.mem_cons_self) (hfailure _)

end CodeMatch.CommandLine
