import CodeMatch.Proofs.CommandLine.Report
import CodeMatch.Proofs.Json.Pretty
import CodeMatch.Proofs.Match.Short

/-!
# A report is read back

The report of a match is text in ASCII, whatever characters there are in the identifiers of the targets and
of the artifacts, and the document in it is the one that was meant: the targets in their order, each with
its verdict.

* `verdicts compiled cs`   the verdicts on the targets;
* `ReadsBack text cs vs`   the text is ASCII and holds the targets `cs` with the verdicts `vs`, and these can
                           be read from it;
* `fits_document`          the document keeps to the limits on documents;
* `readsBack_reportText`   so its text is read as the document;
* `emitted o out`          the report in an outcome, printed or written to a file.
-/

namespace CodeMatch.CommandLine

open Document Checked

def verdicts (compiled : CompiledContract) (cs : List OnChainContract) : List Verdict :=
  cs.map fun c => (verifyContract compiled c).value

/-- the text is ASCII, it is the text of one object for each target, with its identifier and its verdict, and
the verdicts are read as they were -/
structure ReadsBack (text : String) (cs : List OnChainContract) (vs : List Verdict) : Prop where
  ascii : ∀ c ∈ text.toList, c.toNat < 128
  length : vs.length = cs.length
  document : Json.parse .standard text = some (.list (List.zipWith
    (fun c v => .object [("id", .text c.id), ("result", v.write)]) cs vs))
  results : Verdict.format.list.read (.list (vs.map Verdict.write)) = valid vs

/-- what was printed, or written to the file -/
def emitted (o : Outcome) (out : String) : Option String :=
  if out = "-" then some o.stdout else o.written.map Prod.snd

section
variable {compiled : CompiledContract}

theorem document_verdicts (compiled : CompiledContract) (cs : List OnChainContract) :
    Report.document cs (verdicts compiled cs) =
      .list (cs.map fun c => Report.entry c (verifyContract compiled c).value) := by
  unfold Report.document verdicts
  rw [List.zipWith_map_right, List.zipWith_self]

theorem exact_document (compiled : CompiledContract) (cs : List OnChainContract) :
    (Report.document cs (verdicts compiled cs)).Exact := by
  rw [document_verdicts]
  refine .list ?_
  intro w hw
  obtain ⟨c, -, rfl⟩ := List.mem_map.mp hw
  refine .object ?_
  simp only [List.forall_mem_cons]
  exact ⟨.text c.id, Verdict.exact_write _, List.forall_mem_nil _⟩

theorem fits_document (hc : compiled.Short) (cs : List OnChainContract) {d : Nat} :
    Fits (d + 6) (Report.document cs (verdicts compiled cs)) := by
  rw [document_verdicts]
  refine .list ?_
  intro w hw
  obtain ⟨c, -, rfl⟩ := List.mem_map.mp hw
  refine .object (show ["id", "result"].Nodup by decide) ?_
  simp only [List.forall_mem_cons]
  exact ⟨.text _ c.id, fits_verifyContract hc c, List.forall_mem_nil _⟩

/-- **A report is read back.** -/
theorem readsBack_reportText (hc : compiled.Short) (cs : List OnChainContract) :
    ReadsBack (reportText compiled cs) cs (verdicts compiled cs) := by
  have hexact := exact_document compiled cs
  have hend : Json.Gap "\n".toList := by
    intro c hc
    rw [List.mem_singleton.mp hc]
    decide
  have htext : reportText compiled cs = (Report.document cs (verdicts compiled cs)).pretty ++ "\n" := by
    rw [← text_eq_reportText, value_verifyContracts]
    rfl
  rw [htext]
  constructor
  · intro c hc
    rw [String.toList_append, List.mem_append] at hc
    rcases hc with hc | hc
    · rw [Json.pretty, String.toList_ofList] at hc
      exact Json.ascii_indented hexact 0 c hc
    · rw [List.mem_singleton.mp hc]
      decide
  · exact List.length_map _
  · exact Json.parse_pretty (by decide) hexact (fits_document hc cs) hend
  · exact Verdict.lossless.list.reads _

theorem emitted_of_reports {o : Outcome} {out : String} {cs : List OnChainContract}
    (h : Reports o out compiled cs) : emitted o out = some (reportText compiled cs) := by
  unfold emitted
  split
  case isTrue hdash => rw [(h.printed hdash).1]
  case isFalse hfile =>
    rw [(h.saved hfile).1]
    rfl

end

/-- Whatever compiled contract was read, and whatever targets it is matched with: the report on them is read
back.  That is the report that is printed or written, whenever a match has all that it needs. -/
theorem report_reads_back :
    (∀ {source : String} {compiled : CompiledContract} (cs : List OnChainContract),
      CompiledContract.format.readText source = valid compiled →
        ReadsBack (reportText compiled cs) cs (verdicts compiled cs)) ∧
    ∀ {w : World} {as : List String} {level : Option Threshold} {a : MatchOptions} {s : Settings}
      {compiled : CompiledContract} {listed fetched : List OnChainContract}, Asks as level a →
      Settings.load w.env = .ok s → Inputs w s a compiled listed fetched → Writable w a.out →
        ∃ text, emitted (run w as) a.out = some text ∧
          ReadsBack text (listed ++ fetched) (verdicts compiled (listed ++ fetched)) := by
  constructor
  · intro source compiled cs h
    exact readsBack_reportText (CompiledContract.short_of_readText h) cs
  · intro w as level a s compiled listed fetched hasks hsettings hinputs hout
    obtain ⟨s', trail, hrun⟩ := run_of_inputs hasks hsettings hinputs
    have hreports : Reports (run w as) a.out compiled (listed ++ fetched) := by
      rw [hrun]
      exact reports_report hout s' trail compiled (listed ++ fetched)
    obtain ⟨source, -, hread⟩ := hinputs.compiled
    exact ⟨_, emitted_of_reports hreports,
      readsBack_reportText (CompiledContract.short_of_readText hread) _⟩

/-- identifiers with a quote, a backslash, a control and a character beyond the first plane; the first target
matches with an immutable value, the second byte for byte, and the third does not -/
theorem report_reads_back_rare_characters :
    let source := "\x7b\"recompiled\":\x7b\"runtime\":\"0000\",\"creation\":\"00\"\x7d,\"artifacts\":\x7b" ++
      "\"runtime\":\x7b\"immutableReferences\":\x7b\"\\\"😀\":[\x7b\"start\":1,\"length\":1\x7d]\x7d\x7d\x7d\x7d"
    let listing := "[\x7b\"id\":\"\\\"\\\\\\u0001😀\",\"code\":\x7b\"runtime\":\"0007\"\x7d\x7d," ++
      "\x7b\"id\":\"\",\"code\":\x7b\"runtime\":\"0000\"\x7d\x7d," ++
      "\x7b\"id\":\"3\",\"code\":\x7b\"runtime\":\"0100\"\x7d\x7d]"
    let w : World :=
      { env := fun _ => none
        entry := fun path => if path = "c.json" then .file source else .file listing
        node := none }
    let a : MatchOptions := ⟨"c.json", some "t.json", [], none, false, "-"⟩
    let target (id : String) (b : Bytes) : OnChainContract := ⟨id, ⟨some b, none, rfl⟩, false⟩
    let targets := [target "\"\\\u0001😀" [0, 7], target "" [0, 0], target "3" [1, 0]]
    let immutable : Match :=
      ⟨.part, [⟨.immutable, "\"😀", 1, 1, [7]⟩], { immutables := .ofList [("\"😀", [7])] }⟩
    let vs : List Verdict := [.runtimeMatch immutable, .runtimeMatch { type := .full }, .failure]
    ∃ compiled text, CompiledContract.format.readText source = valid compiled ∧
      ReadsBack (reportText compiled targets) targets vs ∧
      emitted (run w a.commandLine) "-" = some text ∧ ReadsBack text targets vs := by
  intro source listing w a target targets immutable vs
  let compiled : CompiledContract :=
    ⟨⟨[0, 0], [0]⟩, { runtime := { immutableReferences := .ofList [("\"😀", [⟨1, 1⟩])] } }⟩
  have hsource : Json.parse .standard source = some (.object
      [("recompiled", .object [("runtime", .text "0000"), ("creation", .text "00")]),
       ("artifacts", .object [("runtime", .object [("immutableReferences", .object
         [("\"😀", .list [.object [("start", .int 1), ("length", .int 1)]])])])])]) := by
    unfold source
    decide +kernel
  have hlisting : Json.parse .standard listing = some (.list
      [.object [("id", .text "\"\\\u0001😀"), ("code", .object [("runtime", .text "0007")])],
       .object [("id", .text ""), ("code", .object [("runtime", .text "0000")])],
       .object [("id", .text "3"), ("code", .object [("runtime", .text "0100")])]]) := by
    unfold listing
    decide +kernel
  have hread : CompiledContract.format.readText source = valid compiled := by
    rw [Format.readText, hsource]
    cbv
  have hlisted : Listed w (some "t.json") targets := by
    refine ⟨_, rfl, ?_⟩
    show OnChainContract.format.list.readText listing = valid targets
    rw [Format.readText, hlisting]
    cbv
  have hinputs : Inputs w {} a compiled targets [] :=
    ⟨.inl (by simp [a]), ⟨_, rfl, hread⟩, hlisted, rfl⟩
  have hvs : verdicts compiled targets = vs := by cbv
  obtain ⟨hreport, hrun⟩ := report_reads_back
  obtain ⟨text, htext, hback⟩ := hrun (asks_commandLine a) rfl hinputs (.inl rfl)
  have hprinted := hreport targets hread
  rw [hvs] at hprinted
  rw [List.append_nil, hvs] at hback
  exact ⟨compiled, text, hread, hprinted, htext, hback⟩

end CodeMatch.CommandLine
