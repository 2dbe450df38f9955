import CallForms.CommandLine.Command
import CallForms.Disk.Observed
import CallForms.Proofs.Compilation.Code
import CallForms.Proofs.Json.Printing

namespace CallForms

namespace Source

variable {room : Nat} {s : Source}

theorem compile_eq_map_stages (room : Nat) (s : Source) :
    s.compile room = (s.stages room).map Compilation.code := by
  simp only [compile, stages, program, bind, Except.bind, pure, Except.pure]
  cases s.tokens with
  | error f => rfl
  | ok ts =>
    dsimp only
    cases Program.parse room ts with
    | error f => rfl
    | ok p =>
      dsimp only
      cases p.toTree.lower room fun _ => none with
      | error f => rfl
      | ok target =>
        dsimp only
        cases target.render room fun _ => none <;> rfl

theorem stages_of_compile_ok {code : String} (h : s.compile room = .ok code) :
    ∃ c, s.stages room = .ok c := by
  rw [compile_eq_map_stages] at h
  cases hs : s.stages room with
  | error f => simp [hs, Except.map] at h
  | ok c => exact ⟨c, rfl⟩

theorem stages_of_compile_error {f : Fault} (h : s.compile room = .error f) :
    s.stages room = .error f := by
  rw [compile_eq_map_stages] at h
  cases hs : s.stages room with
  | error g => simpa [hs, Except.map] using h
  | ok c => simp [hs, Except.map] at h

end Source

def Disk.Offers (disk : Disk) (path : Path) : Prop :=
  disk.has path = .ok false ∨ ∃ text, disk.read path = .ok text

theorem Disk.has_of_read {disk : Disk} {path : Path} {text : String}
    (h : disk.read path = .ok text) : disk.has path = .ok true := by
  cases he : disk.entry path with
  | error obstacle => simp [read, he] at h
  | ok entry => simp [has, he]

theorem Disk.read_of_missing {disk : Disk} {path : Path} (h : disk.has path = .ok false) :
    ∃ fault, disk.read path = .error fault := by
  cases hr : disk.read path with
  | error fault => exact ⟨fault, rfl⟩
  | ok text =>
    rw [has_of_read hr] at h
    simp at h

namespace CommandLine

variable {room : Nat} {disk : Disk} {file : String} {files : List String}

def present (disk : Disk) (file : String) : Bool :=
  match disk.has (Path.ofString file) with
  | .ok there => there
  | .error _ => false

def Compiles (room : Nat) (disk : Disk) (file : String) : Prop :=
  ∃ text code, disk.has (Path.ofString file) = .ok true ∧
    disk.read (Path.ofString file) = .ok text ∧ (Source.mk text (some file)).compile room = .ok code

def diagnosis? (room : Nat) (disk : Disk) (file : String) : Option Diagnostic :=
  match disk.read (Path.ofString file) with
  | .error _ => none
  | .ok text =>
    match (Source.mk text (some file)).compile room with
    | .ok _ => none
    | .error f => some f.diagnostic

def diagnoses (room : Nat) (disk : Disk) (files : List String) : List Diagnostic :=
  files.filterMap (diagnosis? room disk)

def absent (disk : Disk) (files : List String) : List String :=
  files.filter fun file => !present disk file

theorem fetch_of_missing (h : disk.has (Path.ofString file) = .ok false) :
    fetch disk file = .missing (Path.ofString file) := by
  simp [fetch, h]

theorem fetch_of_read {text : String} (h : disk.read (Path.ofString file) = .ok text) :
    fetch disk file = .source ⟨text, some file⟩ := by
  simp [fetch, Disk.has_of_read h, h]

inductive Standing (room : Nat) (disk : Disk) (file : String) : Prop
  | missing (lacks : disk.has (Path.ofString file) = .ok false)
  | failing (text : String) (f : Fault) (reads : disk.read (Path.ofString file) = .ok text)
      (fails : (Source.mk text (some file)).compile room = .error f)
  | good (text code : String) (reads : disk.read (Path.ofString file) = .ok text)
      (compiles : (Source.mk text (some file)).compile room = .ok code)

theorem standing_of_offers (h : disk.Offers (Path.ofString file)) : Standing room disk file := by
  obtain hlacks | ⟨text, hread⟩ := h
  · exact .missing hlacks
  · cases hc : (Source.mk text (some file)).compile room with
    | error f => exact .failing text f hread hc
    | ok code => exact .good text code hread hc

namespace Standing

theorem compiles_iff (h : Standing room disk file) :
    Compiles room disk file ↔ present disk file = true ∧ diagnosis? room disk file = none := by
  cases h with
  | missing lacks => simp [Compiles, present, lacks]
  | failing text f reads fails => simp [Compiles, diagnosis?, reads, fails]
  | good text code reads compiles =>
    simp [Compiles, present, diagnosis?, Disk.has_of_read reads, reads, compiles]

theorem runCompile_exit (h : Standing room disk file) :
    (runCompile room disk (some file) none none).exit = .ok 0 ↔ Compiles room disk file := by
  cases h with
  | missing lacks =>
    simp [Compiles, runCompile, withSource, fetch_of_missing lacks, lacks, Outcome.fail]
  | failing text f reads fails =>
    simp [Compiles, runCompile, withSource, fetch_of_read reads, compileSource, reads, fails,
      Outcome.fail]
  | good text code reads compiles =>
    simp [Compiles, runCompile, withSource, fetch_of_read reads, compileSource, deliver,
      Disk.has_of_read reads, reads, compiles, Outcome.print]

theorem runDump_exit (h : Standing room disk file) (stage : Stage) :
    (runDump room disk file stage).exit = .ok 0 ↔ Compiles room disk file := by
  cases h with
  | missing lacks =>
    simp [Compiles, runDump, withSource, fetch_of_missing lacks, lacks, Outcome.fail]
  | failing text f reads fails =>
    have hstages := Source.stages_of_compile_error fails
    simp [Compiles, runDump, withSource, fetch_of_read reads, reads, fails, hstages, Outcome.fail]
  | good text code reads compiles =>
    obtain ⟨c, hstages⟩ := Source.stages_of_compile_ok compiles
    simp [Compiles, runDump, withSource, fetch_of_read reads, Disk.has_of_read reads, reads,
      compiles, hstages, Outcome.print]

end Standing

def Findings.after (found : Findings) (room : Nat) (disk : Disk) (file : String) : Findings :=
  ⟨found.diagnostics ++ (diagnosis? room disk file).toList,
    found.missing ++ if present disk file then [] else [Path.ofString file]⟩

theorem survey_cons (h : Standing room disk file) (found : Findings) :
    survey room disk found (file :: files) =
      survey room disk (found.after room disk file) files := by
  cases h with
  | missing lacks =>
    obtain ⟨fault, hread⟩ := Disk.read_of_missing lacks
    simp [survey, fetch_of_missing lacks, Findings.after, Findings.addMissing, diagnosis?, present,
      lacks, hread]
  | failing text f reads fails =>
    simp [survey, fetch_of_read reads, Findings.after, Findings.addDiagnostic, diagnosis?, present,
      Disk.has_of_read reads, reads, fails]
  | good text code reads compiles =>
    simp [survey, fetch_of_read reads, Findings.after, diagnosis?, present,
      Disk.has_of_read reads, reads, compiles]

theorem survey_eq (h : ∀ file ∈ files, Standing room disk file) : ∀ found : Findings,
    survey room disk found files = .ok ⟨found.diagnostics ++ diagnoses room disk files,
      found.missing ++ (absent disk files).map Path.ofString⟩ := by
  induction files with
  | nil =>
    intro found
    simp [survey, diagnoses, absent]
  | cons file rest ih =>
    intro found
    -- What was found before the first file is a front part of what is found after it.
    have hrest := ih fun other hother => h other (by simp [hother])
    rw [survey_cons (h file (by simp)), hrest]
    cases hd : diagnosis? room disk file <;> cases hp : present disk file <;>
      simp [Findings.after, diagnoses, absent, hd, hp]

theorem errorCount_diagnoses (room : Nat) (disk : Disk) (files : List String) :
    Diagnostic.errorCount (diagnoses room disk files) = (diagnoses room disk files).length := by
  rw [Diagnostic.errorCount, List.countP_eq_length]
  intro d hd
  obtain ⟨file, -, hfile⟩ := List.mem_filterMap.mp hd
  unfold diagnosis? at hfile
  split at hfile
  · simp at hfile
  · split at hfile
    · simp at hfile
    · obtain rfl := Option.some.inj hfile
      rfl

theorem length_sub_length_absent (disk : Disk) (files : List String) :
    files.length - (absent disk files).length = files.countP (present disk) := by
  have hsplit := List.length_eq_countP_add_countP (present disk) (l := files)
  rw [absent, ← List.countP_eq_length_filter]
  simp only [Bool.not_eq_true, Bool.decide_eq_false] at hsplit
  omega

def missingLines (files : List String) : String :=
  String.join (files.map fun file => s!"Error: File not found: {(Path.ofString file).text}\n")

theorem missingText_eq (ds : List Diagnostic) (files : List String) :
    Findings.missingText ⟨ds, files.map Path.ofString⟩ = missingLines files := by
  rw [Findings.missingText, block, missingLines, List.map_map, List.map_map]
  rfl

theorem runCheck_eq (h : ∀ file ∈ files, Standing room disk file) (json : Bool) :
    runCheck room disk files json =
      ⟨.ok (if diagnoses room disk files = [] ∧ absent disk files = [] then 0 else 1),
        if json then
          (Json.object [("diagnostics", .array ((diagnoses room disk files).map Diagnostic.toJson)),
            ("error_count", .int (diagnoses room disk files).length)]).pretty ++ "\n"
        else if diagnoses room disk files = [] then
          s!"OK: {files.countP (present disk)} file(s), no errors\n"
        else "",
        missingLines (absent disk files) ++
          if json ∨ diagnoses room disk files = [] then ""
          else "\n\n".intercalate ((diagnoses room disk files).map Diagnostic.format ++
            [s!"\n{(diagnoses room disk files).length} error(s)"]) ++ "\n",
        none⟩ := by
  have hsurvey := survey_eq h {}
  simp only [List.nil_append] at hsurvey
  have hcount := errorCount_diagnoses room disk files
  cases json with
  | true => simp [runCheck, hsurvey, report, hcount, Diagnostic.collectionJson, missingText_eq]
  | false =>
    by_cases hd : diagnoses room disk files = []
    · rw [hd, List.length_nil] at hcount
      simp [runCheck, hsurvey, report, hcount, missingText_eq, length_sub_length_absent, hd]
    · simp [runCheck, hsurvey, report, hcount, Diagnostic.formatAll, missingText_eq, hd,
        String.append_assoc]

theorem runCheck_exit_eq_zero_iff (h : ∀ file ∈ files, Standing room disk file) (json : Bool) :
    (runCheck room disk files json).exit = .ok 0 ↔ ∀ file ∈ files, Compiles room disk file := by
  have hall : (∀ file ∈ files, Compiles room disk file) ↔
      diagnoses room disk files = [] ∧ absent disk files = [] := by
    rw [diagnoses, absent, List.filterMap_eq_nil_iff, List.filter_eq_nil_iff]
    constructor
    · intro hc
      refine ⟨fun file hfile => ?_, fun file hfile => ?_⟩
      · exact ((h file hfile).compiles_iff.mp (hc file hfile)).2
      · simp [((h file hfile).compiles_iff.mp (hc file hfile)).1]
    · rintro ⟨hnone, hpresent⟩ file hfile
      exact (h file hfile).compiles_iff.mpr ⟨by simpa using hpresent file hfile, hnone file hfile⟩
  rw [runCheck_eq h, hall]
  simp

theorem check_agrees_with_compile (room : Nat) (disk : Disk) (files : List String)
    (h : ∀ file ∈ files, disk.Offers (Path.ofString file)) :
    (∀ json,
      ((runCheck room disk files json).exit = .ok 0 ∨
        (runCheck room disk files json).exit = .ok 1) ∧
      ((runCheck room disk files json).exit = .ok 0 ↔ ∀ file ∈ files, Compiles room disk file) ∧
      ((runCheck room disk files json).exit = .ok 0 ↔
        ∀ file ∈ files, (runCompile room disk (some file) none none).exit = .ok 0) ∧
      (∀ stage : String → Stage, (runCheck room disk files json).exit = .ok 0 ↔
        ∀ file ∈ files, (runDump room disk file (stage file)).exit = .ok 0) ∧
      (runCheck room disk files json).saved = none) ∧
    survey room disk {} files =
      .ok ⟨diagnoses room disk files, (absent disk files).map Path.ofString⟩ ∧
    Diagnostic.errorCount (diagnoses room disk files) = (diagnoses room disk files).length ∧
    (runCheck room disk files true).stdout =
      (Json.object [("diagnostics", .array ((diagnoses room disk files).map Diagnostic.toJson)),
        ("error_count", .int (diagnoses room disk files).length)]).pretty ++ "\n" ∧
    (∀ value : Json, (runCheck room disk files true).stdout = value.pretty ++ "\n" →
      value = .object [("diagnostics", .array ((diagnoses room disk files).map Diagnostic.toJson)),
        ("error_count", .int (diagnoses room disk files).length)]) ∧
    (runCheck room disk files true).stderr = missingLines (absent disk files) ∧
    (diagnoses room disk files ≠ [] →
      (runCheck room disk files false).stdout = "" ∧
      (runCheck room disk files false).stderr = missingLines (absent disk files) ++
        "\n\n".intercalate ((diagnoses room disk files).map Diagnostic.format ++
          [s!"\n{(diagnoses room disk files).length} error(s)"]) ++ "\n") ∧
    (diagnoses room disk files = [] →
      (runCheck room disk files false).stdout =
        s!"OK: {files.countP (present disk)} file(s), no errors\n" ∧
      (runCheck room disk files false).stderr = missingLines (absent disk files)) := by
  have hstanding : ∀ file ∈ files, Standing room disk file := fun file hfile =>
    standing_of_offers (h file hfile)
  refine ⟨fun json => ⟨?_, ?_, ?_, ?_, ?_⟩, ?_, errorCount_diagnoses room disk files, ?_, ?_, ?_,
    ?_, ?_⟩
  · rw [runCheck_eq hstanding]
    dsimp only
    split <;> simp
  · exact runCheck_exit_eq_zero_iff hstanding json
  · rw [runCheck_exit_eq_zero_iff hstanding]
    exact forall₂_congr fun file hfile => (hstanding file hfile).runCompile_exit.symm
  · intro stage
    rw [runCheck_exit_eq_zero_iff hstanding]
    exact forall₂_congr fun file hfile => ((hstanding file hfile).runDump_exit (stage file)).symm
  · rw [runCheck_eq hstanding]
  · simpa using survey_eq hstanding {}
  · rw [runCheck_eq hstanding]
    simp
  · intro value hvalue
    rw [runCheck_eq hstanding] at hvalue
    exact Json.pretty_injective ((String.append_left_inj "\n").mp hvalue.symm)
  · rw [runCheck_eq hstanding]
    simp
  · intro hsome
    rw [runCheck_eq hstanding]
    simp [hsome, String.append_assoc]
  · intro hnone
    rw [runCheck_eq hstanding]
    simp [hnone]

def shelf : Disk :=
  .observed [(⟨"", ["good"]⟩, .ok (.file [40, 102, 32, 49, 41])), (⟨"", ["bad"]⟩, .ok (.file [36]))]

def dollarFault : Fault :=
  ⟨.unrecognizedCharacter "$" (some ⟨1, 1, 0, some "bad"⟩),
    some ⟨⟨1, 1, 0, some "bad"⟩, ⟨1, 2, 1, some "bad"⟩⟩, some "$"⟩

theorem check_agrees_with_compile_of_mixed_files :
    (runCheck Allowance.usual.room shelf ["good", "bad", "./gone", "bad"] false).exit = .ok 1 ∧
    (runCheck Allowance.usual.room shelf ["good", "bad", "./gone", "bad"] false).stdout = "" ∧
    (runCheck Allowance.usual.room shelf ["good", "bad", "./gone", "bad"] false).stderr =
      "Error: File not found: gone\n" ++ "\n\n".intercalate [dollarFault.diagnostic.format,
        dollarFault.diagnostic.format, "\n2 error(s)"] ++ "\n" := by
  have hgood : shelf.read (Path.ofString "good") = .ok "(f 1)" := rfl
  have hbad : shelf.read (Path.ofString "bad") = .ok "$" := rfl
  have hgone : shelf.has (Path.ofString "./gone") = .ok false := rfl
  have hfails :
      (Source.mk "$" (some "bad")).compile Allowance.usual.room = .error dollarFault := by
    rw [Source.compile_eq_within]
    rfl
  have hcompiles : (Source.mk "(f 1)" (some "good")).compile Allowance.usual.room = .ok "f(1);" :=
    Source.compile_eq_ok_of_within (by decide +kernel)
  have hoffers : ∀ file ∈ ["good", "bad", "./gone", "bad"],
      shelf.Offers (Path.ofString file) := by
    simp [Disk.Offers, hgood, hbad, hgone]
  have hdiagnoses : diagnoses Allowance.usual.room shelf ["good", "bad", "./gone", "bad"] =
      [dollarFault.diagnostic, dollarFault.diagnostic] := by
    obtain ⟨fault, hread⟩ := Disk.read_of_missing hgone
    simp [diagnoses, diagnosis?, hgood, hbad, hread, hfails, hcompiles]
  have habsent : absent shelf ["good", "bad", "./gone", "bad"] = ["./gone"] := by
    simp [absent, present, Disk.has_of_read hgood, Disk.has_of_read hbad, hgone]
  have hlines : missingLines ["./gone"] = "Error: File not found: gone\n" := rfl
  obtain ⟨hexit, -, -, -, -, -, hfailing, -⟩ := check_agrees_with_compile Allowance.usual.room shelf
    ["good", "bad", "./gone", "bad"] hoffers
  obtain ⟨hcode, hzero, -⟩ := hexit false
  rw [hdiagnoses, habsent, hlines] at hfailing
  refine ⟨hcode.resolve_left fun h => ?_, hfailing (by simp)⟩
  obtain ⟨text, code, hthere, -⟩ := hzero.mp h "./gone" (by simp)
  simp [hgone] at hthere

end CommandLine

end CallForms
