import CallForms.Disk.Folder
import CallForms.Proofs.CommandLine.Checking
import CallForms.Proofs.Compilation.Meaning
import CallForms.Proofs.Places.Independence
import CallForms.Proofs.Text.Octets

namespace CallForms

structure FileSystem (Slot : Type) where
  locate : Path → Except Disk.Obstacle Slot
  entry : Slot → Option Disk.Entry

namespace FileSystem

variable {Slot : Type}

def disk (fs : FileSystem Slot) : Disk where
  entry path := do
    let slot ← fs.locate path
    match fs.entry slot with
    | some entry => return entry
    | none => .error .notFound
  saving path :=
    match fs.locate path with
    | .error obstacle => some obstacle
    | .ok slot => if fs.entry slot = some .directory then some .isDirectory else none

def after [DecidableEq Slot] (fs : FileSystem Slot) (outcome : CommandLine.Outcome) :
    Slot → Option Disk.Entry :=
  match outcome.saved with
  | none => fs.entry
  | some (path, content) =>
    match fs.locate path with
    | .error _ => fs.entry
    | .ok slot => Function.update fs.entry slot (some (.file (Text.Utf8.encode content)))

def following [DecidableEq Slot] (fs : FileSystem Slot) (outcome : CommandLine.Outcome) :
    FileSystem Slot :=
  ⟨fs.locate, fs.after outcome⟩

theorem read_following [DecidableEq Slot] {fs : FileSystem Slot} {outcome : CommandLine.Outcome}
    {path : Path} {slot : Slot} {text : String} (hslot : fs.locate path = .ok slot)
    (h : fs.after outcome slot = some (.file (Text.Utf8.encode text)))
    (hline : '\r' ∉ text.toList) : (fs.following outcome).disk.read path = .ok text := by
  have hentry : (fs.following outcome).disk.entry path =
      .ok (.file (Text.Utf8.encode text)) := by
    simp [disk, following, bind, Except.bind, hslot, h, pure, Except.pure]
  simp only [Disk.read, hentry, Disk.textOf, Text.Utf8.decode_encode,
    Text.unifyLineEnds_eq_self hline, String.ofList_toList]

theorem exists_locate {fs : FileSystem Slot} {path : Path} (h : fs.disk.saving path = none) :
    ∃ slot, fs.locate path = .ok slot := by
  cases hl : fs.locate path with
  | ok slot => exact ⟨slot, rfl⟩
  | error obstacle => simp [disk, hl] at h

end FileSystem

def Folder.fileSystem (folder : Folder) : FileSystem Place :=
  ⟨folder.locate, folder.at?⟩

theorem Folder.disk_fileSystem (folder : Folder) : folder.fileSystem.disk = folder.disk := by
  have hsaving : folder.fileSystem.disk.saving = folder.disk.saving := by
    funext path
    simp only [FileSystem.disk, Folder.disk, Folder.fileSystem]
    cases folder.locate path <;> rfl
  exact Disk.mk.injEq .. |>.mpr ⟨rfl, hsaving⟩

theorem Text.forall_mem_intercalate {P : Char → Prop} {sep : String} {texts : List String}
    (hsep : ∀ c ∈ sep.toList, P c) (h : ∀ text ∈ texts, ∀ c ∈ text.toList, P c) :
    ∀ c ∈ (sep.intercalate texts).toList, P c := by
  induction texts with
  | nil => simp
  | cons first rest ih =>
    have hrest := ih fun text htext => h text (by simp [htext])
    cases rest with
    | nil => simpa using h first (by simp)
    | cons second rest =>
      rw [String.intercalate_cons_cons, String.toList_append, String.toList_append]
      simp only [List.forall_mem_append]
      exact ⟨⟨h first (by simp), hsep⟩, hrest⟩

namespace Expr

variable {P : Char → Prop} {es : List Expr}

theorem forall_mem_rendering (hmarks : ∀ c ∈ ['(', ')', ',', ' '], P c) (e : Expr)
    (h : ∀ t ∈ e.tokens, ∀ c ∈ t.text.toList, P c) : ∀ c ∈ e.rendering.toList, P c := by
  induction e with
  | number digits span =>
    rw [rendering]
    exact h ⟨.number, digits, none⟩ (by simp [tokens])
  | call name params span ih =>
    obtain ⟨-, hname, hparams, -⟩ := forall_mem_tokens_call.mp h
    rw [rendering, renderings_eq_map]
    simp only [String.toList_append, List.forall_mem_append]
    refine ⟨⟨⟨hname, ?_⟩, ?_⟩, ?_⟩
    · exact fun c hc => hmarks c (by simp_all)
    · apply Text.forall_mem_intercalate
      · exact fun c hc => hmarks c (by revert hc; simp; tauto)
      · intro text htext
        obtain ⟨e, he, rfl⟩ := List.mem_map.mp htext
        exact ih e he (hparams e he)
    · exact fun c hc => hmarks c (by simp_all)

theorem forall_mem_code (hmarks : ∀ c ∈ ['(', ')', ',', ' ', ';', '\n'], P c)
    (h : ∀ t ∈ tokensAll es, ∀ c ∈ t.text.toList, P c) : ∀ c ∈ (code es).toList, P c := by
  rw [code]
  apply Text.forall_mem_intercalate
  · exact fun c hc => hmarks c (by simp_all)
  · intro text htext
    obtain ⟨e, he, rfl⟩ := List.mem_map.mp htext
    have hrendering := forall_mem_rendering (fun c hc => hmarks c (by revert hc; simp; tauto)) e
      (forall_mem_tokensAll.mp h e he)
    cases e with
    | number digits span => exact hrendering
    | call name params span =>
      rw [statement, String.toList_append]
      simp only [List.forall_mem_append]
      exact ⟨hrendering, fun c hc => hmarks c (by simp_all)⟩

end Expr

namespace Source

variable {room : Nat} {text code : String} {file : Option String}

theorem carriageReturn_not_mem_code {s : Source} (h : s.compile room = .ok code) :
    '\r' ∉ code.toList := by
  obtain ⟨ts, es, -, -, hlexeme, rfl⟩ := tokensAll_of_compile h
  intro hmem
  refine Expr.forall_mem_code (P := (· ≠ '\r')) (by simp) ?_ '\r' hmem rfl
  rintro t ht c hc rfl
  have hadmitted := (hlexeme t ht).admitted '\r' hc
  cases hk : t.kind <;> simp [hk, Token.Kind.admits] at hadmitted

theorem compile_ok_congr (h : compile room ⟨text, file⟩ = .ok code) (file' : Option String) :
    compile room ⟨text, file'⟩ = .ok code := by
  have hagree : Agree (fun a b => a = b) (compile room ⟨text, file⟩) (compile room ⟨text, file'⟩) :=
    compile_agree (tokens_agree_of_text text file file')
  rw [h] at hagree
  generalize compile room ⟨text, file'⟩ = outcome at hagree
  cases hagree with
  | ok heq => rw [heq]

end Source

namespace CommandLine

def chosen? (disk : Disk) (file expr : Option String) : Option String :=
  expr.or (file.bind fun name => (disk.read (Path.ofString name)).toOption)

def Accepts (room : Nat) (text? : Option String) (code : String) : Prop :=
  ∃ text, text? = some text ∧ Source.compile room ⟨text, none⟩ = .ok code

inductive Ending (room : Nat) (output text? : Option String) : Outcome → Prop
  | failed (line : String) (h : ∀ code, ¬ Accepts room text? code) :
    Ending room output text? (.fail line)
  | printed {code : String} (h : Accepts room text? code) (unnamed : ∀ name ∈ output, name = "") :
      Ending room output text? (.print code)
  | saved {code name : String} (h : Accepts room text? code) (named : output = some name)
      (ne : name ≠ "") : Ending room output text?
        ⟨.ok 0, s!"Compiled to: {name}\n", "", some (Path.ofString name, code ++ "\n")⟩

variable {room : Nat} {disk : Disk} {file expr output text? : Option String} {text code : String}

theorem Accepts.unique {code' : String} (h : Accepts room text? code)
    (h' : Accepts room text? code') :
    code = code' := by
  obtain ⟨text, rfl, hcode⟩ := h
  obtain ⟨text', htext, hcode'⟩ := h'
  cases htext
  exact Except.ok.inj (hcode.symm.trans hcode')

theorem compileSource_congr {disk' : Disk} (h : disk'.saving = disk.saving) (s : Source) :
    compileSource room disk' output s = compileSource room disk output s := by
  simp only [compileSource, deliver, h]

theorem ending_deliver (h : Accepts room text? code)
    (houtput : ∀ name, output = some name → name ≠ "" → disk.saving (Path.ofString name) = none) :
    Ending room output text? (deliver disk output code) := by
  cases output with
  | none => exact .printed h (by simp)
  | some name =>
    by_cases hname : name = ""
    · have hprint : deliver disk (some name) code = .print code := by
        simp [deliver, Option.filter, hname]
      rw [hprint]
      exact .printed h (by simpa using hname)
    · have hsave : deliver disk (some name) code =
          ⟨.ok 0, s!"Compiled to: {name}\n", "", some (Path.ofString name, code ++ "\n")⟩ := by
        simp [deliver, Option.filter, hname, houtput name rfl hname]
      rw [hsave]
      exact .saved h rfl hname

theorem ending_compileSource (htext : text? = some text) (label : Option String)
    (houtput : ∀ name, output = some name → name ≠ "" → disk.saving (Path.ofString name) = none) :
    Ending room output text? (compileSource room disk output ⟨text, label⟩) := by
  rw [compileSource]
  cases hc : Source.compile room ⟨text, label⟩ with
  | ok code => exact ending_deliver ⟨text, htext, Source.compile_ok_congr hc none⟩ houtput
  | error f =>
    refine .failed _ ?_
    rintro code ⟨text', htext', hcode⟩
    cases htext.symm.trans htext'
    have hok := Source.compile_ok_congr hcode label
    rw [hc] at hok
    cases hok

theorem ending_runCompile
    (hfile : ∀ name, expr = none → file = some name → disk.Offers (Path.ofString name))
    (houtput : ∀ name, output = some name → name ≠ "" → disk.saving (Path.ofString name) = none) :
    Ending room output (chosen? disk file expr) (runCompile room disk file expr output) := by
  cases expr with
  | some text => exact ending_compileSource rfl _ houtput
  | none =>
    cases file with
    | none =>
      refine .failed _ ?_
      rintro code ⟨text, htext, -⟩
      cases htext
    | some name =>
      rw [runCompile, withSource]
      obtain hlacks | ⟨text, hread⟩ := hfile name rfl rfl
      · obtain ⟨fault, hread⟩ := Disk.read_of_missing hlacks
        rw [fetch_of_missing hlacks]
        refine .failed _ ?_
        rintro code ⟨text, htext, -⟩
        simp [chosen?, hread, Except.toOption] at htext
      · rw [fetch_of_read hread]
        exact ending_compileSource (by simp [chosen?, hread, Except.toOption]) _ houtput

namespace Ending

variable {Slot : Type} {fs : FileSystem Slot} {outcome : Outcome}

theorem exit_eq (h : Ending room output text? outcome) :
    outcome.exit = .ok 0 ∨ outcome.exit = .ok 1 := by
  cases h with
  | failed line h => exact .inr rfl
  | printed h unnamed => exact .inl rfl
  | saved h named ne => exact .inl rfl

theorem exit_eq_zero_iff (h : Ending room output text? outcome) :
    outcome.exit = .ok 0 ↔ ∃ code, Accepts room text? code := by
  cases h with
  | failed line h => exact iff_of_false (by simp [Outcome.fail]) (not_exists.mpr h)
  | printed h unnamed => exact iff_of_true rfl ⟨_, h⟩
  | saved h named ne => exact iff_of_true rfl ⟨_, h⟩

theorem of_exit_one [DecidableEq Slot] (h : Ending room output text? outcome)
    (hexit : outcome.exit = .ok 1) : fs.after outcome = fs.entry ∧ outcome.stdout = "" := by
  cases h with
  | failed line h => exact ⟨rfl, rfl⟩
  | printed h unnamed => cases hexit
  | saved h named ne => cases hexit

theorem of_unnamed [DecidableEq Slot] (h : Ending room output text? outcome)
    (hcode : Accepts room text? code) (hout : ∀ name ∈ output, name = "") :
    fs.after outcome = fs.entry ∧ outcome.stdout = code ++ "\n" := by
  cases h with
  | failed line h => exact absurd hcode (h code)
  | printed h unnamed => exact ⟨rfl, by rw [hcode.unique h, Outcome.print]⟩
  | saved h named ne => exact absurd (hout _ named) ne

theorem of_named [DecidableEq Slot] {name : String} (h : Ending room output text? outcome)
    (hcode : Accepts room text? code) (hname : output = some name) (hne : name ≠ "")
    (hfree : fs.disk.saving (Path.ofString name) = none) :
    ∃ slot, fs.locate (Path.ofString name) = .ok slot ∧
      fs.after outcome slot = some (.file (Text.Utf8.encode (code ++ "\n"))) ∧
      (fs.following outcome).disk.read (Path.ofString name) = .ok (code ++ "\n") ∧
      ∀ other, other ≠ slot → fs.after outcome other = fs.entry other := by
  obtain ⟨slot, hslot⟩ := FileSystem.exists_locate hfree
  cases h with
  | failed line h => exact absurd hcode (h code)
  | printed h unnamed => exact absurd (unnamed name hname) hne
  | saved h named ne =>
    cases hname.symm.trans named
    obtain rfl := hcode.unique h
    have hafter : fs.after ⟨.ok 0, s!"Compiled to: {name}\n", "",
        some (Path.ofString name, code ++ "\n")⟩ =
        Function.update fs.entry slot (some (.file (Text.Utf8.encode (code ++ "\n")))) := by
      simp [FileSystem.after, hslot]
    have hsaved := (congrFun hafter slot).trans (Function.update_self ..)
    obtain ⟨text, -, hcompiles⟩ := hcode
    refine ⟨slot, hslot, hsaved, FileSystem.read_following hslot hsaved ?_, ?_⟩
    · rw [String.toList_append, List.mem_append]
      exact not_or.mpr ⟨Source.carriageReturn_not_mem_code hcompiles, by decide⟩
    · intro other hother
      rw [hafter]
      exact Function.update_of_ne hother ..

end Ending

theorem compiling_is_all_or_nothing {Slot : Type} [DecidableEq Slot] (room : Nat)
    (fs : FileSystem Slot) (file expr output : Option String)
    (hfile : ∀ name, expr = none → file = some name → fs.disk.Offers (Path.ofString name))
    (houtput : ∀ name, output = some name → name ≠ "" →
      fs.disk.saving (Path.ofString name) = none) :
    let outcome := runCompile room fs.disk file expr output
    let text? := chosen? fs.disk file expr
    (outcome.exit = .ok 0 ∨ outcome.exit = .ok 1) ∧
    (outcome.exit = .ok 0 ↔ ∃ code, Accepts room text? code) ∧
    (outcome.exit = .ok 1 → fs.after outcome = fs.entry ∧ outcome.stdout = "") ∧
    (outcome.exit = .ok 0 → ∃ code, Accepts room text? code ∧
      (∀ name, output = some name → name ≠ "" →
        ∃ slot, fs.locate (Path.ofString name) = .ok slot ∧
          fs.after outcome slot = some (.file (Text.Utf8.encode (code ++ "\n"))) ∧
          (fs.following outcome).disk.read (Path.ofString name) = .ok (code ++ "\n") ∧
          ∀ other, other ≠ slot → fs.after outcome other = fs.entry other) ∧
      ((∀ name ∈ output, name = "") →
        fs.after outcome = fs.entry ∧ outcome.stdout = code ++ "\n")) ∧
    (∀ source, expr = some source → text? = some source ∧
      ∀ disk : Disk, disk.saving = fs.disk.saving → ∀ file' : Option String,
        runCompile room disk file' expr output = outcome) := by
  intro outcome text?
  have hending : Ending room output text? outcome := ending_runCompile hfile houtput
  have hzero := hending.exit_eq_zero_iff
  refine ⟨hending.exit_eq, hzero, hending.of_exit_one, ?_, ?_⟩
  · intro hexit
    obtain ⟨code, hcode⟩ := hzero.mp hexit
    refine ⟨code, hcode, ?_, hending.of_unnamed hcode⟩
    intro name hname hne
    exact hending.of_named hcode hname hne (houtput name hname hne)
  · rintro source rfl
    exact ⟨rfl, fun disk hsaving file' => compileSource_congr hsaving _⟩

def pantry : FileSystem Place :=
  Folder.fileSystem ⟨[(.near 0 ["a"], .file [40, 102, 32, 49, 41]), (.near 0 ["b"], .file [36])]⟩

theorem compiling_is_all_or_nothing_over_its_input :
    pantry.after (runCompile Allowance.usual.room pantry.disk (some "./a") none (some "a"))
      (.near 0 ["a"]) = some (.file (Text.Utf8.encode "f(1);\n")) ∧
    pantry.after (runCompile Allowance.usual.room pantry.disk (some "b") none (some "a")) =
      pantry.entry ∧
    (runCompile Allowance.usual.room pantry.disk (some "gone") (some "") (some "")).stdout =
      "\n" := by
  have ha : pantry.disk.read (Path.ofString "./a") = .ok "(f 1)" := rfl
  have hb : pantry.disk.read (Path.ofString "b") = .ok "$" := rfl
  have hslot : pantry.locate (Path.ofString "a") = .ok (.near 0 ["a"]) := rfl
  have hfree : ∀ name, some "a" = some name → name ≠ "" →
      pantry.disk.saving (Path.ofString name) = none := by
    rintro name ⟨⟩ -
    rfl
  have hgood : Accepts Allowance.usual.room (chosen? pantry.disk (some "./a") none) "f(1);" :=
    ⟨"(f 1)", by simp [chosen?, ha, Except.toOption],
      Source.compile_eq_ok_of_within (by decide +kernel)⟩
  have hbad :
      ¬ ∃ code, Accepts Allowance.usual.room (chosen? pantry.disk (some "b") none) code := by
    rintro ⟨code, text, htext, hcode⟩
    have hsame : "$" = text := by simpa [chosen?, hb, Except.toOption] using htext
    rw [← hsame, Source.compile_eq_within] at hcode
    cases hcode
  have hempty : Accepts Allowance.usual.room (chosen? pantry.disk (some "gone") (some "")) "" :=
    ⟨"", rfl, Source.compile_eq_ok_of_within (by decide +kernel)⟩
  refine ⟨?_, ?_, ?_⟩
  · obtain ⟨-, hzero, -, hdone, -⟩ := compiling_is_all_or_nothing Allowance.usual.room pantry
      (some "./a") none (some "a") (by rintro name - ⟨⟩; exact .inr ⟨_, ha⟩) hfree
    obtain ⟨code, hcode, hsaved, -⟩ := hdone (hzero.mpr ⟨_, hgood⟩)
    obtain ⟨slot, hlocate, hafter, -⟩ := hsaved "a" rfl (by decide)
    cases hslot.symm.trans hlocate
    rw [hafter, hcode.unique hgood]
    rfl
  · obtain ⟨hexit, hzero, hone, -⟩ := compiling_is_all_or_nothing Allowance.usual.room pantry
      (some "b") none (some "a") (by rintro name - ⟨⟩; exact .inr ⟨_, hb⟩) hfree
    exact (hone (hexit.resolve_left fun h => hbad (hzero.mp h))).1
  · obtain ⟨-, hzero, -, hdone, -⟩ := compiling_is_all_or_nothing Allowance.usual.room pantry
      (some "gone") (some "") (some "") (by simp) (by simp)
    obtain ⟨code, hcode, -, hprinted⟩ := hdone (hzero.mpr ⟨_, hempty⟩)
    rw [(hprinted (by simp)).2, hcode.unique hempty]
    rfl

end CommandLine

end CallForms
