import Mathlib.Data.List.Forall2
import Libdef.Command.Run
import Libdef.Proofs.Disk
import Libdef.Proofs.Outcome

/-!
Runs that complete. Main statement: a run writes exactly if its arguments, all its inputs and its
output file are in order, and then to that one file; otherwise it leaves the disk alone. It also has
to encode the converted text and to show its report, and a run that fails in one of these has
written all the same.
-/

set_option autoImplicit false

namespace Libdef.Command

def Completes (console : Console) (arguments : List Text) (disk : Disk) : Prop :=
  (∃ request, parse arguments = .ok request) ∧
    ∃ report, (run console arguments disk).1 = .ok report ∧ report.exitCode = 0

/-- The path leads to a file with these source file nodes: a list of them, or a single one. -/
def RootsAt (disk : Disk) (path : Path) (roots : List Json) : Prop :=
  ∃ names bytes text document, disk.place path = .file names bytes ∧
    Text.Utf8.decode bytes = .ok text ∧ Json.read text = .ok document ∧
    (document = .arr roots ∨ (∀ items, document ≠ .arr items) ∧ roots = [document]) ∧
    ∀ root ∈ roots, isSource root = true

structure Job where
  request : Request
  roots : List (List Json)
  conversion : Conversion
  text : Text
  path : Path

def Job.bytes (job : Job) : List UInt8 := (Text.Utf8.encode? job.text).getD []

/-- What it takes for a job to be completed: its text has bytes, and its report can be shown. -/
structure Job.Delivers (job : Job) (console : Console) : Prop where
  encoded : (Text.Utf8.encode? job.text).isSome
  shown : (success job.conversion).prints.all console.showsText

/-- What it takes for a job to be taken up by a run. -/
structure Job.Fits (job : Job) (arguments : List Text) (disk : Disk) : Prop where
  parsed : parse arguments = .ok job.request
  inputs : List.Forall₂ (RootsAt disk) job.request.files job.roots
  converted : job.request.convert job.roots.flatten = .ok (job.conversion, job.text)
  output : job.request.output = some job.path
  writable : ∃ target, (disk.place job.path).target? = some target

theorem sources_eq_ok_iff {path : Path} {document : Json} {roots : List Json} :
    sources path document = .ok roots ↔
      (document = .arr roots ∨ (∀ items, document ≠ .arr items) ∧ roots = [document]) ∧
        ∀ root ∈ roots, isSource root = true := by
  have hroots (found : List Json) :
      (if found.all isSource then .ok found else .error (InputFault.noSource path)) =
          Except.ok roots ↔
        found = roots ∧ ∀ root ∈ roots, isSource root = true := by
    cases h : found.all isSource with
    | true =>
      simp only [if_true, Except.ok.injEq]
      constructor
      · rintro rfl
        exact ⟨rfl, List.all_eq_true.mp h⟩
      · exact And.left
    | false =>
      refine ⟨nofun, ?_⟩
      rintro ⟨rfl, hall⟩
      rw [List.all_eq_true.mpr hall] at h
      cases h
  by_cases harr : ∃ items, document = .arr items
  · obtain ⟨items, rfl⟩ := harr
    refine (hroots items).trans (and_congr_left fun _ => ?_)
    constructor
    · rintro rfl
      exact .inl rfl
    · rintro (⟨⟨⟩⟩ | ⟨h, -⟩)
      · rfl
      · exact (h items rfl).elim
  · have hsources : sources path document =
        if [document].all isSource then .ok [document] else .error (.noSource path) := by
      simp only [sources]
      split
      · exact (harr ⟨_, rfl⟩).elim
      · rfl
    rw [hsources, hroots]
    refine and_congr_left fun _ => ?_
    constructor
    · rintro rfl
      exact .inr ⟨not_exists.mp harr, rfl⟩
    · rintro (rfl | ⟨-, rfl⟩)
      · exact (harr ⟨roots, rfl⟩).elim
      · rfl

theorem load_eq_ok_iff {disk : Disk} {path : Path} {roots : List Json} :
    load path (Content.ofPlace (disk.place path)) = .ok roots ↔ RootsAt disk path roots := by
  constructor
  · intro h
    cases hplace : disk.place path with
    | file names bytes =>
      simp only [hplace, Content.ofPlace, load] at h
      split at h
      · cases h
      rename_i text htext
      split at h
      · cases h
      · cases h
      rename_i document hdocument
      exact ⟨names, bytes, text, document, hplace, htext, hdocument, sources_eq_ok_iff.mp h⟩
    | _ =>
      rw [hplace] at h
      cases h
  · rintro ⟨names, bytes, text, document, hplace, htext, hdocument, hroots⟩
    simp only [hplace, Content.ofPlace, load, htext, hdocument]
    exact sources_eq_ok_iff.mpr hroots

theorem mapM_eq_ok_iff {ε α β : Type} {f : α → Except ε β} {l : List α} {bs : List β} :
    l.mapM f = .ok bs ↔ List.Forall₂ (fun a b => f a = .ok b) l bs := by
  induction l generalizing bs with
  | nil =>
    rw [List.forall₂_nil_left_iff]
    exact ⟨fun h => (Except.ok.inj h).symm, fun h => h ▸ rfl⟩
  | cons a l ih =>
    rw [List.mapM_cons, List.forall₂_cons_left_iff]
    cases ha : f a with
    | error e =>
      refine ⟨nofun, ?_⟩
      rintro ⟨b, _, hb, -⟩
      cases hb
    | ok b =>
      constructor
      · intro h
        cases hl : l.mapM f with
        | error e =>
          rw [hl] at h
          cases h
        | ok bs' =>
          rw [hl] at h
          exact ⟨b, bs', rfl, ih.mp hl, (Except.ok.inj h).symm⟩
      · rintro ⟨_, bs', hb, hrest, rfl⟩
        cases hb
        rw [ih.mpr hrest]
        rfl

theorem loadAll_eq_ok_iff {disk : Disk} {paths : List Path} {trees : List Json} :
    loadAll (fun path => Content.ofPlace (disk.place path)) paths = .ok trees ↔
      ∃ roots, List.Forall₂ (RootsAt disk) paths roots ∧ trees = roots.flatten := by
  have hload (roots : List (List Json)) :
      (paths.mapM fun path => load path (Content.ofPlace (disk.place path))) = .ok roots ↔
        List.Forall₂ (RootsAt disk) paths roots := by
    simp only [mapM_eq_ok_iff, load_eq_ok_iff]
  simp only [← hload, loadAll]
  cases paths.mapM fun path => load path (Content.ofPlace (disk.place path)) with
  | error fault => exact ⟨nofun, fun ⟨_, h, _⟩ => by cases h⟩
  | ok roots =>
    constructor
    · intro h
      exact ⟨roots, rfl, (Except.ok.inj h).symm⟩
    · rintro ⟨_, ⟨⟩, rfl⟩
      rfl

variable {arguments : List Text} {request : Request} {disk : Disk} {console : Console}

theorem plan_cases (look : Path → Content) (hparse : parse arguments = .ok request) :
    (∃ trees c text path, loadAll look request.files = .ok trees ∧
      request.convert trees = .ok (c, text) ∧ request.output = some path ∧
      plan arguments look = .save path text (success c)) ∨
    (∃ message, plan arguments look = .finish (failure message)) ∨
    ∃ cause, plan arguments look = .crash cause := by
  simp only [plan, hparse, planRequest]
  cases hload : loadAll look request.files with
  | error fault =>
    right
    simp only
    cases fault.message? with
    | some message => exact .inl ⟨message, rfl⟩
    | none => exact .inr ⟨_, rfl⟩
  | ok trees =>
    simp only [planConversion]
    cases hconvert : request.convert trees with
    | error fault =>
      right
      simp only
      cases fault.message? with
      | some message => exact .inl ⟨message, rfl⟩
      | none => exact .inr ⟨_, rfl⟩
    | ok result =>
      obtain ⟨c, text⟩ := result
      cases houtput : request.output with
      | some path => exact .inl ⟨trees, c, text, path, rfl, hconvert, rfl, rfl⟩
      | none => exact .inr (.inr ⟨.noOutput, rfl⟩)

theorem tell_failure (console : Console) (message : Text) :
    console.tell (failure message) = .ok (failure message) := rfl

theorem run_of_stop {stop : Stop} (h : parse arguments = .error stop) (disk : Disk) :
    run console arguments disk = (console.tell stop.report, disk) := by
  simp only [run, plan, h, Plan.perform]

theorem Job.Fits.run_eq {job : Job} (h : job.Fits arguments disk) (console : Console) :
    ∃ target, (disk.place job.path).target? = some target ∧
      run console arguments disk =
        (if (Text.Utf8.encode? job.text).isSome then console.tell (success job.conversion)
          else .error .notEncoded, disk.withFile target job.bytes) := by
  obtain ⟨target, htarget⟩ := h.writable
  have hload := loadAll_eq_ok_iff.mpr ⟨job.roots, h.inputs, rfl⟩
  have hopen := Disk.target_eq_ok_iff.mpr htarget
  refine ⟨target, htarget, ?_⟩
  simp only [run, plan, h.parsed, planRequest, hload, planConversion, h.converted, h.output,
    Plan.perform, hopen, Job.bytes]
  cases Text.Utf8.encode? job.text <;> rfl

theorem Job.Fits.run_of_delivers {job : Job} (h : job.Fits arguments disk)
    (hd : job.Delivers console) :
    (run console arguments disk).1 = .ok (success job.conversion) := by
  obtain ⟨target, -, hrun⟩ := h.run_eq console
  rw [hrun, if_pos hd.encoded, Console.tell, if_pos hd.shown]

theorem Job.Fits.run_of_not_delivers {job : Job} (h : job.Fits arguments disk)
    (hd : ¬ job.Delivers console) : ∃ cause, (run console arguments disk).1 = .error cause := by
  obtain ⟨target, -, hrun⟩ := h.run_eq console
  rw [hrun]
  by_cases he : (Text.Utf8.encode? job.text).isSome
  · have hs : ¬(success job.conversion).prints.all console.showsText = true :=
      fun hs => hd ⟨he, hs⟩
    rw [if_pos he, Console.tell, if_neg hs]
    exact ⟨_, rfl⟩
  · rw [if_neg he]
    exact ⟨_, rfl⟩

/-- A run that takes up no job leaves the disk alone and reports a failure, if it reports
anything. -/
theorem run_cases (hparse : parse arguments = .ok request) (console : Console) (disk : Disk) :
    (∃ job : Job, job.Fits arguments disk) ∨ (run console arguments disk).2 = disk ∧
      ∀ report, (run console arguments disk).1 = .ok report → report.exitCode = 1 := by
  rcases plan_cases (fun path => Content.ofPlace (disk.place path)) hparse with
    ⟨trees, c, text, path, hload, hconvert, houtput, hplan⟩ | ⟨message, hplan⟩ | ⟨cause, hplan⟩
  · obtain ⟨roots, hroots, rfl⟩ := loadAll_eq_ok_iff.mp hload
    cases hopen : disk.target path with
    | ok target =>
      let job : Job := ⟨request, roots, c, text, path⟩
      exact .inl ⟨job, hparse, hroots, hconvert, houtput, target, Disk.target_eq_ok_iff.mp hopen⟩
    | error fault =>
      right
      simp only [run, hplan, Plan.perform, hopen]
      cases fault.message? path with
      | none => exact ⟨rfl, nofun⟩
      | some message =>
        refine ⟨rfl, ?_⟩
        rintro _ ⟨⟩
        rfl
  · right
    simp only [run, hplan, Plan.perform, tell_failure, true_and]
    rintro _ ⟨⟩
    rfl
  · right
    simp only [run, hplan, Plan.perform, true_and]
    exact nofun

theorem completes_iff : Completes console arguments disk ↔
    ∃ job : Job, job.Fits arguments disk ∧ job.Delivers console := by
  constructor
  · rintro ⟨⟨request, hparse⟩, report, hreport, hcode⟩
    rcases run_cases hparse console disk with ⟨job, hfits⟩ | ⟨-, hfailed⟩
    · refine ⟨job, hfits, ?_⟩
      by_contra hd
      obtain ⟨cause, hcause⟩ := hfits.run_of_not_delivers hd
      rw [hreport] at hcause
      cases hcause
    · rw [hfailed report hreport] at hcode
      cases hcode
  · rintro ⟨job, hfits, hd⟩
    exact ⟨⟨job.request, hfits.parsed⟩, success job.conversion, hfits.run_of_delivers hd, rfl⟩

theorem disk_of_not_fits (h : ∀ job : Job, ¬ job.Fits arguments disk) :
    (run console arguments disk).2 = disk := by
  cases hparse : parse arguments with
  | error stop => rw [run_of_stop hparse]
  | ok request =>
    rcases run_cases hparse console disk with ⟨job, hfits⟩ | ⟨hdisk, -⟩
    · exact (h job hfits).elim
    · exact hdisk

theorem run_of_usage {report : Report} (h : (run console arguments disk).1 = .ok report)
    (hcode : report.exitCode = 2) (other : Disk) :
    run console arguments other = (.ok report, other) := by
  cases hparse : parse arguments with
  | error stop =>
    rw [run_of_stop hparse] at h ⊢
    rw [show console.tell stop.report = .ok report from h]
  | ok request =>
    rcases run_cases hparse console disk with ⟨job, hfits⟩ | ⟨-, hfailed⟩
    · by_cases hd : job.Delivers console
      · rw [hfits.run_of_delivers hd] at h
        cases h
        cases hcode
      · obtain ⟨cause, hcause⟩ := hfits.run_of_not_delivers hd
        rw [hcause] at h
        cases h
    · rw [hfailed report h] at hcode
      cases hcode

/-- A run takes up a job exactly if there is one for it, and then it writes to the output file,
which may be one of the inputs, and changes nothing else; without a job it changes nothing at all.
It completes if the text of all inputs can be encoded and the report shown. So it has either
completed or left the disk alone, unless it could not, and the file was another one before. What is
wrong with the use of the command does not depend on the disk. -/
theorem run_all_or_nothing (console : Console) (arguments : List Text) (disk : Disk) :
    (Completes console arguments disk ↔
      ∃ job : Job, job.Fits arguments disk ∧ job.Delivers console) ∧
    (∀ job : Job, job.Fits arguments disk →
      disk.Rewritten (run console arguments disk).2 job.path job.bytes ∧
      (job.Delivers console → Text.Utf8.encode? job.text = some job.bytes ∧
        (run console arguments disk).1 = .ok (success job.conversion))) ∧
    ((∀ job : Job, ¬ job.Fits arguments disk) → (run console arguments disk).2 = disk) ∧
    (Completes console arguments disk ∨ (run console arguments disk).2 = disk ↔
      ∀ job : Job, job.Fits arguments disk → job.Delivers console ∨
        ∃ names, disk.place job.path = .file names job.bytes) ∧
    ∀ report, (run console arguments disk).1 = .ok report → report.exitCode = 2 →
      ∀ other, run console arguments other = (.ok report, other) := by
  refine ⟨completes_iff, fun job hfits => ?_, disk_of_not_fits, ?_, fun _ => run_of_usage⟩
  · obtain ⟨target, htarget, hrun⟩ := hfits.run_eq console
    refine ⟨?_, fun hd => ⟨?_, hfits.run_of_delivers hd⟩⟩
    · rw [hrun]
      exact Disk.rewritten_withFile _ htarget
    · obtain ⟨bytes, hbytes⟩ := Option.isSome_iff_exists.mp hd.encoded
      rw [Job.bytes, hbytes]
      rfl
  · constructor
    · rintro (hcompletes | hdisk) job hfits
      · left
        by_contra hd
        obtain ⟨cause, hcause⟩ := hfits.run_of_not_delivers hd
        obtain ⟨-, report, hreport, -⟩ := hcompletes
        rw [hcause] at hreport
        cases hreport
      · right
        obtain ⟨target, htarget, hrun⟩ := hfits.run_eq console
        rw [hrun] at hdisk
        exact ⟨target, Disk.place_of_withFile_eq_self htarget hdisk⟩
    · intro h
      by_cases hjob : ∃ job : Job, job.Fits arguments disk
      · obtain ⟨job, hfits⟩ := hjob
        rcases h job hfits with hd | ⟨names, hplace⟩
        · exact .inl (completes_iff.mpr ⟨job, hfits, hd⟩)
        · obtain ⟨target, htarget, hrun⟩ := hfits.run_eq console
          rw [hplace] at htarget
          cases htarget
          right
          rw [hrun]
          exact Disk.withFile_eq_self hplace
      · exact .inr (disk_of_not_fits (not_exists.mp hjob))

/-- Two inputs of which the first is also the output, by another path; a missing input; and a width
that is no number. -/
theorem run_all_or_nothing_over_input :
    let declaration (name : String) := "\x7b\"kind\": \"InterfaceDeclaration\", \"name\": " ++
      "\x7b\"kind\": \"Identifier\", \"text\": \"" ++ name ++ "\"\x7d\x7d"
    let source (statements : String) := "\x7b\"statements\": [" ++ statements ++ "]\x7d"
    let first := source (declaration "A")
    let second := "[" ++ source "" ++ ", " ++ source (declaration "B") ++ "]"
    let disk : Disk := { here := ["work"], files := [
      (["work", "a.json"], first.toUTF8.data.toList),
      (["work", "b.json"], second.toUTF8.data.toList)] }
    let arguments : List Text := ["a.json", "b.json", "-o", "../work/a.json"]
    Completes .utf8 arguments disk ∧
      (∃ job : Job, job.Fits arguments disk ∧ job.Delivers .utf8 ∧
        disk.Rewritten (run .utf8 arguments disk).2 job.path job.bytes) ∧
      (run .utf8 arguments disk).2.file? ["work", "a.json"] = some
        ("declare module 'root' \x7b\n\tdeclare interface A \x7b\x7d\n\n" ++
          "\tdeclare interface B \x7b\x7d\n\x7d\n" : String).toUTF8.data.toList ∧
      ¬ Completes .utf8 ["a.json", "c.json"] disk ∧
      (run .utf8 ["a.json", "c.json"] disk).2 = disk ∧
      ∃ report, report.exitCode = 2 ∧
        ∀ other, run .utf8 ["a.json", "--width", "wide"] other = (.ok report, other) := by
  intro declaration source first second disk arguments
  have hverbose : (parse arguments).toOption.map Request.verbose = some false := by decide +kernel
  have hzero : (run .utf8 arguments disk).1.toOption.map Report.exitCode = some 0 := by
    decide +kernel
  have hmissing : (run .utf8 ["a.json", "c.json"] disk).1.toOption.map Report.exitCode = some 1 ∧
      (run .utf8 ["a.json", "c.json"] disk).2 = disk := by
    decide +kernel
  have htwo : (run .utf8 ["a.json", "--width", "wide"] disk).1.toOption.map Report.exitCode =
      some 2 := by
    decide +kernel
  obtain ⟨request, hparse, -⟩ := exists_ok_of_map hverbose
  obtain ⟨report, hreport, hcode⟩ := exists_ok_of_map hzero
  obtain ⟨failed, hfailed, hfailure⟩ := exists_ok_of_map hmissing.1
  obtain ⟨misused, hmisused, husage⟩ := exists_ok_of_map htwo
  have hcompletes : Completes .utf8 arguments disk := ⟨⟨request, hparse⟩, report, hreport, hcode⟩
  have hfails : ¬ Completes .utf8 ["a.json", "c.json"] disk := by
    rintro ⟨-, other, hother, hcode⟩
    rw [hfailed] at hother
    cases hother
    omega
  obtain ⟨hjobs, hdone, -⟩ := run_all_or_nothing .utf8 arguments disk
  obtain ⟨-, -, -, -, hsame⟩ := run_all_or_nothing .utf8 ["a.json", "--width", "wide"] disk
  obtain ⟨job, hfits, hdelivers⟩ := hjobs.mp hcompletes
  exact ⟨hcompletes, ⟨job, hfits, hdelivers, (hdone job hfits).1⟩, by decide +kernel, hfails,
    hmissing.2, misused, husage, hsame misused hmisused husage⟩

/-- An interface whose name is a surrogate by itself: the output file is created empty, and the run
crashes. A variable of this name is in no output, but in a report; the file is written before a
console fails to show it. -/
theorem run_crashes_after_write :
    let interface := "\x7b\"kind\": \"InterfaceDeclaration\", \"name\": \"\\ud800\"\x7d"
    let namespaceNode := "\x7b\"kind\": \"ModuleDeclaration\", \"name\": \"NS\", \"flags\": 16\x7d"
    let deep := "\x7b\"kind\": \"VariableStatement\", " ++
      "\"declarationList\": \x7b\"declarations\": " ++
      "[\x7b\"name\": \"\\ud800\", \"type\": \x7b\"kind\": \"TypeReference\", " ++
      "\"typeName\": \"NS.A.B\"\x7d\x7d]\x7d\x7d"
    let disk (statements : String) : Disk := { files := [(["a.json"],
      ("\x7b\"statements\": [" ++ statements ++ "]\x7d").toUTF8.data.toList)] }
    let ended (console : Console) (statements : String) :=
      ((run console ["a.json"] (disk statements)).1.toOption.isSome,
        (run console ["a.json"] (disk statements)).2.file? ["export.flow.js"])
    (∀ statements, (disk statements).file? ["export.flow.js"] = none) ∧
      ended .plain interface = (false, some []) ∧
      ended .plain (namespaceNode ++ ", " ++ deep) = (true, some "\n".toUTF8.data.toList) ∧
      ended .utf8 (namespaceNode ++ ", " ++ deep) = (false, some "\n".toUTF8.data.toList) := by
  intro interface namespaceNode deep disk ended
  exact ⟨fun statements => rfl, by decide +kernel, by decide +kernel, by decide +kernel⟩

end Libdef.Command
