import Folio.Program
import Folio.Template.Engine
import Folio.Proofs.Config
import Folio.Proofs.Batch.Failure

/-!
# Folio.Proofs.Program

What a run of the program tells, and what it has done.

* `generatedLines`: the lines of a log on pages; `generatedLines_log`: they are those of the pages that have been
  reported.
* `Batch.Whole`: the page of a document holds all of its text.
* `Batch.HasMade`: what a run over a directory has done; `performDirectory_told`: it is what it has reported.
* `run_told`: the log names the pages that have been written, and the exit status and the report agree with it.
-/

namespace Folio

open FileSystem

/-! ### The log -/

/-- How the lines on pages begin. -/
def generatedMark : String :=
  "[INFO  litdoc::processor] Generated '"

/-- The lines of a log on pages. -/
def generatedLines (log : List String) : List String :=
  log.filter fun line => generatedMark.toList.isPrefixOf line.toList

theorem toList_line (n : Notice) :
    n.line.toList = '[' :: n.level.word.toList ++ " litdoc::".toList ++ n.source.toList ++ "] ".toList ++
      Notice.indented n.text.toList := by
  simp [Notice.line]

theorem text_generated (page : Path) : (Notice.generated page).text = "Generated '" ++ page.display ++ "'" :=
  rfl

theorem indented_append (first second : List Char) :
    Notice.indented (first ++ second) = Notice.indented first ++ Notice.indented second :=
  List.flatMap_append

theorem isPrefixOf_line_generated (page : Path) :
    generatedMark.toList.isPrefixOf (Notice.generated page).line.toList = true := by
  have hmark : generatedMark.toList = '[' :: Notice.Level.info.word.toList ++ " litdoc::".toList ++
      "processor".toList ++ "] ".toList ++ "Generated '".toList := by decide +kernel
  have hbegin : Notice.indented "Generated '".toList = "Generated '".toList := by decide +kernel
  have htext : (Notice.generated page).text.toList = "Generated '".toList ++ (page.display ++ "'").toList := by
    rw [text_generated, String.append_assoc, String.toList_append]
  rw [toList_line, htext, indented_append, hbegin, hmark, ← List.append_assoc, List.isPrefixOf_iff_prefix]
  exact List.prefix_append _ _

/-- Only pages are reported under the level of their lines, which begin with the mark whatever the page is called. -/
theorem isPrefixOf_line (n : Notice) : generatedMark.toList.isPrefixOf n.line.toList = n.page?.isSome := by
  have hmark : generatedMark.toList = '[' :: 'I' :: "NFO  litdoc::processor] Generated '".toList := by decide +kernel
  cases n with
  | generated page => exact isPrefixOf_line_generated page
  | _ =>
    refine Bool.eq_false_iff.2 fun h => ?_
    rw [toList_line, hmark, List.isPrefixOf_iff_prefix] at h
    simp [Notice.level, Notice.Level.word, List.cons_prefix_cons] at h

theorem generatedLines_log (verbose : Bool) (notices : List Notice) :
    generatedLines ((notices.filter (Program.shows verbose)).map Notice.line) =
      (notices.filterMap Notice.page?).map fun page => (Notice.generated page).line := by
  induction notices with
  | nil => rfl
  | cons n notices ih =>
    rw [generatedLines] at ih ⊢
    cases hpage : n.page? with
    | none =>
      rw [List.filterMap_cons_none hpage, ← ih, List.filter_cons]
      split
      · rw [List.map_cons, List.filter_cons_of_neg]
        rw [isPrefixOf_line, hpage]
        exact Bool.false_ne_true
      · rfl
    | some page =>
      have hn : n = .generated page := by
        cases n <;> cases hpage
        rfl
      subst hn
      have hshown : Program.shows verbose (.generated page) = true := by cases verbose <;> rfl
      rw [List.filterMap_cons_some hpage, List.map_cons, ← ih, List.filter_cons_of_pos hshown, List.map_cons,
        List.filter_cons_of_pos (isPrefixOf_line _)]

/-! ### The configuration -/

namespace ProjectConfig

theorem reports_findText (dir : Path) (names : List String) : (findText dir names).Reports Notice.IsQuiet := by
  induction names with
  | nil =>
    have hnone : (Action.report (.noConfig dir)).Reports Notice.IsQuiet := Action.reports_report rfl
    exact hnone.bind fun _ => Action.reports_ofExcept (.ok none)
  | cons name names ih =>
    refine (Action.reports_ask _).bind fun found => ?_
    cases found with
    | false => exact ih
    | true =>
      have hloading : (Action.report (.loadingConfig (dir.join (Path.ofString name)))).Reports Notice.IsQuiet :=
        Action.reports_report rfl
      exact hloading.bind fun _ =>
        (Action.reports_readText _).bind fun text => Action.reports_ofExcept (.ok (some text))

theorem reports_load (dir : Path) : (load dir).Reports Notice.IsQuiet := by
  refine (reports_findText dir fileNames).bind fun text => ?_
  cases text with
  | none => exact Action.reports_ofExcept (.ok (default : ProjectConfig))
  | some text =>
    exact (Action.reports_ofExcept _).bind fun config => Action.reports_ofExcept (.ok (config.inDirectory dir))

end ProjectConfig

/-! ### Runs over a directory -/

namespace Batch

/-- The run that the configuration and the ignore file of a directory ask for. -/
structure IsConfigured (b : Batch) (given : DirectoryOptions) (input : Path) (fs : FileSystem) : Prop where
  renderer : b.renderer = Template.engine
  options : ∃ config, (ProjectConfig.load input).result fs = .ok config ∧ b.options = config.completeDirectory given
  ignored : (IgnoreSet.load (input.join IgnoreSet.fileName)).result fs = .ok b.ignored

/-- The page of a document holds all of its text. It is made from the files of the beginning where the files that the
engine looks at for it are missing or are no pages. -/
def Whole (b : Batch) (fs₀ : FileSystem) (input : Path) (root : Location) (fs' : FileSystem) (names : List Name) :
    Prop :=
  ∃ fs₁ kind text l, PageStands b input root fs₀ fs' names fs₁ kind text l ∧
    fs'.read (b.pageOf names) = .ok (Text.encode text) ∧
    ∀ asked : String → Bool, Asks kind b.options.toChoices (input.below names) asked fs₁ →
      (∀ p, layoutLookups b.options.toChoices asked fs₁ p → fs₁.readText p = .error .notFound ∨
        ∀ k, fs₁.locate true p = .ok k → ¬ b.pages fs₀ input root k) →
      b.MadeFrom fs₀ input kind names (layoutLookups b.options.toChoices asked fs₁) text

/-- The pages of the documents `docs` have been made, and nothing else but directories on the way to the pages of
`more`. -/
structure HasMade (b : Batch) (fs₀ : FileSystem) (input : Path) (root : Location) (docs more : List (List Name))
    (fs' : FileSystem) : Prop where
  begins : Begins b fs₀ input root
  whole : ∀ names ∈ docs, b.Whole fs₀ input root fs' names
  leaves : b.Leaves fs₀ docs more fs'
  apart : (docs.map b.pageOf).Nodup

end Batch

section Reached

variable {b : Batch} {input : Path} {root : Location} {fs₀ fs' : FileSystem} {docs : List (List Name)} {s : Progress}

theorem Reached.whole (h : Begins b fs₀ input root) (hrenderer : b.renderer = Template.engine)
    (hreached : Reached b input root fs₀ docs s) (hgrows : Grows (fun _ => False) s.fs fs') :
    ∀ names ∈ docs, b.Whole fs₀ input root fs' names := by
  intro names hdoc
  obtain ⟨fs₁, kind, text, l, hpage⟩ := hreached.completed.pages names hdoc
  have hstands := hpage.of_grows hgrows
  have hmem : names ∈ b.documents fs₀ input root := by
    rw [hreached.documents]
    exact List.mem_append_left _ hdoc
  refine ⟨fs₁, kind, text, l, hstands, hstands.read, fun asked hasks haside => ?_⟩
  exact hstands.madeFrom h hmem (Batch.spares_engine hrenderer hasks haside)

theorem Reached.hasMade (h : Begins b fs₀ input root) (hrenderer : b.renderer = Template.engine)
    (hreached : Reached b input root fs₀ docs s) : b.HasMade fs₀ input root docs docs s.fs where
  begins := h
  whole := hreached.whole h hrenderer (Grows.refl _ s.fs)
  leaves := hreached.leaves
  apart := hreached.nodup

/-- A run that has stopped has made the pages before the place where it stopped. -/
theorem Reached.hasMade_stops (h : Begins b fs₀ input root) (hrenderer : b.renderer = Template.engine)
    (hreached : Reached b input root fs₀ docs s) {names : List Name} {e : Error}
    (hstops : b.Stops fs₀ input root names s.fs fs' e) : b.HasMade fs₀ input root docs (docs ++ [names]) fs' where
  begins := h
  whole := hreached.whole h hrenderer (hstops.grows hreached.underway.wellFormed).2
  leaves := hreached.leaves.stops hstops
  apart := hreached.nodup

end Reached

/-- A run over a directory begins with its configuration. -/
theorem performDirectory_cases (renderer : Renderer) (input : Path) (given : DirectoryOptions) (w : World) :
    let run := performDirectory renderer input given w
    (∃ e, run.1 = .error e ∧ run.2.fs = w.fs ∧ run.2.generated = w.generated) ∨
      ∃ config w₁, (ProjectConfig.load input).result w.fs = .ok config ∧ w₁.fs = w.fs ∧
        w₁.generated = w.generated ∧
        let options := config.completeDirectory given
        let pages := processDirectory renderer input options w₁
        run.2 = pages.2 ∧ run.1 = pages.1.map fun written =>
          "Documentation generation completed: " ++ toString written.length ++ " file(s) in " ++
            options.outputDir.display ++ ".\n" := by
  intro run
  obtain ⟨hfs, hresult⟩ := ProjectConfig.observes_load input w
  have hquiet := (ProjectConfig.reports_load input).generated w
  have hrun : run = performDirectory renderer input given w := rfl
  rw [performDirectory, Action.bind_eq] at hrun
  cases hload : ProjectConfig.load input w with
  | mk r w₁ =>
    rw [hload] at hfs hresult hquiet hrun
    cases r with
    | error e => exact .inl ⟨e, by rw [hrun], by rw [hrun]; exact hfs, by rw [hrun]; exact hquiet⟩
    | ok config =>
      refine .inr ⟨config, w₁, hresult.symm, hfs, hquiet, ?_⟩
      dsimp only at hrun ⊢
      rw [Action.bind_eq] at hrun
      cases hpages : processDirectory renderer input (config.completeDirectory given) w₁ with
      | mk r w₂ =>
        rw [hpages] at hrun
        cases r with
        | error e => exact ⟨by rw [hrun], by rw [hrun]; rfl⟩
        | ok written => exact ⟨by rw [hrun]; rfl, by rw [hrun]; rfl⟩

theorem RefusedFirst.generated {input : Path} {w w' : World} {e : Error} (h : RefusedFirst input w e w') :
    w'.generated = w.generated :=
  generated_of_extends (h.notices.mono fun _ hn => hn ▸ rfl)

section Directory

variable {input : Path} {given : DirectoryOptions} {fs : FileSystem} (hwf : fs.WellFormed)
  (hlinks : fs.LinklessBelow given.outputDir)
  (hdistinct : ∀ config, (ProjectConfig.load input).result fs = .ok config →
    let options := config.completeDirectory given
    ∀ s ∈ effectiveExtensions options.scriptExtensions,
      Text.asciiLower s ≠ Text.asciiLower options.outputFormat.extension)

include hwf hlinks hdistinct

/-- The pages that a run over a directory reports are those that it has written. -/
theorem performDirectory_told :
    let run := performDirectory Template.engine input given ⟨fs, []⟩
    match run.1 with
    | .ok report =>
      report = "Documentation generation completed: " ++ toString run.2.generated.length ++ " file(s) in " ++
        given.outputDir.display ++ ".\n" ∧
      ∃ (b : Batch) (root : Location), b.IsConfigured given input fs ∧
        let docs := b.documents fs input root
        run.2.generated = docs.map b.pageOf ∧ b.HasMade fs input root docs docs run.2.fs
    | .error e =>
      run.2.generated = [] ∧ run.2.fs = fs ∨
        ∃ (b : Batch) (root : Location) (names : List Name) (before : FileSystem), b.IsConfigured given input fs ∧
          let docs := b.documentsBefore fs input root names
          run.2.generated = docs.map b.pageOf ∧ b.HasMade fs input root docs (docs ++ [names]) run.2.fs ∧
          b.Stops fs input root names before run.2.fs e := by
  intro run
  -- Neither the configuration nor the first checks of the run report a page or change a file.
  obtain ⟨e, he, hfs, hquiet⟩ | ⟨config, w₁, hconfig, hfs, hquiet, hworld, hresult⟩ :=
    performDirectory_cases Template.engine input given ⟨fs, []⟩
  · rw [he]
    exact .inl ⟨hquiet, hfs⟩
  rw [hresult, hworld]
  obtain rfl : w₁.fs = fs := hfs
  have hnone : w₁.generated = [] := hquiet
  obtain ⟨e, he, hrefused⟩ | ⟨root, ignored, w₂, hload, h, docs, s, result, hreached, hends, hpages, hgenerated⟩ :=
    processDirectory_reached Template.engine input (config.completeDirectory given) hwf (hdistinct config hconfig) hlinks
  · rw [he]
    exact .inl ⟨hrefused.generated.trans hnone, hrefused.fs_eq⟩
  rw [hpages]
  rw [hnone, List.nil_append] at hgenerated
  have hignored : (IgnoreSet.load (input.join IgnoreSet.fileName)).result w₁.fs = .ok ignored := by
    rw [← (observes_load _ w₁).2, hload]
  have hb : Batch.IsConfigured ⟨Template.engine, config.completeDirectory given, ignored⟩ given input w₁.fs :=
    ⟨rfl, ⟨config, hconfig, rfl⟩, hignored⟩
  -- A run that succeeds has no file left. One that fails stops at a document, and all before it are done.
  cases result with
  | ok written =>
    obtain ⟨hnext, rfl, hend⟩ := hends.of_ok
    obtain rfl := hreached.finished h hnext
    refine ⟨?_, _, root, hb, hgenerated, hend ▸ hreached.hasMade h rfl⟩
    rw [hgenerated, ← hreached.written_eq]
    rfl
  | error e =>
    obtain ⟨names, hdone, hstops⟩ := hreached.stops h hends rfl
    refine .inr ⟨_, root, names, s.fs, hb, ?_⟩
    dsimp only
    rw [hdone]
    exact ⟨hgenerated, hreached.hasMade_stops h rfl hstops, hstops⟩

end Directory

theorem run_directory {arguments : List String} {verbose : Bool} {input outputDir : Path}
    {scriptExtensions : List String} {render : RenderArguments}
    (hparse : CommandLine.parse arguments = .ok ⟨verbose, .directory input outputDir scriptExtensions render⟩)
    (renderer : Renderer) (fs : FileSystem) :
    Program.run renderer arguments fs =
      let (result, w) := performDirectory renderer input { render.choices with outputDir, scriptExtensions } ⟨fs, []⟩
      let log := (w.notices.filter (Program.shows verbose)).map Notice.line
      match result with
      | .ok report => (.finished report, log, w.fs)
      | .error e => (.failed e, log, w.fs) := by
  rw [Program.run, hparse]
  rfl

/-- The log of a run over a directory names the pages that the run has written, each once and in order, and each of
them holds all of its text. The exit status is zero if there was no error. Then these are the pages of all documents,
and the report gives their number. Otherwise there is no report, and they are the pages of the documents before the
place where the run stopped, or nothing has been done at all. -/
theorem run_told {arguments : List String} {verbose : Bool} {input outputDir : Path} {scriptExtensions : List String}
    {render : RenderArguments} {fs : FileSystem}
    (hparse : CommandLine.parse arguments = .ok ⟨verbose, .directory input outputDir scriptExtensions render⟩)
    (hwf : fs.WellFormed) (hlinks : fs.LinklessBelow outputDir)
    (hdistinct : ∀ config, (ProjectConfig.load input).result fs = .ok config →
      let options := config.completeDirectory { render.choices with outputDir, scriptExtensions }
      ∀ s ∈ effectiveExtensions options.scriptExtensions,
        Text.asciiLower s ≠ Text.asciiLower options.outputFormat.extension) :
    let given : DirectoryOptions := { render.choices with outputDir, scriptExtensions }
    let (outcome, log, fs') := Program.run Template.engine arguments fs
    ∃ pages : List Path, generatedLines log = pages.map (fun page => (Notice.generated page).line) ∧
      match (performDirectory Template.engine input given ⟨fs, []⟩).1 with
      | .ok _ =>
        outcome.code = 0 ∧
        outcome.output = "Documentation generation completed: " ++ toString pages.length ++ " file(s) in " ++
          outputDir.display ++ ".\n" ∧
        ∃ (b : Batch) (root : Location), b.IsConfigured given input fs ∧
          let docs := b.documents fs input root
          pages = docs.map b.pageOf ∧ b.HasMade fs input root docs docs fs'
      | .error e =>
        outcome.code = 1 ∧ outcome.output = "" ∧ outcome.complaint = e.message ∧
        (pages = [] ∧ fs' = fs ∨
          ∃ (b : Batch) (root : Location) (names : List Name) (before : FileSystem), b.IsConfigured given input fs ∧
            let docs := b.documentsBefore fs input root names
            pages = docs.map b.pageOf ∧ b.HasMade fs input root docs (docs ++ [names]) fs' ∧
            b.Stops fs input root names before fs' e) := by
  intro given
  have htold := @performDirectory_told input given fs hwf hlinks hdistinct
  rw [run_directory hparse]
  cases hperform : performDirectory Template.engine input given ⟨fs, []⟩ with
  | mk result w =>
    rw [hperform] at htold
    cases result with
    | ok report =>
      obtain ⟨hreport, hmade⟩ := htold
      exact ⟨w.generated, generatedLines_log verbose w.notices, rfl, hreport, hmade⟩
    | error e => exact ⟨w.generated, generatedLines_log verbose w.notices, rfl, rfl, rfl, htold⟩

/-! ### A run that fails at its second document -/

/-- It makes no difference to the pages whether the source is left out by choice or by default. -/
theorem Batch.processAll_includeSource (renderer : Renderer) (options : DirectoryOptions) (ignored : IgnoreSet)
    (n : Nat) (written : Written) (pending : List Pending) :
    Batch.processAll ⟨renderer, { options with includeSource := some (options.includeSource.getD false) }, ignored⟩ n
      written pending = Batch.processAll ⟨renderer, options, ignored⟩ n written pending := by
  induction n generalizing written pending with
  | zero => rfl
  | succ n ih =>
    simp only [Batch.processAll, ih]
    rfl

theorem processDirectory_includeSource (renderer : Renderer) (input : Path) (options : DirectoryOptions) :
    processDirectory renderer input { options with includeSource := some (options.includeSource.getD false) } =
      processDirectory renderer input options := by
  simp only [processDirectory, Batch.processAll_includeSource]

namespace Collision

def arguments : List String :=
  ["directory", "in", "out", "--template", "page.html", "--script-ext", "py", "--script-ext", "rs"]

def rendering : RenderArguments where
  template := some (Path.ofString "page.html")

theorem parse_arguments : CommandLine.parse arguments =
    .ok ⟨false, .directory (Path.ofString "in") (Path.ofString "out") ["py", "rs"] rendering⟩ :=
  rfl

theorem options_eq : options =
    { rendering.choices with outputDir := Path.ofString "out", scriptExtensions := ["py", "rs"] } :=
  rfl

theorem load_default : (ProjectConfig.load (Path.ofString "in")).result files = .ok ProjectConfig.default := by
  have hnone : ProjectConfig.firstFile? files (Path.ofString "in") ProjectConfig.fileNames = none := by cbv
  rw [ProjectConfig.result_load, hnone]

/-- The choices of the run, completed by those of a project that chooses nothing. -/
def completed : Batch :=
  ⟨Template.engine, ProjectConfig.default.completeDirectory options, IgnoreSet.defaults⟩

theorem performDirectory_collides :
    ∃ notices, performDirectory Template.engine (Path.ofString "in") options ⟨files, []⟩ =
      (.error collision, ⟨withPage, notices⟩) := by
  have hobserves := ProjectConfig.observes_load (Path.ofString "in")
  obtain ⟨⟨fs, notices⟩, hload⟩ := hobserves.exists_eq ⟨files, []⟩ load_default
  have hsame := (hobserves ⟨files, []⟩).1
  rw [hload] at hsame
  obtain rfl : fs = files := hsame
  obtain ⟨notices', hpages⟩ := processDirectory_eq notices
  refine ⟨notices', ?_⟩
  rw [performDirectory, Action.bind_of_ok _ hload, Action.bind_eq]
  have hcompleted : ProjectConfig.default.completeDirectory options =
      { options with includeSource := some (options.includeSource.getD false) } := rfl
  rw [hcompleted, processDirectory_includeSource, hpages]

theorem eq_completed {b : Batch} (h : b.IsConfigured options (Path.ofString "in") files) : b = completed := by
  obtain ⟨renderer, choices, ignored⟩ := b
  obtain ⟨rfl, ⟨config, hconfig, rfl⟩, hignored⟩ := h
  obtain ⟨notices, hload⟩ := load_ignored []
  rw [load_default] at hconfig
  rw [Action.result, hload] at hignored
  cases hconfig
  cases hignored
  rfl

theorem places_completed :
    (completed.documents files (Path.ofString "in") (Collection.named ["w", "in"])).map completed.pageOf =
      List.replicate 2 (Path.ofString "out/a.html") := by
  cbv

/-- The one place that there is for pages holds one now, and no page is made twice. -/
theorem pages_eq {docs more : List (List Name)} {root : Location}
    (hdocs : docs.Sublist (completed.documents files (Path.ofString "in") root))
    (h : completed.HasMade files (Path.ofString "in") root docs more withPage) :
    docs.map completed.pageOf = [Path.ofString "out/a.html"] := by
  have hinput : files.locate true (Path.ofString "in") = .ok (Collection.named ["w", "in"]) := by cbv
  cases h.begins.leads.symm.trans hinput
  have hplaces := hdocs.map completed.pageOf
  rw [places_completed, List.sublist_replicate_iff] at hplaces
  obtain ⟨n, -, hn⟩ := hplaces
  have hapart := h.apart
  rw [hn, List.nodup_replicate] at hapart
  obtain rfl | rfl : n = 0 ∨ n = 1 := by omega
  · -- without a page made, the file at its place would be an old one or a directory
    obtain rfl := List.map_eq_nil_iff.1 hn
    obtain hkept | ⟨doc, hdoc, -⟩ | ⟨-, hdir, -⟩ := h.leaves.frame (Collection.named ["w", "out", "a.html"])
    · exact absurd hkept (by decide)
    · cases hdoc
    · exact absurd hdir (by decide)
  · exact hn

/-- The log names the page of the first script, which is on disk, and the run fails at the second one. -/
theorem run_collides :
    let (outcome, log, fs') := Program.run Template.engine arguments files
    outcome.code = 1 ∧ outcome.output = "" ∧ outcome.complaint = collision.message ∧
      generatedLines log = [(Notice.generated (Path.ofString "out/a.html")).line] ∧
      fs'.read (Path.ofString "out/a.html") = .ok (Text.encode "<h1>a</h1>") := by
  have hwf : files.WellFormed := ⟨by decide +kernel, by decide +kernel, by decide +kernel⟩
  have hdistinct : ∀ config, (ProjectConfig.load (Path.ofString "in")).result files = .ok config →
      ∀ s ∈ effectiveExtensions (config.completeDirectory options).scriptExtensions,
        Text.asciiLower s ≠ Text.asciiLower (config.completeDirectory options).outputFormat.extension := by
    intro config hconfig
    rw [load_default] at hconfig
    cases hconfig
    decide +kernel
  have hread : withPage.read (Path.ofString "out/a.html") = .ok (Text.encode "<h1>a</h1>") := by cbv
  have htold := run_told parse_arguments hwf (linkless.below _) hdistinct
  dsimp only at htold
  rw [← options_eq] at htold
  obtain ⟨notices, hperform⟩ := performDirectory_collides
  rw [run_directory parse_arguments, ← options_eq, hperform] at htold ⊢
  dsimp only at htold ⊢
  obtain ⟨pages, hlog, hcode, houtput, hcomplaint, hnothing | ⟨b, root, names, before, hb, rfl, hmade, -⟩⟩ := htold
  · have hmissing : files.read (Path.ofString "out/a.html") = .error .notFound := by cbv
    rw [show withPage = files from hnothing.2, hmissing] at hread
    cases hread
  · obtain rfl := eq_completed hb
    have hbefore : (completed.documentsBefore files (Path.ofString "in") root names).Sublist
      (completed.documents files (Path.ofString "in") root) := List.filter_sublist
    rw [pages_eq hbefore hmade] at hlog
    exact ⟨hcode, houtput, hcomplaint, hlog, hread⟩

end Collision

end Folio
