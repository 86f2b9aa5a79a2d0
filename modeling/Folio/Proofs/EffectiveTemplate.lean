import Folio.Proofs.Batch.Renderings
import Folio.Proofs.Config

/-!
# Folio.Proofs.EffectiveTemplate

The template and the layout roots that count for a run.

* `Job`: a run over a document or over a directory. `Job.Takes`: the documents it renders, and where their pages are.
* `Job.run_rendered`: what it renders. `Job.calls_run_of_plain`, `Job.run_eq_of_plain`: where the engine does not count.
* `Job.run_effective`: the template and the layout roots are taken from the explicit choices and the configuration
  together. A template for the engine is rendered by one call for each document.
-/

namespace Folio

/-- Work on one document, or on all documents of a directory. -/
inductive Job where
  | document (kind : DocumentKind) (input : Path) (output : Option Path)
  | directory (input outputDir : Path) (scriptExtensions : List String)

namespace Job

/-- The work with explicit choices, which are completed by those of a project: the places of the pages. -/
def run (renderer : Renderer) (config : ProjectConfig) (explicit : Choices) : Job → Action (List Path)
  | .document kind input output => do
    let page ← processDocument renderer kind input (config.completeDocument { explicit with output })
    return [page]
  | .directory input outputDir scriptExtensions =>
    processDirectory renderer input (config.completeDirectory { explicit with outputDir, scriptExtensions })

/-- What is rendered: the document, or documents of the directory, for the pages that belong to them. -/
def Takes (config : ProjectConfig) (format : OutputFormat) (r : Rendering) : Job → Prop
  | .document kind input output =>
    r.kind = kind ∧ r.source = input ∧ r.target = defaultOutput output input (some format)
  | .directory input outputDir scriptExtensions =>
    let chosen := if scriptExtensions.isEmpty then config.scriptExtensions else scriptExtensions
    DocumentKind.ofPath? (effectiveExtensions chosen) r.source = some r.kind ∧
      ∃ names, r.source = input.below names ∧ r.target = targetPath ⟨Path.unsplit names⟩ outputDir format

/-- What comes of a job: its documents are rendered in one way, each for a page of its own. If it succeeds, these are
its pages. -/
def RenderedBy (m : Method) (config : ProjectConfig) (job : Job) (w : World)
    (run : Except Error (List Path) × World) : Prop :=
  ∃ rs, m.Rendered w rs run ∧ (∀ r ∈ rs, job.Takes config m.settings.format r) ∧ (rs.map Rendering.target).Nodup ∧
    ∀ pages, run.1 = .ok pages → pages = rs.map Rendering.target

variable {config : ProjectConfig} {explicit : Choices}

theorem run_document (renderer : Renderer) (kind : DocumentKind) (input : Path) (output : Option Path) (w : World) :
    (document kind input output).RenderedBy (Method.ofChoices renderer (config.complete explicit)) config w
      ((document kind input output).run renderer config explicit w) := by
  let options := config.completeDocument { explicit with output }
  have hplace : options.outputFor input =
      defaultOutput output input (some (config.complete explicit).outputFormat) := by
    cases output <;> rfl
  obtain ⟨rs, hrendered, hsingle, hsuccess⟩ := processDocument_rendered renderer kind input options w
  refine ⟨rs, hrendered.bind_observes fun page => ⟨Action.observes_ofExcept (.ok [page]), Action.reports_ofExcept _⟩,
    ?_, ?_, ?_⟩
  · intro r hr
    obtain rfl | ⟨content, rfl⟩ := hsingle
    · exact absurd hr List.not_mem_nil
    · rw [List.mem_singleton.1 hr]
      exact ⟨rfl, rfl, hplace⟩
  · obtain rfl | ⟨content, rfl⟩ := hsingle
    · exact List.nodup_nil
    · exact List.nodup_singleton _
  · intro pages hpages
    obtain ⟨page, w', hpage, hreturn⟩ := Action.of_bind_ok (Prod.ext hpages rfl)
    cases hreturn
    obtain ⟨rfl, hsome⟩ := hsuccess page (congrArg Prod.fst hpage)
    obtain ⟨content, rfl⟩ := hsingle.resolve_left hsome
    rfl

theorem run_directory (renderer : Renderer) (input outputDir : Path) (scriptExtensions : List String) (w : World) :
    (directory input outputDir scriptExtensions).RenderedBy (Method.ofChoices renderer (config.complete explicit))
      config w ((directory input outputDir scriptExtensions).run renderer config explicit w) := by
  let options := config.completeDirectory { explicit with outputDir, scriptExtensions }
  obtain ⟨hrendered, e, he⟩ | ⟨ignored, -, rs, hrendered, hchosen, hpages⟩ :=
    processDirectory_rendered renderer input options w
  · refine ⟨[], hrendered, fun r hr => absurd hr List.not_mem_nil, List.nodup_nil, fun pages hpages => ?_⟩
    cases he.symm.trans hpages
  · refine ⟨rs, hrendered, fun r hr => ?_, ?_, hpages⟩
    · obtain ⟨names, htakes⟩ := hchosen.takes r hr
      exact ⟨htakes.kind, names, htakes.source, htakes.target⟩
    · have hapart : ((rs.map Rendering.target).map Path.components).Nodup := by
        rw [List.map_map]
        exact hchosen.apart
      exact hapart.of_map _

/-- A job renders its documents. -/
theorem run_rendered (renderer : Renderer) (config : ProjectConfig) (explicit : Choices) (job : Job) (w : World) :
    job.RenderedBy (Method.ofChoices renderer (config.complete explicit)) config w
      (job.run renderer config explicit w) := by
  cases job with
  | document kind input output => exact run_document renderer kind input output w
  | directory input outputDir scriptExtensions => exact run_directory renderer input outputDir scriptExtensions w

/-- Without a template for the engine, neither the engine nor the layout roots count. -/
theorem run_eq_of_plain (h : ∀ path, Strategy.choose (config.complete explicit).template ≠ .engine path)
    (renderer renderer' : Renderer) (own roots : List Path) (job : Job) :
    job.run renderer config explicit =
      job.run renderer' { config with layoutRoots := own } { explicit with layoutRoots := roots } := by
  cases job with
  | document kind input output =>
    have hrun := @processDocument_eq_of_plain (config.completeDocument { explicit with output }) h renderer renderer'
      (roots ++ own) kind input
    rw [run, hrun]
    rfl
  | directory input outputDir scriptExtensions =>
    exact @processDirectory_eq_of_plain (config.completeDirectory { explicit with outputDir, scriptExtensions }) h
      renderer renderer' (roots ++ own) input

/-- Without a template for the engine it is not called. -/
theorem calls_run_of_plain (h : ∀ path, Strategy.choose (config.complete explicit).template ≠ .engine path)
    (renderer : Renderer) (job : Job) (w : World) : (job.run renderer config explicit w).2.calls = w.calls := by
  obtain ⟨rs, hrendered, -⟩ := run_rendered renderer config explicit job w
  have hnone : (rs.flatMap fun r => (Method.ofChoices renderer (config.complete explicit)).calls r.content) = [] :=
    List.flatMap_eq_nil_iff.2 fun r _ => engineCalls_of_plain h _ r.content
  rw [hrendered.reported.calls, hnone, List.append_nil]

end Job

theorem Path.join_of_isAbsolute (dir : Path) {p : Path} (h : p.isAbsolute = true) : dir.join p = p := by
  rw [join, if_pos h]

theorem Path.directory_eq (p : Path) :
    p.directory = (p.parent?.filter fun parent => parent.bytes ≠ []).getD (ofString ".") := by
  rw [directory]
  cases p.parent? with
  | none => rfl
  | some parent =>
    dsimp only
    by_cases hnil : parent.bytes = []
    · rw [if_pos hnil, Option.filter_some_neg (by simpa using hnil)]
      rfl
    · rw [if_neg hnil, Option.filter_some_pos (by simpa using hnil)]
      rfl

/-- The template is the explicit one, or else the one of the first configuration file, taken from the project directory;
the layout roots are the explicit ones, and after them those of the configuration. Where the name of the template is a
text that ends in `.j2`, each document that is rendered takes one call of the engine, and what this returns is the page.
Otherwise the page is made by the template itself, or without one; the engine is not called, and neither it nor the
layout roots count. -/
theorem Job.run_effective {dir : Path} {config : ProjectConfig} {w w₁ : World}
    (hload : ProjectConfig.load dir w = (.ok config, w₁)) (explicit : Choices) (renderer : Renderer) (job : Job) :
    w₁.fs = w.fs ∧
    ∃ own : ProjectConfig, own.FoundIn w.fs dir ∧
      (∀ fs, ProjectConfig.firstFile? fs dir ProjectConfig.fileNames =
          ProjectConfig.firstFile? w.fs dir ProjectConfig.fileNames →
        (∀ name, ProjectConfig.firstFile? w.fs dir ProjectConfig.fileNames = some name →
          fs.readText (dir.join (Path.ofString name)) = w.fs.readText (dir.join (Path.ofString name))) →
        (ProjectConfig.load dir).result fs = .ok config) ∧
      (∀ p : Path, p.isAbsolute = true → dir.join p = p) ∧
      let effective := explicit.template.or (own.template.map dir.join)
      let layoutRoots := explicit.layoutRoots ++ own.layoutRoots.map dir.join
      (∀ template name, effective = some template → template.fileName?.bind Text.decode? = some name →
        ".j2".toList <:+ (Text.asciiLower name).toList →
        let beside := (template.parent?.filter fun parent => parent.bytes ≠ []).getD (Path.ofString ".")
        let call := fun content : Content => RenderCall.mk (beside :: layoutRoots) name
          (.obj [("properties", .obj (content.parameters.pairs.map fun p => (p.1, .str p.2)))])
        let m := Method.mk (config.complete explicit).settings (.engine template)
          (fun fs content => renderer fs (call content)) fun content => [call content]
        job.RenderedBy m config w₁ (job.run renderer config explicit w₁)) ∧
      ((∀ template name, effective = some template → template.fileName?.bind Text.decode? = some name →
          ¬ ".j2".toList <:+ (Text.asciiLower name).toList) →
        job.RenderedBy (.plain (config.complete explicit).settings effective) config w₁
          (job.run renderer config explicit w₁) ∧
        (job.run renderer config explicit w₁).2.calls = w₁.calls ∧
        ∀ renderer' rootsOfProject explicitRoots, job.run renderer config explicit =
          job.run renderer' { config with layoutRoots := rootsOfProject }
            { explicit with layoutRoots := explicitRoots }) := by
  obtain ⟨hfs, hresult⟩ := ProjectConfig.observes_load dir w
  rw [hload] at hfs hresult
  dsimp only at hfs hresult
  obtain ⟨own, hfound, hown⟩ := ProjectConfig.foundIn_of_load hresult.symm
  have htemplate : (config.complete explicit).template = explicit.template.or (own.template.map dir.join) := by
    rw [hown]
    rfl
  have hroots : (config.complete explicit).layoutRoots = explicit.layoutRoots ++ own.layoutRoots.map dir.join := by
    rw [hown]
    rfl
  refine ⟨hfs, own, hfound, ?_, fun p => Path.join_of_isAbsolute dir, ?_, ?_⟩
  -- The configuration depends on which file comes first, and on the text of that file.
  · intro fs hfirst htext
    rw [hresult, ProjectConfig.result_load, ProjectConfig.result_load, hfirst]
    cases hname : ProjectConfig.firstFile? w.fs dir ProjectConfig.fileNames with
    | none => rfl
    | some name =>
      dsimp only
      rw [htext name hname]
  · intro template name heffective hname hsuffix beside call m
    -- The method of the effective choices is `m`, and a job renders by the method of its choices.
    have hengine : Strategy.choose (config.complete explicit).template = .engine template :=
      choose_eq_engine.2 ⟨htemplate.trans heffective, name, hname, hsuffix⟩
    have hcall : renderCall template name (config.complete explicit).layoutRoots = call := by
      funext content
      rw [renderCall, hroots, Path.directory_eq]
      rfl
    have hmethod : Method.ofChoices renderer (config.complete explicit) = m := by
      rw [ofChoices_of_engine renderer hengine hname, hcall]
    exact hmethod ▸ Job.run_rendered renderer config explicit job w₁
  · intro hother
    have hplain : ∀ path, Strategy.choose (config.complete explicit).template ≠ .engine path := by
      intro path hengine
      rw [htemplate, choose_eq_engine] at hengine
      obtain ⟨heffective, name, hname, hsuffix⟩ := hengine
      exact hother path name heffective hname hsuffix
    have hrendered := Job.run_rendered renderer config explicit job w₁
    rw [ofChoices_of_plain renderer hplain, htemplate] at hrendered
    exact ⟨hrendered, Job.calls_run_of_plain hplain renderer job w₁,
      fun renderer' own roots => Job.run_eq_of_plain hplain renderer renderer' own roots job⟩

/-! ### A project -/

namespace Configured

def text : String :=
  "\x7b\"template\":\"page.J2\",\"layout_roots\":[\"lib\",\"/std\"]\x7d"

/-- A document, and a project whose first configuration file names a template. The other one is no configuration. Beside
the document there is a template whose name is no text. -/
def files : FileSystem where
  entries := [
    ([Text.encode "w"], .directory),
    ([Text.encode "w", 0xFF :: Text.encode ".j2"], .file (Text.encode "plain")),
    ([Text.encode "w", Text.encode "a.rs"], .file (Text.encode "x")),
    ([Text.encode "w", Text.encode "site"], .directory),
    ([Text.encode "w", Text.encode "site", Text.encode "litdoc.yaml"], .file (Text.encode "\x7b")),
    ([Text.encode "w", Text.encode "site", Text.encode "litdoc.yml"], .file (Text.encode text))]
  current := [Text.encode "w"]

def explicit : Choices :=
  { Choices.none with format := some .html, layoutRoots := [Path.ofString "own"] }

def renderer : Renderer :=
  fun _ _ => .ok "rendered"

def job : Job :=
  .document .script (Path.ofString "a.rs") none

theorem firstFile?_site : ProjectConfig.firstFile? files (Path.ofString "site") ProjectConfig.fileNames =
    some "litdoc.yml" := by
  cbv

theorem readText_site : files.readText ((Path.ofString "site").join (Path.ofString "litdoc.yml")) = .ok text := by
  cbv

theorem parse_text : (ProjectConfig.parse text).toOption.map (fun own => (own.template, own.layoutRoots)) =
    some (some (Path.ofString "page.J2"), [Path.ofString "lib", Path.ofString "/std"]) := by
  decide +kernel

theorem of_foundIn {own : ProjectConfig} (h : own.FoundIn files (Path.ofString "site")) :
    own.template = some (Path.ofString "page.J2") ∧
      own.layoutRoots = [Path.ofString "lib", Path.ofString "/std"] := by
  rw [ProjectConfig.FoundIn, firstFile?_site] at h
  obtain ⟨text', htext, hparse⟩ := h
  cases readText_site.symm.trans htext
  have hown := parse_text
  rw [hparse] at hown
  exact Prod.mk.inj (Option.some.inj hown)

theorem load_site : ∃ (own : ProjectConfig) (w₁ : World), own.FoundIn files (Path.ofString "site") ∧
    ProjectConfig.load (Path.ofString "site") ⟨files, []⟩ = (.ok (own.inDirectory (Path.ofString "site")), w₁) := by
  have hresult := ProjectConfig.result_load (Path.ofString "site") files
  rw [firstFile?_site] at hresult
  dsimp only at hresult
  rw [readText_site] at hresult
  dsimp only at hresult
  cases hparse : ProjectConfig.parse text with
  | error e =>
    have hnone := parse_text
    rw [hparse] at hnone
    cases hnone
  | ok own =>
    rw [hparse] at hresult
    have hown : own.FoundIn files (Path.ofString "site") := by
      rw [ProjectConfig.FoundIn, firstFile?_site]
      exact ⟨text, readText_site, hparse⟩
    obtain ⟨w₁, hload⟩ := (ProjectConfig.observes_load (Path.ofString "site")).exists_eq ⟨files, []⟩ hresult
    exact ⟨own, w₁, hown, hload⟩

theorem readText_document : files.readText (Path.ofString "a.rs") = .ok "x" := by
  cbv

theorem title_document :
    Content.title .script (Path.ofString "a.rs") (Content.documentEvents .script (Path.ofString "a.rs") "x") =
      .ok "a" := by
  decide

theorem run_ok {config : ProjectConfig} {choices : Choices} {page : String} {w : World} (hfs : w.fs = files)
    (hformat : (config.complete choices).format = some .html)
    (hpage : pageText renderer .script (config.complete choices) (Path.ofString "a.rs") files = .ok page) :
    (job.run renderer config choices w).1 = .ok [Path.ofString "a.html"] ∧
      (job.run renderer config choices w).2.fs.get? [Text.encode "w", Text.encode "a.html"] =
        some (.file (Text.encode page)) := by
  let options := config.completeDocument { choices with output := none }
  have hplace : options.outputFor (Path.ofString "a.rs") = Path.ofString "a.html" := by
    have hhtml : defaultOutput none (Path.ofString "a.rs") (some .html) = Path.ofString "a.html" := by decide
    rw [← hhtml, ← hformat]
    rfl
  have hsame : files.sameFile (Path.ofString "a.html") (Path.ofString "a.rs") = false := by cbv
  have hlocation : files.writeLocation (Path.ofString "a.html") = .ok [Text.encode "w", Text.encode "a.html"] := by cbv
  have hwrite : files.write (Path.ofString "a.html") (Text.encode page) =
      .ok (files.put [Text.encode "w", Text.encode "a.html"] (.file (Text.encode page))) := by
    rw [FileSystem.write, hlocation]
  rw [← hfs, ← hplace] at hsame hwrite
  rw [← hfs] at hpage
  change pageText renderer .script options.toChoices _ _ = _ at hpage
  obtain ⟨e, w', hfails, -, -⟩ | ⟨page', w', hpage', hwrite', hrun⟩ := processDocument_apart hsame
  · exact absurd hfails (not_fails hpage hwrite e)
  · cases hpage.symm.trans hpage'
    have hfs' := Except.ok.inj (hwrite.symm.trans hwrite')
    have hjob : job.run renderer config choices w = (.ok [options.outputFor (Path.ofString "a.rs")], w') :=
      Action.bind_of_ok _ hrun
    rw [hjob, hplace, ← hfs', hfs]
    exact ⟨rfl, rfl⟩

theorem run_configured :
    ∃ config w₁, ProjectConfig.load (Path.ofString "site") ⟨files, []⟩ = (.ok config, w₁) ∧
      ∃ parameters, (job.run renderer config explicit w₁).1 = .ok [Path.ofString "a.html"] ∧
        (job.run renderer config explicit w₁).2.calls = w₁.calls ++
          [⟨[Path.ofString "site", Path.ofString "own", Path.ofString "site/lib", Path.ofString "/std"], "page.J2",
            .obj [("properties", .obj parameters)]⟩] := by
  obtain ⟨own, w₁, hown, hload⟩ := load_site
  refine ⟨_, w₁, hload, ?_⟩
  obtain ⟨hfs, own', hown', -, -, hengine, -⟩ := Job.run_effective hload explicit renderer job
  have hname : (Path.ofString "site/page.J2").fileName?.bind Text.decode? = some "page.J2" := by decide
  have heffective : explicit.template.or ((some (Path.ofString "page.J2")).map (Path.ofString "site").join) =
      some (Path.ofString "site/page.J2") := by
    decide
  have hsuffix : ".j2".toList <:+ (Text.asciiLower "page.J2").toList := by
    rw [← List.isSuffixOf_iff_suffix]
    decide
  have htemplate : ((own.inDirectory (Path.ofString "site")).complete explicit).template =
      some (Path.ofString "site/page.J2") := by
    rw [← heffective, ← (of_foundIn hown).1]
    rfl
  have hchoose : Strategy.choose ((own.inDirectory (Path.ofString "site")).complete explicit).template =
      .engine (Path.ofString "site/page.J2") :=
    choose_eq_engine.2 ⟨htemplate, "page.J2", hname, hsuffix⟩
  have hpage : pageText renderer .script ((own.inDirectory (Path.ofString "site")).complete explicit)
      (Path.ofString "a.rs") files = .ok "rendered" := by
    rw [pageText_of_readText _ _ _ readText_document, Content.ofText, title_document]
    dsimp only
    rw [result_render, hchoose]
    dsimp only
    rw [hname]
    rfl
  obtain ⟨hrun, -⟩ := run_ok hfs rfl hpage
  rw [(of_foundIn hown').1, (of_foundIn hown').2] at hengine
  obtain ⟨rs, hrendered, -, -, hpages⟩ := hengine _ _ heffective hname hsuffix
  have hlength : rs.length = 1 := by
    rw [← List.length_map Rendering.target, ← hpages _ hrun]
    rfl
  obtain ⟨r, rfl⟩ := List.length_eq_one_iff.1 hlength
  refine ⟨r.content.parameters.pairs.map fun p => (p.1, .str p.2), hrun, hrendered.reported.calls.trans ?_⟩
  have hdirs : (((Path.ofString "site/page.J2").parent?.filter fun parent => parent.bytes ≠ []).getD
      (Path.ofString ".") :: (explicit.layoutRoots ++
        [Path.ofString "lib", Path.ofString "/std"].map (Path.ofString "site").join)) =
      [Path.ofString "site", Path.ofString "own", Path.ofString "site/lib", Path.ofString "/std"] := by
    decide
  rw [List.flatMap_singleton, hdirs]

/-- A template with a name that is no text, although it ends in `.j2`. -/
def undecodable : Choices :=
  { Choices.none with template := some ⟨0xFF :: Text.encode ".j2"⟩, format := some .html }

/-- It is for substitution: the document is rendered without a call of the engine. -/
theorem run_undecodable :
    (∃ name, undecodable.template.bind Path.fileName? = some name ∧ Text.encode ".j2" <:+ name) ∧
    ∃ w₁, ProjectConfig.load (Path.ofString ".") ⟨files, []⟩ = (.ok ProjectConfig.default, w₁) ∧
      (job.run renderer ProjectConfig.default undecodable w₁).1 = .ok [Path.ofString "a.html"] ∧
      (job.run renderer ProjectConfig.default undecodable w₁).2.fs.get? [Text.encode "w", Text.encode "a.html"] =
        some (.file (Text.encode "plain")) ∧
      (job.run renderer ProjectConfig.default undecodable w₁).2.calls = [] := by
  have hname : undecodable.template.bind Path.fileName? = some (0xFF :: Text.encode ".j2") := by decide
  have hload : ProjectConfig.load (Path.ofString ".") ⟨files, []⟩ =
      (.ok ProjectConfig.default, ⟨files, [.noConfig (Path.ofString ".")]⟩) := by
    cbv
  have hchoose : Strategy.choose (ProjectConfig.default.complete undecodable).template =
      .plain ⟨0xFF :: Text.encode ".j2"⟩ := by
    decide
  have hread : files.readText ⟨0xFF :: Text.encode ".j2"⟩ = .ok "plain" := by cbv
  have htext : pageText renderer .script (ProjectConfig.default.complete undecodable) (Path.ofString "a.rs") files =
      .ok "plain" := by
    rw [pageText_of_readText _ _ _ readText_document, Content.ofText, title_document]
    dsimp only
    rw [result_render, hchoose]
    dsimp only
    rw [hread]
    decide +kernel
  obtain ⟨hrun, hpage⟩ := @run_ok _ _ _ ⟨files, [.noConfig (Path.ofString ".")]⟩ rfl rfl htext
  refine ⟨⟨_, hname, List.suffix_cons _ _⟩, _, hload, hrun, hpage, ?_⟩
  refine Job.calls_run_of_plain (fun path hengine => ?_) renderer job _
  cases hchoose.symm.trans hengine

end Configured

end Folio
