import Folio.Program
import Folio.Proofs.EffectiveTemplate
import Folio.Proofs.SourceFlags

/-!
# Folio.Proofs.SourceParameter

The source as a parameter of a page.

* `Command.perform_of_load`: a command does the work it names, with the configuration of its project.
* `get?_source`: the source of a page, by the choice on it and the replacements.
* `perform_source`: for arguments that are accepted, the last flag decides, and without one the project does; a
  replacement of that name goes before both.
-/

namespace Folio

/-! ### Commands -/

namespace Command

/-- The directory whose configuration counts for a command. -/
def project : Command → Path
  | .document _ input _ _ => input.directory
  | .directory input _ _ _ => input

def job : Command → Job
  | .document kind input output _ => .document kind input output
  | .directory input outputDir scriptExtensions _ => .directory input outputDir scriptExtensions

/-- Where there is a configuration, a command does the work it names, and reports it. -/
theorem perform_of_load {command : Command} {config : ProjectConfig} {w w₁ : World}
    (h : ProjectConfig.load command.project w = (.ok config, w₁)) (renderer : Renderer) :
    ∃ report : List Path → String,
      let run := command.job.run renderer config command.rendering.choices w₁
      command.perform renderer w = (run.1.map report, run.2) := by
  cases command with
  | document kind input output render =>
    refine ⟨fun pages => "Generated: '" ++ (pages.headD default).display ++ "'\n", ?_⟩
    change ProjectConfig.load input.directory w = _ at h
    change performDocument renderer kind input _ w = _
    rw [performDocument, Action.bind_of_ok _ h, job, Job.run, Action.bind_eq, Action.bind_eq, rendering]
    cases processDocument renderer kind input (config.completeDocument { render.choices with output }) w₁ with
    | mk result w' => cases result <;> rfl
  | directory input outputDir scriptExtensions render =>
    refine ⟨fun pages => "Documentation generation completed: " ++ toString pages.length ++ " file(s) in "
      ++ outputDir.display ++ ".\n", ?_⟩
    change ProjectConfig.load input w = _ at h
    change performDirectory renderer input _ w = _
    rw [performDirectory, Action.bind_of_ok _ h, job, Job.run]
    dsimp only
    rw [Action.bind_eq, rendering]
    cases processDirectory renderer input
      (config.completeDirectory { render.choices with outputDir, scriptExtensions }) w₁ with
    | mk result w' => cases result <;> rfl

end Command

/-! ### Contents -/

theorem Method.Renders.produces {m : Method} {fs fs' : FileSystem} {rs : List Rendering} {failure : Option Error}
    (h : m.Renders fs rs failure fs') : ∀ r ∈ rs, m.Produces r := by
  induction h with
  | done _ => exact fun r hr => absurd hr List.not_mem_nil
  | failed _ hproduces _ => exact fun r hr => List.mem_singleton.1 hr ▸ hproduces
  | written _ hproduces _ _ ih => exact List.forall_mem_cons.2 ⟨hproduces, ih⟩

theorem Content.lookup_source (settings : Settings) (source : Path) (title page text : String) :
    (generated settings source title page text).lookup sourceName =
      if settings.includeSource then some text else none := by
  rw [generated]
  cases settings.includeSource <;> rfl

/-- The source of a page is the text of its document if it is chosen, and not there otherwise; a replacement of that name
goes before. -/
theorem get?_source {config : ProjectConfig} {given : RenderArguments} {kind : DocumentKind} {source : Path}
    {content : Content} {fs : FileSystem}
    (h : (Content.produce kind (config.complete given.choices).settings source).result fs = .ok content) :
    ∃ text, fs.readText source = .ok text ∧ content.parameters.get? Content.sourceName =
      (given.replacements.reverse.lookup Content.sourceName).or ((config.replacements.get? Content.sourceName).or
        (if given.includeChoice.getD config.includeSource then some text else none)) := by
  obtain ⟨w', hproduce⟩ := (observes_produce kind _ source).exists_eq ⟨fs, []⟩ h
  obtain ⟨text, title, htext, -, hparameters⟩ := Content.of_produce_ok hproduce
  have hlayers : content.parameters = ParameterSet.layers (Content.generated (config.complete given.choices).settings
      source title (fragment (config.complete given.choices).settings.format (Content.documentEvents kind source text))
        text) config.replacements given.replacements :=
    hparameters
  refine ⟨text, htext, ?_⟩
  rw [hlayers, ParameterSet.get?_layers (Content.nodup_generated _ source title _ text), Content.lookup_source]
  rfl

/-- The source of each page that is made: the last flag of the arguments decides on it, and without one the
configuration does, unless a replacement has its name. -/
theorem perform_source {words : List String} {line : CommandLine} (hparse : CommandLine.parse words = .ok line)
    {config : ProjectConfig} {w w₁ : World}
    (hload : ProjectConfig.load line.command.project w = (.ok config, w₁)) (renderer : Renderer) :
    let given := line.command.rendering
    let m := Method.ofChoices renderer (config.complete given.choices)
    let run := line.command.job.run renderer config given.choices w₁
    (∃ report : List Path → String, line.command.perform renderer w = (run.1.map report, run.2)) ∧
    ∃ rs, m.Rendered w₁ rs run ∧ (∀ r ∈ rs, line.command.job.Takes config m.settings.format r) ∧
      (∀ pages, run.1 = .ok pages → pages = rs.map Rendering.target) ∧
      ∀ r ∈ rs, ∃ text, r.before.readText r.source = .ok text ∧
        r.content.parameters.get? "source" =
          (given.replacements.reverse.lookup "source").or ((config.replacements.get? "source").or
            (if (CommandLine.sourceFlags words).getLast?.getD config.includeSource then some text else none)) := by
  intro given m run
  obtain ⟨rs, hrendered, htakes, -, hpages⟩ :=
    Job.run_rendered renderer config given.choices line.command.job w₁
  refine ⟨Command.perform_of_load hload renderer, rs, hrendered, htakes, hpages, fun r hr => ?_⟩
  obtain ⟨text, htext, hsource⟩ := get?_source (hrendered.files.produces r hr)
  rw [CommandLine.parse_includeChoice hparse] at hsource
  exact ⟨text, htext, hsource⟩

namespace Flagged

/-- Flags in turn, one that is the value of a replacement, and a document behind two hyphens. -/
def arguments : List String :=
  ["script", "--include-source", "--no-include-source", "-rnote=--no-include-source", "--include-source", "--format",
    "html", "--", "a.rs"]

def rendering : RenderArguments where
  format := some .html
  replacements := [("note", "--no-include-source")]
  includeSource := true

theorem parse_arguments : CommandLine.parse arguments =
    .ok ⟨false, .document .script (Path.ofString "a.rs") none rendering⟩ :=
  rfl

/-- The document is rendered once, and its source is a parameter of the page. -/
theorem perform_flagged :
    CommandLine.sourceFlags arguments = [true, false, true] ∧
    ∃ w₁, ProjectConfig.load (Path.ofString ".") ⟨Configured.files, []⟩ = (.ok ProjectConfig.default, w₁) ∧
      let m := Method.ofChoices Configured.renderer (ProjectConfig.default.complete rendering.choices)
      ∃ r, m.Rendered w₁ [r] (Configured.job.run Configured.renderer ProjectConfig.default rendering.choices w₁) ∧
        r.source = Path.ofString "a.rs" ∧ r.target = Path.ofString "a.html" ∧
        r.content.parameters.get? "source" = some "x" := by
  have hload : ProjectConfig.load (Path.ofString ".") ⟨Configured.files, []⟩ =
      (.ok ProjectConfig.default, ⟨Configured.files, [.noConfig (Path.ofString ".")]⟩) := by
    cbv
  have hpage : pageText Configured.renderer .script (ProjectConfig.default.complete rendering.choices)
      (Path.ofString "a.rs") Configured.files = .ok "<pre><code class=\"language-rs\">x</code></pre>\n\n\n" := by
    rw [pageText_of_readText _ _ _ Configured.readText_document]
    decide +kernel
  obtain ⟨hrun, -⟩ :=
    @Configured.run_ok ProjectConfig.default rendering.choices _ ⟨Configured.files, [.noConfig (Path.ofString ".")]⟩
      rfl rfl hpage
  have hflags : CommandLine.sourceFlags arguments = [true, false, true] := by decide
  obtain ⟨-, rs, hrendered, htakes, hpages, hsource⟩ := perform_source parse_arguments hload Configured.renderer
  have htargets := hpages _ hrun
  have hlength : rs.length = 1 := by
    rw [← List.length_map Rendering.target, ← htargets]
    rfl
  obtain ⟨r, rfl⟩ := List.length_eq_one_iff.1 hlength
  obtain ⟨-, hdocument, -⟩ := htakes r List.mem_cons_self
  obtain ⟨text, htext, hvalue⟩ := hsource r List.mem_cons_self
  -- the document is still the one of the beginning when the page is made
  have hwf : Configured.files.WellFormed := ⟨by decide +kernel, by decide +kernel, by decide +kernel⟩
  have hold : Configured.files.read (Path.ofString "a.rs") = .ok (Text.encode "x") := by cbv
  have hread := hrendered.files.prepared.read hwf hold
  have hx : r.before.readText r.source = .ok "x" := by
    rw [hdocument, FileSystem.readText, hread]
    rfl
  cases hx.symm.trans htext
  rw [hflags] at hvalue
  exact ⟨hflags, _, hload, r, hrendered, hdocument, (List.cons.inj htargets).1.symm, hvalue⟩

end Flagged
end Folio
