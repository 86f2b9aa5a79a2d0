import Folio.Proofs.Batch.Progress
import Folio.Proofs.Placeholder.Rounds
import Folio.Proofs.Template.Engine

/-!
# Folio.Proofs.Batch.Exact

What a run over a directory has done in the end.

* `Batch.Spares`: the files that count for a page, which the run leaves as they are.
* `Batch.MadeFrom`: a text made from the files of the beginning; `PageStands.madeFrom` says so of a page.
* `processDirectory_pages`: the pages are those of the documents that were there in the beginning, in their order,
  and each holds the text made from the files as they were in the beginning.
* `processDirectory_exact`: the same with the engine, where the files that count are those that it looks at for the
  templates it asks for.
-/

namespace Folio

open Folio.Path FileSystem

/-- For the page made of a document from the files at `fs₁`, only the document and these files count. Each of them is
missing, or it is at a place where no page is put. -/
structure Batch.Spares (b : Batch) (fs₀ : FileSystem) (input : Path) (root : Location) (kind : DocumentKind)
    (names : List Name) (fs₁ : FileSystem) (files : Path → Prop) : Prop where
  enough : DependsOn (pageText b.renderer kind b.options.toChoices (input.below names)) fs₁
    fun p => p = input.below names ∨ files p
  aside : ∀ p, files p → fs₁.readText p = .error .notFound ∨
    ∀ l, fs₁.locate true p = .ok l → ¬ b.pages fs₀ input root l

/-- A text that is made from the files of the beginning. Directories that the run makes count for it only if a path to
one of these files goes through them. -/
def Batch.MadeFrom (b : Batch) (fs₀ : FileSystem) (input : Path) (kind : DocumentKind) (names : List Name)
    (files : Path → Prop) (text : String) : Prop :=
  let page := pageText b.renderer kind b.options.toChoices (input.below names)
  (∃ fs, fs.WellFormed ∧ Grows (fun _ => False) fs₀ fs ∧ page fs = .ok text) ∧
    ((∀ p, files p → fs₀.Found p) → page fs₀ = .ok text)

/-- The files that the engine looks at, where it asks for templates with certain names only. -/
theorem Batch.spares_engine {b : Batch} {fs₀ fs₁ : FileSystem} {input : Path} {root : Location} {kind : DocumentKind}
    {names : List Name} {asked : String → Bool} (hrenderer : b.renderer = Template.engine)
    (hasks : Asks kind b.options.toChoices (input.below names) asked fs₁)
    (haside : ∀ p, layoutLookups b.options.toChoices asked fs₁ p → fs₁.readText p = .error .notFound ∨
      ∀ l, fs₁.locate true p = .ok l → ¬ b.pages fs₀ input root l) :
    b.Spares fs₀ input root kind names fs₁ (layoutLookups b.options.toChoices asked fs₁) := by
  refine ⟨?_, haside⟩
  rw [hrenderer]
  exact dependsOn_pageText hasks

variable {b : Batch} {input : Path} {root : Location} {fs₀ fs fs' : FileSystem}

theorem Begins.locate_document (h : Begins b fs₀ input root) {pages : Location → Prop} (hgrows : Grows pages fs₀ fs)
    {names : List Name} (hmem : names ∈ b.documents fs₀ input root) {l : Location}
    (hl : fs.locate true (input.below names) = .ok l) :
    l = root ++ names ∧ fs₀.locate true (input.below names) = .ok (root ++ names) := by
  obtain ⟨bytes, hfile⟩ := h.file_document hmem
  obtain ⟨hne, hnames⟩ := h.isName_document hmem
  have hstart : fs₀.locate true (input.below names) = .ok (root ++ names) := by
    have hresolve : fs₀.locate true (input.below names) = fs₀.resolve true (input.below names) := locate_eq_resolve hl
    obtain hok | ⟨herror, -⟩ := @resolve_standing fs₀ h.wf true input root names _ (resolve_of_locate h.leads) hne
      hnames hfile fun _ _ heq => by cases heq
    · rw [hresolve, below_eq_join input hne hnames, hok]
    · rw [← below_eq_join input hne hnames, ← hresolve] at herror
      obtain hmissing | hlater := locate_error_of_grows h.wf hgrows herror
      · cases hmissing
      · rw [hl] at hlater
        cases hlater
  have hlater := locate_of_grows hgrows hstart
  rw [hl] at hlater
  cases hlater
  exact ⟨rfl, hstart⟩

theorem Begins.aside_document (h : Begins b fs₀ input root) {pages : Location → Prop} (hgrows : Grows pages fs₀ fs)
    {names : List Name} (hmem : names ∈ b.documents fs₀ input root) {l : Location}
    (hl : fs.locate true (input.below names) = .ok l) : ¬ b.pages fs₀ input root l := by
  rw [(h.locate_document hgrows hmem hl).1]
  exact h.not_pages hmem

variable {names : List Name} {fs₁ : FileSystem} {kind : DocumentKind} {text : String} {l : Location}

/-- The text of a page is the one that was to be made in the beginning, with the directories that the run makes. -/
theorem PageStands.text_with_directories (h : Begins b fs₀ input root)
    (hpage : PageStands b input root fs₀ fs' names fs₁ kind text l) (hmem : names ∈ b.documents fs₀ input root)
    {files : Path → Prop} (hspares : b.Spares fs₀ input root kind names fs₁ files) :
    pageText b.renderer kind b.options.toChoices (input.below names) (fs₀.withDirectories fs₁) = .ok text := by
  have hwf := wellFormed_withDirectories h.wf hpage.wellFormed hpage.since
  have hgrows := withDirectories_grows hpage.wellFormed hpage.since
  refine hspares.enough text hpage.made _ ?_
  rintro p (rfl | hp)
  · refine agrees_of_steady hwf hgrows (steady_withDirectories hpage.wellFormed hpage.since ?_)
    exact fun k hk => h.aside_document hpage.since hmem hk
  · obtain hmissing | haside := hspares.aside p hp
    · exact agrees_of_missing hwf hgrows hmissing
    · exact agrees_of_steady hwf hgrows (steady_withDirectories hpage.wellFormed hpage.since haside)

/-- It is the one that was to be made in the beginning, if no path needed these directories. -/
theorem PageStands.text_at_start (h : Begins b fs₀ input root)
    (hpage : PageStands b input root fs₀ fs' names fs₁ kind text l) (hmem : names ∈ b.documents fs₀ input root)
    {files : Path → Prop} (hspares : b.Spares fs₀ input root kind names fs₁ files)
    (hfound : ∀ p, files p → fs₀.Found p) :
    pageText b.renderer kind b.options.toChoices (input.below names) fs₀ = .ok text := by
  refine hspares.enough text hpage.made _ ?_
  rintro p (rfl | hp)
  · refine agrees_of_steady h.wf hpage.since fun k hk => ?_
    obtain ⟨rfl, hstart⟩ := h.locate_document hpage.since hmem hk
    exact ⟨h.not_pages hmem, .inr hstart⟩
  · obtain hmissing | haside := hspares.aside p hp
    · exact agrees_of_missing h.wf hpage.since hmissing
    · refine agrees_of_steady h.wf hpage.since fun k hk => ⟨haside k hk, hfound p hp k ?_⟩
      exact leads_of_grows hpage.wellFormed hpage.since hk

theorem PageStands.madeFrom (h : Begins b fs₀ input root)
    (hpage : PageStands b input root fs₀ fs' names fs₁ kind text l) (hmem : names ∈ b.documents fs₀ input root)
    {files : Path → Prop} (hspares : b.Spares fs₀ input root kind names fs₁ files) :
    b.MadeFrom fs₀ input kind names files text := by
  refine ⟨⟨fs₀.withDirectories fs₁, ?_, grows_withDirectories hpage.wellFormed, ?_⟩, ?_⟩
  · exact wellFormed_withDirectories h.wf hpage.wellFormed hpage.since
  · exact hpage.text_with_directories h hmem hspares
  · exact fun hfound => hpage.text_at_start h hmem hspares hfound

theorem PageStands.read (hpage : PageStands b input root fs₀ fs' names fs₁ kind text l) :
    fs'.read (b.pageOf names) = .ok (Text.encode text) :=
  read_eq_of_locate hpage.leads hpage.holds

theorem Reached.finished (h : Begins b fs₀ input root) {docs : List (List Name)} {s : Progress}
    (hreached : Reached b input root fs₀ docs s) (hnext : s.next = .ok none) : docs = b.documents fs₀ input root := by
  have hnone : remaining s.fs root s.pending = [] := hreached.underway.comesNext h hnext
  rw [hreached.documents, Progress.documents, hnone, List.filter_nil, List.append_nil]

theorem processDirectory_finished {renderer : Renderer} {options : DirectoryOptions} {w w' : World}
    {written : List Path} (hwf : w.fs.WellFormed)
    (hdistinct : ∀ s ∈ effectiveExtensions options.scriptExtensions,
      Text.asciiLower s ≠ Text.asciiLower options.outputFormat.extension)
    (hlinks : w.fs.LinklessBelow options.outputDir)
    (hrun : processDirectory renderer input options w = (.ok written, w')) :
    ∃ root ignored w₁, IgnoreSet.load (input.join IgnoreSet.fileName) w = (.ok ignored, w₁) ∧
      let b : Batch := ⟨renderer, options, ignored⟩
      Begins b w.fs input root ∧ written = (b.documents w.fs input root).map b.pageOf ∧
        ∃ s, Reached b input root w.fs (b.documents w.fs input root) s ∧ s.fs = w'.fs := by
  obtain ⟨e, he, -⟩ | ⟨root, ignored, w₁, hload, h, docs, s, result, hreached, hends, hresult⟩ :=
    processDirectory_spec renderer input options hwf hdistinct hlinks
  · rw [hrun] at he
    cases he
  · rw [hrun] at hends hresult
    cases result with
    | error e => cases hresult
    | ok pages =>
      obtain ⟨hnext, rfl, hfs⟩ := hends.of_ok
      obtain rfl := hreached.finished h hnext
      refine ⟨root, ignored, w₁, hload, h, ?_, s, hreached, hfs.symm⟩
      rw [← hreached.written_eq]
      exact Except.ok.inj hresult

/-- All pages of a directory, with any renderer. They are those of the documents that were there in the beginning,
each once and in order, whatever the run makes on its way. In the end each page holds the text that was made from the
files as they were at `fs₁`, and besides pages only directories have been made. Where the files that count for the text
are spared, it is made from the files of the beginning. -/
theorem processDirectory_pages (renderer : Renderer) (input : Path) (options : DirectoryOptions) {w w' : World}
    {written : List Path} (hwf : w.fs.WellFormed)
    (hdistinct : ∀ s ∈ effectiveExtensions options.scriptExtensions,
      Text.asciiLower s ≠ Text.asciiLower options.outputFormat.extension)
    (hlinks : w.fs.LinklessBelow options.outputDir)
    (hrun : processDirectory renderer input options w = (.ok written, w')) :
    ∃ root ignored w₁, w.fs.locate true input = .ok root ∧
      IgnoreSet.load (input.join IgnoreSet.fileName) w = (.ok ignored, w₁) ∧
      let b : Batch := ⟨renderer, options, ignored⟩
      let docs := b.documents w.fs input root
      written = docs.map b.pageOf ∧ written.Nodup ∧ Grows (b.pages w.fs input root) w.fs w'.fs ∧
      ∀ names ∈ docs, ∃ fs₁ kind text l, PageStands b input root w.fs w'.fs names fs₁ kind text l ∧
        w'.fs.read (b.pageOf names) = .ok (Text.encode text) ∧
        ∀ files, b.Spares w.fs input root kind names fs₁ files → b.MadeFrom w.fs input kind names files text := by
  obtain ⟨root, ignored, w₁, hload, h, hwritten, s, hreached, hfs⟩ :=
    processDirectory_finished hwf hdistinct hlinks hrun
  refine ⟨root, ignored, w₁, h.leads, hload, hwritten, ?_, hfs ▸ hreached.underway.grows, ?_⟩
  · rw [hwritten]
    exact hreached.nodup
  · intro names hmem
    obtain ⟨fs₁, kind, text, l, hpage⟩ := hreached.completed.pages names hmem
    rw [hfs] at hpage
    exact ⟨fs₁, kind, text, l, hpage, hpage.read, fun files hspares => hpage.madeFrom h hmem hspares⟩

/-- All pages of a directory, made by the engine: those of the documents that were there in the beginning, each once
and in order. Where the engine asks for certain templates only, and of the files that are looked at for them none is a
page, each page holds the text made from the files of the beginning. Directories that the run makes count for it only
if a path to one of these files goes through them. -/
theorem processDirectory_exact (input : Path) (options : DirectoryOptions) {w w' : World} {written : List Path}
    (hwf : w.fs.WellFormed)
    (hdistinct : ∀ s ∈ effectiveExtensions options.scriptExtensions,
      Text.asciiLower s ≠ Text.asciiLower options.outputFormat.extension)
    (hlinks : w.fs.LinklessBelow options.outputDir)
    (hrun : processDirectory Template.engine input options w = (.ok written, w')) :
    ∃ root ignored w₁, w.fs.locate true input = .ok root ∧
      IgnoreSet.load (input.join IgnoreSet.fileName) w = (.ok ignored, w₁) ∧
      let b : Batch := ⟨Template.engine, options, ignored⟩
      let docs := b.documents w.fs input root
      written = docs.map b.pageOf ∧ written.Nodup ∧ Grows (b.pages w.fs input root) w.fs w'.fs ∧
      ∀ names ∈ docs, ∃ fs₁ kind text l, PageStands b input root w.fs w'.fs names fs₁ kind text l ∧
        w'.fs.read (b.pageOf names) = .ok (Text.encode text) ∧
        ∀ asked : String → Bool, Asks kind options.toChoices (input.below names) asked fs₁ →
          (∀ p, layoutLookups options.toChoices asked fs₁ p → fs₁.readText p = .error .notFound ∨
            ∀ k, fs₁.locate true p = .ok k → ¬ b.pages w.fs input root k) →
          b.MadeFrom w.fs input kind names (layoutLookups options.toChoices asked fs₁) text := by
  obtain ⟨root, ignored, w₁, hroot, hload, hwritten, hnodup, hgrows, hpages⟩ :=
    processDirectory_pages Template.engine input options hwf hdistinct hlinks hrun
  refine ⟨root, ignored, w₁, hroot, hload, hwritten, hnodup, hgrows, fun names hmem => ?_⟩
  obtain ⟨fs₁, kind, text, l, hpage, hread, hmade⟩ := hpages names hmem
  exact ⟨fs₁, kind, text, l, hpage, hread, fun asked hasks haside =>
    hmade _ (Batch.spares_engine rfl hasks haside)⟩

/-- The text of a page by a plain template in which nothing needs a longer token. -/
theorem pageText_plain {kind : DocumentKind} {choices : Choices} {source template : Path} {fs : FileSystem}
    {text layout page : String} {content : Content} (hchoose : Strategy.choose choices.template = .plain template)
    (hsource : fs.readText source = .ok text) (hlayout : fs.readText template = .ok layout)
    (hcontent : Content.ofText kind choices.settings source text = .ok content)
    (hfree : (layout.toList ++ (Placeholder.charPairs content.parameters).flatMap fun p => p.1 ++ p.2).contains
      (Char.ofNat 0x100000) = false)
    (hpage : Placeholder.substituteWith [Char.ofNat 0x100000] content.parameters layout = page) :
    pageText Template.engine kind choices source fs = .ok page := by
  rw [pageText_of_readText _ _ _ hsource, hcontent]
  dsimp only
  rw [result_render, hchoose]
  dsimp only
  rw [hlayout]
  dsimp only
  rw [plainPage, Placeholder.substitute, Placeholder.freshToken_of_free hfree, hpage]

/-! ### A run -/

namespace Collection

/-- Names, from their texts. -/
def named (names : List String) : List Name :=
  names.map Text.encode

def pageTemplate : String :=
  "<h1>\x7bpage-title\x7d</h1>"

/-- A directory that a link leads to, with two documents and a draft, and a template beside it. -/
def files : FileSystem where
  entries := [
    (named ["w"], .directory),
    (named ["w", "in"], .link (Path.ofString "docs")),
    (named ["w", "page.html"], .file (Text.encode pageTemplate)),
    (named ["w", "docs"], .directory),
    (named ["w", "docs", "sub"], .directory),
    (named ["w", "docs", "sub", "b.rs"], .file []),
    (named ["w", "docs", "draft.rs"], .file []),
    (named ["w", "docs", "a.rs"], .file []),
    (named ["w", "docs", ".litdocignore"], .file (Text.encode "draft.*"))]
  current := named ["w"]

/-- The pages are put into a directory that is still to be visited. -/
def options : DirectoryOptions where
  toChoices := { Choices.none with template := some (Path.ofString "page.html") }
  outputDir := Path.ofString "docs/sub"
  scriptExtensions := []

def ignored : IgnoreSet :=
  (IgnoreSet.ofText (some "draft.*")).toOption.getD ⟨[]⟩

def batch : Batch :=
  ⟨Template.engine, options, ignored⟩

/-- What is still to be visited of `files`. -/
def visiting (names : List String) : Pending :=
  ⟨(Path.ofString "in").below (named names), named names⟩

def firstPage : FileSystem :=
  files.put (named ["w", "docs", "sub", "a.html"]) (.file (Text.encode "<h1>a</h1>"))

def secondDirectory : FileSystem :=
  firstPage.put (named ["w", "docs", "sub", "sub"]) .directory

def secondPage : FileSystem :=
  secondDirectory.put (named ["w", "docs", "sub", "sub", "b.html"]) (.file (Text.encode "<h1>b</h1>"))

theorem pageText_first : pageText Template.engine .script options.toChoices (visiting ["a.rs"]).path files =
    .ok "<h1>a</h1>" := by
  have hsource : files.readText (visiting ["a.rs"]).path = .ok "" := by cbv
  have htemplate : files.readText (Path.ofString "page.html") = .ok pageTemplate := by cbv
  exact pageText_plain rfl hsource htemplate rfl (by decide) (by decide +kernel)

theorem write_first : files.write (Path.ofString "docs/sub/a.html") (Text.encode "<h1>a</h1>") = .ok firstPage := by
  have hplace : files.writeLocation (Path.ofString "docs/sub/a.html") =
      .ok (named ["w", "docs", "sub", "a.html"]) := by cbv
  rw [FileSystem.write, hplace]
  rfl

theorem pageText_second : pageText Template.engine .script options.toChoices (visiting ["sub", "b.rs"]).path
    secondDirectory = .ok "<h1>b</h1>" := by
  have hsource : secondDirectory.readText (visiting ["sub", "b.rs"]).path = .ok "" := by cbv
  have htemplate : secondDirectory.readText (Path.ofString "page.html") = .ok pageTemplate := by cbv
  exact pageText_plain rfl hsource htemplate rfl (by decide) (by decide +kernel)

theorem write_second : secondDirectory.write (Path.ofString "docs/sub/sub/b.html") (Text.encode "<h1>b</h1>") =
    .ok secondPage := by
  have hplace : secondDirectory.writeLocation (Path.ofString "docs/sub/sub/b.html") =
      .ok (named ["w", "docs", "sub", "sub", "b.html"]) := by cbv
  rw [FileSystem.write, hplace]
  rfl

theorem processFile_first (notices : List Notice) :
    ∃ notices', batch.processFile [] (visiting ["a.rs"]) ⟨files, notices⟩ =
      (.ok [(Path.ofString "docs/sub/a.html", Path.ofString "in/a.rs")], ⟨firstPage, notices'⟩) := by
  have hmade : files.prepare (batch.target (visiting ["a.rs"]).relative) = (files, .ok ()) := by cbv
  exact @processFile_ok batch [] (visiting ["a.rs"]) .script _ _ _ notices _ (by cbv) (by decide) rfl
    hmade pageText_first write_first

theorem processFile_second (notices : List Notice) :
    ∃ notices', batch.processFile [(Path.ofString "docs/sub/a.html", Path.ofString "in/a.rs")]
        (visiting ["sub", "b.rs"]) ⟨firstPage, notices⟩ =
      (.ok [(Path.ofString "docs/sub/sub/b.html", Path.ofString "in/sub/b.rs"),
        (Path.ofString "docs/sub/a.html", Path.ofString "in/a.rs")], ⟨secondPage, notices'⟩) := by
  have hmade : firstPage.prepare (batch.target (visiting ["sub", "b.rs"]).relative) = (secondDirectory, .ok ()) := by
    cbv
  exact @processFile_ok batch _ (visiting ["sub", "b.rs"]) .script _ _ _ notices _ (by cbv)
    (by decide) (by decide) hmade pageText_second write_second

theorem load_ignored : ∃ notices, IgnoreSet.load ((Path.ofString "in").join IgnoreSet.fileName) ⟨files, []⟩ =
    (.ok ignored, ⟨files, notices⟩) := by
  have htext : files.readText ((Path.ofString "in").join IgnoreSet.fileName) = .ok "draft.*" := by cbv
  refine ⟨[], ?_⟩
  rw [IgnoreSet.load_of_text htext]
  rfl

/-- The six steps of the visit. -/
theorem processAll_files (n : Nat) (notices : List Notice) :
    ∃ notices', batch.processAll (n + 6) [] [visiting []] ⟨files, notices⟩ =
      (.ok [(Path.ofString "docs/sub/sub/b.html", Path.ofString "in/sub/b.rs"),
        (Path.ofString "docs/sub/a.html", Path.ofString "in/a.rs")], ⟨secondPage, notices'⟩) := by
  have hstart : nextFile files 11 [visiting []] = .ok (some (visiting [".litdocignore"],
      [visiting ["a.rs"], visiting ["draft.rs"], visiting ["sub"]])) := by cbv
  have hfirst : nextFile files 11 [visiting ["a.rs"], visiting ["draft.rs"], visiting ["sub"]] =
      .ok (some (visiting ["a.rs"], [visiting ["draft.rs"], visiting ["sub"]])) := by cbv
  have hdraft : nextFile firstPage 12 [visiting ["draft.rs"], visiting ["sub"]] =
      .ok (some (visiting ["draft.rs"], [visiting ["sub"]])) := by cbv
  have hpage : nextFile firstPage 12 [visiting ["sub"]] =
      .ok (some (visiting ["sub", "a.html"], [visiting ["sub", "b.rs"]])) := by cbv
  have hsecond : nextFile firstPage 12 [visiting ["sub", "b.rs"]] = .ok (some (visiting ["sub", "b.rs"], [])) := by cbv
  have hend : nextFile secondPage 14 [] = .ok none := by cbv
  obtain ⟨notices₁, h₁⟩ := @processFile_passed batch (visiting [".litdocignore"]) (by decide) [] files
    notices
  obtain ⟨notices₂, h₂⟩ := processFile_first notices₁
  obtain ⟨notices₃, h₃⟩ := @processFile_passed batch (visiting ["draft.rs"]) (by cbv)
    [(Path.ofString "docs/sub/a.html", Path.ofString "in/a.rs")] firstPage notices₂
  obtain ⟨notices₄, h₄⟩ := @processFile_passed batch (visiting ["sub", "a.html"]) (by cbv)
    [(Path.ofString "docs/sub/a.html", Path.ofString "in/a.rs")] firstPage notices₃
  obtain ⟨notices₅, h₅⟩ := processFile_second notices₄
  refine ⟨notices₅, ?_⟩
  rw [Batch.processAll_file hstart h₁, Batch.processAll_file hfirst h₂, Batch.processAll_file hdraft h₃,
    Batch.processAll_file hpage h₄, Batch.processAll_file hsecond h₅, Batch.processAll_none hend]

theorem processDirectory_eq :
    ∃ notices, processDirectory Template.engine (Path.ofString "in") options ⟨files, []⟩ =
      (.ok [Path.ofString "docs/sub/a.html", Path.ofString "docs/sub/sub/b.html"], ⟨secondPage, notices⟩) := by
  have hdir : files.isDirectory (Path.ofString "in") = true := by cbv
  obtain ⟨n, hlimit⟩ := @exists_maxFiles 6 (by decide)
  obtain ⟨notices, hload⟩ := load_ignored
  obtain ⟨notices', hall⟩ := processAll_files n notices
  rw [← hlimit] at hall
  exact ⟨notices', processDirectory_of_load hdir hload hall⟩

theorem locate_output : files.locate true options.outputDir = .ok (named ["w", "docs", "sub"]) := by
  cbv

theorem leads_output {r : Location} (hr : files.Leads options.outputDir r) : r = named ["w", "docs", "sub"] :=
  hr.eq locate_output

theorem begins : Begins batch files (Path.ofString "in") (named ["w", "docs"]) := by
  refine ⟨⟨by decide, by decide, by decide⟩, by cbv, rfl, ?_, ?_⟩
  · rw [Batch.Distinct]
    decide
  · exact linklessBelow_of_entries locate_output (by decide)

theorem locate_template : files.locate true (Path.ofString "page.html") = .ok (named ["w", "page.html"]) := by
  cbv

theorem aside_template : files.Aside (batch.pages files (Path.ofString "in") (named ["w", "docs"]))
    (Path.ofString "page.html") := by
  refine begins.aside_outside locate_template rfl fun r hr => ?_
  rw [leads_output hr]
  decide

/-- The whole run: both documents get their pages, made from the files of the beginning. -/
theorem processDirectory_intoItself :
    ∃ w', processDirectory Template.engine (Path.ofString "in") options ⟨files, []⟩ =
        (.ok [Path.ofString "docs/sub/a.html", Path.ofString "docs/sub/sub/b.html"], w') ∧
      w'.fs.read (Path.ofString "docs/sub/a.html") = .ok (Text.encode "<h1>a</h1>") := by
  obtain ⟨notices, hrun⟩ := processDirectory_eq
  obtain ⟨root, ignored, w₁, hroot, hload, -, -, -, hpages⟩ := processDirectory_exact
    (Path.ofString "in") options begins.wf begins.distinct begins.links hrun
  obtain ⟨notices₁, hdrafts⟩ := load_ignored
  rw [hdrafts] at hload
  cases hload
  cases begins.leads.symm.trans hroot
  have hmem : named ["a.rs"] ∈ batch.documents files (Path.ofString "in") (named ["w", "docs"]) :=
    List.mem_filter.2 ⟨(mem_filesBelow begins.wf).2 ⟨[], rfl⟩, by decide +kernel⟩
  obtain ⟨fs₁, kind, text, l, hpage, hread, hmade⟩ := hpages (named ["a.rs"]) hmem
  have hscript : batch.kind? (visiting ["a.rs"]).path = some .script := by decide +kernel
  cases hscript.symm.trans hpage.ofKind
  have haside : ∀ p, layoutLookups options.toChoices (fun _ => true) fs₁ p → fs₁.readText p = .error .notFound ∨
      ∀ k, fs₁.locate true p = .ok k → ¬ batch.pages files (Path.ofString "in") (named ["w", "docs"]) k := by
    rintro p (rfl : p = Path.ofString "page.html")
    exact .inr fun k hk => aside_template k (leads_of_grows hpage.wellFormed hpage.since hk)
  have hfound : ∀ p, layoutLookups options.toChoices (fun _ => true) fs₁ p → files.Found p := by
    rintro p (rfl : p = Path.ofString "page.html") l hl
    rw [hl.eq locate_template]
    exact .inr locate_template
  have hstart := (hmade _ (asks_all _ _ _ fs₁) haside).2 hfound
  cases pageText_first.symm.trans hstart
  exact ⟨_, hrun, hread⟩

end Collection
end Folio
