import Folio.Proofs.Batch.Exact

/-!
# Folio.Proofs.Batch.Again

A second run over a directory.

* `Batch.UpToDate`: every page stands at its place already; `Batch.UpToDate.unchanged` says that a run then leaves the
  table as it is, and `Batch.UpToDate.ends` that it can only fail in its visit.
* `Visitable`: a directory in which a visit cannot fail.
* `Reached.upToDate`: after a run the pages are up to date, where the files that count for them are kept.
* `processDirectory_again`: the second run changes nothing and returns the same places.
* `Reignored`: an ignore file that the first run makes.
-/

namespace Folio

open Folio.Path FileSystem

variable {b : Batch} {input : Path} {root : Location} {fs₀ fs fs' : FileSystem}

/-! ### Pages that are up to date -/

/-- The page of a document can be made from the files as they are, and stands at its place already. -/
structure Batch.PageUpToDate (b : Batch) (fs : FileSystem) (input : Path) (names : List Name) (kind : DocumentKind)
    (text : String) : Prop where
  ofKind : b.kind? (input.below names) = some kind
  prepared : fs.prepare (b.pageOf names) = (fs, .ok ())
  made : pageText b.renderer kind b.options.toChoices (input.below names) fs = .ok text
  written : fs.write (b.pageOf names) (Text.encode text) = .ok fs

/-- All pages are up to date, and no two of them have the same place. -/
structure Batch.UpToDate (b : Batch) (fs : FileSystem) (input : Path) (root : Location) : Prop where
  pages : ∀ names ∈ b.documents fs input root, ∃ kind text, b.PageUpToDate fs input names kind text
  nodup : ((b.documents fs input root).map fun names => (b.pageOf names).components).Nodup

/-- Making a page again changes nothing. -/
theorem Batch.PageUpToDate.makes {names : List Name} {kind kind' : DocumentKind} {text : String}
    (h : b.PageUpToDate fs input names kind text) (hkind : b.kind? (input.below names) = some kind')
    {result : Except Error Unit} (hmakes : b.Makes kind' (input.below names) (b.pageOf names) fs result fs') :
    result = .ok () ∧ fs' = fs := by
  rw [h.ofKind] at hkind
  cases hkind
  cases hmakes with
  | noDirectory hprepare =>
    rw [h.prepared] at hprepare
    cases hprepare
  | noPage hprepare hfails =>
    rw [h.prepared] at hprepare
    cases hprepare
    exact absurd hfails (not_fails h.made h.written _)
  | page hprepare htext hwrite =>
    rw [h.prepared] at hprepare
    cases hprepare
    rw [h.made] at htext
    cases htext
    rw [h.written] at hwrite
    cases hwrite
    exact ⟨rfl, rfl⟩

/-- A run over pages that are up to date leaves the table as it is. -/
theorem Batch.UpToDate.unchanged (h : Begins b fs input root) (hup : b.UpToDate fs input root) {k : Nat}
    {s s' : Progress} (hruns : b.Runs k s s') (hs : Underway b input root fs s) (hfs : s.fs = fs) : s'.fs = fs := by
  induction hruns with
  | refl => exact hfs
  | @file k s s' p rest written fs' hnext hfile hmore ih =>
    -- a step that writes is for a document, and writes what stands there
    obtain ⟨hs', hone⟩ := hs.file h hnext hfile
    refine ih hs' ?_
    obtain ⟨-, -, hsame⟩ | ⟨hdocs, -, -⟩ := hone
    · exact hsame.trans hfs
    · have hmem : p.names ∈ b.documents fs input root := hs.documents (hdocs ▸ List.mem_cons_self)
      obtain ⟨kind, text, hpage⟩ := hup.pages p.names hmem
      obtain ⟨-, hp, -, -⟩ := hs.comesNext h hnext
      cases hfile with
      | passed => exact hfs
      | made hskip hkind hnew hmakes =>
        rw [hp.path] at hkind hmakes
        rw [hfs] at hmakes
        exact (hpage.makes hkind hmakes).2

/-- A run over pages that are up to date does all documents, unless it fails in its visit. -/
theorem Batch.UpToDate.ends (h : Begins b fs input root) (hup : b.UpToDate fs input root) {docs : List (List Name)}
    {s : Progress} (hreached : Reached b input root fs docs s) {result : Except Error Written} {fs' : FileSystem}
    (hends : b.Ends s result fs') :
    fs' = fs ∧ (result = .ok s.written ∧ docs = b.documents fs input root ∨
      ∃ cause, s.next = .error cause ∧ result = .error (.io cause)) := by
  obtain ⟨k, hruns⟩ := hreached.runs
  have hfs := hup.unchanged h hruns (Underway.start h) rfl
  cases hends with
  | finished hnext => exact ⟨hfs, .inl ⟨rfl, hreached.finished h hnext⟩⟩
  | @unvisited cause hnext => exact ⟨hfs, .inr ⟨cause, hnext, rfl⟩⟩
  | @failed p rest e fs' hnext hfile =>
    obtain ⟨-, hp, -, -⟩ := hreached.underway.comesNext h hnext
    have hnow := hreached.underway.mem_documents h hnext (hfile.isDocument hp)
    cases hfile with
    | @taken first hskip hkind hfirst =>
      -- an earlier document would have the same page
      have hnodup := hup.nodup
      rw [hreached.documents, List.map_append] at hnodup
      obtain ⟨doc, hdoc, -, hplace⟩ :=
        exists_of_source? (hreached.completed.written.trans (List.append_nil _)) hfirst
      refine absurd (beq_iff_eq.1 hplace) ((List.nodup_append.1 hnodup).2.2 _ (List.mem_map.2 ⟨doc, hdoc, rfl⟩) _ ?_)
      exact List.mem_map.2 ⟨p.names, hnow, rfl⟩
    | failed hskip hkind hnew hmakes =>
      obtain ⟨kind, text, hpage⟩ := hup.pages p.names (hreached.underway.documents hnow)
      rw [hp.path] at hkind hmakes
      rw [hfs] at hmakes
      cases (hpage.makes hkind hmakes).1

/-! ### The visit -/

/-- All entries below a directory have names that are accepted, and the paths of all directories below it are. -/
structure Visitable (fs : FileSystem) (input : Path) (root : Location) : Prop where
  short : ∀ names e, fs.get? (root ++ names) = some e → ∀ name ∈ names, name.length ≤ maxNameLength
  accepted : ∀ names, fs.get? (root ++ names) = some .directory → checkPath (input.below names) = .ok ()

theorem Visitable.not_refused (h : Visitable fs input root) (hwf : fs.WellFormed)
    (hroot : fs.locate true input = .ok root) {p : Pending} (hp : p.Stands fs input root) (cause : IoError) :
    ¬ Refused fs root p cause := by
  obtain ⟨e, he⟩ := hp.entry
  rintro (hrefused | ⟨hdir, hcheck⟩)
  · rw [entryKind, hp.path] at hrefused
    by_cases hnil : p.names = []
    · rw [hnil, List.append_nil] at he
      have hstart : fs.locate true (input.below p.names) = .ok root := by
        rw [hnil]
        exact hroot
      simp only [hnil, if_pos, locateExisting] at hrefused hstart
      rw [hstart] at hrefused
      simp [he] at hrefused
    · obtain hok | ⟨-, long, hmem, hlong⟩ := @resolve_standing fs hwf false input root p.names e
        (resolve_of_locate hroot) hnil hp.names he fun hfalse => by cases hfalse
      · rw [if_neg hnil, Path.below_eq_join input hnil hp.names, hok] at hrefused
        simp [he] at hrefused
      · exact absurd (h.short p.names e he long hmem) (Nat.not_le.2 hlong)
  · rw [hp.path, h.accepted p.names hdir] at hcheck
    cases hcheck

theorem Visitable.next_ok (h : Begins b fs₀ input root) {s : Progress} (hs : Underway b input root fs₀ s)
    (hvisit : Visitable s.fs input root) (cause : IoError) : s.next ≠ .error cause := by
  intro hnext
  have hroot : s.fs.locate true input = .ok root := locate_of_grows hs.grows h.leads
  have henough := toVisit_le s.fs root s.pending
  obtain ⟨p, cause, -, hp, hrefused, -, -⟩ :=
    nextFile_failure hs.wellFormed hroot hnext hs.stands hs.inOrder (by omega)
  exact hvisit.not_refused hs.wellFormed hroot hp cause hrefused

/-! ### The table after a run -/

/-- The files looked at for a page are those looked at in the beginning, where these are kept. -/
theorem layoutLookups_between {pages : Location → Prop} {fs₁ : FileSystem} (hwf : fs.WellFormed)
    (hwf₁ : fs₁.WellFormed) (h₁ : Grows pages fs fs₁) (h₂ : Grows pages fs₁ fs') {choices : Choices}
    {asked : String → Bool} (hkept : ∀ p, layoutLookups choices asked fs p → Kept pages fs fs' p) {p : Path}
    (hp : layoutLookups choices asked fs₁ p) : layoutLookups choices asked fs p := by
  rw [layoutLookups] at hp ⊢
  cases hchoose : Strategy.choose choices.template with
  | bare =>
    rw [hchoose] at hp
    exact hp
  | plain template =>
    rw [hchoose] at hp
    exact hp
  | engine template =>
    rw [hchoose] at hp
    obtain ⟨name, hasked, hmem⟩ := hp
    refine ⟨name, hasked, ?_⟩
    have hsame : Template.lookups fs₁ name (template.directory :: choices.layoutRoots) =
        Template.lookups fs name (template.directory :: choices.layoutRoots) := by
      refine Template.lookups_eq fun q hq => ⟨readText_missing_before hwf h₁, fun hmissing => ?_⟩
      have hlookup : layoutLookups choices asked fs q := by
        rw [layoutLookups, hchoose]
        exact ⟨name, hasked, hq⟩
      exact readText_missing_before hwf₁ h₂ ((hkept q hlookup).missing hmissing)
    exact hsame ▸ hmem

section Pages

variable {names : List Name} {fs₁ : FileSystem} {kind : DocumentKind} {text : String} {l : Location}

/-- The engine makes the same text again, where the files that it looks at are kept. -/
theorem PageStands.text_again (h : Begins b fs₀ input root)
    (hpage : PageStands b input root fs₀ fs' names fs₁ kind text l) (hmem : names ∈ b.documents fs₀ input root)
    (hrenderer : b.renderer = Template.engine) {asked : String → Bool}
    (hasks : Asks kind b.options.toChoices (input.below names) asked fs₁)
    (hkept : ∀ p, layoutLookups b.options.toChoices asked fs₀ p → Kept (b.pages fs₀ input root) fs₀ fs' p) :
    pageText b.renderer kind b.options.toChoices (input.below names) fs' = .ok text := by
  have hmade := hpage.made
  rw [hrenderer] at hmade ⊢
  refine dependsOn_pageText hasks text hmade fs' ?_
  rintro p (rfl | hp)
  · refine Kept.agrees hpage.later ⟨fun k hk => h.aside_document hpage.since hmem hk, fun hmissing => ?_⟩
    obtain ⟨source, hsource⟩ := readText_of_pageText hmade
    rw [hmissing] at hsource
    cases hsource
  · have hlookup := layoutLookups_between h.wf hpage.wellFormed hpage.since hpage.later hkept hp
    exact (hkept p hlookup).agrees_between h.wf hpage.wellFormed hpage.since hpage.later

theorem PageStands.upToDate (hpage : PageStands b input root fs₀ fs' names fs₁ kind text l)
    (hagain : pageText b.renderer kind b.options.toChoices (input.below names) fs' = .ok text) :
    b.PageUpToDate fs' input names kind text :=
  ⟨hpage.ofKind, hpage.prepared, hagain, write_same hpage.leads hpage.holds⟩

end Pages

theorem Reached.documents_eq (h : Begins b fs₀ input root) {s : Progress} {docs : List (List Name)}
    (hreached : Reached b input root fs₀ docs s) : b.documents s.fs input root = b.documents fs₀ input root := by
  -- the files that have come are pages, and a page is no document
  refine filter_of_grows h.wf hreached.underway.wellFormed hreached.completed.frame root ?_
  rintro names hdoc ⟨doc, hmem, hl⟩
  obtain ⟨fs₁, kind, text, l, hpage⟩ := hreached.completed.pages doc hmem
  obtain ⟨page, r, hhas, -, heq⟩ := hpage.place
  cases hl.symm.trans hpage.leads
  have hne : names ≠ [] := by
    rintro rfl
    have hdir := (hreached.underway.grows.change root).directory h.directory
    have hfile := hpage.holds
    rw [List.append_nil, hdir] at hfile
    cases hfile
  have hnames : ∀ name ∈ names, isName name = true := fun name hname =>
    hreached.underway.wellFormed.isName_of_mem hpage.holds name (List.mem_append_right root hname)
  have hdoc₀ : doc ∈ b.documents fs₀ input root := by
    rw [hreached.documents]
    exact List.mem_append_left _ hmem
  rw [not_isDocument_of_place h.distinct hhas (h.isName_document hdoc₀).2 hne hnames heq] at hdoc
  cases hdoc

/-- After a run the pages are up to date, where the files that the engine looks at are kept. -/
theorem Reached.upToDate (h : Begins b fs₀ input root) (hrenderer : b.renderer = Template.engine) {s : Progress}
    (hreached : Reached b input root fs₀ (b.documents fs₀ input root) s) {asked : String → Bool}
    (hasks : ∀ names ∈ b.documents fs₀ input root, ∀ kind, b.kind? (input.below names) = some kind →
      ∀ fs₁, fs₁.WellFormed → Grows (b.pages fs₀ input root) fs₀ fs₁ → Grows (b.pages fs₀ input root) fs₁ s.fs →
        Asks kind b.options.toChoices (input.below names) asked fs₁)
    (hkept : ∀ p, layoutLookups b.options.toChoices asked fs₀ p → Kept (b.pages fs₀ input root) fs₀ s.fs p) :
    b.UpToDate s.fs input root := by
  refine ⟨?_, ?_⟩
  · intro names hmem
    rw [hreached.documents_eq h] at hmem
    obtain ⟨fs₁, kind, text, l, hpage⟩ := hreached.completed.pages names hmem
    have hasks₁ := hasks names hmem kind hpage.ofKind fs₁ hpage.wellFormed hpage.since hpage.later
    exact ⟨kind, text, hpage.upToDate (hpage.text_again h hmem hrenderer hasks₁ hkept)⟩
  · rw [hreached.documents_eq h]
    exact hreached.apart

/-- For the patterns of an ignore file only its text counts. -/
theorem load_eq (path : Path) (w : World) :
    (IgnoreSet.load path w).1 = IgnoreSet.ofText (w.fs.readText path).toOption := by
  cases htext : w.fs.readText path with
  | ok text => rw [IgnoreSet.load_of_text htext, Except.toOption]
  | error e => rw [IgnoreSet.load_of_error htext, Except.toOption, IgnoreSet.ofText_none]

/-- A second run over a directory leaves the table as the first one has left it, and returns the same places if its
visit cannot fail. No page may be put at the ignore file or at a file that the engine looks at, and such a file may not
come into being in another way. -/
theorem processDirectory_again (input : Path) (options : DirectoryOptions) {w w' : World} {written : List Path}
    (hwf : w.fs.WellFormed)
    (hdistinct : ∀ s ∈ effectiveExtensions options.scriptExtensions,
      Text.asciiLower s ≠ Text.asciiLower options.outputFormat.extension)
    (hlinks : w.fs.LinklessBelow options.outputDir)
    (hrun : processDirectory Template.engine input options w = (.ok written, w')) :
    ∃ root ignored w₁, w.fs.locate true input = .ok root ∧
      IgnoreSet.load (input.join IgnoreSet.fileName) w = (.ok ignored, w₁) ∧
      let b : Batch := ⟨Template.engine, options, ignored⟩
      let pages := b.pages w.fs input root
      ∀ asked : String → Bool,
        (∀ names ∈ b.documents w.fs input root, ∀ kind, b.kind? (input.below names) = some kind →
          ∀ fs, fs.WellFormed → Grows pages w.fs fs → Grows pages fs w'.fs →
            Asks kind options.toChoices (input.below names) asked fs) →
        (∀ p, p = input.join IgnoreSet.fileName ∨ layoutLookups options.toChoices asked w.fs p →
          Kept pages w.fs w'.fs p) →
        ∀ notices, let again := processDirectory Template.engine input options ⟨w'.fs, notices⟩
          again.2.fs = w'.fs ∧ (Visitable w'.fs input root → again.1 = .ok written) := by
  obtain ⟨root, ignored, w₁, hload, h, hwritten, s, hreached, hfs⟩ :=
    processDirectory_finished hwf hdistinct hlinks hrun
  refine ⟨root, ignored, w₁, h.leads, hload, ?_⟩
  intro b pages asked hasks hkept notices again
  have hgrows : Grows pages w.fs w'.fs := hfs ▸ hreached.underway.grows
  have hwf' : w'.fs.WellFormed := hfs ▸ hreached.underway.wellFormed
  have hup : b.UpToDate w'.fs input root := by
    rw [← hfs] at hasks hkept ⊢
    exact hreached.upToDate h rfl hasks fun p hp => hkept p (.inr hp)
  have h' : Begins b w'.fs input root :=
    ⟨hwf', locate_of_grows hgrows h.leads, (hgrows.change root).directory h.directory, hdistinct,
      hlinks.of_grows hgrows⟩
  have hsame : (IgnoreSet.load (input.join IgnoreSet.fileName) ⟨w'.fs, notices⟩).1 = .ok ignored := by
    rw [load_eq, (hkept _ (.inl rfl)).toOption_readText hwf hgrows, ← load_eq, hload]
  obtain ⟨e, -, hrefused⟩ | ⟨root', ignored', w₂, hload', hbegins, docs, s', result, hreached', hends, hresult⟩ :=
    processDirectory_spec Template.engine input options (w := ⟨w'.fs, notices⟩) hwf' hdistinct (hlinks.of_grows hgrows)
  · -- the directory and its ignore file are as they were for the first run
    exfalso
    generalize (processDirectory Template.engine input options ⟨w'.fs, notices⟩).2 = refused at hrefused
    cases hrefused with
    | notDirectory hdir =>
      rw [isDirectory_iff.2 ⟨root, h'.leads, h'.directory⟩] at hdir
      cases hdir
    | badIgnoreFile hdir hload' =>
      rw [hload'] at hsame
      cases hsame
  · rw [hload'] at hsame
    cases hsame
    cases hbegins.leads.symm.trans h'.leads
    obtain ⟨hkept_fs, hcases⟩ := hup.ends h' hreached' hends
    refine ⟨hkept_fs, fun hvisit => ?_⟩
    obtain ⟨rfl, rfl⟩ | ⟨cause, hnext, -⟩ := hcases
    · rw [hwritten, ← hreached.documents_eq h, hfs, ← hreached'.written_eq]
      exact hresult
    · obtain ⟨k, hruns⟩ := hreached'.runs
      have hfs' := hup.unchanged h' hruns (Underway.start h') rfl
      rw [← hfs'] at hvisit
      exact absurd hnext (hvisit.next_ok h' hreached'.underway cause)

namespace Collection

theorem kept_outside {fs' : FileSystem} {p : Path} {l : Location} (hl : files.locate true p = .ok l)
    {bytes : List UInt8} (hfile : files.get? l = some (.file bytes)) (hout : ¬ named ["w", "docs", "sub"] <+: l) :
    Kept (batch.pages files (Path.ofString "in") (named ["w", "docs"])) files fs' p := by
  refine ⟨fun k hk => ?_, fun hmissing => ?_⟩
  · have haside := begins.aside_outside hl hfile fun r hr => by rwa [leads_output hr]
    exact haside k (leads_of_grows begins.wf (Grows.refl (fun _ => False) files) hk)
  · rw [readText_eq_missing, read_eq_of_locate hl hfile] at hmissing
    cases hmissing

theorem visitable : Visitable secondPage (Path.ofString "in") (named ["w", "docs"]) := by
  have hmem : ∀ names e, secondPage.get? (named ["w", "docs"] ++ names) = some e →
      (named ["w", "docs"] ++ names, e) ∈ secondPage.entries :=
    fun names e he => mem_of_get? (by simp [named]) he
  have hshort : ∀ p ∈ secondPage.entries, ∀ name ∈ p.1, name.length ≤ maxNameLength := by decide
  have hdirectories : ∀ p ∈ secondPage.entries, p.2 = .directory → named ["w", "docs"] <+: p.1 →
      p.1.drop 2 ∈ [[], named ["sub"], named ["sub", "sub"]] := by decide
  refine ⟨fun names e he name hname => ?_, fun names hdir => ?_⟩
  · exact hshort _ (hmem names e he) name (List.mem_append_right _ hname)
  · have hnames := hdirectories _ (hmem names _ hdir) rfl (List.prefix_append _ _)
    have hdrop : (named ["w", "docs"] ++ names).drop 2 = names := rfl
    have haccepted : ∀ names ∈ [[], named ["sub"], named ["sub", "sub"]],
        checkPath ((Path.ofString "in").below names) = .ok () := by decide
    exact haccepted names (hdrop ▸ hnames)

theorem processDirectory_twice :
    ∃ w', processDirectory Template.engine (Path.ofString "in") options ⟨files, []⟩ =
        (.ok [Path.ofString "docs/sub/a.html", Path.ofString "docs/sub/sub/b.html"], w') ∧
      (processDirectory Template.engine (Path.ofString "in") options w').1 =
        .ok [Path.ofString "docs/sub/a.html", Path.ofString "docs/sub/sub/b.html"] ∧
      (processDirectory Template.engine (Path.ofString "in") options w').2.fs = w'.fs := by
  obtain ⟨notices, hrun⟩ := processDirectory_eq
  obtain ⟨root, ignored, w₁, hroot, hload, hagain⟩ := processDirectory_again (Path.ofString "in") options begins.wf
    begins.distinct begins.links hrun
  obtain ⟨notices₁, hdrafts⟩ := load_ignored
  rw [hdrafts] at hload
  cases hload
  cases begins.leads.symm.trans hroot
  have hkept : ∀ p, p = (Path.ofString "in").join IgnoreSet.fileName ∨
      layoutLookups options.toChoices (fun _ => true) files p →
      Kept (batch.pages files (Path.ofString "in") (named ["w", "docs"])) files secondPage p := by
    rintro p (rfl | (rfl : p = Path.ofString "page.html"))
    · have hignore : files.locate true ((Path.ofString "in").join IgnoreSet.fileName) =
          .ok (named ["w", "docs", ".litdocignore"]) := by cbv
      exact kept_outside hignore rfl (by decide)
    · exact kept_outside locate_template rfl (by decide)
  obtain ⟨hfs, hresult⟩ := hagain (fun _ => true) (fun _ _ _ _ fs _ _ _ => asks_all _ _ _ fs) hkept notices
  exact ⟨_, hrun, hresult visitable, hfs⟩

end Collection

/-! ### An ignore file that the first run makes -/

namespace Reignored

/-- The ignore file is a link to the place of the page, and the template is the text of a pattern. -/
def files : FileSystem where
  entries := [
    (Collection.named ["w"], .directory),
    (Collection.named ["w", "t.txt"], .file (Text.encode "*.rs")),
    (Collection.named ["w", "in"], .directory),
    (Collection.named ["w", "in", ".litdocignore"], .link (Path.ofString "../out/a.html")),
    (Collection.named ["w", "in", "a.rs"], .file []),
    (Collection.named ["w", "out"], .directory)]
  current := Collection.named ["w"]

def options : DirectoryOptions where
  toChoices := { Choices.none with template := some (Path.ofString "t.txt") }
  outputDir := Path.ofString "out"
  scriptExtensions := []

def scripts : IgnoreSet :=
  (IgnoreSet.ofText (some "*.rs")).toOption.getD ⟨[]⟩

def withPage : FileSystem :=
  files.put (Collection.named ["w", "out", "a.html"]) (.file (Text.encode "*.rs"))

theorem firstRun : ∃ notices, processDirectory Template.engine (Path.ofString "in") options ⟨files, []⟩ =
    (.ok [Path.ofString "out/a.html"], ⟨withPage, notices⟩) := by
  have hdir : files.isDirectory (Path.ofString "in") = true := by cbv
  have htext : files.readText ((Path.ofString "in").join IgnoreSet.fileName) = .error .notFound := by cbv
  have hnext : nextFile files 8 [Collection.visiting []] = .ok (some (Collection.visiting ["a.rs"], [])) := by cbv
  have hmade : files.prepare (Path.ofString "out/a.html") = (files, .ok ()) := by cbv
  have hsource : files.readText (Collection.visiting ["a.rs"]).path = .ok "" := by cbv
  have htemplate : files.readText (Path.ofString "t.txt") = .ok "*.rs" := by cbv
  have hpage : pageText Template.engine .script options.toChoices (Collection.visiting ["a.rs"]).path files =
      .ok "*.rs" :=
    pageText_plain rfl hsource htemplate rfl (by decide) (by decide +kernel)
  have hplace : files.writeLocation (Path.ofString "out/a.html") = .ok (Collection.named ["w", "out", "a.html"]) := by
    cbv
  have hwrite : files.write (Path.ofString "out/a.html") (Text.encode "*.rs") = .ok withPage := by
    rw [FileSystem.write, hplace]
    rfl
  have hload := IgnoreSet.load_of_error (w := ⟨files, []⟩) htext
  obtain ⟨notices, hfile⟩ := @processFile_ok ⟨Template.engine, options, IgnoreSet.defaults⟩ []
    (Collection.visiting ["a.rs"]) .script _ _ _ [.noIgnoreFile ((Path.ofString "in").join IgnoreSet.fileName)] _
    (by decide) (by decide) rfl hmade hpage hwrite
  exact ⟨notices, processDirectory_single hdir hload hnext hfile⟩

/-- The page is read as the ignore file now, and its pattern matches the document. -/
theorem secondRun : (processDirectory Template.engine (Path.ofString "in") options ⟨withPage, []⟩).1 = .ok [] := by
  have hdir : withPage.isDirectory (Path.ofString "in") = true := by cbv
  have htext : withPage.readText ((Path.ofString "in").join IgnoreSet.fileName) = .ok "*.rs" := by cbv
  have hload : IgnoreSet.load ((Path.ofString "in").join IgnoreSet.fileName) ⟨withPage, []⟩ =
      (.ok scripts, ⟨withPage, []⟩) := by
    rw [IgnoreSet.load_of_text htext]
    rfl
  have hnext : nextFile withPage 9 [Collection.visiting []] = .ok (some (Collection.visiting ["a.rs"], [])) := by cbv
  obtain ⟨notices, hfile⟩ := @processFile_passed ⟨Template.engine, options, scripts⟩ (Collection.visiting ["a.rs"])
    (by cbv) [] withPage []
  rw [processDirectory_single hdir hload hnext hfile]
  rfl

theorem locate_output : files.locate true options.outputDir = .ok (Collection.named ["w", "out"]) := by
  cbv

theorem begins : Begins ⟨Template.engine, options, IgnoreSet.defaults⟩ files (Path.ofString "in")
    (Collection.named ["w", "in"]) := by
  refine ⟨⟨by decide, by decide, by decide⟩, by cbv, rfl, ?_, ?_⟩
  · rw [Batch.Distinct]
    decide
  · exact linklessBelow_of_entries locate_output (by decide)

/-- The second run does not return what the first one has returned, although pages and scripts are told apart, no link
stands below the output directory, and no page is put at the template. -/
theorem processDirectory_forgets :
    files.WellFormed ∧ (∀ s ∈ effectiveExtensions options.scriptExtensions,
      Text.asciiLower s ≠ Text.asciiLower options.outputFormat.extension) ∧
    files.LinklessBelow options.outputDir ∧
    files.Aside (Batch.pages ⟨Template.engine, options, IgnoreSet.defaults⟩ files (Path.ofString "in")
      (Collection.named ["w", "in"])) (Path.ofString "t.txt") ∧
    ∃ w', processDirectory Template.engine (Path.ofString "in") options ⟨files, []⟩ =
        (.ok [Path.ofString "out/a.html"], w') ∧
      (processDirectory Template.engine (Path.ofString "in") options ⟨w'.fs, []⟩).1 = .ok [] := by
  obtain ⟨notices, hrun⟩ := firstRun
  have htemplate : files.locate true (Path.ofString "t.txt") = .ok (Collection.named ["w", "t.txt"]) := by cbv
  refine ⟨begins.wf, begins.distinct, begins.links, ?_, _, hrun, secondRun⟩
  refine begins.aside_outside htemplate rfl fun r hr => ?_
  rw [hr.eq locate_output]
  decide

end Reignored
end Folio
