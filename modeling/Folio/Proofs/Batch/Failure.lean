import Folio.Proofs.Batch.Exact

/-!
# Folio.Proofs.Batch.Failure

What a run over a directory leaves behind when it fails.

* `Batch.documentsBefore`: the documents that are visited before an entry.
* `Batch.Stops`: why a run stops at an entry; `Reached.stops` finds the entry where it does.
* `Batch.Leaves`: the table after the pages of the documents before an entry have been made, and nothing else but
  directories on the way to a page.
* `PageStands.below`: the directories that have been made for a page hold it.
* `processDirectory_failed`: a run that fails leaves the pages of the documents before the one where it stops.
-/

namespace Folio

open Folio.Path FileSystem

namespace Batch

/-- The documents that come before an entry, in the order of the visit. -/
def documentsBefore (b : Batch) (fs : FileSystem) (input : Path) (root : Location) (names : List Name) :
    List (List Name) :=
  (b.documents fs input root).filter fun doc => namesLe doc names && doc != names

/-- Why a run stops at an entry: the visit cannot go on there, or it is a document whose page has the place of an
earlier one, or cannot be made. The table is `fs` before that and `fs'` afterwards. -/
inductive Stops (b : Batch) (fs₀ : FileSystem) (input : Path) (root : Location) (names : List Name)
    (fs fs' : FileSystem) : Error → Prop where
  | visit {cause : IoError} (hrefused : Refused fs root ⟨input.below names, names⟩ cause) (hsame : fs' = fs) :
      Stops b fs₀ input root names fs fs' (.io (Pending.failure ⟨input.below names, names⟩ cause))
  | collision {first : List Name} (hdoc : names ∈ b.documents fs₀ input root)
      (hfirst : first ∈ b.documentsBefore fs₀ input root names)
      (hplace : (b.pageOf first).sameComponents (b.pageOf names) = true) (hsame : fs' = fs) :
      Stops b fs₀ input root names fs fs' (.document (input.below names).display
        ("output '" ++ (b.pageOf names).display ++ "' is already generated from '" ++
          (input.below first).display ++ "'"))
  | page {kind : DocumentKind} {e : Error} (hdoc : names ∈ b.documents fs₀ input root)
      (hkind : b.kind? (input.below names) = some kind)
      (hmakes : b.Makes kind (input.below names) (b.pageOf names) fs (.error e) fs') :
      Stops b fs₀ input root names fs fs' e

end Batch

variable {b : Batch} {input : Path} {root : Location} {fs₀ fs fs' : FileSystem} {names : List Name} {e : Error}

/-- Before its text a page gets its directories, and it fails without anything else. -/
theorem Batch.Makes.eq_of_error {kind : DocumentKind} {source target : Path}
    (h : b.Makes kind source target fs (.error e) fs') : fs' = (fs.prepare target).1 := by
  cases h with
  | noDirectory hprepare => rw [hprepare]
  | noPage hprepare => rw [hprepare]

theorem Batch.Stops.grows (h : b.Stops fs₀ input root names fs fs' e) (hwf : fs.WellFormed) :
    fs'.WellFormed ∧ Grows (fun _ => False) fs fs' := by
  cases h with
  | visit _ hsame => exact hsame.symm ▸ ⟨hwf, Grows.refl _ fs⟩
  | collision _ _ _ hsame => exact hsame.symm ▸ ⟨hwf, Grows.refl _ fs⟩
  | page _ _ hmakes =>
    rw [hmakes.eq_of_error]
    exact prepare_grows hwf _

/-- Only directories on the way to the page of a document are made where a run stops. -/
theorem Batch.Stops.directories (h : b.Stops fs₀ input root names fs fs' e) (hwf : fs.WellFormed) {l : Location}
    (hnone : fs.get? l = none) (hdir : fs'.get? l = some .directory) :
    names ∈ b.documents fs₀ input root ∧ ∃ q, q.IsAncestor (b.pageOf names) ∧ fs'.locate true q = .ok l := by
  cases h with
  | visit _ hsame =>
    rw [hsame, hnone] at hdir
    cases hdir
  | collision _ _ _ hsame =>
    rw [hsame, hnone] at hdir
    cases hdir
  | page hdoc _ hmakes =>
    rw [hmakes.eq_of_error] at hdir ⊢
    exact ⟨hdoc, prepare_ancestor hwf hnone hdir⟩

/-! ### Where a run stops -/

/-- If all that is done comes before an entry, and nothing that is still to come does, it is what comes before. -/
theorem Reached.documentsBefore {docs : List (List Name)} {s : Progress} (h : Reached b input root fs₀ docs s)
    (hdone : ∀ doc ∈ docs, Before doc names)
    (hrest : ∀ doc ∈ s.documents b input root, namesLe names doc = true) :
    b.documentsBefore fs₀ input root names = docs := by
  have hall : docs.filter (fun doc => namesLe doc names && doc != names) = docs := by
    refine List.filter_eq_self.2 fun doc hdoc => ?_
    rw [(hdone doc hdoc).1, Bool.true_and, bne_iff_ne]
    exact (hdone doc hdoc).2
  have hnone : (s.documents b input root).filter (fun doc => namesLe doc names && doc != names) = [] := by
    refine List.filter_eq_nil_iff.2 fun doc hdoc hbefore => ?_
    rw [Bool.and_eq_true, bne_iff_ne] at hbefore
    exact hbefore.2 (linear_namesLe.antisymm doc names hbefore.1 (hrest doc hdoc))
  rw [Batch.documentsBefore, h.documents, List.filter_append, hall, hnone, List.append_nil]

/-- A run that fails stops at an entry, and what it has done are the documents before it. -/
theorem Reached.stops (h : Begins b fs₀ input root) {docs : List (List Name)} {s : Progress}
    (hreached : Reached b input root fs₀ docs s) {result : Except Error Written} (hends : b.Ends s result fs')
    (hresult : result = .error e) :
    ∃ names, b.documentsBefore fs₀ input root names = docs ∧ b.Stops fs₀ input root names s.fs fs' e := by
  have hs := hreached.underway
  have hroot : s.fs.locate true input = .ok root := locate_of_grows hs.grows h.leads
  cases hends with
  | finished => cases hresult
  | @unvisited cause hnext =>
    cases hresult
    have henough := toVisit_le s.fs root s.pending
    -- the entry is found by the visit itself, which has steps enough
    obtain ⟨p, cause, rfl, hp, hrefused, ⟨r, hr, hbelow⟩, hfirst⟩ :=
      nextFile_failure hs.wellFormed hroot hnext hs.stands hs.inOrder (by omega)
    have hpath : p = ⟨input.below p.names, p.names⟩ := by rw [← hp.path]
    refine ⟨p.names, hreached.documentsBefore ?_ ?_, ?_⟩
    · intro doc hdoc
      exact ((hreached.precedes doc hdoc r hr).below List.prefix_rfl hbelow).before
    · exact fun doc hdoc => hfirst doc (List.mem_filter.1 hdoc).1
    · rw [hpath] at hrefused ⊢
      exact .visit hrefused rfl
  | @failed p rest e fs' hnext hfile =>
    cases hresult
    obtain ⟨hremaining, hp, -, -⟩ := hs.comesNext h hnext
    obtain ⟨r, hr, hbelow⟩ := nextFile_below hnext p List.mem_cons_self
    have hmem := hs.documents (hs.mem_documents h hnext (hfile.isDocument hp))
    have hdocs : b.documentsBefore fs₀ input root p.names = docs := by
      refine hreached.documentsBefore ?_ ?_
      · intro doc hdoc
        exact ((hreached.precedes doc hdoc r hr).below List.prefix_rfl hbelow).before
      · intro doc hdoc
        have hlater := (List.mem_filter.1 hdoc).1
        have hsorted : (remaining s.fs root s.pending).Pairwise Before := pairwise_remaining hs.wellFormed hs.inOrder
        rw [hremaining] at hlater hsorted
        obtain rfl | hlater := List.mem_cons.1 hlater
        · exact namesLe_of_below List.prefix_rfl
        · exact ((List.pairwise_cons.1 hsorted).1 doc hlater).1
    refine ⟨p.names, hdocs, ?_⟩
    cases hfile with
    | @taken first hskip hkind hfirst =>
      obtain ⟨doc, hdoc, rfl, hplace⟩ :=
        exists_of_source? (hreached.completed.written.trans (List.append_nil _)) hfirst
      rw [hp.path]
      exact .collision hmem (hdocs.symm ▸ hdoc) hplace rfl
    | failed hskip hkind hnew hmakes =>
      rw [hp.path] at hkind hmakes
      exact .page hmem hkind hmakes

/-! ### What is left -/

/-- The table after the pages of the documents `done` have been made. Nothing else has changed, but for directories on
the way to the pages of the documents `more`. -/
structure Batch.Leaves (b : Batch) (fs₀ : FileSystem) (done more : List (List Name)) (fs' : FileSystem) : Prop where
  wellFormed : fs'.WellFormed
  current : fs'.current = fs₀.current
  frame : ∀ l, fs'.get? l = fs₀.get? l ∨ b.IsPlace fs' done l ∨
    fs₀.get? l = none ∧ fs'.get? l = some .directory ∧
      ∃ doc ∈ more, ∃ q, q.IsAncestor (b.pageOf doc) ∧ fs'.locate true q = .ok l

theorem Reached.leaves {docs : List (List Name)} {s : Progress} (hreached : Reached b input root fs₀ docs s) :
    b.Leaves fs₀ docs docs s.fs := by
  have hframe := hreached.completed.frame
  refine ⟨hreached.underway.wellFormed, hframe.current, fun l => ?_⟩
  obtain hsame | hplace | ⟨hnone, hdir⟩ := (hframe.change l).same_or_made
  · exact .inl hsame
  · exact .inr (.inl hplace)
  · exact .inr (.inr ⟨hnone, hdir, hreached.completed.directories l hnone hdir⟩)

/-- Where a run stops, directories on the way to one more page may have been made. -/
theorem Batch.Leaves.stops {docs : List (List Name)} (h : b.Leaves fs₀ docs docs fs)
    (hstops : b.Stops fs₀ input root names fs fs' e) : b.Leaves fs₀ docs (docs ++ [names]) fs' := by
  obtain ⟨hwf', hgrows⟩ := hstops.grows h.wellFormed
  refine ⟨hwf', hgrows.current.trans h.current, fun l => ?_⟩
  obtain hsame | hfalse | ⟨hnone, hdir⟩ := (hgrows.change l).same_or_made
  · rw [hsame]
    obtain hkept | ⟨doc, hdoc, hl⟩ | ⟨hnone, hdir, doc, hdoc, q, hq, hl⟩ := h.frame l
    · exact .inl hkept
    · exact .inr (.inl ⟨doc, hdoc, locate_of_grows hgrows hl⟩)
    · exact .inr (.inr ⟨hnone, hdir, doc, List.mem_append_left _ hdoc, q, hq, locate_of_grows hgrows hl⟩)
  · exact hfalse.elim
  · obtain ⟨-, q, hq, hl⟩ := hstops.directories h.wellFormed hnone hdir
    have hmade : ∃ doc ∈ docs ++ [names], ∃ q, q.IsAncestor (b.pageOf doc) ∧ fs'.locate true q = .ok l :=
      ⟨names, List.mem_append_right _ List.mem_cons_self, q, hq, hl⟩
    -- it was not there before the last step, and so it is new unless it is the place of a page
    obtain hkept | ⟨doc, hdoc, hplace⟩ | ⟨-, hold, -⟩ := h.frame l
    · exact .inr (.inr ⟨hkept.symm.trans hnone, hdir, hmade⟩)
    · exact .inr (.inl ⟨doc, hdoc, locate_of_grows hgrows hplace⟩)
    · rw [hnone] at hold
      cases hold

theorem PageStands.of_grows {fs₁ : FileSystem} {kind : DocumentKind} {text : String} {l : Location}
    (h : PageStands b input root fs₀ fs names fs₁ kind text l) (hgrows : Grows (fun _ => False) fs fs') :
    PageStands b input root fs₀ fs' names fs₁ kind text l := by
  obtain ⟨page, r, hhas, hresolve, heq⟩ := h.place
  exact {
    ofKind := h.ofKind
    wellFormed := h.wellFormed
    since := h.since
    later := h.later.trans (hgrows.mono fun _ hfalse => hfalse.elim)
    made := h.made
    prepared := prepare_again h.prepared hgrows
    leads := locate_of_grows hgrows h.leads
    holds := ((hgrows.change l).file_iff not_false).2 h.holds
    place := ⟨page, r, hhas, resolve_of_grows hgrows hresolve, heq⟩ }

/-- A directory that has been made for a page holds it, where the way to the page never leads up. -/
theorem PageStands.below {fs₁ : FileSystem} {kind : DocumentKind} {text : String} {l k : Location} {q : Path}
    (h : Begins b fs₀ input root) (hmem : names ∈ b.documents fs₀ input root)
    (hpage : PageStands b input root fs₀ fs' names fs₁ kind text l)
    (hup : dotDotName ∉ split b.options.outputDir.bytes) (hq : q.IsAncestor (b.pageOf names))
    (hk : fs'.locate true q = .ok k) (hnone : fs₀.get? k = none) : k <+: l := by
  obtain ⟨page, r, hhas, -, -⟩ := hpage.place
  obtain ⟨-, hnames⟩ := h.isName_document hmem
  obtain ⟨hne, hparts⟩ := hhas.isName hnames
  refine prefix_of_ancestor hq hk hpage.leads ?_ ?_
  · rw [hhas.pageOf_eq hnames, split_join _ (areParts_of_isName hne hparts)]
    intro hmem
    obtain hmem | hmem := List.mem_append.1 hmem
    · obtain heq | heq := split_eq_stemParts b.options.outputDir
      · exact hup (heq ▸ hmem)
      · exact hup (heq ▸ List.mem_append_left _ hmem)
    · exact (isName_iff.1 (hparts _ hmem)).2.2.1 rfl
  · -- what stands below a new directory is new, and links are never made
    intro more hmore target hlink
    have hold := ((hpage.since.trans hpage.later).change (k ++ more)).of_link hlink
    rw [h.wf.directory_of_append hmore hold] at hnone
    cases hnone

/-- A run that fails is refused before anything is done, or it stops at an entry. Then the pages of the documents
before it have been made and hold their texts, made from the files of the beginning where the files that the engine
looks at for them are missing or are no pages. Nothing else has changed, but for directories on the way to these pages
and to that of the entry. Those made for a page hold it, if the path of the output directory does not lead up. -/
theorem processDirectory_failed (input : Path) (options : DirectoryOptions) {w w' : World} {e : Error}
    (hwf : w.fs.WellFormed)
    (hdistinct : ∀ s ∈ effectiveExtensions options.scriptExtensions,
      Text.asciiLower s ≠ Text.asciiLower options.outputFormat.extension)
    (hlinks : w.fs.LinklessBelow options.outputDir)
    (hrun : processDirectory Template.engine input options w = (.error e, w')) :
    (RefusedFirst input w e w' ∧ w'.fs = w.fs) ∨
      ∃ root ignored w₁, w.fs.locate true input = .ok root ∧ w.fs.get? root = some .directory ∧
        IgnoreSet.load (input.join IgnoreSet.fileName) w = (.ok ignored, w₁) ∧
        let b : Batch := ⟨Template.engine, options, ignored⟩
        ∃ names fs,
          let done := b.documentsBefore w.fs input root names
          b.Leaves w.fs done done fs ∧ b.Stops w.fs input root names fs w'.fs e ∧
          b.Leaves w.fs done (done ++ [names]) w'.fs ∧
          ∀ doc ∈ done, ∃ fs₁ kind text l, PageStands b input root w.fs w'.fs doc fs₁ kind text l ∧
            (dotDotName ∉ split options.outputDir.bytes → ∀ q k, q.IsAncestor (b.pageOf doc) →
              w'.fs.locate true q = .ok k → w.fs.get? k = none → k <+: l) ∧
            ∀ asked : String → Bool, Asks kind options.toChoices (input.below doc) asked fs₁ →
              (∀ p, layoutLookups options.toChoices asked fs₁ p → fs₁.readText p = .error .notFound ∨
                ∀ k, fs₁.locate true p = .ok k → ¬ b.pages w.fs input root k) →
              b.MadeFrom w.fs input kind doc (layoutLookups options.toChoices asked fs₁) text := by
  obtain ⟨e', he, hrefused⟩ | ⟨root, ignored, w₁, hload, h, docs, s, result, hreached, hends, hresult⟩ :=
    processDirectory_spec Template.engine input options hwf hdistinct hlinks
  · rw [hrun] at he hrefused
    cases he
    exact .inl ⟨hrefused, hrefused.fs_eq⟩
  · rw [hrun] at hends hresult
    have herror : result = .error e := by
      cases result with
      | error e' =>
        cases hresult
        rfl
      | ok pages => cases hresult
    obtain ⟨names, hdone, hstops⟩ := hreached.stops h hends herror
    refine .inr ⟨root, ignored, w₁, h.leads, h.directory, hload, names, s.fs, ?_⟩
    dsimp only
    rw [hdone]
    refine ⟨hreached.leaves, hstops, hreached.leaves.stops hstops, fun doc hdoc => ?_⟩
    obtain ⟨fs₁, kind, text, l, hpage⟩ := hreached.completed.pages doc hdoc
    -- The page stands when the run comes to the failing document, and the work on that one keeps it.
    have hstands := hpage.of_grows (hstops.grows hreached.underway.wellFormed).2
    have hmem : doc ∈ Batch.documents ⟨Template.engine, options, ignored⟩ w.fs input root := by
      rw [hreached.documents]
      exact List.mem_append_left _ hdoc
    refine ⟨fs₁, kind, text, l, hstands, fun hup q k hq hk hnone => hstands.below h hmem hup hq hk hnone, ?_⟩
    exact fun asked hasks haside => hpage.madeFrom h hmem (Batch.spares_engine rfl hasks haside)

/-! ### Two documents with one page -/

namespace Collision

/-- Two scripts in different languages, whose pages have the same place. -/
def files : FileSystem where
  entries := [
    (Collection.named ["w"], .directory),
    (Collection.named ["w", "page.html"], .file (Text.encode Collection.pageTemplate)),
    (Collection.named ["w", "in"], .directory),
    (Collection.named ["w", "in", "a.py"], .file []),
    (Collection.named ["w", "in", "a.rs"], .file [])]
  current := Collection.named ["w"]

def options : DirectoryOptions where
  toChoices := { Choices.none with template := some (Path.ofString "page.html") }
  outputDir := Path.ofString "out"
  scriptExtensions := ["py", "rs"]

def batch : Batch :=
  ⟨Template.engine, options, IgnoreSet.defaults⟩

def withDirectory : FileSystem :=
  files.put (Collection.named ["w", "out"]) .directory

def withPage : FileSystem :=
  withDirectory.put (Collection.named ["w", "out", "a.html"]) (.file (Text.encode "<h1>a</h1>"))

/-- The error names the second document, and the first one in its reason. -/
def collision : Error :=
  .document "in/a.rs" "output 'out/a.html' is already generated from 'in/a.py'"

theorem load_ignored (notices : List Notice) :
    ∃ notices', IgnoreSet.load ((Path.ofString "in").join IgnoreSet.fileName) ⟨files, notices⟩ =
      (.ok IgnoreSet.defaults, ⟨files, notices'⟩) := by
  have htext : files.readText ((Path.ofString "in").join IgnoreSet.fileName) = .error .notFound := by cbv
  exact ⟨_, IgnoreSet.load_of_error htext⟩

theorem processFile_first (notices : List Notice) :
    ∃ notices', batch.processFile [] (Collection.visiting ["a.py"]) ⟨files, notices⟩ =
      (.ok [(Path.ofString "out/a.html", Path.ofString "in/a.py")], ⟨withPage, notices'⟩) := by
  have hmade : files.prepare (batch.target (Collection.visiting ["a.py"]).relative) = (withDirectory, .ok ()) := by cbv
  have hsource : withDirectory.readText (Collection.visiting ["a.py"]).path = .ok "" := by cbv
  have htemplate : withDirectory.readText (Path.ofString "page.html") = .ok Collection.pageTemplate := by cbv
  have hpage : pageText Template.engine .script options.toChoices (Collection.visiting ["a.py"]).path withDirectory =
      .ok "<h1>a</h1>" :=
    pageText_plain rfl hsource htemplate rfl (by decide) (by decide +kernel)
  have hplace : withDirectory.writeLocation (Path.ofString "out/a.html") =
      .ok (Collection.named ["w", "out", "a.html"]) := by cbv
  have hwrite : withDirectory.write (Path.ofString "out/a.html") (Text.encode "<h1>a</h1>") = .ok withPage := by
    rw [FileSystem.write, hplace]
    rfl
  exact @processFile_ok batch [] (Collection.visiting ["a.py"]) .script _ _ _ notices _ (by decide)
    (by decide) rfl hmade hpage hwrite

theorem processAll_files (n : Nat) (notices : List Notice) :
    ∃ notices', batch.processAll (n + 2) [] [Collection.visiting []] ⟨files, notices⟩ =
      (.error collision, ⟨withPage, notices'⟩) := by
  have hstart : nextFile files 7 [Collection.visiting []] = .ok (some (Collection.visiting ["a.py"],
      [Collection.visiting ["a.rs"]])) := by cbv
  have hsecond : nextFile withPage 9 [Collection.visiting ["a.rs"]] =
      .ok (some (Collection.visiting ["a.rs"], [])) := by cbv
  have hmessage : Error.document (Collection.visiting ["a.rs"]).path.display
      ("output '" ++ (batch.target (Collection.visiting ["a.rs"]).relative).display ++
        "' is already generated from '" ++ (Path.ofString "in/a.py").display ++ "'") = collision := by cbv
  have hcollides := @processFile_taken batch [(Path.ofString "out/a.html", Path.ofString "in/a.py")]
    (Collection.visiting ["a.rs"]) .script (Path.ofString "in/a.py") (by decide) (by decide)
    (by decide)
  rw [hmessage] at hcollides
  obtain ⟨notices', hfirst⟩ := processFile_first notices
  refine ⟨notices', ?_⟩
  rw [Batch.processAll_file hstart hfirst, Batch.processAll_failed hsecond (hcollides _)]

theorem linkless : files.Linkless :=
  linkless_of_entries (by decide)

theorem processDirectory_eq (notices : List Notice) :
    ∃ notices', processDirectory Template.engine (Path.ofString "in") options ⟨files, notices⟩ =
      (.error collision, ⟨withPage, notices'⟩) := by
  have hdir : files.isDirectory (Path.ofString "in") = true := by cbv
  obtain ⟨n, hlimit⟩ := @exists_maxFiles 2 (by decide)
  obtain ⟨notices₁, hload⟩ := load_ignored notices
  obtain ⟨notices', hall⟩ := processAll_files n notices₁
  rw [← hlimit] at hall
  exact ⟨notices', processDirectory_of_load hdir hload hall⟩

/-- The run stops at the second script. The page of the first one is there, and nothing else has been made but the
directory that it stands in. -/
theorem processDirectory_collides :
    ∃ w', processDirectory Template.engine (Path.ofString "in") options ⟨files, []⟩ = (.error collision, w') ∧
      w'.fs.read (Path.ofString "out/a.html") = .ok (Text.encode "<h1>a</h1>") ∧
      ∃ root names fs, batch.Stops files (Path.ofString "in") root names fs w'.fs collision ∧
        batch.Leaves files (batch.documentsBefore files (Path.ofString "in") root names)
          (batch.documentsBefore files (Path.ofString "in") root names ++ [names]) w'.fs := by
  obtain ⟨notices, hrun⟩ := processDirectory_eq []
  have hwf : files.WellFormed := ⟨by decide +kernel, by decide +kernel, by decide +kernel⟩
  have hdistinct : ∀ s ∈ effectiveExtensions options.scriptExtensions,
      Text.asciiLower s ≠ Text.asciiLower options.outputFormat.extension := by decide +kernel
  have hread : withPage.read (Path.ofString "out/a.html") = .ok (Text.encode "<h1>a</h1>") := by cbv
  obtain ⟨-, hfs⟩ | ⟨root, ignored, w₁, -, -, hload, names, fs, -, hstops, hleaves, -⟩ :=
    processDirectory_failed (Path.ofString "in") options hwf hdistinct (linkless.below _) hrun
  · have hmissing : files.read (Path.ofString "out/a.html") = .error .notFound := by cbv
    rw [show withPage = files from hfs, hmissing] at hread
    cases hread
  · obtain ⟨notices₁, hnone⟩ := load_ignored []
    rw [hnone] at hload
    cases hload
    exact ⟨_, hrun, hread, root, names, fs, hstops, hleaves⟩

end Collision
end Folio
