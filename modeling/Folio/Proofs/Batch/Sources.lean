import Folio.Proofs.Batch.Failure
import Folio.Proofs.Notices

/-!
# Folio.Proofs.Batch.Sources

The documents of a run, which it only reads.

* `Batch.Reported`: what a run reports: that it reads documents of the beginning, and writes their pages.
* `processDirectory_sources`: a document that has been read is as before, and no page stands there.
* `Overwriting`: a run that writes its page over the document.
-/

namespace Folio

open Folio.Path FileSystem

/-! ### The page of a document -/

/-- The notices on the page of one document, which may be reported as read if it can be. -/
def Notice.IsAbout (source target : Path) (readable : Prop) : Notice → Prop
  | .reading _ p => p = source ∧ readable
  | .writing p => p = target
  | .generated p => p = target
  | _ => True

/-- A document is reported as read only if it can be, after the directories for its page have been made. -/
theorem writePage_notices (b : Batch) (kind : DocumentKind) (source target : Path) (w : World) :
    Notice.Extends (Notice.IsAbout source target (∃ text, (w.fs.prepare target).1.readText source = .ok text))
      w.notices (b.writePage kind source target w).2.notices := by
  rw [Batch.writePage_eq]
  cases hprepare : w.fs.prepare target with
  | mk fs₁ made =>
    cases made with
    | error cause => exact .refl _ w.notices
    | ok done =>
      dsimp only
      cases hread : fs₁.readText source with
      | error e =>
        have hfails : Action.readText source { w with fs := fs₁ } = (.error (.io e), { w with fs := fs₁ }) := by
          rw [Action.readText, hread]
        rw [Content.produce, Action.bind_eq, Action.bind_eq, hfails]
        exact .refl _ w.notices
      | ok text =>
        let about := Notice.IsAbout source target (∃ text', Except.ok text = (Except.ok text' : Except IoError String))
        have hreading : about (.reading kind source) := ⟨rfl, text, rfl⟩
        have hrender : ∀ content, (renderToFile b.renderer b.options.template b.options.layoutRoots content
            target).Reports about :=
          fun content => reports_renderToFile _ _ _ content (fun _ => trivial) (fun _ => trivial) rfl
        have hgenerated : about (.generated target) := rfl
        exact ((reports_produce kind _ hreading).bind fun content =>
          (hrender content).bind fun _ => Action.reports_report hgenerated) { w with fs := fs₁ }

theorem writePage_reads {b : Batch} {kind : DocumentKind} {source target : Path} {w w' : World}
    (hrun : b.writePage kind source target w = (.ok (), w')) :
    .reading kind source ∈ w'.notices ∧ .writing target ∈ w'.notices := by
  rw [Batch.writePage_eq] at hrun
  split at hrun
  · cases hrun
  · obtain ⟨content, w₁, hproduce, hrun⟩ := Action.of_bind_ok hrun
    obtain ⟨_, w₂, hrender, hgenerated⟩ := Action.of_bind_ok hrun
    obtain ⟨text, w₃, -, hproduce⟩ := Action.of_bind_ok hproduce
    obtain ⟨_, w₄, hreading, hcontent⟩ := Action.of_bind_ok hproduce
    obtain ⟨page, w₅, -, hwrite⟩ := Action.of_bind_ok hrender
    obtain ⟨_, w₆, hwriting, hwrite⟩ := Action.of_bind_ok hwrite
    have hread := (Action.reports_ofExcept (P := fun _ => True) _).mem hcontent (Action.mem_of_report hreading)
    have hwritten := (Action.reports_writeText (P := fun _ => True) _ _).mem hwrite (Action.mem_of_report hwriting)
    have hkept : ∀ n ∈ w₂.notices, n ∈ w'.notices := fun n =>
      (Action.reports_report (P := fun _ => True) trivial).mem hgenerated
    refine ⟨hkept _ ?_, hkept _ hwritten⟩
    exact (reports_renderToFile (P := fun _ => True) _ _ _ _ (fun _ => trivial) (fun _ => trivial) trivial).mem
      hrender hread

/-! ### Documents -/

/-- What a run reports: it reads documents, where they were in the beginning, and writes their pages. -/
def Batch.Reported (b : Batch) (fs : FileSystem) (input : Path) (root : Location) : Notice → Prop
  | .reading _ source => ∃ names ∈ b.documents fs input root,
      source = input.below names ∧ fs.locate true source = .ok (root ++ names)
  | .writing page => ∃ names ∈ b.documents fs input root, page = b.pageOf names
  | .generated page => ∃ names ∈ b.documents fs input root, page = b.pageOf names
  | _ => True

variable {b : Batch} {input : Path} {root : Location} {fs₀ fs fs' : FileSystem}

theorem Underway.notices (h : Begins b fs₀ input root) {s : Progress} (hs : Underway b input root fs₀ s) {p : Pending}
    {rest : List Pending} (hnext : s.next = .ok (some (p, rest))) (notices : List Notice) :
    Notice.Extends (b.Reported fs₀ input root) notices (b.processFile s.written p ⟨s.fs, notices⟩).2.notices := by
  obtain ⟨-, hp, -, -⟩ := hs.comesNext h hnext
  rw [Batch.processFile]
  cases hskip : b.skips p.relative with
  | true =>
    rw [if_pos rfl]
    exact .concat trivial
  | false =>
    rw [if_neg Bool.false_ne_true]
    cases hkind : b.kind? p.path with
    | none => exact .concat trivial
    | some kind =>
      dsimp only
      cases hsource : s.written.source? (b.target p.relative) with
      | some first => exact .refl _ notices
      | none =>
        dsimp only
        have hwrite := writePage_notices b kind p.path (b.target p.relative) ⟨s.fs, notices⟩
        have hdoc := hp.isDocument hskip (by rw [hkind, Option.isSome_some])
        have hmem : p.names ∈ b.documents fs₀ input root := hs.documents (hs.mem_documents h hnext hdoc)
        -- This document is one of the beginning, and it is read from the place where it stood then.
        have hpage : Notice.Extends (b.Reported fs₀ input root) notices
            (b.writePage kind p.path (b.target p.relative) ⟨s.fs, notices⟩).2.notices := by
          refine hwrite.mono fun n hn => ?_
          cases n with
          | reading kind source =>
            obtain ⟨rfl, text, htext⟩ := hn
            rw [hp.path] at htext ⊢
            obtain ⟨bytes, hread⟩ := read_of_readText htext
            obtain ⟨l, hl, -⟩ := locate_of_read hread
            have hgrows := hs.grows.trans (prepare_grows hs.wellFormed (b.target p.relative)).2
            exact ⟨p.names, hmem, rfl, (h.locate_document hgrows hmem hl).2⟩
          | writing page => exact ⟨p.names, hmem, hn⟩
          | generated page => exact ⟨p.names, hmem, hn⟩
          | _ => trivial
        rw [Action.bind_eq]
        split
        · next heq =>
          rw [heq] at hpage
          exact hpage
        · next heq =>
          rw [heq] at hpage
          exact hpage

theorem processAll_notices (h : Begins b fs₀ input root) {n : Nat} {written : Written} {pending : List Pending}
    {w : World} (hs : Underway b input root fs₀ ⟨written, pending, w.fs⟩) :
    Notice.Extends (b.Reported fs₀ input root) w.notices (b.processAll n written pending w).2.notices := by
  induction n generalizing written pending w with
  | zero => exact .refl _ w.notices
  | succ n ih =>
    rw [Batch.processAll, Action.ask_bind]
    cases hnext : nextFile w.fs (w.fs.entries.length + 2) pending with
    | error cause => exact .refl _ w.notices
    | ok next =>
      cases next with
      | none => exact .refl _ w.notices
      | some found =>
        obtain ⟨p, rest⟩ := found
        have hfirst := hs.notices h hnext w.notices
        have hfile := b.processFile_handles written p w
        dsimp only at hfirst ⊢
        rw [Action.bind_eq]
        cases hrun : b.processFile written p w with
        | mk result w₁ =>
          rw [hrun] at hfirst hfile
          cases result with
          | error e => exact hfirst
          | ok written₁ =>
            obtain ⟨hs₁, -⟩ := hs.file h hnext hfile
            exact hfirst.trans (ih hs₁)

/-- However a run ends, only pages have been written and directories made. -/
theorem Reached.grows_end (h : Begins b fs₀ input root) {docs : List (List Name)} {s : Progress}
    (hreached : Reached b input root fs₀ docs s) {result : Except Error Written} (hends : b.Ends s result fs') :
    fs'.WellFormed ∧ Grows (b.pages fs₀ input root) fs₀ fs' := by
  have hs := hreached.underway
  cases result with
  | ok written =>
    cases hends with
    | finished => exact ⟨hs.wellFormed, hs.grows⟩
  | error e =>
    obtain ⟨names, -, hstops⟩ := hreached.stops h hends rfl
    obtain ⟨hwf', hgrows⟩ := hstops.grows hs.wellFormed
    exact ⟨hwf', hs.grows.trans (hgrows.mono fun _ hfalse => hfalse.elim)⟩

/-- A run reads documents of the beginning only, and writes their pages, whether it succeeds or not. A document that
has been read is a file that is as before, and no page that has been written is there. -/
theorem processDirectory_sources (renderer : Renderer) (input : Path) (options : DirectoryOptions) {w w' : World}
    {result : Except Error (List Path)} (hwf : w.fs.WellFormed)
    (hdistinct : ∀ s ∈ effectiveExtensions options.scriptExtensions,
      Text.asciiLower s ≠ Text.asciiLower options.outputFormat.extension)
    (hlinks : w.fs.LinklessBelow options.outputDir)
    (hrun : processDirectory renderer input options w = (result, w')) :
    ∃ more, w'.notices = w.notices ++ more ∧ ∀ kind source, .reading kind source ∈ more →
      ∃ l bytes, w.fs.locate true source = .ok l ∧ w.fs.get? l = some (.file bytes) ∧
        w'.fs.locate true source = .ok l ∧ w'.fs.get? l = some (.file bytes) ∧
        ∀ page, .writing page ∈ more → w'.fs.locate true page ≠ .ok l := by
  obtain ⟨e, -, hrefused⟩ | ⟨root, ignored, w₁, hroot, hdir, hload, hfs, hworld, -⟩ :=
    processDirectory_cases renderer input options w
  · rw [hrun] at hrefused
    obtain ⟨more, hmore, hnone⟩ := hrefused.notices
    exact ⟨more, hmore, fun kind source hmem => by cases hnone _ hmem⟩
  · have h : Begins ⟨renderer, options, ignored⟩ w.fs input root := ⟨hwf, hroot, hdir, hdistinct, hlinks⟩
    obtain ⟨docs, s, hreached, hends⟩ := processAll_spec h hfs
    obtain ⟨hwf', hgrows⟩ := hreached.grows_end h hends
    rw [← hworld, hrun] at hwf' hgrows
    obtain ⟨first, hfirst, hnone⟩ := reports_load (input.join IgnoreSet.fileName) w
    obtain ⟨second, hsecond, hreported⟩ := @processAll_notices _ _ _ _ h maxFiles [] [⟨input, []⟩] w₁
      (hfs.symm ▸ Underway.start h)
    rw [hload] at hfirst
    rw [← hworld, hrun] at hsecond
    refine ⟨first ++ second, by rw [hsecond, hfirst, List.append_assoc], fun kind source hmem => ?_⟩
    have hsource : .reading kind source ∈ second := by
      refine (List.mem_append.1 hmem).resolve_left fun hearly => ?_
      cases hnone _ hearly
    obtain ⟨names, hdoc, rfl, hl⟩ := hreported _ hsource
    obtain ⟨bytes, hfile⟩ := h.file_document hdoc
    -- no page is put where a document is: neither does the document change, nor has a page been written there
    refine ⟨root ++ names, bytes, hl, hfile, locate_of_grows hgrows hl,
      ((hgrows.change _).file_iff (h.not_pages hdoc)).2 hfile, fun page hpage hplace => ?_⟩
    have hwriting : .writing page ∈ second := by
      refine (List.mem_append.1 hpage).resolve_left fun hearly => ?_
      cases hnone _ hearly
    obtain ⟨other, hother, rfl⟩ := hreported _ hwriting
    exact h.not_pages hdoc ⟨other, hother, leads_of_grows hwf' hgrows hplace⟩

/-- A run that puts its pages into the directory it reads. -/
theorem Collection.processDirectory_reads :
    ∃ w', processDirectory Template.engine (Path.ofString "in") options ⟨files, []⟩ =
        (.ok [Path.ofString "docs/sub/a.html", Path.ofString "docs/sub/sub/b.html"], w') ∧
      ∀ kind source, .reading kind source ∈ w'.notices →
        ∃ l bytes, files.locate true source = .ok l ∧ files.get? l = some (.file bytes) ∧
          w'.fs.locate true source = .ok l ∧ w'.fs.get? l = some (.file bytes) ∧
          ∀ page, .writing page ∈ w'.notices → w'.fs.locate true page ≠ .ok l := by
  obtain ⟨notices, hrun⟩ := processDirectory_eq
  obtain ⟨more, hmore, hsources⟩ := processDirectory_sources Template.engine (Path.ofString "in") options begins.wf
    begins.distinct begins.links hrun
  rw [List.nil_append] at hmore
  exact ⟨_, hrun, hmore ▸ hsources⟩

/-! ### A page over its document -/

namespace Overwriting

/-- Pages are put where the documents are, and one of them has the name of its page. -/
def files : FileSystem where
  entries := [
    (Collection.named ["w"], .directory),
    (Collection.named ["w", "in"], .directory),
    (Collection.named ["w", "in", "a.html"], .file (Text.encode "<p>notes</p>\n"))]
  current := Collection.named ["w"]

def options : DirectoryOptions where
  toChoices := Choices.none
  outputDir := Path.ofString "in"
  scriptExtensions := ["html"]

def batch : Batch :=
  ⟨Template.engine, options, IgnoreSet.defaults⟩

def page : String :=
  "<pre><code class=\"language-html\">&lt;p&gt;notes&lt;/p&gt;\n</code></pre>\n\n\n"

def withPage : FileSystem :=
  files.put (Collection.named ["w", "in", "a.html"]) (.file (Text.encode page))

theorem processFile_document (notices : List Notice) :
    ∃ notices', batch.processFile [] (Collection.visiting ["a.html"]) ⟨files, notices⟩ =
        (.ok [(Path.ofString "in/a.html", Path.ofString "in/a.html")], ⟨withPage, notices'⟩) ∧
      .reading .script (Path.ofString "in/a.html") ∈ notices' ∧ .writing (Path.ofString "in/a.html") ∈ notices' := by
  have hskip : batch.skips (Collection.visiting ["a.html"]).relative = false := by decide
  have hkind : batch.kind? (Collection.visiting ["a.html"]).path = some .script := by decide
  have hmade : files.prepare (batch.target (Collection.visiting ["a.html"]).relative) = (files, .ok ()) := by cbv
  have hread : files.readText (Collection.visiting ["a.html"]).path = .ok "<p>notes</p>\n" := by cbv
  have hpage : pageText Template.engine .script options.toChoices (Collection.visiting ["a.html"]).path files =
      .ok page := by
    rw [pageText_of_readText _ _ _ hread]
    decide
  have hplace : files.writeLocation (Path.ofString "in/a.html") = .ok (Collection.named ["w", "in", "a.html"]) := by
    cbv
  have hwrite : files.write (Path.ofString "in/a.html") (Text.encode page) = .ok withPage := by
    rw [FileSystem.write, hplace]
    rfl
  obtain ⟨notices', hrun⟩ := @writePage_ok batch .script (Collection.visiting ["a.html"]).path
    (batch.target (Collection.visiting ["a.html"]).relative) _ _ _ notices _ hmade hpage hwrite
  refine ⟨notices', ?_, writePage_reads hrun⟩
  rw [Batch.processFile, hskip, if_neg Bool.false_ne_true, hkind]
  exact Action.bind_of_ok _ hrun

/-- The document is read, and then its page is written over it. Processed by itself, it is refused. -/
theorem processDirectory_overwrites :
    files.WellFormed ∧ files.Linkless ∧
    files.locate true (Path.ofString "in/a.html") = .ok (Collection.named ["w", "in", "a.html"]) ∧
    files.get? (Collection.named ["w", "in", "a.html"]) = some (.file (Text.encode "<p>notes</p>\n")) ∧
    (processDocument Template.engine .script (Path.ofString "in/a.html")
      ⟨options.toChoices, some (Path.ofString "in/a.html")⟩ ⟨files, []⟩).1 =
        .error (.document "in/a.html" "output would overwrite the input") ∧
    ∃ w', processDirectory Template.engine (Path.ofString "in") options ⟨files, []⟩ =
        (.ok [Path.ofString "in/a.html"], w') ∧
      .reading .script (Path.ofString "in/a.html") ∈ w'.notices ∧
      .writing (Path.ofString "in/a.html") ∈ w'.notices ∧
      w'.fs.get? (Collection.named ["w", "in", "a.html"]) = some (.file (Text.encode page)) ∧
      Text.encode page ≠ Text.encode "<p>notes</p>\n" := by
  have hsame : files.sameFile (DocumentOptions.outputFor ⟨options.toChoices, some (Path.ofString "in/a.html")⟩
      (Path.ofString "in/a.html")) (Path.ofString "in/a.html") = true := by cbv
  have hrefused := congrArg Prod.fst (@processDocument_same Template.engine .script _ _ ⟨files, []⟩ hsame)
  have hdisplay : (Path.ofString "in/a.html").display = "in/a.html" := by decide +kernel
  rw [hdisplay] at hrefused
  have hdir : files.isDirectory (Path.ofString "in") = true := by cbv
  have htext : files.readText ((Path.ofString "in").join IgnoreSet.fileName) = .error .notFound := by cbv
  have hload := IgnoreSet.load_of_error (w := ⟨files, []⟩) htext
  have hnext : nextFile files 5 [Collection.visiting []] = .ok (some (Collection.visiting ["a.html"], [])) := by cbv
  obtain ⟨notices, hfile, hreading, hwriting⟩ :=
    processFile_document [.noIgnoreFile ((Path.ofString "in").join IgnoreSet.fileName)]
  refine ⟨⟨by decide +kernel, by decide +kernel, by decide +kernel⟩, linkless_of_entries (by decide +kernel), by cbv,
    rfl, hrefused, ⟨withPage, notices⟩, processDirectory_single hdir hload hnext hfile, hreading, hwriting, rfl, ?_⟩
  decide +kernel

end Overwriting
end Folio
