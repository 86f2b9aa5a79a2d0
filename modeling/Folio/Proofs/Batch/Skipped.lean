import Folio.Proofs.IgnoreFile
import Folio.Proofs.Batch.Stems
import Folio.Proofs.Glob.Reading

/-!
# Folio.Proofs.Batch.Skipped

What a run over a directory passes over.

* `IgnoreSet.Closes`: a pattern matches a directory, and the set has the same pattern with two asterisks behind a slash.
* `IgnoreSet.Hides`: a document that is ignored itself, or stands below such a directory. `Hides.ignores` says that
  it is ignored itself in both cases.
* `Sweeps`: the documents of the beginning are done or still to come; `Sweeps.file` is the step, `Sweeps.runs` the
  whole way.
* `processDirectory_skips`: a run makes no page of a document that is hidden, and passes over no other one.
* `Drafts`: a directory that a pattern matches, and its document gets a page.
-/

namespace Folio

open Folio.Path FileSystem

/-! ### What is hidden -/

namespace IgnoreSet

variable {set : IgnoreSet} {names : List Name} {front : String}

/-- A directory below which everything is ignored: a pattern matches it, with or without two asterisks behind a slash,
and the set has the pattern with them. -/
def Closes (set : IgnoreSet) (dir : Path) : Prop :=
  ∃ front : String, IsValid front ∧ front.toList.getLast? ≠ some '/' ∧
    (∃ glob ∈ set.globs, Glob.parse (front ++ "/**") = .ok glob) ∧ (Matches front dir ∨ Matches (front ++ "/**") dir)

/-- A document that is ignored, or stands below a directory where everything is. -/
def Hides (set : IgnoreSet) (names : List Name) : Prop :=
  set.ignores ⟨unsplit names⟩ = true ∨
    ∃ dir below, names = dir ++ below ∧ dir ≠ [] ∧ below ≠ [] ∧ set.Closes ⟨unsplit dir⟩

/-- An ignore file closes the directories that one of its patterns matches, if it has the pattern with the asterisks. -/
theorem closes_of_lists {text : String} (h : ofText (some text) = .ok set) (hlists : Lists text (front ++ "/**"))
    (hvalid : IsValid front) (hend : front.toList.getLast? ≠ some '/') {dir : Path}
    (hdir : Matches front dir ∨ Matches (front ++ "/**") dir) : set.Closes dir :=
  ⟨front, hvalid, hend,
    exists_of_compileAll (compileAll_of_ofText h) _ (List.mem_append_right _ (mem_patterns.2 hlists)), hdir⟩

theorem Closes.ignores {dir below : List Name} (h : set.Closes ⟨unsplit dir⟩) (hdir : dir ≠ []) (hbelow : below ≠ []) :
    set.ignores ⟨unsplit (dir ++ below)⟩ = true := by
  obtain ⟨front, ⟨glob, hglob⟩, hend, ⟨glob', hmem, hglob'⟩, hmatches⟩ := h
  obtain ⟨more, hmore, hcontinues⟩ := Glob.parse_append hglob hend
  cases hglob'.symm.trans hmore
  have heither : glob.matchesPath ⟨unsplit dir⟩ = true ∨ glob'.matchesPath ⟨unsplit dir⟩ = true := by
    refine hmatches.imp ?_ ?_
    · rintro ⟨other, hother, hpath⟩
      cases hglob.symm.trans hother
      exact hpath
    · rintro ⟨other, hother, hpath⟩
      cases hglob'.symm.trans hother
      exact hpath
  rw [IgnoreSet.ignores, List.any_eq_true, unsplit_append hdir hbelow]
  exact ⟨glob', hmem, hcontinues.matches heither (unsplit below)⟩

/-- Whatever is hidden is ignored itself. -/
theorem Hides.ignores (h : set.Hides names) : set.ignores ⟨unsplit names⟩ = true := by
  obtain hself | ⟨dir, below, rfl, hdir, hbelow, hcloses⟩ := h
  · exact hself
  · exact hcloses.ignores hdir hbelow

end IgnoreSet

/-! ### What a run comes past -/

variable {b : Batch} {input : Path} {root : Location} {fs₀ fs fs' : FileSystem} {docs : List (List Name)}
  {s s' : Progress}

/-- A file that is still to come is so after anything has been made. -/
theorem mem_remaining_of_grows {pages : Location → Prop} (hwf : fs.WellFormed) (hwf' : fs'.WellFormed)
    (h : Grows pages fs fs') {pending : List Pending} {names : List Name} (hmem : names ∈ remaining fs root pending) :
    names ∈ remaining fs' root pending := by
  obtain ⟨hfile, hpending⟩ := mem_remaining.1 hmem
  obtain ⟨bytes, hbytes⟩ := (mem_filesBelow hwf).1 hfile
  exact mem_remaining.2 ⟨(mem_filesBelow hwf').2 ((h.change _).file hbytes), hpending⟩

/-- A run that began with the files `fs₀` has made the pages of the documents `docs`, and nothing else but directories.
The documents of the beginning are among them, or they are still to come. -/
structure Sweeps (b : Batch) (input : Path) (root : Location) (fs₀ : FileSystem) (docs : List (List Name))
    (s : Progress) : Prop where
  visited : Visited b input root docs s
  frame : Grows (b.IsPlace s.fs docs) fs₀ s.fs
  covers : ∀ names ∈ b.documents fs₀ input root, names ∈ docs ∨ names ∈ remaining s.fs root s.pending

theorem Sweeps.start (hwf : fs.WellFormed) (hroot : fs.locate true input = .ok root)
    (hdir : fs.get? root = some .directory) : Sweeps b input root fs [] (Progress.start input fs) := by
  refine ⟨Visited.start hwf hroot hdir, Grows.refl _ fs, fun names hmem => .inr ?_⟩
  exact mem_remaining.2 ⟨(List.mem_filter.1 hmem).1, _, List.mem_singleton_self _, List.nil_prefix⟩

/-- The work on one file makes its page and nothing else, and the other documents are still to come. -/
theorem Sweeps.file (h : Sweeps b input root fs₀ docs s) {p : Pending} {rest : List Pending}
    (hnext : s.next = .ok (some (p, rest))) {written : Written} (hfile : b.Handles s.written p s.fs (.ok written) fs) :
    Sweeps b input root fs₀ (docs ++ if b.isDocument input p.names then [p.names] else []) ⟨written, rest, fs⟩ := by
  have hvisited := h.visited.file hnext hfile
  obtain ⟨hremaining, hp, -, -⟩ := nextFile_spec h.visited.wellFormed h.visited.leads hnext h.visited.stands
  obtain ⟨hno, rfl, rfl⟩ | ⟨hdoc, rfl, -, fs₁, kind, text, l, hpage⟩ := hfile.file h.visited.wellFormed hp
  · rw [hno, if_neg Bool.false_ne_true, List.append_nil] at hvisited ⊢
    refine ⟨hvisited, h.frame, fun names hmem => (h.covers names hmem).imp_right fun hlater => ?_⟩
    rw [hremaining] at hlater
    obtain rfl | hlater := List.mem_cons.1 hlater
    · have hdoc := (List.mem_filter.1 hmem).2
      rw [hno] at hdoc
      cases hdoc
    · exact hlater
  · -- the page may take the place of a file that is still to come, but it leaves a file there
    rw [hdoc, if_pos rfl] at hvisited ⊢
    have hgrows := hpage.step_grows
    have hplace : b.IsPlace fs (docs ++ [p.names]) l :=
      ⟨p.names, List.mem_append_right _ List.mem_cons_self, locate_of_grows hpage.wrote.grows hpage.wrote.leads⟩
    have hearlier : ∀ k, b.IsPlace s.fs docs k → b.IsPlace fs (docs ++ [p.names]) k := fun k ⟨doc, hmem, hk⟩ =>
      ⟨doc, List.mem_append_left _ hmem, locate_of_grows hgrows hk⟩
    refine ⟨hvisited, (h.frame.mono hearlier).trans (hgrows.mono fun k hk => hk.symm ▸ hplace), fun names hmem => ?_⟩
    obtain hdone | hlater := h.covers names hmem
    · exact .inl (List.mem_append_left _ hdone)
    · rw [hremaining] at hlater
      obtain rfl | hlater := List.mem_cons.1 hlater
      · exact .inl (List.mem_append_right _ List.mem_cons_self)
      · exact .inr (mem_remaining_of_grows h.visited.wellFormed hvisited.wellFormed hgrows hlater)

theorem Sweeps.runs (h : Sweeps b input root fs₀ docs s) {k : Nat} (hruns : b.Runs k s s') :
    ∃ more, Sweeps b input root fs₀ (docs ++ more) s' := by
  induction hruns generalizing docs with
  | refl => exact ⟨[], by rwa [List.append_nil]⟩
  | file hnext hfile _ ih =>
    obtain ⟨more, hmore⟩ := ih (h.file hnext hfile)
    exact ⟨_ ++ more, by rwa [← List.append_assoc]⟩

/-- No page is made where a run ends, only directories on the way to one. -/
theorem Batch.Ends.grows {result : Except Error Written} (h : b.Ends s result fs) (hwf : s.fs.WellFormed) :
    Grows (fun _ => False) s.fs fs := by
  cases h with
  | finished => exact Grows.refl _ s.fs
  | unvisited => exact Grows.refl _ s.fs
  | failed _ hfile =>
    cases hfile with
    | taken => exact Grows.refl _ s.fs
    | failed _ _ _ hmakes =>
      rw [hmakes.eq_of_error]
      exact (prepare_grows hwf _).2

theorem Sweeps.frame_of_grows (h : Sweeps b input root fs₀ docs s) (hgrows : Grows (fun _ => False) s.fs fs) :
    Grows (b.IsPlace fs docs) fs₀ fs := by
  have hplaces : ∀ l, b.IsPlace s.fs docs l → b.IsPlace fs docs l := fun l ⟨doc, hmem, hl⟩ =>
    ⟨doc, hmem, locate_of_grows hgrows hl⟩
  exact (h.frame.mono hplaces).trans (hgrows.mono fun _ hfalse => hfalse.elim)

theorem Sweeps.finished (h : Sweeps b input root fs₀ docs s) {written : Written} (hends : b.Ends s (.ok written) fs) :
    written.reverse.map Prod.fst = docs.map b.pageOf ∧ b.documents fs₀ input root ⊆ docs := by
  obtain ⟨hnext, rfl, -⟩ := hends.of_ok
  have hnone : remaining s.fs root s.pending = [] :=
    nextFile_spec h.visited.wellFormed h.visited.leads hnext h.visited.stands
  refine ⟨?_, fun names hmem => ?_⟩
  · rw [h.visited.written, List.reverse_reverse, List.map_map]
    rfl
  · have hcovered := h.covers names hmem
    rw [hnone] at hcovered
    exact hcovered.resolve_right List.not_mem_nil

theorem Batch.Sees.not_hides {names : List Name} (h : b.Sees input names) : ¬ b.ignored.Hides names := by
  intro hhides
  have hdoc := h.document
  rw [Batch.isDocument, Batch.skips, hhides.ignores, Bool.or_true] at hdoc
  cases hdoc

/-- A run over a directory is refused before anything is done, or it makes the pages of some documents. None of them is
ignored, or stands below a directory where everything is. A run that succeeds makes the pages of all documents of the
beginning that are not ignored themselves, whatever matches the directories that they stand in. -/
theorem processDirectory_skips (renderer : Renderer) (input : Path) (options : DirectoryOptions) {w : World}
    (hwf : w.fs.WellFormed) :
    let run := processDirectory renderer input options w
    (∃ e, run.1 = .error e ∧ RefusedFirst input w e run.2 ∧ run.2.fs = w.fs) ∨
      ∃ root ignored w₁, w.fs.locate true input = .ok root ∧
        IgnoreSet.load (input.join IgnoreSet.fileName) w = (.ok ignored, w₁) ∧
        let b : Batch := ⟨renderer, options, ignored⟩
        ∃ k s docs, b.Runs k (Progress.start input w.fs) s ∧ Visited b input root docs s ∧
          Grows (b.IsPlace run.2.fs docs) w.fs run.2.fs ∧ (∀ names, ignored.Hides names → names ∉ docs) ∧
          ∀ pages, run.1 = .ok pages → pages = docs.map b.pageOf ∧
            ∀ names bytes, w.fs.get? (root ++ names) = some (.file bytes) →
              (b.kind? (input.below names)).isSome = true → (⟨unsplit names⟩ : Path) ≠ IgnoreSet.fileName →
              ignored.ignores ⟨unsplit names⟩ = false → names ∈ docs := by
  intro run
  obtain ⟨e, he, hrefused⟩ | ⟨root, ignored, w₁, hroot, hdir, hload, k, s, result, hruns, hends, hresult⟩ :=
    processDirectory_ends renderer input options hwf
  · exact .inl ⟨e, he, hrefused, hrefused.fs_eq⟩
  · obtain ⟨docs, hsweeps⟩ := (Sweeps.start hwf hroot hdir).runs hruns
    rw [List.nil_append] at hsweeps
    -- Behind the last file that is handled, no page is made any more.
    have hlast : Grows (fun _ => False) s.fs run.2.fs := hends.grows hsweeps.visited.wellFormed
    refine .inr ⟨root, ignored, w₁, hroot, hload, k, s, docs, hruns, hsweeps.visited, hsweeps.frame_of_grows hlast,
      fun names hhides hmem => (hsweeps.visited.sees names hmem).not_hides hhides, fun pages hpages => ?_⟩
    rw [show run.1 = _ from hresult] at hpages
    cases result with
    | error e => cases hpages
    | ok written =>
      obtain ⟨hmade, hall⟩ := hsweeps.finished hends
      refine ⟨(Except.ok.inj hpages).symm.trans hmade, fun names bytes hfile hkind hname hpath => hall ?_⟩
      refine List.mem_filter.2 ⟨(mem_filesBelow hwf).2 ⟨bytes, hfile⟩, ?_⟩
      rw [Batch.isDocument, Batch.skips, hpath, hkind, Bool.or_false, Bool.and_true, Bool.not_eq_true',
        beq_eq_false_iff_ne]
      exact hname

/-! ### A directory that is matched -/

namespace Drafts

/-- The first line matches a directory, and the second one everything below another one. -/
def files : FileSystem where
  entries := [
    (Collection.named ["w"], .directory),
    (Collection.named ["w", "in"], .directory),
    (Collection.named ["w", "in", ".litdocignore"], .file (Text.encode "drafts\nnotes/**\n")),
    (Collection.named ["w", "in", "drafts"], .directory),
    (Collection.named ["w", "in", "drafts", "a.rs"], .file (Text.encode "x")),
    (Collection.named ["w", "in", "notes"], .directory),
    (Collection.named ["w", "in", "notes", "b.rs"], .file (Text.encode "x"))]
  current := Collection.named ["w"]

def options : DirectoryOptions where
  toChoices := Choices.none
  outputDir := Path.ofString "out"
  scriptExtensions := []

def ignored : IgnoreSet :=
  (IgnoreSet.ofText (some "drafts\nnotes/**\n")).toOption.getD ⟨[]⟩

def batch : Batch :=
  ⟨Template.engine, options, ignored⟩

def page : String :=
  "<pre><code class=\"language-rs\">x</code></pre>\n\n\n"

def withDirectories : FileSystem :=
  (files.put (Collection.named ["w", "out"]) .directory).put (Collection.named ["w", "out", "drafts"]) .directory

def withPage : FileSystem :=
  withDirectories.put (Collection.named ["w", "out", "drafts", "a.html"]) (.file (Text.encode page))

theorem load_ignored : IgnoreSet.load ((Path.ofString "in").join IgnoreSet.fileName) ⟨files, []⟩ =
    (.ok ignored, ⟨files, []⟩) := by
  have htext : files.readText ((Path.ofString "in").join IgnoreSet.fileName) = .ok "drafts\nnotes/**\n" := by cbv
  rw [IgnoreSet.load_of_text htext]
  rfl

theorem processFile_draft (notices : List Notice) :
    ∃ notices', batch.processFile [] (Collection.visiting ["drafts", "a.rs"]) ⟨files, notices⟩ =
      (.ok [(Path.ofString "out/drafts/a.html", Path.ofString "in/drafts/a.rs")], ⟨withPage, notices'⟩) := by
  have hmade : files.prepare (batch.target (Collection.visiting ["drafts", "a.rs"]).relative) =
      (withDirectories, .ok ()) := by cbv
  have hsource : withDirectories.readText (Collection.visiting ["drafts", "a.rs"]).path = .ok "x" := by cbv
  have hpage : pageText Template.engine .script options.toChoices (Collection.visiting ["drafts", "a.rs"]).path
      withDirectories = .ok page := by
    rw [pageText_of_readText _ _ _ hsource]
    decide
  have hplace : withDirectories.writeLocation (Path.ofString "out/drafts/a.html") =
      .ok (Collection.named ["w", "out", "drafts", "a.html"]) := by cbv
  have hwrite : withDirectories.write (Path.ofString "out/drafts/a.html") (Text.encode page) = .ok withPage := by
    rw [FileSystem.write, hplace]
    rfl
  exact @processFile_ok batch [] (Collection.visiting ["drafts", "a.rs"]) .script _ _ _ notices _ (by cbv) (by decide)
    rfl hmade hpage hwrite

theorem processAll_files (n : Nat) (notices : List Notice) :
    ∃ notices', batch.processAll (n + 4) [] [Collection.visiting []] ⟨files, notices⟩ =
      (.ok [(Path.ofString "out/drafts/a.html", Path.ofString "in/drafts/a.rs")], ⟨withPage, notices'⟩) := by
  have hstart : nextFile files 9 [Collection.visiting []] = .ok (some (Collection.visiting [".litdocignore"],
      [Collection.visiting ["drafts"], Collection.visiting ["notes"]])) := by cbv
  have hdraft : nextFile files 9 [Collection.visiting ["drafts"], Collection.visiting ["notes"]] =
      .ok (some (Collection.visiting ["drafts", "a.rs"], [Collection.visiting ["notes"]])) := by cbv
  have hnote : nextFile withPage 12 [Collection.visiting ["notes"]] =
      .ok (some (Collection.visiting ["notes", "b.rs"], [])) := by cbv
  have hend : nextFile withPage 12 [] = .ok none := rfl
  obtain ⟨notices₁, h₁⟩ := @processFile_passed batch (Collection.visiting [".litdocignore"]) (by decide) [] files
    notices
  obtain ⟨notices₂, h₂⟩ := processFile_draft notices₁
  obtain ⟨notices₃, h₃⟩ := @processFile_passed batch (Collection.visiting ["notes", "b.rs"]) (by cbv)
    [(Path.ofString "out/drafts/a.html", Path.ofString "in/drafts/a.rs")] withPage notices₂
  refine ⟨notices₃, ?_⟩
  rw [Batch.processAll_file hstart h₁, Batch.processAll_file hdraft h₂, Batch.processAll_file hnote h₃,
    Batch.processAll_none hend]

theorem processDirectory_eq :
    ∃ notices, processDirectory Template.engine (Path.ofString "in") options ⟨files, []⟩ =
      (.ok [Path.ofString "out/drafts/a.html"], ⟨withPage, notices⟩) := by
  have hdir : files.isDirectory (Path.ofString "in") = true := by cbv
  obtain ⟨n, hlimit⟩ := @exists_maxFiles 4 (by decide)
  obtain ⟨notices, hall⟩ := processAll_files n []
  rw [← hlimit] at hall
  exact ⟨notices, processDirectory_of_load hdir load_ignored hall⟩

/-- The document below the second directory is passed over, and the one below the first is not. -/
theorem notes_skipped :
    files.WellFormed ∧ ignored.Closes ⟨unsplit (Collection.named ["notes"])⟩ ∧
      ∃ w' docs, processDirectory Template.engine (Path.ofString "in") options ⟨files, []⟩ =
          (.ok (docs.map batch.pageOf), w') ∧ Grows (batch.IsPlace w'.fs docs) files w'.fs ∧
        Collection.named ["notes", "b.rs"] ∉ docs ∧ Collection.named ["drafts", "a.rs"] ∈ docs := by
  have hwf : files.WellFormed := ⟨by decide +kernel, by decide +kernel, by decide +kernel⟩
  have hcloses : ignored.Closes ⟨unsplit (Collection.named ["notes"])⟩ := by
    have hset : IgnoreSet.ofText (some "drafts\nnotes/**\n") = .ok ignored := rfl
    have hlists : IgnoreSet.Lists "drafts\nnotes/**\n" "notes/**" := IgnoreSet.mem_patterns.1 (by decide)
    have hmatches : IgnoreSet.Matches "notes" ⟨unsplit (Collection.named ["notes"])⟩ := ⟨_, rfl, by cbv⟩
    exact @IgnoreSet.closes_of_lists _ "notes" _ hset hlists ⟨_, rfl⟩ (by decide) _ (.inl hmatches)
  obtain ⟨notices, hrun⟩ := processDirectory_eq
  obtain ⟨e, he, -⟩ | ⟨root, set, w₁, hroot, hload, k, s, docs, -, -, hframe, hhidden, hpages⟩ :=
    processDirectory_skips Template.engine (Path.ofString "in") options (w := ⟨files, []⟩) hwf
  · rw [hrun] at he
    cases he
  · rw [hrun] at hframe hpages
    cases load_ignored.symm.trans hload
    have hin : files.locate true (Path.ofString "in") = .ok (Collection.named ["w", "in"]) := by cbv
    cases hin.symm.trans hroot
    obtain ⟨hmade, hall⟩ := hpages _ rfl
    refine ⟨hwf, hcloses, _, docs, hmade ▸ hrun, hframe, hhidden _ (.inr ?_), ?_⟩
    · exact ⟨Collection.named ["notes"], Collection.named ["b.rs"], rfl, by decide, by decide, hcloses⟩
    · exact hall (Collection.named ["drafts", "a.rs"]) (Text.encode "x") rfl (by decide) (by decide) (by cbv)

/-- The first directory is matched, and the page of its document is written. -/
theorem drafts_published :
    IgnoreSet.load ((Path.ofString "in").join IgnoreSet.fileName) ⟨files, []⟩ = (.ok ignored, ⟨files, []⟩) ∧
      files.get? (Collection.named ["w", "in", "drafts"]) = some .directory ∧
      ignored.ignores (Path.ofString "drafts") = true ∧
      ∃ w', processDirectory Template.engine (Path.ofString "in") options ⟨files, []⟩ =
          (.ok [targetPath (Path.ofString "drafts/a.rs") options.outputDir options.outputFormat], w') ∧
        w'.fs.get? (Collection.named ["w", "out", "drafts", "a.html"]) = some (.file (Text.encode page)) := by
  obtain ⟨notices, hrun⟩ := processDirectory_eq
  have htarget : targetPath (Path.ofString "drafts/a.rs") options.outputDir options.outputFormat =
      Path.ofString "out/drafts/a.html" := by decide
  rw [htarget]
  exact ⟨load_ignored, rfl, by cbv, _, hrun, rfl⟩

end Drafts
end Folio
